import PriorityFabric.Evaluate

/-!
What the collection of evidence computes.

The loops over assignments and ancestors are given in closed form: each scanned
assignment contributes a candidate, a refusal or nothing, and the evidence of a tier
is the concatenation.  A candidate passed every binding check.
-/

namespace PriorityFabric.UsableEvidence

open PriorityFabric.Lib.LittleEndian
open PriorityFabric.Basics
open PriorityFabric.Ident
open PriorityFabric.Model
open PriorityFabric.State
open PriorityFabric.Evaluate

/-- Everything the binding checks ask of an assignment. -/
structure Bound (image : StateImage) (entry : AssignmentEntry) : Prop where
  active : entry.active = true
  granted : ∃ authority,
    image.authority[Incarnation.mk entry.provenance.publisher entry.provenance.boot]? =
      some authority ∧ authority.state = .granted
  epoch : entry.provenance.epoch = image.epoch
  subject : (image.subjects[entry.assignment.subject]?).map (·.definition.generation) =
    some entry.assignment.subjectGeneration
  scope : (image.scopes[entry.assignment.scope]?).map (·.definition.generation) =
    some entry.assignment.scopeGeneration
  cls : (image.classes[entry.assignment.cls]?).map (·.definition.generation) =
    some entry.assignment.classGeneration
  policy : ∀ policy, entry.assignment.policy = some policy →
    (image.policies[policy]?).map (·.definition.generation) =
      some entry.assignment.policyGeneration
  visible : classVisible image entry.assignment.scope entry.assignment.cls = true

theorem except_bind_eq_ok {ε α β : Type} {x : Except ε α} {f : α → Except ε β} {b : β} :
    (x >>= f) = .ok b ↔ ∃ a, x = .ok a ∧ f a = .ok b := by
  cases x <;> simp [Bind.bind, Except.bind]

theorem rejectIf_eq_ok {bad : Prop} [Decidable bad] {evidence : RejectedEvidence} {u : Unit} :
    rejectIf bad evidence = .ok u ↔ ¬ bad := by
  unfold rejectIf
  split <;> simp_all

theorem rejectIf_eq_error {bad : Prop} [Decidable bad] {evidence refusal : RejectedEvidence} :
    rejectIf bad evidence = .error refusal ↔ bad ∧ evidence = refusal := by
  unfold rejectIf
  split <;> simp_all

theorem stillGranted_iff {image : StateImage} {entry : AssignmentEntry} :
    stillGranted image entry = true ↔ ∃ authority,
      image.authority[Incarnation.mk entry.provenance.publisher entry.provenance.boot]? =
        some authority ∧ authority.state = .granted := by
  unfold stillGranted
  split
  · rename_i hnone
    simp [hnone]
  · rename_i authority hsome
    simp [hsome]

theorem classBinding_eq_ok_iff {image : StateImage} {via : SubjectId}
    {entry : AssignmentEntry} {u : Unit} :
    classBinding image via entry = .ok u ↔
      (image.classes[entry.assignment.cls]?).map (·.definition.generation) =
        some entry.assignment.classGeneration := by
  unfold classBinding
  split
  · rename_i hnone
    simp [hnone]
  · rename_i node hsome
    rw [rejectIf_eq_ok]
    simp [hsome]

theorem policyBinding_eq_ok_iff {image : StateImage} {via : SubjectId}
    {entry : AssignmentEntry} {u : Unit} :
    policyBinding image via entry = .ok u ↔ ∀ policy, entry.assignment.policy = some policy →
      (image.policies[policy]?).map (·.definition.generation) =
        some entry.assignment.policyGeneration := by
  unfold policyBinding
  split
  · rename_i hnone
    simp [hnone]
  · rename_i policy hsome
    rw [rejectIf_eq_ok]
    simp [hsome]

theorem checkBinding_eq_ok_iff {image : StateImage} {via : SubjectId}
    {entry : AssignmentEntry} :
    checkBinding image via entry = .ok () ↔ Bound image entry := by
  simp only [checkBinding, authorityBinding, generationBinding, except_bind_eq_ok, rejectIf_eq_ok,
    classBinding_eq_ok_iff, policyBinding_eq_ok_iff, exists_const, Bool.not_eq_false,
    ne_eq, not_not, stillGranted_iff]
  constructor
  · rintro ⟨⟨hactive, hgranted, hepoch⟩, hsubject, hscope, hcls, hpolicy, hvisible⟩
    exact ⟨hactive, hgranted, hepoch, hsubject, hscope, hcls, hpolicy, hvisible⟩
  · rintro ⟨hactive, hgranted, hepoch, hsubject, hscope, hcls, hpolicy, hvisible⟩
    exact ⟨⟨hactive, hgranted, hepoch⟩, hsubject, hscope, hcls, hpolicy, hvisible⟩

section Collecting

variable (image : StateImage) (scopes : List PolicyScopeId) (subject : SubjectId)
  (distance : Nat)

/-- The verdict on an assignment that may speak for the query: the level it is bound to
and the outcome of the binding checks. -/
def verdictOn (entry : AssignmentEntry) : Option (Nat × Except RejectedEvidence Unit) :=
  if distance > 0 ∧ entry.assignment.kind ≠ .inherited then none
  else (scopes.findIdx? (· = entry.assignment.scope)).map fun level =>
    (level, checkBinding image subject entry)

def candidateOf (entry : AssignmentEntry) : Option Candidate :=
  match verdictOn image scopes subject distance entry with
  | some (level, .ok ()) =>
      some { level, entry, viaSubject := subject, inheritanceDistance := distance }
  | _ => none

def refusalOf (entry : AssignmentEntry) : Option RejectedEvidence :=
  match verdictOn image scopes subject distance entry with
  | some (_, .error rejected) => some rejected
  | _ => none

theorem judge_eq (evidence : Evidence) (entry : AssignmentEntry) :
    judge image scopes subject distance evidence entry =
      { accepted := evidence.accepted ++
          (candidateOf image scopes subject distance entry).toList
        rejected := evidence.rejected ++
          (refusalOf image scopes subject distance entry).toList } := by
  unfold judge candidateOf refusalOf verdictOn
  split
  · simp
  · cases scopes.findIdx? (· = entry.assignment.scope) with
    | none => simp
    | some level =>
        cases checkBinding image subject entry with
        | error rejected => simp
        | ok u => simp

variable {image scopes subject distance} in
/-- A candidate's assignment propagates, is bound to its level of the chain, and passed
every binding check. -/
theorem candidateOf_eq_some_iff {entry : AssignmentEntry} {candidate : Candidate} :
    candidateOf image scopes subject distance entry = some candidate ↔
      (0 < distance → entry.assignment.kind = .inherited) ∧
      scopes.findIdx? (· = entry.assignment.scope) = some candidate.level ∧
      Bound image entry ∧ candidate.entry = entry ∧ candidate.viaSubject = subject ∧
      candidate.inheritanceDistance = distance := by
  unfold candidateOf verdictOn
  obtain ⟨level, entry', via, distance'⟩ := candidate
  have hbound : Bound image entry ↔ checkBinding image subject entry = .ok () :=
    checkBinding_eq_ok_iff.symm
  rw [hbound]
  by_cases hskip : distance > 0 ∧ entry.assignment.kind ≠ .inherited
  · rw [if_pos hskip]
    simp only [reduceCtorEq, false_iff]
    rintro ⟨hkind, -⟩
    exact hskip.2 (hkind hskip.1)
  · have hkind : 0 < distance → entry.assignment.kind = .inherited := by
      intro hpos
      by_contra hne
      exact hskip ⟨hpos, hne⟩
    rw [if_neg hskip]
    cases scopes.findIdx? (· = entry.assignment.scope) with
    | none => simp
    | some found =>
        cases checkBinding image subject entry with
        | error rejected => simp
        | ok u =>
            simp only [Option.map_some, Option.some.injEq, Candidate.mk.injEq, true_and]
            constructor
            · rintro ⟨rfl, rfl, rfl, rfl⟩
              exact ⟨hkind, rfl, rfl, rfl, rfl⟩
            · rintro ⟨-, rfl, rfl, rfl, rfl⟩
              exact ⟨rfl, rfl, rfl, rfl⟩

def entriesOf (ids : List PriorityAssignmentId) : List AssignmentEntry :=
  ids.filterMap (image.assignments[·]?)

def budgetRefusal (entry : AssignmentEntry) : RejectedEvidence :=
  { entry, viaSubject := subject
    code := text "evidence_scan_budget_exhausted"
    detail := text "subject '" ++ subject.value ++
      text "' holds more assignments than the evaluation budget of " ++
      decimal image.limits.maxQuerySteps }

/-- What a list of entries contributes within a budget. -/
def within (budget : Nat) (entries : List AssignmentEntry) : Evidence where
  accepted := (entries.take budget).filterMap (candidateOf image scopes subject distance)
  rejected := (entries.take budget).filterMap (refusalOf image scopes subject distance) ++
    ((entries.drop budget).head?.map (budgetRefusal image subject)).toList

def followedBy (first second : Evidence) : Evidence where
  accepted := first.accepted ++ second.accepted
  rejected := first.rejected ++ second.rejected

theorem followedBy_empty (evidence : Evidence) : followedBy evidence {} = evidence := by
  simp [followedBy]

theorem empty_followedBy (evidence : Evidence) : followedBy {} evidence = evidence := by
  simp [followedBy]

theorem filterMap_cons_toList {α β : Type} (f : α → Option β) (a : α) (l : List α) :
    (a :: l).filterMap f = (f a).toList ++ l.filterMap f := by
  rw [List.filterMap_cons]
  cases f a <;> rfl

theorem collectLoop_eq (ids : List PriorityAssignmentId) (steps : Nat) (evidence : Evidence)
    (hsteps : steps ≤ image.limits.maxQuerySteps) :
    collectLoop image scopes subject distance steps ids evidence =
      followedBy evidence (within image scopes subject distance
        (image.limits.maxQuerySteps - steps) (entriesOf image ids)) := by
  induction ids generalizing steps evidence with
  | nil => simp [collectLoop, entriesOf, within, followedBy]
  | cons id ids ih =>
      unfold collectLoop
      cases hfound : image.assignments[id]? with
      | none =>
          rw [ih steps evidence hsteps]
          simp [entriesOf, hfound]
      | some entry =>
          have hentries : entriesOf image (id :: ids) = entry :: entriesOf image ids := by
            simp [entriesOf, hfound]
          rw [hentries]
          by_cases hbudget : steps + 1 > image.limits.maxQuerySteps
          · have hzero : image.limits.maxQuerySteps - steps = 0 := by omega
            simp only [if_pos hbudget, hzero]
            simp [within, followedBy, budgetRefusal]
          · have hsucc : image.limits.maxQuerySteps - steps =
                image.limits.maxQuerySteps - (steps + 1) + 1 := by omega
            simp only [if_neg hbudget]
            rw [ih (steps + 1) _ (by omega), judge_eq, hsucc]
            simp only [within, followedBy, List.take_succ_cons, List.drop_succ_cons,
              filterMap_cons_toList, List.append_assoc]

def gathered : Evidence :=
  within image scopes subject distance image.limits.maxQuerySteps
    (entriesOf image (image.assignmentsBySubject.getD subject []))

theorem collectForSubject_eq (evidence : Evidence) :
    collectForSubject image scopes subject distance evidence =
      followedBy evidence (gathered image scopes subject distance) := by
  unfold collectForSubject gathered
  rw [Std.ExtTreeMap.getD_eq_getD_getElem?]
  cases image.assignmentsBySubject[subject]? with
  | none => simp [entriesOf, within, followedBy]
  | some bucket =>
      simp only [Option.getD_some]
      rw [collectLoop_eq image scopes subject distance bucket 0 evidence (Nat.zero_le _),
        Nat.sub_zero]

end Collecting

section Tiers

variable (image : StateImage) (scopes : List PolicyScopeId)

def contributes (evidence : Evidence) : Bool :=
  !evidence.accepted.isEmpty || !evidence.rejected.isEmpty

/-- The evidence of the first ancestor that contributes any. -/
def ancestorTier (ancestors : List (SubjectId × Nat)) : Evidence :=
  ((ancestors.map fun ancestor => gathered image scopes ancestor.1 ancestor.2).find?
    contributes).getD {}

theorem collectAncestors_eq (ancestors : List (SubjectId × Nat)) (evidence : Evidence) :
    collectAncestors image scopes ancestors evidence =
      followedBy evidence (ancestorTier image scopes ancestors) := by
  induction ancestors generalizing evidence with
  | nil => simp [collectAncestors, ancestorTier, followedBy]
  | cons ancestor ancestors ih =>
      obtain ⟨ancestor, distance⟩ := ancestor
      simp only [collectAncestors, collectForSubject_eq]
      by_cases hany : contributes (gathered image scopes ancestor distance) = true
      · have htier : ancestorTier image scopes ((ancestor, distance) :: ancestors) =
            gathered image scopes ancestor distance := by
          simp [ancestorTier, hany]
        rw [htier, if_pos]
        simp only [followedBy, List.length_append, gt_iff_lt, Nat.lt_add_right_iff_pos,
          List.length_pos_iff]
        simpa [contributes, List.isEmpty_iff] using hany
      · have hnothing : gathered image scopes ancestor distance = {} := by
          simp only [contributes, Bool.or_eq_true, Bool.not_eq_true', List.isEmpty_eq_false_iff,
            not_or, not_not, ne_eq] at hany
          generalize gathered image scopes ancestor distance = evidence at hany
          cases evidence
          simp_all
        have htier : ancestorTier image scopes ((ancestor, distance) :: ancestors) =
            ancestorTier image scopes ancestors := by
          simp [ancestorTier, hany]
        rw [hnothing, followedBy_empty, ih, htier, if_neg (by simp)]

theorem collectEvidence_eq (subject : SubjectId) :
    collectEvidence image scopes subject =
      if (gathered image scopes subject 0).accepted.isEmpty then
        (subjectAncestors image subject).map fun ancestors =>
          followedBy (gathered image scopes subject 0) (ancestorTier image scopes ancestors)
      else .ok (gathered image scopes subject 0) := by
  simp only [collectEvidence, collectForSubject_eq, empty_followedBy, collectAncestors_eq]

end Tiers

end PriorityFabric.UsableEvidence
