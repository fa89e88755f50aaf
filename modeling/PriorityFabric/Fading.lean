import PriorityFabric.Views

/-!
Of the provenance of an assignment, a decision depends on the publisher, its boot and the
epoch.  The sequence numbers and times in it show up in notes and explanations only.
-/

namespace PriorityFabric.Fading

open PriorityFabric.Lib.LittleEndian
open PriorityFabric.Basics
open PriorityFabric.Ident
open PriorityFabric.Model
open PriorityFabric.State
open PriorityFabric.Evaluate
open PriorityFabric.UsableEvidence
open PriorityFabric.Decisions
open PriorityFabric.Holdings
open PriorityFabric.Views

/-- The entry with what a decision depends on of its provenance. -/
def faded (entry : AssignmentEntry) : AssignmentEntry :=
  { entry with
    provenance :=
      { publisher := entry.provenance.publisher
        boot := entry.provenance.boot
        epoch := entry.provenance.epoch } }

def fadedCandidate (candidate : Candidate) : Candidate :=
  { candidate with entry := faded candidate.entry }

def fadedRefusal (refusal : RejectedEvidence) : RejectedEvidence :=
  { refusal with entry := faded refusal.entry }

def fadedEvidence (evidence : Evidence) : Evidence where
  accepted := evidence.accepted.map fadedCandidate
  rejected := evidence.rejected.map fadedRefusal

def fadedImage (image : StateImage) : StateImage :=
  { image with assignments := image.assignments.map fun _ entry => faded entry }

section Checks

variable (image : StateImage) (via : SubjectId) (entry : AssignmentEntry)

theorem mapError_rejectIf (bad : Prop) [Decidable bad] (refusal : RejectedEvidence) :
    (rejectIf bad refusal).mapError fadedRefusal = rejectIf bad (fadedRefusal refusal) := by
  unfold rejectIf
  split <;> rfl

theorem authorityBinding_faded :
    authorityBinding image via (faded entry) =
      (authorityBinding image via entry).mapError fadedRefusal := by
  simp only [authorityBinding, mapError_bind, mapError_rejectIf]
  rfl

theorem classBinding_faded :
    classBinding image via (faded entry) =
      (classBinding image via entry).mapError fadedRefusal := by
  unfold classBinding
  have hcls : (faded entry).assignment.cls = entry.assignment.cls := rfl
  rw [hcls]
  cases image.classes[entry.assignment.cls]? with
  | none => rfl
  | some node =>
      simp only [mapError_rejectIf]
      rfl

theorem policyBinding_faded :
    policyBinding image via (faded entry) =
      (policyBinding image via entry).mapError fadedRefusal := by
  unfold policyBinding
  have hpolicy : (faded entry).assignment.policy = entry.assignment.policy := rfl
  rw [hpolicy]
  cases entry.assignment.policy with
  | none => rfl
  | some policy =>
      simp only [mapError_rejectIf]
      rfl

theorem checkBinding_faded :
    checkBinding image via (faded entry) =
      (checkBinding image via entry).mapError fadedRefusal := by
  simp only [checkBinding, generationBinding, mapError_bind, mapError_rejectIf,
    authorityBinding_faded, classBinding_faded, policyBinding_faded]
  rfl

end Checks

section Evidence

variable (image : StateImage) (scopes : List PolicyScopeId) (subject : SubjectId)
  (distance : Nat)

theorem verdictOn_faded (entry : AssignmentEntry) :
    verdictOn image scopes subject distance (faded entry) =
      (verdictOn image scopes subject distance entry).map fun verdict =>
        (verdict.1, verdict.2.mapError fadedRefusal) := by
  unfold verdictOn
  have hassignment : (faded entry).assignment = entry.assignment := rfl
  rw [hassignment, checkBinding_faded]
  split
  · rfl
  · rw [Option.map_map]
    rfl

theorem candidateOf_faded (entry : AssignmentEntry) :
    candidateOf image scopes subject distance (faded entry) =
      (candidateOf image scopes subject distance entry).map fadedCandidate := by
  unfold candidateOf
  rw [verdictOn_faded]
  cases verdictOn image scopes subject distance entry with
  | none => rfl
  | some verdict =>
      obtain ⟨level, outcome⟩ := verdict
      cases outcome <;> rfl

theorem refusalOf_faded (entry : AssignmentEntry) :
    refusalOf image scopes subject distance (faded entry) =
      (refusalOf image scopes subject distance entry).map fadedRefusal := by
  unfold refusalOf
  rw [verdictOn_faded]
  cases verdictOn image scopes subject distance entry with
  | none => rfl
  | some verdict =>
      obtain ⟨level, outcome⟩ := verdict
      cases outcome <;> rfl

theorem within_faded (budget : Nat) (entries : List AssignmentEntry) :
    within image scopes subject distance budget (entries.map faded) =
      fadedEvidence (within image scopes subject distance budget entries) := by
  simp only [within, fadedEvidence, ← List.map_take, ← List.map_drop, List.filterMap_map,
    Function.comp_def, candidateOf_faded, refusalOf_faded, List.map_append, List.map_filterMap,
    List.head?_map, Option.map_map, Evidence.mk.injEq, true_and]
  congr 1
  cases (entries.drop budget).head? <;> rfl

theorem heldBy_fadedImage :
    heldBy (fadedImage image) subject = (heldBy image subject).map faded := by
  unfold heldBy entriesOf
  rw [List.map_filterMap]
  refine List.filterMap_congr fun id _ => ?_
  exact Std.ExtTreeMap.getElem?_map

theorem overlaid_fadedImage : overlaid image (fadedImage image) = fadedImage image := rfl

theorem gathered_fadedImage :
    gathered (fadedImage image) scopes subject distance =
      fadedEvidence (gathered image scopes subject distance) := by
  rw [← overlaid_fadedImage, gathered_overlaid, heldBy_fadedImage, within_faded]
  rfl

end Evidence

section Collected

variable (image : StateImage) (scopes : List PolicyScopeId) (subject : SubjectId)

theorem contributes_faded (evidence : Evidence) :
    contributes (fadedEvidence evidence) = contributes evidence := by
  simp [contributes, fadedEvidence]

theorem followedBy_faded (first second : Evidence) :
    followedBy (fadedEvidence first) (fadedEvidence second) =
      fadedEvidence (followedBy first second) := by
  simp [followedBy, fadedEvidence]

theorem ancestorTier_fadedImage (ancestors : List (SubjectId × Nat)) :
    ancestorTier (fadedImage image) scopes ancestors =
      fadedEvidence (ancestorTier image scopes ancestors) := by
  unfold ancestorTier
  have hmap : ancestors.map (fun ancestor =>
      gathered (fadedImage image) scopes ancestor.1 ancestor.2) =
      (ancestors.map fun ancestor => gathered image scopes ancestor.1 ancestor.2).map
        fadedEvidence := by
    simp only [gathered_fadedImage, List.map_map, Function.comp_def]
  have hcontributes : contributes ∘ fadedEvidence = contributes := funext contributes_faded
  rw [hmap, List.find?_map, hcontributes]
  cases (ancestors.map fun ancestor =>
    gathered image scopes ancestor.1 ancestor.2).find? contributes <;> rfl

theorem collectEvidence_fadedImage :
    collectEvidence (fadedImage image) scopes subject =
      (collectEvidence image scopes subject).map fadedEvidence := by
  rw [collectEvidence_eq, collectEvidence_eq, gathered_fadedImage]
  have hempty : (fadedEvidence (gathered image scopes subject 0)).accepted.isEmpty =
      (gathered image scopes subject 0).accepted.isEmpty := by simp [fadedEvidence]
  have hancestors : subjectAncestors (fadedImage image) subject =
      subjectAncestors image subject := by
    rw [← overlaid_fadedImage, subjectAncestors_overlaid]
  rw [hempty, hancestors]
  split
  · cases subjectAncestors image subject with
    | error e => rfl
    | ok ancestors =>
        simp only [Except.map, ancestorTier_fadedImage, followedBy_faded]
  · rfl

theorem displacesTarget_faded (accepted : List Candidate) (candidate : Candidate) :
    displacesTarget (accepted.map fadedCandidate) (fadedCandidate candidate) =
      displacesTarget accepted candidate := by
  unfold displacesTarget
  have hdisplaces : (fadedCandidate candidate).entry.assignment.displaces =
      candidate.entry.assignment.displaces := rfl
  rw [hdisplaces]
  cases candidate.entry.assignment.displaces with
  | none => rfl
  | some target =>
      simp only [List.any_map, Function.comp_def]
      rfl

theorem exceptionCheck_faded (accepted : List Candidate) (candidate : Candidate) :
    exceptionCheck (accepted.map fadedCandidate) (fadedCandidate candidate) =
      (exceptionCheck accepted candidate).mapError fadedRefusal := by
  unfold exceptionCheck
  have hdisplaces : (fadedCandidate candidate).entry.assignment.displaces =
      candidate.entry.assignment.displaces := rfl
  rw [hdisplaces, displacesTarget_faded]
  cases candidate.entry.assignment.displaces with
  | none =>
      simp only [mapError_rejectIf]
      rfl
  | some target =>
      simp only [mapError_rejectIf]
      rfl

theorem filterExceptions_faded (evidence : Evidence) :
    filterExceptions (fadedEvidence evidence) = fadedEvidence (filterExceptions evidence) := by
  have hok (x : Except RejectedEvidence Unit) : (x.mapError fadedRefusal).isOk = x.isOk := by
    cases x <;> rfl
  simp only [filterExceptions, fadedEvidence, List.filter_map, Function.comp_def,
    exceptionCheck_faded, hok, List.filterMap_map, List.map_append, List.map_filterMap,
    Evidence.mk.injEq, true_and, List.append_cancel_left_eq]
  refine List.filterMap_congr fun candidate _ => ?_
  cases exceptionCheck evidence.accepted candidate <;> rfl

end Collected

def fadedVerdict (verdict : Verdict) : Verdict :=
  { verdict with
    winner := verdict.winner.map fadedCandidate
    losers := verdict.losers.map fadedCandidate }

def fadedPlaced (placed : Placed) : Placed := (fadedCandidate placed.1, placed.2)

section Verdicts

variable (image : StateImage) (query : PriorityQuery) (scope : PolicyScopeId)

theorem higherPrecedence_faded (first : Placed) (winning : List Placed) :
    higherPrecedence image (fadedPlaced first) (winning.map fadedPlaced) =
      fadedPlaced (higherPrecedence image first winning) := by
  unfold higherPrecedence
  induction winning generalizing first with
  | nil => rfl
  | cons placed winning ih =>
      simp only [List.map_cons, List.foldl_cons]
      rw [← ih]
      congr 1
      have hcls (p : Placed) : (fadedPlaced p).1.entry.assignment.cls =
          p.1.entry.assignment.cls := rfl
      simp only [hcls]
      cases image.classes[placed.1.entry.assignment.cls]? with
      | none => rfl
      | some node =>
          cases image.classes[first.1.entry.assignment.cls]? with
          | none => rfl
          | some leader =>
              simp only
              split <;> rfl

theorem assignmentIdOrder_faded (first : Placed) (winning : List Placed) :
    assignmentIdOrder (fadedPlaced first) (winning.map fadedPlaced) =
      fadedPlaced (assignmentIdOrder first winning) := by
  unfold assignmentIdOrder
  induction winning generalizing first with
  | nil => rfl
  | cons placed winning ih =>
      simp only [List.map_cons, List.foldl_cons]
      rw [← ih]
      congr 1
      have hid (p : Placed) : (fadedPlaced p).1.entry.assignment.id =
          p.1.entry.assignment.id := rfl
      simp only [hid]
      split <;> rfl

theorem settleConflict_faded (first : Placed) (winning : List Placed) :
    settleConflict image query scope (fadedPlaced first) (winning.map fadedPlaced) =
      fadedVerdict (settleConflict image query scope first winning) := by
  have hfst : (winning.map fadedPlaced).map (·.1) =
      (winning.map (·.1)).map fadedCandidate := by
    simp only [List.map_map]
    rfl
  have hrest (position : Nat) : ((winning.map fadedPlaced).filter (·.2 ≠ position)).map (·.1) =
      ((winning.filter (·.2 ≠ position)).map (·.1)).map fadedCandidate := by
    simp only [List.filter_map, List.map_map]
    rfl
  unfold settleConflict
  simp only [hfst, higherPrecedence_faded, assignmentIdOrder_faded]
  by_cases hdenied : query.strictConflicts = true ∨
      (effectiveConflictMode image scope).mode = .deny
  · simp only [if_pos hdenied]
    rfl
  · simp only [if_neg hdenied]
    by_cases hhigher : (effectiveConflictMode image scope).mode = .higherPrecedence
    · simp only [if_pos hhigher]
      have hposition : (fadedPlaced (higherPrecedence image first winning)).2 =
          (higherPrecedence image first winning).2 := rfl
      rw [hposition, hrest]
      rfl
    · simp only [if_neg hhigher]
      have hposition : (fadedPlaced (assignmentIdOrder first winning)).2 =
          (assignmentIdOrder first winning).2 := rfl
      rw [hposition, hrest]
      rfl

theorem settle_faded (first : Candidate) (others : List Candidate) :
    settle image query scope (fadedCandidate first) (others.map fadedCandidate) =
      fadedVerdict (settle image query scope first others) := by
  unfold settle
  have hany : (others.map fadedCandidate).any
      (·.entry.assignment.cls ≠ (fadedCandidate first).entry.assignment.cls) =
        others.any (·.entry.assignment.cls ≠ first.entry.assignment.cls) := by
    rw [List.any_map]
    rfl
  have hzip : (fadedCandidate first :: others.map fadedCandidate).zipIdx =
      (first :: others).zipIdx.map fadedPlaced := by
    rw [← List.map_cons, List.zipIdx_map]
    rfl
  rw [hany, hzip]
  split
  · exact settleConflict_faded image query scope (first, 0) _
  · rfl

end Verdicts

/-- What a decision says, without notes, explanation and the image it was made on. -/
structure Essence where
  outcome : Outcome
  authoritative : Bool
  cls : PriorityClassId
  classGeneration : Generation
  precedence : PrecedenceRank
  reasonCode : Bytes
  resolution : Bytes
  conflicts : List Bytes

def essence (decision : PriorityDecision) : Essence where
  outcome := decision.outcome
  authoritative := decision.authoritative
  cls := decision.cls
  classGeneration := decision.classGeneration
  precedence := decision.precedence
  reasonCode := decision.reasonCode
  resolution := decision.resolution
  conflicts := decision.conflicts

theorem essence_of_unstamped {decision decision' : PriorityDecision}
    (h : unstamped decision' = unstamped decision) : essence decision' = essence decision := by
  have hessence := congrArg essence h
  exact hessence

section Decided

variable (image : StateImage) (query : PriorityQuery) (scope : PolicyScopeId)
  {decision decision' : PriorityDecision}

theorem essence_fallbackDecision (h : essence decision' = essence decision)
    (rejected : List RejectedEvidence) :
    essence (fallbackDecision image query (rejected.map fadedRefusal) decision') =
      essence (fallbackDecision image query rejected decision) := by
  simp only [essence, Essence.mk.injEq] at h ⊢
  unfold fallbackDecision
  cases rejected with
  | cons first rest =>
      have hany : ((first :: rest).map fadedRefusal).any (·.authorityRelated) =
          (first :: rest).any (·.authorityRelated) := by
        rw [List.any_map]
        rfl
      simp only [List.map_cons] at hany ⊢
      rw [hany]
      simp only [h, and_self]
  | nil =>
      simp only [List.map_nil]
      split
      · simp only [h, and_self]
      · split
        · simp only [h, and_self]
        · simp only [h, and_self]

theorem essence_uniqueOutcome (h : essence decision' = essence decision) (winner : Candidate)
    (displaced : List Candidate) :
    essence (uniqueOutcome query scope (fadedCandidate winner) (displaced.map fadedCandidate)
        decision') =
      essence (uniqueOutcome query scope winner displaced decision) := by
  simp only [essence, Essence.mk.injEq] at h ⊢
  unfold uniqueOutcome
  have hempty : (displaced.map fadedCandidate).isEmpty = displaced.isEmpty := by simp
  have hdistance : (fadedCandidate winner).inheritanceDistance = winner.inheritanceDistance := rfl
  simp only [hempty, hdistance]
  split
  · simp only [h, and_self]
  · split
    · simp only [h, and_self]
    · simp only [h, and_self]

theorem essence_outcomeOf (h : essence decision' = essence decision) (first : Candidate)
    (others displaced : List Candidate) (verdict : Verdict) :
    essence (outcomeOf query scope decision' (fadedCandidate first) (others.map fadedCandidate)
        (displaced.map fadedCandidate) (fadedVerdict verdict)) =
      essence (outcomeOf query scope decision first others displaced verdict) := by
  obtain ⟨conflict, winner, losers, resolution⟩ := verdict
  have hconflicts : (fadedCandidate first :: others.map fadedCandidate).map conflictText =
      (first :: others).map conflictText := by
    rw [← List.map_cons, List.map_map]
    rfl
  cases winner with
  | none =>
      simp only [essence, Essence.mk.injEq] at h ⊢
      cases conflict <;>
        simp only [outcomeOf, fadedVerdict, conflictOutcome, hconflicts, h, Option.map_none,
          Option.isSome_none, Bool.false_eq_true, if_false, and_self]
  | some winner =>
      cases conflict with
      | false => exact essence_uniqueOutcome query scope h winner displaced
      | true =>
          simp only [essence, Essence.mk.injEq] at h ⊢
          simp only [outcomeOf, fadedVerdict, conflictOutcome, hconflicts, h, Option.map_some,
            Option.isSome_some, if_true, and_self]

theorem essence_namedBy (h : essence decision' = essence decision) (winner : Option Candidate) :
    essence (namedBy image decision' (winner.map fadedCandidate)) =
      essence (namedBy image decision winner) := by
  cases winner with
  | none => exact h
  | some winner =>
      simp only [essence, Essence.mk.injEq] at h ⊢
      simp only [namedBy, Option.map_some, nameClass]
      have hcls : (fadedCandidate winner).entry.assignment.cls =
          winner.entry.assignment.cls := rfl
      simp only [hcls]
      split
      · simp only [h, and_self]
      · simp only [h, and_self]

theorem essence_decideAt (h : essence decision' = essence decision) (scopes : List PolicyScopeId)
    (deciding : Nat) (first : Candidate) (others displaced : List Candidate)
    (builder builder' : ChainBuilder) :
    essence (decideAt image query scopes deciding (fadedCandidate first)
        (others.map fadedCandidate) (displaced.map fadedCandidate) builder' decision') =
      essence (decideAt image query scopes deciding first others displaced builder
        decision) := by
  rw [decideAt_eq, decideAt_eq, settle_faded]
  exact essence_namedBy image (essence_outcomeOf query _ h first others displaced _) _

theorem essence_concluded (admitted : Admitted) (evidence : Evidence) :
    essence (concluded image query admitted (fadedEvidence evidence)) =
      essence (concluded image query admitted evidence) := by
  have hdeciding : decidingLevel image admitted.scopes (fadedEvidence evidence).accepted =
      decidingLevel image admitted.scopes evidence.accepted := by
    simp only [decidingLevel, authoritativeLevel, fadedEvidence, List.map_map]
    rfl
  have hfilter (keep : Nat → Bool) : (fadedEvidence evidence).accepted.filter (keep ·.level) =
      (evidence.accepted.filter (keep ·.level)).map fadedCandidate := by
    rw [fadedEvidence, List.filter_map]
    rfl
  have hopening (rejected rejected' : List RejectedEvidence) :
      essence (opening image admitted rejected') = essence (opening image admitted rejected) := rfl
  have hrefused : (fadedEvidence evidence).rejected.take image.limits.maxQuerySteps =
      (evidence.rejected.take image.limits.maxQuerySteps).map fadedRefusal := by
    rw [fadedEvidence, List.map_take]
  unfold concluded
  simp only [hdeciding, hrefused]
  generalize decidingLevel image admitted.scopes evidence.accepted = deciding
  have hat := hfilter fun level => level = deciding
  have hdisplaced := hfilter fun level => level ≠ deciding
  simp only at hat hdisplaced
  rw [hat, hdisplaced]
  cases evidence.accepted.filter (fun candidate => candidate.level = deciding) with
  | nil => exact essence_fallbackDecision image query (hopening _ _) _
  | cons first others =>
      exact essence_decideAt image query (hopening _ _) _ _ _ _ _
        (explainEvidence image query admitted evidence)
        (explainEvidence image query admitted (fadedEvidence evidence))

end Decided

theorem essence_fadedImage (image : StateImage) (query : PriorityQuery) :
    essence (evaluateQuery (fadedImage image) query) = essence (evaluateQuery image query) := by
  have hgates := gates_overlaid image (fadedImage image) query
  rw [overlaid_fadedImage] at hgates
  unfold evaluateQuery
  generalize gates (fadedImage image) query = fadedGates at hgates ⊢
  cases hadmitted : gates image query with
  | error decision =>
      rw [hadmitted] at hgates
      cases fadedGates with
      | error decision' => exact essence_of_unstamped (Except.error.inj hgates)
      | ok admitted => cases hgates
  | ok admitted =>
      rw [hadmitted] at hgates
      cases fadedGates with
      | error decision' => cases hgates
      | ok admitted' =>
          cases hgates
          simp only [collectEvidence_fadedImage]
          cases collectEvidence image admitted.scopes query.subject with
          | error e => rfl
          | ok collected =>
              have hanswer := essence_of_unstamped
                (concluded_overlaid image (fadedImage image) query admitted
                  (filterExceptions (fadedEvidence collected)))
              rw [overlaid_fadedImage, filterExceptions_faded] at hanswer
              simp only [Except.map, answer_eq]
              rw [filterExceptions_faded]
              exact hanswer.trans (essence_concluded image query admitted _)

end PriorityFabric.Fading
