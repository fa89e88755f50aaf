import PriorityFabric.Decisions

/-!
What the evidence of a subject comes to when the scan reaches all of it, and what the
candidates of the deciding level make of the decision.
-/

namespace PriorityFabric.Holdings

open PriorityFabric.Lib.LittleEndian
open PriorityFabric.Lib.GroupIndex
open PriorityFabric.Basics
open PriorityFabric.Ident
open PriorityFabric.Model
open PriorityFabric.State
open PriorityFabric.Evaluate
open PriorityFabric.UsableEvidence
open PriorityFabric.Decisions

/-- The assignments a subject holds, in order. -/
def heldBy (image : StateImage) (subject : SubjectId) : List AssignmentEntry :=
  entriesOf image (image.assignmentsBySubject.getD subject [])

theorem mem_heldBy {image : StateImage} (h : Indexed image) {subject : SubjectId}
    {entry : AssignmentEntry} :
    entry ∈ heldBy image subject ↔
      (∃ id, image.assignments[(id : PriorityAssignmentId)]? = some entry) ∧
        entry.assignment.subject = subject := by
  simp only [heldBy, entriesOf, List.mem_filterMap]
  constructor
  · rintro ⟨id, hid, hentry⟩
    exact ⟨⟨id, hentry⟩, h.subject_eq hid hentry⟩
  · rintro ⟨⟨id, hentry⟩, hsubject⟩
    exact ⟨id, (h.exact.mem_iff subject id).mpr ⟨entry, hentry, hsubject⟩, hentry⟩

theorem length_heldBy {image : StateImage} (h : Indexed image) (subject : SubjectId) :
    (heldBy image subject).length = (image.assignmentsBySubject.getD subject []).length := by
  have hall : ∀ id ∈ image.assignmentsBySubject.getD subject [],
      (image.assignments[id]?).isSome = true := by
    intro id hid
    obtain ⟨entry, hentry, -⟩ := (h.exact.mem_iff subject id).mp hid
    rw [hentry]
    rfl
  rw [heldBy, entriesOf, List.length_filterMap_eq_countP, List.countP_eq_length]
  exact hall

/-- The scan reaches everything the subject holds. -/
def Scanned (image : StateImage) (subject : SubjectId) : Prop :=
  (heldBy image subject).length ≤ image.limits.maxQuerySteps

section Gathered

variable {image : StateImage} {scopes : List PolicyScopeId} {subject : SubjectId}
  {distance : Nat}

theorem gathered_of_scanned (h : Scanned image subject) :
    gathered image scopes subject distance =
      { accepted := (heldBy image subject).filterMap
          (candidateOf image scopes subject distance)
        rejected := (heldBy image subject).filterMap
          (refusalOf image scopes subject distance) } := by
  have htake : (heldBy image subject).take image.limits.maxQuerySteps =
      heldBy image subject := List.take_of_length_le h
  have hdrop : (heldBy image subject).drop image.limits.maxQuerySteps = [] :=
    List.drop_of_length_le h
  unfold heldBy at htake hdrop
  simp only [gathered, within, htake, hdrop, heldBy, List.head?_nil, Option.map_none,
    Option.toList_none, List.append_nil]

theorem mem_accepted_gathered {candidate : Candidate}
    (h : candidate ∈ (gathered image scopes subject distance).accepted) :
    candidate.entry ∈ heldBy image subject ∧
      candidateOf image scopes subject distance candidate.entry = some candidate := by
  simp only [gathered, within, List.mem_filterMap] at h
  obtain ⟨entry, hentry, hcandidate⟩ := h
  obtain ⟨-, -, -, rfl, -, -⟩ := candidateOf_eq_some_iff.mp hcandidate
  exact ⟨List.mem_of_mem_take hentry, hcandidate⟩

end Gathered

/-- The candidates of the deciding level come from one subject, all of whose evidence was
collected. -/
theorem tier_of_collected {image : StateImage} {scopes : List PolicyScopeId}
    {subject : SubjectId} {collected : Evidence} {candidate : Candidate}
    (hcollect : collectEvidence image scopes subject = .ok collected)
    (h : candidate ∈ collected.accepted) :
    ∃ holder distance, candidate ∈ (gathered image scopes holder distance).accepted ∧
      collected.accepted = (gathered image scopes holder distance).accepted := by
  rw [collectEvidence_eq] at hcollect
  split at hcollect
  · rename_i hempty
    rw [List.isEmpty_iff] at hempty
    cases hancestors : subjectAncestors image subject with
    | error e =>
        rw [hancestors] at hcollect
        cases hcollect
    | ok ancestors =>
        rw [hancestors] at hcollect
        cases hcollect
        simp only [followedBy, hempty, List.nil_append] at h ⊢
        unfold ancestorTier at h ⊢
        cases hfind : (ancestors.map fun ancestor =>
            gathered image scopes ancestor.1 ancestor.2).find? contributes with
        | none =>
            rw [hfind] at h
            cases h
        | some evidence =>
            rw [hfind] at h
            obtain ⟨ancestor, -, rfl⟩ := List.mem_map.mp (List.mem_of_find?_eq_some hfind)
            exact ⟨ancestor.1, ancestor.2, h, rfl⟩
  · cases hcollect
    exact ⟨subject, 0, h, rfl⟩

def levelOf (chain : List PolicyScopeId) (scope : PolicyScopeId) : Nat :=
  chain.findIdx (· = scope)

def Firm (image : StateImage) (scope : PolicyScopeId) : Prop :=
  ∃ node, image.scopes[scope]? = some node ∧ node.definition.allowOverride = false

section Levels

variable {image : StateImage} {chain : List PolicyScopeId}

theorem levelOf_eq {scope : PolicyScopeId} {found : Nat}
    (h : chain.findIdx? (· = scope) = some found) : levelOf chain scope = found := by
  rw [List.findIdx?_eq_some_iff_findIdx_eq] at h
  exact h.2

theorem scopeAt_of_lt {level : Nat} (h : level < chain.length) :
    scopeAt chain level = chain[level] := by
  rw [scopeAt, List.getD_eq_getElem?_getD, List.getElem?_eq_getElem h, Option.getD_some]

theorem scopeAt_of_findIdx? {scope : PolicyScopeId} {level : Nat}
    (h : chain.findIdx? (· = scope) = some level) : scopeAt chain level = scope := by
  obtain ⟨hlt, hscope, -⟩ := List.findIdx?_eq_some_iff_getElem.mp h
  rw [scopeAt_of_lt hlt]
  simpa using hscope

theorem nonOverridable_iff {level : Nat} :
    nonOverridable image chain level = true ↔ Firm image (scopeAt chain level) := by
  unfold nonOverridable Firm
  cases image.scopes[scopeAt chain level]? with
  | none => simp
  | some node => simp

end Levels

theorem sealed_outcome (decision : PriorityDecision) :
    (sealed decision).outcome = decision.outcome := rfl

theorem sealed_cls (decision : PriorityDecision) :
    (sealed decision).cls = decision.cls := rfl

section Level

variable {image : StateImage} {query : PriorityQuery} {scopes : List PolicyScopeId}
  {deciding : Nat} {first : Candidate} {others displaced : List Candidate}
  {builder : ChainBuilder} {decision : PriorityDecision}

theorem settle_unique (scope : PolicyScopeId)
    (h : ∀ other ∈ others, other.entry.assignment.cls = first.entry.assignment.cls) :
    settle image query scope first others = { winner := some first } := by
  unfold settle
  rw [if_neg]
  simpa using h

theorem settle_conflict (scope : PolicyScopeId)
    (h : ¬ ∀ other ∈ others, other.entry.assignment.cls = first.entry.assignment.cls) :
    settle image query scope first others =
      settleConflict image query scope (first, 0) (first :: others).zipIdx := by
  unfold settle
  rw [if_pos]
  simpa using h

theorem settleConflict_conflict (scope : PolicyScopeId) (placed : Placed)
    (winning : List Placed) :
    (settleConflict image query scope placed winning).conflict = true := by
  unfold settleConflict
  simp only
  split <;> rfl

theorem classes_agree
    (hauthoritative : (decideAt image query scopes deciding first others displaced builder
      decision).authoritative = true)
    (houtcome : (decideAt image query scopes deciding first others displaced builder
      decision).outcome ≠ .conflict) :
    ∀ other ∈ others, other.entry.assignment.cls = first.entry.assignment.cls := by
  by_contra hdiffer
  have hconflict : (settle image query (scopeAt scopes deciding) first others).conflict =
      true := by
    rw [settle_conflict _ hdiffer]
    exact settleConflict_conflict _ _ _
  obtain ⟨winner, hwinner, hreports⟩ := decideAt_reports hauthoritative
  obtain ⟨node, hnode, -⟩ := hreports.registered
  apply houtcome
  simp only [decideAt, hconflict, hwinner, nameClass, hnode, conflictOutcome]

theorem decideAt_of_winner {winner : Candidate} {node : ClassEntry}
    (hwinner : (settle image query (scopeAt scopes deciding) first others).winner = some winner)
    (hnode : image.classes[winner.entry.assignment.cls]? = some node) :
    (decideAt image query scopes deciding first others displaced builder
        decision).authoritative = true ∧
      (decideAt image query scopes deciding first others displaced builder decision).cls =
        winner.entry.assignment.cls := by
  simp only [decideAt, hwinner, nameClass, hnode, and_true]
  cases hconflict : (settle image query (scopeAt scopes deciding) first others).conflict with
  | true => simp [conflictOutcome, hwinner]
  | false =>
      simp only [uniqueOutcome]
      split
      · rfl
      · split <;> rfl

end Level

end PriorityFabric.Holdings
