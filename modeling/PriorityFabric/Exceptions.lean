import PriorityFabric.Delivered

/-!
Exceptions that stand on other exceptions.

The filter looks for the class an assignment displaces among all the candidates that were
collected, in one pass.  A broader candidate that the same pass refuses still counts as
offering its class.
-/

namespace PriorityFabric.Exceptions

open PriorityFabric.Basics
open PriorityFabric.Ident
open PriorityFabric.Model
open PriorityFabric.State
open PriorityFabric.Evaluate
open PriorityFabric.Registry
open PriorityFabric.Delivered

/-- The evidence that reaches the exception filter. -/
def evidenceFor (image : StateImage) (query : PriorityQuery) : Evidence :=
  match gates image query with
  | .error _ => {}
  | .ok admitted =>
      match collectEvidence image admitted.scopes query.subject with
      | .error _ => {}
      | .ok collected => collected

def candidates (image : StateImage) (query : PriorityQuery) : List Candidate :=
  (evidenceFor image query).accepted

def survivors (image : StateImage) (query : PriorityQuery) : List Candidate :=
  (filterExceptions (evidenceFor image query)).accepted

/-- A strictly broader candidate of the class. -/
def Offers (cls : PriorityClassId) (level : Nat) (candidate : Candidate) : Prop :=
  level < candidate.level ∧ candidate.entry.assignment.cls = cls

/-- An exception that names no class, or a candidate that displaces a class no broader one
offers. -/
def Baseless (accepted : List Candidate) (candidate : Candidate) : Prop :=
  match candidate.entry.assignment.displaces with
  | none => candidate.entry.assignment.kind = .exception
  | some cls => ∀ other ∈ accepted, ¬ Offers cls candidate.level other

/-- Where broader candidates offer the class a candidate displaces, one of them is not
baseless. -/
def Grounded (accepted : List Candidate) : Prop :=
  ∀ candidate ∈ accepted, ∀ cls, candidate.entry.assignment.displaces = some cls →
    ∀ other ∈ accepted, Offers cls candidate.level other →
      ∃ broader ∈ accepted, Offers cls candidate.level broader ∧ ¬ Baseless accepted broader

section Filter

variable {evidence : Evidence} {candidate : Candidate}

theorem isOk_rejectIf {bad : Prop} [Decidable bad] {rejected : RejectedEvidence} :
    (rejectIf bad rejected).isOk = true ↔ ¬ bad := by
  unfold rejectIf
  split
  · rename_i h
    simp [h, Except.isOk, Except.toBool]
  · rename_i h
    simp [h, Except.isOk, Except.toBool]

theorem displacesTarget_iff {accepted : List Candidate} {cls : PriorityClassId}
    (h : candidate.entry.assignment.displaces = some cls) :
    displacesTarget accepted candidate = true ↔
      ∃ other ∈ accepted, Offers cls candidate.level other := by
  simp [displacesTarget, h, Offers]

theorem mem_filterExceptions_iff :
    candidate ∈ (filterExceptions evidence).accepted ↔
      candidate ∈ evidence.accepted ∧ ¬ Baseless evidence.accepted candidate := by
  simp only [filterExceptions, List.mem_filter]
  refine and_congr_right fun _ => ?_
  unfold exceptionCheck Baseless
  cases hdisplaces : candidate.entry.assignment.displaces with
  | none => exact isOk_rejectIf
  | some cls =>
      simp only [isOk_rejectIf, Bool.not_eq_false, displacesTarget_iff hdisplaces]
      push Not
      rfl

theorem not_baseless_of_offered {accepted : List Candidate} {cls : PriorityClassId}
    {other : Candidate} (h : candidate.entry.assignment.displaces = some cls)
    (hother : other ∈ accepted) (hoffers : Offers cls candidate.level other) :
    ¬ Baseless accepted candidate := by
  intro hbaseless
  simp only [Baseless, h] at hbaseless
  exact hbaseless other hother hoffers

end Filter

/-- Every surviving candidate that displaces a class has a surviving broader candidate of
that class exactly when the candidates are grounded. -/
theorem exceptions_apply_iff (image : StateImage) (query : PriorityQuery) :
    (∀ candidate ∈ survivors image query, ∀ cls,
        candidate.entry.assignment.displaces = some cls →
        ∃ other ∈ survivors image query, Offers cls candidate.level other) ↔
      Grounded (candidates image query) := by
  unfold survivors candidates Grounded
  simp only [mem_filterExceptions_iff]
  constructor
  · intro h candidate hmem cls hdisplaces other hother hoffers
    obtain ⟨broader, ⟨hbroader, hstands⟩, hoffered⟩ :=
      h candidate ⟨hmem, not_baseless_of_offered hdisplaces hother hoffers⟩ cls hdisplaces
    exact ⟨broader, hbroader, hoffered, hstands⟩
  · rintro h candidate ⟨hmem, hstands⟩ cls hdisplaces
    have hoffered : ∃ other ∈ (evidenceFor image query).accepted,
        Offers cls candidate.level other := by
      by_contra hnone
      push Not at hnone
      apply hstands
      simp only [Baseless, hdisplaces]
      exact hnone
    obtain ⟨other, hother, hoffers⟩ := hoffered
    obtain ⟨broader, hbroader, hoffered, hbase⟩ :=
      h candidate hmem cls hdisplaces other hother hoffers
    exact ⟨broader, ⟨hbroader, hbase⟩, hoffered⟩

def exceptionIn (id : PriorityAssignmentId) (scope : PolicyScopeId)
    (cls displaced : PriorityClassId) : Mutation :=
  bySystem (.assign
    { id, subject := ⟨[97], wellFormed_a⟩, subjectGeneration := .first
      scope, scopeGeneration := .first, cls, classGeneration := .first
      kind := .exception, displaces := some displaced })

/-- The inner scope displaces the class of the outer one, which displaces a class nobody
offers. -/
def stacked : List Mutation :=
  [bySystem .advanceEpoch, bySystem .grantAuthority,
    someClassNamed ⟨[97], wellFormed_a⟩ 1, someClassNamed ⟨[98], wellFormed_b⟩ 2,
    someClassNamed ⟨[108], wellFormed_l⟩ 3,
    bySystem (.defineScope { id := ⟨[98], wellFormed_b⟩ }),
    bySystem (.defineScope { id := ⟨[97], wellFormed_a⟩, parent := some ⟨[98], wellFormed_b⟩ }),
    bySystem (.defineSubject { id := ⟨[97], wellFormed_a⟩ }),
    exceptionIn ⟨[97], wellFormed_a⟩ ⟨[97], wellFormed_a⟩ ⟨[97], wellFormed_a⟩
      ⟨[98], wellFormed_b⟩,
    exceptionIn ⟨[98], wellFormed_b⟩ ⟨[98], wellFormed_b⟩ ⟨[98], wellFormed_b⟩
      ⟨[108], wellFormed_l⟩]

/-- The outer exception is refused, and the inner one applies against it. -/
theorem exception_upon_refused_exception :
    Built {} (applyAll {} stacked) ∧ (applyAll {} stacked).health = .healthy ∧
      ¬ ∀ candidate ∈ survivors (applyAll {} stacked) contestedQuery, ∀ cls,
        candidate.entry.assignment.displaces = some cls →
        ∃ other ∈ survivors (applyAll {} stacked) contestedQuery,
          Offers cls candidate.level other := by
  refine ⟨built_applyAll .empty (by decide), by decide, ?_⟩
  -- One candidate is left, at the narrowest level.
  have hone : ((survivors (applyAll {} stacked) contestedQuery).map fun candidate =>
      (candidate.level, candidate.entry.assignment.displaces)) =
        [(0, some ⟨[98], wellFormed_b⟩)] := by decide
  rw [List.map_eq_singleton_iff] at hone
  obtain ⟨candidate, hsurvivors, hcandidate⟩ := hone
  obtain ⟨-, hdisplaces⟩ := Prod.mk.inj hcandidate
  rw [hsurvivors]
  intro h
  obtain ⟨other, hother, hbroader, -⟩ :=
    h candidate (List.mem_singleton_self _) _ hdisplaces
  rw [List.mem_singleton.mp hother] at hbroader
  exact absurd hbroader (Nat.lt_irrefl _)

end PriorityFabric.Exceptions
