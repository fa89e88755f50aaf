import PriorityFabric.ApplyFacts

/-!
When a refused application leaves the image as it was.

The application records a mutation in the audit ring before it asks the counter of
the entity for the next value.  A mutation that passes every check and then finds
its counter spent is refused with the record already made.
-/

namespace PriorityFabric.Refusals

open PriorityFabric.Lib.LittleEndian
open PriorityFabric.Basics
open PriorityFabric.Ident
open PriorityFabric.Model
open PriorityFabric.State
open PriorityFabric.Validate
open PriorityFabric.Apply
open PriorityFabric.ApplyFacts
open PriorityFabric.Readable (plannedGeneration)

theorem isSet_getD_next_iff (g : Generation) :
    (g.next.getD .unset).isSet = false ↔ g.next = none := by
  cases hnext : g.next with
  | none => simp [Generation.isSet, Generation.unset]
  | some g' => simp [isSet_of_next hnext]

section Definitions

variable {tag : IdTag} {Def : Type} (kind : EntityKind tag Def) (image : StateImage) (d : Def)

/-- The stored definition has other content, and its generation is the last one. -/
def Spent : Prop :=
  ∃ entry, (kind.table image)[kind.id d]? = some entry ∧
    kind.sameContent entry.definition d = false ∧
    (kind.generation entry.definition).next = none

theorem store_error_iff (provenance : Provenance) :
    (∃ e, kind.store image d provenance = .error e) ↔ (kind.bump image d).isSet = false := by
  unfold EntityKind.store
  cases hset : (kind.bump image d).isSet <;>
    simp [hset, failIf, bind, Except.bind, pure, Except.pure]

theorem accept_error_iff (provenance : Provenance) :
    (∃ e, kind.accept image d provenance = .error e) ↔ Spent kind image d := by
  unfold EntityKind.accept Spent
  cases hfound : (kind.table image)[kind.id d]? with
  | none =>
      have hbump : kind.bump image d = .first := by simp [EntityKind.bump, hfound]
      simp only [store_error_iff kind image d, hbump]
      simp [Generation.isSet, Generation.first]
  | some entry =>
      have hbump : kind.bump image d =
          (kind.generation entry.definition).next.getD .unset := by
        simp [EntityKind.bump, hfound]
      cases hsame : kind.sameContent entry.definition d with
      | true => simp [hsame]
      | false =>
          simp only [Bool.false_eq_true, if_false, store_error_iff kind image d, hbump,
            isSet_getD_next_iff, Option.some.injEq, exists_eq_left', hsame, true_and]

end Definitions

/-- The stored assignment has other content or is retired, and its generation is the
last one. -/
def AssignmentSpent (image : StateImage) (a : PriorityAssignment) : Prop :=
  ∃ entry, image.assignments[a.id]? = some entry ∧
    (entry.active && sameAssignmentContent entry.assignment a) = false ∧
    entry.assignment.generation.next = none

theorem admitAssignment_error_iff {image : StateImage} {a : PriorityAssignment}
    (provenance : Provenance) :
    (∃ e, admitAssignment image a provenance = .error e) ↔ AssignmentSpent image a := by
  have hstore : (∃ e, storeAssignment image a provenance = .error e) ↔
      (bumpAssignment image a.id).isSet = false := by
    unfold storeAssignment
    cases hset : (bumpAssignment image a.id).isSet <;>
      simp [hset, failIf, bind, Except.bind, pure, Except.pure]
  unfold admitAssignment AssignmentSpent
  cases hfound : image.assignments[a.id]? with
  | none =>
      have hbump : bumpAssignment image a.id = .first := by simp [bumpAssignment, hfound]
      simp only [hstore, hbump]
      simp [Generation.isSet, Generation.first]
  | some entry =>
      have hbump : bumpAssignment image a.id =
          entry.assignment.generation.next.getD .unset := by simp [bumpAssignment, hfound]
      cases hsame : (entry.active && sameAssignmentContent entry.assignment a) with
      | true =>
          simp only [hsame, if_true, reduceCtorEq, exists_false, Option.some.injEq, exists_eq_left',
            Bool.true_eq_false, false_and]
      | false =>
          simp only [hsame, Bool.false_eq_true, if_false, hstore, hbump, isSet_getD_next_iff,
            Option.some.injEq, exists_eq_left', true_and]

/-- The counter the operation has to move is at its end. -/
def Exhausted (image : StateImage) : MutationOp → Prop
  | .defineClass d => Spent classKind image d
  | .defineScope d => Spent scopeKind image d
  | .definePolicy d => Spent policyKind image d
  | .defineSubject d => Spent subjectKind image d
  | .assign a => AssignmentSpent image a
  | .retireAssignment target => ∃ entry, image.assignments[target]? = some entry ∧
      entry.active = true ∧ entry.assignment.generation.next = none
  | .grantAuthority => image.nextFencingToken = 0 ∨
      image.nextFencingToken = UInt64.ofNat (2 ^ 64 - 1)
  | .fenceAuthority _ _ => False
  | .advanceEpoch => False

section Late

variable {image : StateImage} {mutation : Mutation}

theorem not_idempotent_of_spent {tag : IdTag} {Def : Type} {kind : EntityKind tag Def} {d : Def}
    (h : Spent kind image d) : kind.idempotent image mutation d = false := by
  obtain ⟨entry, hfound, hsame, -⟩ := h
  simp [EntityKind.idempotent, hfound, hsame]

theorem not_idempotent_of_exhausted (h : Exhausted image mutation.op) :
    isIdempotent image mutation = false := by
  unfold isIdempotent
  cases hop : mutation.op with
  | defineClass d =>
      rw [hop] at h
      exact not_idempotent_of_spent h
  | defineScope d =>
      rw [hop] at h
      exact not_idempotent_of_spent h
  | definePolicy d =>
      rw [hop] at h
      exact not_idempotent_of_spent h
  | defineSubject d =>
      rw [hop] at h
      exact not_idempotent_of_spent h
  | assign a =>
      rw [hop] at h
      obtain ⟨entry, hfound, hsame, -⟩ := h
      simp [hfound, hsame]
  | retireAssignment target =>
      rw [hop] at h
      obtain ⟨entry, hfound, hactive, -⟩ := h
      simp [hfound, hactive]
  | grantAuthority => rfl
  | fenceAuthority publisher boot => rfl
  | advanceEpoch => rfl

theorem retire_error_iff {target : PriorityAssignmentId} {recorded : StateImage}
    (reason : Bytes) (provenance : Provenance) (hop : mutation.op = .retireAssignment target)
    (hfresh : isIdempotent image mutation = false)
    (hvalid : validateMutation image mutation = .ok ())
    (hrecorded : recorded.assignments = image.assignments) :
    (∃ e, Apply.retireAssignment recorded target reason provenance = .error e) ↔
      Exhausted image (.retireAssignment target) := by
  simp only [validateMutation, hop, validateRetirement, bind_eq_ok, failIf_eq_ok,
    exists_const, Bool.not_eq_false] at hvalid
  obtain ⟨entry, hentry⟩ : ∃ entry, image.assignments[target]? = some entry :=
    ⟨_, Std.ExtTreeMap.getElem?_eq_some_getElem
      (Std.ExtTreeMap.mem_iff_contains.mpr hvalid.2.1)⟩
  have hactive : entry.active = true := by simpa [isIdempotent, hop, hentry] using hfresh
  cases hnext : entry.assignment.generation.next with
  | none => simp [Apply.retireAssignment, Exhausted, hrecorded, hentry, hactive, hnext]
  | some g => simp [Apply.retireAssignment, Exhausted, hrecorded, hentry, hactive, hnext]

theorem grant_error_iff (image : StateImage) (publisher : PublisherId) (boot : BootId)
    (provenance : Provenance) :
    (∃ e, Apply.grantAuthority image publisher boot provenance = .error e) ↔
      (image.nextFencingToken = 0 ∨
        image.nextFencingToken = UInt64.ofNat (2 ^ 64 - 1)) := by
  unfold Apply.grantAuthority
  by_cases hend : image.nextFencingToken = 0 ∨
      image.nextFencingToken = UInt64.ofNat (2 ^ 64 - 1)
  · refine ⟨fun _ => hend, fun _ => ?_⟩
    rw [failIf, if_pos hend]
    exact ⟨_, rfl⟩
  · refine ⟨?_, fun h => absurd h hend⟩
    rw [failIf, if_neg hend]
    rintro ⟨e, he⟩
    cases he

theorem perform_error_iff (provenance : Provenance) (expected : Generation)
    (hfresh : isIdempotent image mutation = false)
    (hvalid : validateMutation image mutation = .ok ()) :
    (∃ e, perform (recordAccepted image mutation expected) mutation provenance = .error e) ↔
      Exhausted image mutation.op := by
  unfold perform
  cases hop : mutation.op with
  | defineClass d =>
      exact accept_error_iff classKind (recordAccepted image mutation expected) d provenance
  | defineScope d =>
      exact accept_error_iff scopeKind (recordAccepted image mutation expected) d provenance
  | definePolicy d =>
      exact accept_error_iff policyKind (recordAccepted image mutation expected) d provenance
  | defineSubject d =>
      exact accept_error_iff subjectKind (recordAccepted image mutation expected) d provenance
  | assign a => exact admitAssignment_error_iff provenance
  | retireAssignment target =>
      exact retire_error_iff mutation.reason provenance hop hfresh hvalid rfl
  | grantAuthority =>
      exact grant_error_iff (recordAccepted image mutation expected) _ _ _
  | fenceAuthority publisher boot => simp [Exhausted]
  | advanceEpoch =>
      simp only [validateMutation, hop, failIf_eq_ok] at hvalid
      obtain ⟨epoch, hepoch⟩ := Option.ne_none_iff_exists'.mp hvalid
      have hrecorded : (recordAccepted image mutation expected).epoch.next = some epoch := hepoch
      simp [Apply.advanceEpoch, hrecorded, Exhausted]

theorem recordAccepted_ne (expected : Generation) :
    recordAccepted image mutation expected ≠ image := by
  intro heq
  have hsequence : image.nextAuditSequence + 1 = image.nextAuditSequence :=
    congrArg (·.nextAuditSequence) heq
  simp at hsequence

end Late

/-- A refused application leaves the image as it was, unless the mutation passes every
check and its counter is at its end. -/
theorem refusal_leaves_image_iff (image : StateImage) (mutation : Mutation) (replay : Bool) :
    (∀ e image', applyMutation image mutation replay = (.error e, image') → image' = image) ↔
      (Exhausted image mutation.op →
        ¬ Admissible image mutation replay (plannedGeneration image mutation)) := by
  cases hadmissible : admissible image mutation replay with
  | error e =>
      have hrefused : ¬ Admissible image mutation replay (plannedGeneration image mutation) := by
        intro h
        rw [admissible_eq_ok_iff.mpr h] at hadmissible
        cases hadmissible
      have happly : applyMutation image mutation replay = (.error e, image) := by
        simp only [applyMutation, hadmissible]
      constructor
      · exact fun _ _ => hrefused
      · intro _ e' image' h
        rw [happly] at h
        cases h
        rfl
  | ok expected =>
      have hchecks := admissible_eq_ok_iff.mp hadmissible
      have hplanned := hchecks.expected_eq
      cases hidempotent : isIdempotent image mutation with
      | true =>
          have happly : (applyMutation image mutation replay).1 = .ok () := by
            simp only [applyMutation, hadmissible, hidempotent, if_true]
          constructor
          · intro _ hexhausted
            rw [not_idempotent_of_exhausted hexhausted] at hidempotent
            cases hidempotent
          · intro _ e image' h
            rw [h] at happly
            cases happly
      | false =>
          have hlate := perform_error_iff (provenanceOf image mutation expected) expected
            hidempotent hchecks.valid
          cases hperform : perform (recordAccepted image mutation expected) mutation
              (provenanceOf image mutation expected) with
          | error e =>
              have happly : applyMutation image mutation replay =
                  (.error e, recordAccepted image mutation expected) := by
                simp only [applyMutation, hadmissible, hidempotent, Bool.false_eq_true, if_false,
                  hperform]
              constructor
              · intro h
                exact absurd (h e _ happly) (recordAccepted_ne expected)
              · intro h
                exact absurd (hplanned ▸ hchecks) (h (hlate.mp ⟨e, hperform⟩))
          | ok result =>
              have happly : (applyMutation image mutation replay).1 = .ok () := by
                simp only [applyMutation, hadmissible, hidempotent, Bool.false_eq_true, if_false,
                  hperform]
              constructor
              · intro _ hexhausted
                obtain ⟨e, he⟩ := hlate.mpr hexhausted
                rw [hperform] at he
                cases he
              · intro _ e image' h
                rw [h] at happly
                cases happly

/-- The image of a fabric that has handed out every fencing token. -/
def outOfTokens : StateImage := { nextFencingToken := UInt64.ofNat (2 ^ 64 - 1) }

def firstGrant : Mutation where
  op := .grantAuthority
  publisher := ⟨[112], wellFormed_p⟩
  boot := ⟨List.Vector.replicate 16 1⟩
  system := true

/-- The grant is refused, and the audit ring has an entry for it. -/
theorem refused_grant_recorded :
    ¬ ∀ e image', applyMutation outOfTokens firstGrant false = (.error e, image') →
      image' = outOfTokens := by
  have hrefused : (applyMutation outOfTokens firstGrant false).1.isOk = false := by
    decide
  have hrecorded : (applyMutation outOfTokens firstGrant false).2.audit.length = 1 := by
    decide
  intro h
  cases happly : applyMutation outOfTokens firstGrant false with
  | mk status image' =>
      rw [happly] at hrefused hrecorded
      cases status with
      | ok u => cases hrefused
      | error e =>
          rw [h e image' happly] at hrecorded
          cases hrecorded

end PriorityFabric.Refusals
