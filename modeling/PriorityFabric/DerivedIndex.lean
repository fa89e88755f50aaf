import PriorityFabric.Apply

/-!
The subject index is derived data: mutations neither read it nor let it reach
anything else, and the encoding leaves it out.
-/

namespace PriorityFabric.DerivedIndex

open PriorityFabric.Lib.LittleEndian
open PriorityFabric.Basics
open PriorityFabric.Ident
open PriorityFabric.Model
open PriorityFabric.State
open PriorityFabric.StateCodec
open PriorityFabric.Validate
open PriorityFabric.Apply

abbrev Index := Std.ExtTreeMap SubjectId (List PriorityAssignmentId)

def withIndex (image : StateImage) (index : Index) : StateImage :=
  { image with assignmentsBySubject := index }

/-- Two images that agree on everything but the index. -/
def SameState (a b : StateImage) : Prop := withIndex a ∅ = withIndex b ∅

theorem SameState.refl (a : StateImage) : SameState a a := rfl

theorem SameState.symm {a b : StateImage} (h : SameState a b) : SameState b a :=
  Eq.symm h

theorem SameState.trans {a b c : StateImage} (hab : SameState a b)
    (hbc : SameState b c) : SameState a c :=
  Eq.trans hab hbc

theorem sameState_withIndex (image : StateImage) (index : Index) :
    SameState (withIndex image index) image :=
  rfl

theorem SameState.eq_withIndex {a b : StateImage} (h : SameState a b) :
    a = withIndex b a.assignmentsBySubject := by
  cases a
  cases b
  simp only [SameState, withIndex, StateImage.mk.injEq] at h ⊢
  tauto

/-- The registry of one image in the frame of another.  Walks and validation read no more of an
image, but for the operations that look an entry up. -/
def reframe (image frame : StateImage) : StateImage :=
  { frame with
    limits := image.limits
    classes := image.classes
    scopes := image.scopes
    policies := image.policies
    subjects := image.subjects }

section Reframe

variable (image frame : StateImage)

theorem depthLoop_reframe (fuel : Nat) (walk : DepthWalk) :
    depthLoop (reframe image frame) fuel walk = depthLoop image fuel walk := by
  induction fuel generalizing walk with
  | zero => rfl
  | succ fuel ih =>
      simp only [depthLoop]
      split
      · rfl
      · rw [ih]
        rfl

theorem classDepth_reframe (id : PriorityClassId) :
    classDepth (reframe image frame) id = classDepth image id := by
  unfold classDepth
  rw [depthLoop_reframe]
  rfl

theorem scopeChainLoop_reframe (scope : PolicyScopeId) (room : Nat)
    (current : PolicyScopeId) (chain : List PolicyScopeId) :
    scopeChainLoop (reframe image frame) scope room current chain =
      scopeChainLoop image scope room current chain := by
  induction room generalizing current chain with
  | zero =>
      unfold scopeChainLoop
      rfl
  | succ room ih =>
      unfold scopeChainLoop
      simp only [ih]
      rfl

theorem scopeChain_reframe (scope : PolicyScopeId) :
    scopeChain (reframe image frame) scope = scopeChain image scope :=
  scopeChainLoop_reframe image frame scope _ _ _

theorem checkScopeWalk_reframe (self parent : PolicyScopeId) (room : Nat)
    (cursor : PolicyScopeId) (visited : List PolicyScopeId) :
    checkScopeWalk (reframe image frame) self parent room cursor visited =
      checkScopeWalk image self parent room cursor visited := by
  induction room generalizing cursor visited with
  | zero => rfl
  | succ room ih =>
      unfold checkScopeWalk
      simp only [ih]
      rfl

theorem checkVisible_reframe (policy : PolicyId) (seen classes : List PriorityClassId) :
    checkVisible (reframe image frame) policy seen classes =
      checkVisible image policy seen classes := by
  induction classes generalizing seen with
  | nil => rfl
  | cons cls rest ih =>
      simp only [checkVisible, ih]
      rfl

theorem validateClass_reframe (d : PriorityClassDef) :
    validateClass (reframe image frame) d = validateClass image d := by
  unfold validateClass validateInheritance
  simp only [classDepth_reframe]
  rfl

theorem validateScope_reframe (d : PolicyScopeDef) :
    validateScope (reframe image frame) d = validateScope image d := by
  unfold validateScope checkScopeParent
  simp only [checkScopeWalk_reframe]
  rfl

theorem validatePolicy_reframe (d : PolicyDef) :
    validatePolicy (reframe image frame) d = validatePolicy image d := by
  unfold validatePolicy
  simp only [checkVisible_reframe]
  rfl

theorem validateAssignment_reframe (hassignments : frame.assignments = image.assignments)
    (a : PriorityAssignment) :
    validateAssignment (reframe image frame) a = validateAssignment image a := by
  obtain ⟨⟩ := frame
  cases hassignments
  unfold validateAssignment checkVisibility checkEffectivePolicy effectiveVisibility
    effectivePolicy
  simp only [scopeChain_reframe]
  rfl

end Reframe

section

variable (image : StateImage) (index : Index)

theorem validateMutation_withIndex (mutation : Mutation) :
    validateMutation (withIndex image index) mutation = validateMutation image mutation := by
  unfold validateMutation
  cases mutation.op with
  | defineClass d => exact validateClass_reframe image (withIndex image index) d
  | defineScope d => exact validateScope_reframe image (withIndex image index) d
  | definePolicy d => exact validatePolicy_reframe image (withIndex image index) d
  | defineSubject d => rfl
  | assign a => exact validateAssignment_reframe image (withIndex image index) rfl a
  | retireAssignment target => rfl
  | grantAuthority => rfl
  | fenceAuthority publisher boot => rfl
  | advanceEpoch => rfl

theorem admissible_withIndex (mutation : Mutation) (replay : Bool) :
    admissible (withIndex image index) mutation replay =
      admissible image mutation replay := by
  unfold admissible
  rw [validateMutation_withIndex]
  rfl

end

def SameResult : Result StateImage → Result StateImage → Prop
  | .ok a, .ok b => SameState a b
  | .error e, .error f => e = f
  | _, _ => False

theorem sameResult_map (result : Result StateImage) (index : Index) :
    SameResult (result.map (withIndex · index)) result := by
  cases result with
  | ok image => exact sameState_withIndex image index
  | error e => rfl

theorem sameResult_failIf {a b : StateImage} (h : SameState a b) (bad : Prop)
    [Decidable bad] {code : StatusCode} {message : Bytes}
    {failed : code.isFailure = true} :
    SameResult (do failIf bad code message failed; return a)
      (do failIf bad code message failed; return b) := by
  unfold failIf
  split
  · rfl
  · exact h

/-- A table other than the index. -/
structure IndexFree {tag : IdTag} {Def : Type} (kind : EntityKind tag Def) : Prop where
  table : ∀ image index, kind.table (withIndex image index) = kind.table image
  setTable : ∀ image index table,
    kind.setTable (withIndex image index) table = withIndex (kind.setTable image table) index

theorem accept_withIndex {tag : IdTag} {Def : Type} {kind : EntityKind tag Def}
    (hkind : IndexFree kind) (image : StateImage) (index : Index) (d : Def)
    (provenance : Provenance) :
    kind.accept (withIndex image index) d provenance =
      (kind.accept image d provenance).map (withIndex · index) := by
  have hstore : kind.store (withIndex image index) d provenance =
      (kind.store image d provenance).map (withIndex · index) := by
    have hbump : kind.bump (withIndex image index) d = kind.bump image d := by
      rw [EntityKind.bump, EntityKind.bump, hkind.table]
    rw [EntityKind.store, hbump, hkind.table, hkind.setTable]
    symm
    apply map_failIf_pure
  simp only [EntityKind.accept, hkind.table, hkind.setTable, hstore]
  split
  · split <;> rfl
  · rfl

theorem storeAssignment_withIndex (image : StateImage) (index : Index)
    (assignment : PriorityAssignment) (provenance : Provenance) :
    SameResult (storeAssignment (withIndex image index) assignment provenance)
      (storeAssignment image assignment provenance) := by
  have hbump : bumpAssignment (withIndex image index) assignment.id =
      bumpAssignment image assignment.id := rfl
  unfold storeAssignment
  rw [hbump]
  apply sameResult_failIf
  rfl

theorem admitAssignment_withIndex (image : StateImage) (index : Index)
    (assignment : PriorityAssignment) (provenance : Provenance) :
    SameResult (admitAssignment (withIndex image index) assignment provenance)
      (admitAssignment image assignment provenance) := by
  have hfind : (withIndex image index).assignments[assignment.id]? =
      image.assignments[assignment.id]? := rfl
  unfold admitAssignment
  rw [hfind]
  split
  · split
    · rfl
    · exact storeAssignment_withIndex image index assignment provenance
  · exact storeAssignment_withIndex image index assignment provenance

theorem perform_withIndex (image : StateImage) (index : Index) (mutation : Mutation)
    (provenance : Provenance) :
    SameResult (perform (withIndex image index) mutation provenance)
      (perform image mutation provenance) := by
  unfold perform
  cases mutation.op with
  | defineClass d =>
      have hkind : IndexFree classKind := ⟨fun _ _ => rfl, fun _ _ _ => rfl⟩
      simp only [accept_withIndex hkind]
      exact sameResult_map _ index
  | defineScope d =>
      have hkind : IndexFree scopeKind := ⟨fun _ _ => rfl, fun _ _ _ => rfl⟩
      simp only [accept_withIndex hkind]
      exact sameResult_map _ index
  | definePolicy d =>
      have hkind : IndexFree policyKind := ⟨fun _ _ => rfl, fun _ _ _ => rfl⟩
      simp only [accept_withIndex hkind]
      exact sameResult_map _ index
  | defineSubject d =>
      have hkind : IndexFree subjectKind := ⟨fun _ _ => rfl, fun _ _ _ => rfl⟩
      simp only [accept_withIndex hkind]
      exact sameResult_map _ index
  | assign a => exact admitAssignment_withIndex image index a provenance
  | retireAssignment target =>
      have hfind : (withIndex image index).assignments[target]? =
          image.assignments[target]? := rfl
      simp only [retireAssignment, hfind]
      split
      · rfl
      · split <;> rfl
  | grantAuthority =>
      apply sameResult_failIf
      rfl
  | fenceAuthority publisher boot => rfl
  | advanceEpoch =>
      have hepoch : (withIndex image index).epoch = image.epoch := rfl
      simp only [Apply.advanceEpoch, hepoch]
      split <;> rfl

theorem applyMutation_sameState {a b : StateImage} (h : SameState a b)
    (mutation : Mutation) (replay : Bool) :
    (applyMutation a mutation replay).1 = (applyMutation b mutation replay).1 ∧
      SameState (applyMutation a mutation replay).2 (applyMutation b mutation replay).2 := by
  have hidempotent : isIdempotent a mutation = isIdempotent b mutation := by
    rw [h.eq_withIndex]
    rfl
  have hadmissible : admissible a mutation replay = admissible b mutation replay := by
    rw [h.eq_withIndex]
    exact admissible_withIndex b _ mutation replay
  unfold applyMutation
  rw [hadmissible]
  cases hexpected : admissible b mutation replay with
  | error e => exact ⟨rfl, h⟩
  | ok expected =>
      have hrecorded : SameState (recordAccepted a mutation expected)
          (recordAccepted b mutation expected) := by
        rw [h.eq_withIndex]
        rfl
      have hprovenance : provenanceOf a mutation expected =
          provenanceOf b mutation expected := by
        rw [h.eq_withIndex]
        rfl
      simp only [hidempotent, hprovenance]
      split
      · exact ⟨rfl, hrecorded⟩
      · have hperform := perform_withIndex (recordAccepted b mutation expected)
          (recordAccepted a mutation expected).assignmentsBySubject mutation
          (provenanceOf b mutation expected)
        rw [← hrecorded.eq_withIndex] at hperform
        cases ha : perform (recordAccepted a mutation expected) mutation
            (provenanceOf b mutation expected) with
        | error e =>
            cases hb : perform (recordAccepted b mutation expected) mutation
                (provenanceOf b mutation expected) with
            | error f =>
                rw [ha, hb] at hperform
                exact ⟨congrArg Except.error hperform, hrecorded⟩
            | ok image =>
                rw [ha, hb] at hperform
                exact hperform.elim
        | ok image =>
            cases hb : perform (recordAccepted b mutation expected) mutation
                (provenanceOf b mutation expected) with
            | error f =>
                rw [ha, hb] at hperform
                exact hperform.elim
            | ok image' =>
                rw [ha, hb] at hperform
                have hsame : SameState image image' := hperform
                refine ⟨rfl, ?_⟩
                rw [hsame.eq_withIndex]
                rfl

end PriorityFabric.DerivedIndex
