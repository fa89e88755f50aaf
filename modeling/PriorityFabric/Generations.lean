import PriorityFabric.ApplyFacts
import PriorityFabric.Lib.Versions

/-!
An identifier together with a generation means one thing.

Definitions with the content that is already stored refresh its provenance only, and
everything else moves the generation of the entity by one.
-/

namespace PriorityFabric.Generations

open PriorityFabric.Lib.LittleEndian
open PriorityFabric.Lib.Versions
open PriorityFabric.Basics
open PriorityFabric.Ident
open PriorityFabric.Model
open PriorityFabric.State
open PriorityFabric.Validate
open PriorityFabric.Apply
open PriorityFabric.ApplyFacts

section Kinds

variable {tag : IdTag} {Def : Type} (kind : EntityKind tag Def)

def content (d : Def) : Def := kind.setGeneration d .unset

/-- A kind whose generation is a field of its own and whose content comparison misses no
other field that would be stored. -/
structure Versioned : Prop where
  generation_set : ∀ d g, kind.generation (kind.setGeneration d g) = g
  content_set : ∀ d g, content kind (kind.setGeneration d g) = content kind d
  same_of_content : ∀ a b, content kind a = content kind b → kind.sameContent a b = true

def versionOf (entry : Entry Def) : Nat := (kind.generation entry.definition).value.toNat

def meaningOf (entry : Entry Def) : Def := content kind entry.definition

variable {kind} {image : StateImage} {d : Def} {provenance : Provenance} {entry : Entry Def}

theorem stepped_of_admitted (hkind : Versioned kind)
    (h : Admitted kind image d provenance entry) :
    Stepped (versionOf kind) (meaningOf kind) (kind.table image)
      ((kind.table image).insert (kind.id d) entry) := by
  apply Stepped.insert
  intro old hold
  cases h with
  | refreshed hfound hsame =>
      rw [hold] at hfound
      cases hfound
      exact .inl ⟨rfl, rfl⟩
  | stored hset hchanged =>
      have hdiffers : kind.sameContent old.definition d = false := by
        simpa [EntityKind.unchanged, hold] using hchanged
      have hbump : kind.bump image d = (kind.generation old.definition).next.getD .unset := by
        simp [EntityKind.bump, hold]
      right
      constructor
      · simp only [versionOf, hkind.generation_set]
        rw [hbump] at hset ⊢
        cases hnext : (kind.generation old.definition).next with
        | none =>
            rw [hnext] at hset
            cases hset
        | some next => exact next_value hnext
      · simp only [meaningOf, hkind.content_set]
        intro heq
        rw [hkind.same_of_content _ _ heq.symm] at hdiffers
        cases hdiffers

end Kinds

theorem same_self (rank : PrecedenceRank) : rank.same rank = true := by
  simp [PrecedenceRank.same]

theorem versioned_class : Versioned classKind where
  generation_set _ _ := rfl
  content_set _ _ := rfl
  same_of_content a b h := by
    cases a
    cases b
    simp only [content, classKind, PriorityClassDef.mk.injEq] at h
    simp [classKind, sameClassContent, same_self, h]

theorem versioned_scope : Versioned scopeKind where
  generation_set _ _ := rfl
  content_set _ _ := rfl
  same_of_content a b h := by
    cases a
    cases b
    simp only [content, scopeKind, PolicyScopeDef.mk.injEq] at h
    simp [scopeKind, sameScopeContent, h]

theorem versioned_policy : Versioned policyKind where
  generation_set _ _ := rfl
  content_set _ _ := rfl
  same_of_content a b h := by
    cases a
    cases b
    simp only [content, policyKind, PolicyDef.mk.injEq] at h
    simp [policyKind, samePolicyContent, h]

theorem versioned_subject : Versioned subjectKind where
  generation_set _ _ := rfl
  content_set _ _ := rfl
  same_of_content a b h := by
    cases a
    cases b
    simp only [content, subjectKind, SubjectDef.mk.injEq] at h
    simp [subjectKind, sameSubjectContent, h]

def assignmentVersion (entry : AssignmentEntry) : Nat := entry.assignment.generation.value.toNat

/-- What an assignment says, and whether it is active. -/
def assignmentMeaning (entry : AssignmentEntry) : PriorityAssignment × Bool :=
  ({ entry.assignment with generation := .unset }, entry.active)

theorem sameAssignmentContent_of_eq {a b : PriorityAssignment}
    (h : { a with generation := .unset } = { b with generation := .unset }) :
    sameAssignmentContent a b = true := by
  cases a
  cases b
  simp only [PriorityAssignment.mk.injEq] at h
  simp [sameAssignmentContent, h]

section Assignments

variable {image result : StateImage} {provenance : Provenance}

theorem stepped_of_assignmentAdmitted {a : PriorityAssignment}
    (h : AssignmentAdmitted image a provenance result) :
    Stepped assignmentVersion assignmentMeaning image.assignments result.assignments := by
  cases h with
  | refreshed hfound hsame =>
      apply Stepped.insert
      intro old hold
      rw [hold] at hfound
      cases hfound
      exact .inl ⟨rfl, rfl⟩
  | stored hset hchanged =>
      apply Stepped.insert
      intro old hold
      have hdiffers : (old.active && sameAssignmentContent old.assignment a) = false := by
        simpa [assignmentUnchanged, hold] using hchanged
      have hbump : bumpAssignment image a.id =
          old.assignment.generation.next.getD .unset := by
        simp [bumpAssignment, hold]
      right
      constructor
      · rw [hbump] at hset
        simp only [assignmentVersion, hbump]
        cases hnext : old.assignment.generation.next with
        | none =>
            rw [hnext] at hset
            cases hset
        | some next => exact next_value hnext
      · intro heq
        simp only [assignmentMeaning, Prod.mk.injEq] at heq
        have hsame := sameAssignmentContent_of_eq heq.1.symm
        rw [← heq.2, hsame] at hdiffers
        cases hdiffers

theorem stepped_of_retired {target : PriorityAssignmentId} {entry : AssignmentEntry}
    {generation : Generation} {reason : Bytes} (hactive : entry.active = true)
    (hentry : image.assignments[target]? = some entry)
    (hnext : entry.assignment.generation.next = some generation) :
    Stepped assignmentVersion assignmentMeaning image.assignments
      (image.assignments.insert target { entry with
        assignment := { entry.assignment with generation }
        active := false
        retirementReason := reason
        retiredBy := provenance }) := by
  apply Stepped.insert
  intro old hold
  rw [hold] at hentry
  cases hentry
  refine .inr ⟨next_value hnext, ?_⟩
  intro heq
  simp only [assignmentMeaning, Prod.mk.injEq] at heq
  rw [hactive] at heq
  cases heq.2

end Assignments

/-- One mutation moves a generation exactly when it changes what the entity means. -/
structure SteppedImage (image image' : StateImage) : Prop where
  classes : Stepped (versionOf classKind) (meaningOf classKind) image.classes image'.classes
  scopes : Stepped (versionOf scopeKind) (meaningOf scopeKind) image.scopes image'.scopes
  policies : Stepped (versionOf policyKind) (meaningOf policyKind) image.policies image'.policies
  subjects : Stepped (versionOf subjectKind) (meaningOf subjectKind) image.subjects
    image'.subjects
  assignments : Stepped assignmentVersion assignmentMeaning image.assignments image'.assignments

/-- Later in a run, a generation still means what it meant. -/
structure LaterImage (image image' : StateImage) : Prop where
  classes : Later (versionOf classKind) (meaningOf classKind) image.classes image'.classes
  scopes : Later (versionOf scopeKind) (meaningOf scopeKind) image.scopes image'.scopes
  policies : Later (versionOf policyKind) (meaningOf policyKind) image.policies image'.policies
  subjects : Later (versionOf subjectKind) (meaningOf subjectKind) image.subjects
    image'.subjects
  assignments : Later assignmentVersion assignmentMeaning image.assignments image'.assignments

theorem SteppedImage.refl (image : StateImage) : SteppedImage image image :=
  ⟨.refl _, .refl _, .refl _, .refl _, .refl _⟩

theorem steppedImage_of_performed {image result : StateImage} {mutation : Mutation}
    {provenance : Provenance} (h : Performed image mutation provenance result)
    (hfresh : isIdempotent image mutation = false) : SteppedImage image result := by
  have hkept := SteppedImage.refl image
  cases h with
  | «class» d entry hop hadmitted =>
      exact { hkept with classes := stepped_of_admitted versioned_class hadmitted }
  | scope d entry hop hadmitted =>
      exact { hkept with scopes := stepped_of_admitted versioned_scope hadmitted }
  | policy d entry hop hadmitted =>
      exact { hkept with policies := stepped_of_admitted versioned_policy hadmitted }
  | subject d entry hop hadmitted =>
      exact { hkept with subjects := stepped_of_admitted versioned_subject hadmitted }
  | assign a result hop hadmitted =>
      have hassignments := stepped_of_assignmentAdmitted hadmitted
      cases hadmitted with
      | refreshed hfound hsame => exact { hkept with assignments := hassignments }
      | stored hset hchanged => exact { hkept with assignments := hassignments }
  | retire target entry generation hop hentry hnext =>
      have hactive : entry.active = true := by
        simpa [isIdempotent, hop, hentry] using hfresh
      exact { hkept with assignments := stepped_of_retired hactive hentry hnext }
  | grant hop hpositive hroom => exact { hkept with }
  | fence publisher boot hop => exact { hkept with }
  | advance epoch hop hnext => exact { hkept with }

theorem steppedImage_of_applyMutation {image image' : StateImage} {mutation : Mutation}
    {replay : Bool} (h : applyMutation image mutation replay = (.ok (), image')) :
    SteppedImage image image' := by
  obtain ⟨expected, -, happlied⟩ := applyMutation_eq_ok_iff.mp h
  cases happlied with
  | repeated hidempotent =>
      exact { SteppedImage.refl image with }
  | performed hfresh hperform =>
      have hstep := steppedImage_of_performed (perform_eq_ok hperform) hfresh
      exact { hstep with }

def Accepts (image image' : StateImage) : Prop :=
  ∃ mutation replay, applyMutation image mutation replay = (.ok (), image')

theorem steppedImage_of_accepts {image image' : StateImage} (h : Accepts image image') :
    SteppedImage image image' := by
  obtain ⟨mutation, replay, happly⟩ := h
  exact steppedImage_of_applyMutation happly

/-- At any two points of a run of accepted mutations an identifier with one generation names
one definition, and each mutation moves the generation of an entity by one if and only if it
changes the entity. -/
theorem generation_names_definition {image image' : StateImage}
    (hrun : Relation.ReflTransGen Accepts image image') :
    LaterImage image image' ∧ ∀ next, Accepts image' next → SteppedImage image' next := by
  refine ⟨⟨?_, ?_, ?_, ?_, ?_⟩, fun next hnext => steppedImage_of_accepts hnext⟩
  · exact later_of_run StateImage.classes
      (fun _ _ hstep => (steppedImage_of_accepts hstep).classes) hrun
  · exact later_of_run StateImage.scopes
      (fun _ _ hstep => (steppedImage_of_accepts hstep).scopes) hrun
  · exact later_of_run StateImage.policies
      (fun _ _ hstep => (steppedImage_of_accepts hstep).policies) hrun
  · exact later_of_run StateImage.subjects
      (fun _ _ hstep => (steppedImage_of_accepts hstep).subjects) hrun
  · exact later_of_run StateImage.assignments
      (fun _ _ hstep => (steppedImage_of_accepts hstep).assignments) hrun

theorem accepts_of_isOk {image : StateImage} {mutation : Mutation}
    (h : (applyMutation image mutation true).1.isOk = true) :
    Accepts image (applyMutation image mutation true).2 := by
  refine ⟨mutation, true, ?_⟩
  cases hresult : applyMutation image mutation true with
  | mk status image' =>
      rw [hresult] at h
      cases status with
      | error e => cases h
      | ok u => rfl

/-- The definition of a root scope with this description. -/
def describing (description : Bytes) : Mutation :=
  { op := .defineScope { id := ⟨[97], wellFormed_a⟩, description } }

def described : StateImage := (applyMutation {} (describing []) true).2

def redescribed : StateImage := (applyMutation described (describing [98]) true).2

theorem generation_names_definition_redescribed :
    Accepts described redescribed ∧
      (redescribed.scopes[(⟨[97], wellFormed_a⟩ : PolicyScopeId)]?).map (versionOf scopeKind) =
        some 2 ∧
      LaterImage described redescribed ∧
      ∀ next, Accepts redescribed next → SteppedImage redescribed next := by
  have haccepts : Accepts described redescribed := accepts_of_isOk (by decide)
  exact ⟨haccepts, by decide, generation_names_definition (.single haccepts)⟩

end PriorityFabric.Generations
