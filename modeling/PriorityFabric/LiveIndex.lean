import PriorityFabric.StateRoundTrip
import PriorityFabric.Registry
import PriorityFabric.Decisions

/-!
The index that accepted mutations maintain, against the one that is built anew.
-/

namespace PriorityFabric.LiveIndex

open PriorityFabric.Lib.LittleEndian
open PriorityFabric.Lib.GroupIndex
open PriorityFabric.Basics
open PriorityFabric.Ident
open PriorityFabric.Model
open PriorityFabric.Codec
open PriorityFabric.ModelCodec
open PriorityFabric.State
open PriorityFabric.StateCodec
open PriorityFabric.StateRoundTrip
open PriorityFabric.Apply
open PriorityFabric.ApplyFacts
open PriorityFabric.Bounds
open PriorityFabric.Registry
open PriorityFabric.Evaluate
open PriorityFabric.Decisions

/-- The index lists every assignment once, in order, under the subject it names. -/
def ExactIndex (image : StateImage) : Prop :=
  Exact (fun entry : AssignmentEntry => entry.assignment.subject) image.assignments
    image.assignmentsBySubject

/-- An assignment comes under a new id, or repeats what its id stands for. -/
def AssignsNew (image : StateImage) (mutation : Mutation) : Prop :=
  ∀ a, mutation.op = .assign a → a.id ∈ image.assignments → assignmentUnchanged image a = true

theorem indexed_of_exact {image : StateImage} (h : ExactIndex image) : Indexed image := by
  have hindex : (rebuildIndexes image).assignmentsBySubject = image.assignmentsBySubject :=
    (exact_regroup _ _).unique h
  have hsame : rebuildIndexes image =
      { image with assignmentsBySubject := (rebuildIndexes image).assignmentsBySubject } := rfl
  unfold Indexed
  rw [hsame, hindex]

theorem exactIndex_performed {image result : StateImage} {mutation : Mutation}
    {provenance : Provenance} (h : ExactIndex image) (hnew : AssignsNew image mutation)
    (hperformed : Performed image mutation provenance result) : ExactIndex result := by
  cases hperformed with
  | assign a result hop hadmitted =>
      cases hadmitted with
      | refreshed hold hsame => exact h.insert_same hold rfl
      | stored hset hchanged =>
          have hnone : image.assignments[a.id]? = none := by
            apply Std.ExtTreeMap.getElem?_eq_none
            intro hmem
            rw [hnew a hop hmem] at hchanged
            cases hchanged
          exact h.insert_new _ hnone
  | retire target entry generation hop hentry hnext => exact h.insert_same hentry rfl
  | _ => exact h

theorem exactIndex_applyMutation {image image' : StateImage} {mutation : Mutation}
    {replay : Bool} (h : ExactIndex image) (hnew : AssignsNew image mutation)
    (happly : applyMutation image mutation replay = (.ok (), image')) : ExactIndex image' := by
  obtain ⟨expected, -, happlied⟩ := applyMutation_eq_ok_iff.mp happly
  cases happlied with
  | repeated hrepeated => exact h
  | performed hfresh hperform =>
      have hrecorded : ExactIndex (recordAccepted image mutation expected) := h
      have hperformed := exactIndex_performed hrecorded hnew (perform_eq_ok hperform)
      exact hperformed

/-- The images accepted mutations lead to when no assignment id is published again with
other content. -/
inductive BuiltNew (limits : Limits) : StateImage → Prop
  | empty : BuiltNew limits { limits }
  | accepted {image image' : StateImage} {mutation : Mutation} {replay : Bool}
      (h : BuiltNew limits image) (hnew : AssignsNew image mutation)
      (happly : applyMutation image mutation replay = (.ok (), image')) :
      BuiltNew limits image'

namespace BuiltNew

variable {limits : Limits} {image : StateImage}

theorem built (h : BuiltNew limits image) : Built limits image := by
  induction h with
  | empty => exact .empty
  | accepted h hnew happly ih => exact .accepted ih happly

theorem exactIndex (h : BuiltNew limits image) : ExactIndex image := by
  induction h with
  | empty => exact Exact.empty
  | accepted h hnew happly ih => exact exactIndex_applyMutation ih hnew happly

end BuiltNew

theorem healthDetail_of_built {limits : Limits} {image : StateImage} (h : Built limits image) :
    image.healthDetail = [] := by
  induction h with
  | empty => rfl
  | accepted h happly ih => rw [(applyMutation_frame happly).healthDetail, ih]

/-- The image stays within the length fields of its encoding. -/
structure Encodable (image : StateImage) : Prop where
  length : (encodeState image).length < 2 ^ 32
  details : ∀ entry ∈ image.audit, entry.detail.length < 2 ^ 32

/-- An image with an exact index that reads back at all reads back unchanged. -/
theorem decodeState_eq {limits : Limits} {image decoded : StateImage} (h : Built limits image)
    (hindex : ExactIndex image) (hlimits : limitsWithinCompiledCeiling limits = true)
    (hencodable : Encodable image)
    (hdecode : decodeState (encodeState image) limits = .ok decoded) : decoded = image := by
  have hbounded := h.bounded
  rw [← h.limits_eq] at hlimits hdecode
  have hstored : storedImage image = { image with assignmentsBySubject := ∅ } := by
    have hentry : ∀ entry ∈ image.audit, storedAudit entry = id entry := by
      intro entry hmem
      have hfits := hbounded.audit entry hmem
      have hop : storedText entry.op = entry.op :=
        storedText_of_lt (lt_of_le_of_lt hfits.op (by norm_num [maxOpLength]))
      rw [storedAudit, hop, storedText_of_lt (hencodable.details entry hmem),
        storedProvenance_of_fits hfits.provenance]
      rfl
    have haudit : image.audit.map storedAudit = image.audit := by
      rw [List.map_congr_left hentry, List.map_id]
    have hdetail : storedText image.healthDetail = image.healthDetail := by
      rw [healthDetail_of_built h]
      rfl
    rw [storedImage, haudit, hdetail]
  by_cases hreadable : StateReadable image
  · rw [decodeState_encodeState hbounded hlimits hencodable.length hreadable] at hdecode
    cases hdecode
    rw [hstored]
    exact indexed_of_exact hindex
  · obtain ⟨e, he⟩ := decodeState_refuses hbounded hlimits hencodable.length hreadable
    rw [hdecode] at he
    cases he

/-- While assignment ids are not published again with other content, the index is the one
that is built anew, and a decoded image answers as the live one does. -/
theorem live_index_exact {limits : Limits} {image : StateImage}
    (hlimits : limitsWithinCompiledCeiling limits = true) (h : BuiltNew limits image) :
    rebuildIndexes image = image ∧ ExactIndex image ∧
      (Encodable image → ∀ decoded query,
        decodeState (encodeState image) limits = .ok decoded →
        evaluateQuery decoded query = evaluateQuery image query) := by
  refine ⟨indexed_of_exact h.exactIndex, h.exactIndex, ?_⟩
  intro hencodable decoded query hdecode
  rw [decodeState_eq h.built h.exactIndex hlimits hencodable hdecode]

def firstSubject : SubjectId := ⟨[97], wellFormed_a⟩
def secondSubject : SubjectId := ⟨[98], wellFormed_b⟩

def someScope : Mutation where
  op := .defineScope { id := ⟨[97], wellFormed_a⟩ }
  system := true

def subjectNamed (id : SubjectId) : Mutation where
  op := .defineSubject { id }
  system := true

def assignTo (subject : SubjectId) : Mutation where
  op := .assign
    { id := ⟨[97], wellFormed_a⟩, subject, subjectGeneration := .first
      scope := ⟨[97], wellFormed_a⟩, scopeGeneration := .first
      cls := ⟨[108], wellFormed_l⟩, classGeneration := .first }
  system := true

def after (image : StateImage) (mutation : Mutation) : StateImage :=
  (applyMutation image mutation false).2

def registry : StateImage :=
  after (after (after (after {} oneClass) someScope) (subjectNamed firstSubject))
    (subjectNamed secondSubject)

def assigned : StateImage := after registry (assignTo firstSubject)

def moved : StateImage := after assigned (assignTo secondSubject)

theorem accepted_after {image : StateImage} {mutation : Mutation}
    (h : (applyMutation image mutation false).1 = .ok ()) :
    applyMutation image mutation false = (.ok (), after image mutation) :=
  Prod.ext h rfl

theorem builtNew_assigned : BuiltNew {} assigned := by
  have hclass : BuiltNew {} (after {} oneClass) :=
    .accepted .empty (by rintro a ⟨⟩) (accepted_after (by decide))
  have hscope : BuiltNew {} (after (after {} oneClass) someScope) :=
    .accepted hclass (by rintro a ⟨⟩) (accepted_after (by decide))
  have hfirst := BuiltNew.accepted hscope (by rintro a ⟨⟩)
    (accepted_after (by decide : (applyMutation _ (subjectNamed firstSubject) false).1 = _))
  have hsecond : BuiltNew {} registry := .accepted hfirst (by rintro a ⟨⟩)
    (accepted_after
      (by decide : (applyMutation _ (subjectNamed secondSubject) false).1 = _))
  refine .accepted hsecond ?_ (accepted_after (by decide))
  rintro a ⟨⟩ hmem
  exact absurd hmem (by decide)

theorem live_index_exact_assigned :
    assigned.assignments.size = 1 ∧ rebuildIndexes assigned = assigned :=
  ⟨by decide, (live_index_exact (by decide) builtNew_assigned).1⟩

theorem moved_assignment_stays_indexed :
    ¬ ∀ (limits : Limits) (image : StateImage), limitsWithinCompiledCeiling limits = true →
      Built limits image → rebuildIndexes image = image := by
  intro hclaim
  have hbuilt : Built {} moved :=
    .accepted builtNew_assigned.built (accepted_after (by decide))
  have hindexed := hclaim {} moved (by decide) hbuilt
  have hbucket := congrArg
    (fun image : StateImage => image.assignmentsBySubject.getD firstSubject []) hindexed
  exact absurd hbucket (by decide)

end PriorityFabric.LiveIndex
