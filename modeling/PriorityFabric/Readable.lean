import PriorityFabric.Store

/-!
When a journaled mutation reads back.

The validator bounds most of what a mutation carries, but not every identifier
and not every reason.  `RecordFits` is what remains to be asked for.
-/

namespace PriorityFabric.Readable

open PriorityFabric.Lib.LittleEndian
open PriorityFabric.Basics
open PriorityFabric.Ident
open PriorityFabric.Model
open PriorityFabric.Codec
open PriorityFabric.Codec.Decoder (IdReadable)
open PriorityFabric.ModelCodec
open PriorityFabric.State
open PriorityFabric.StateCodec
open PriorityFabric.Validate
open PriorityFabric.Store

/-- The identifiers an operation writes into its record. -/
def opIds : MutationOp → List Bytes
  | .defineClass d => d.id.value :: d.inheritsFrom.map (·.value)
  | .defineScope d =>
      d.id.value :: (d.parent.toList.map (·.value) ++ d.unknownDefault.toList.map (·.value))
  | .definePolicy d =>
      d.id.value :: d.scope.value ::
        (d.visibleClasses.map (·.value) ++ d.unknownDefault.toList.map (·.value))
  | .defineSubject d => d.id.value :: d.inheritsFrom.map (·.value)
  | .assign a =>
      a.id.value :: a.subject.value :: a.scope.value :: a.cls.value ::
        (a.displaces.toList.map (·.value) ++ a.policy.toList.map (·.value))
  | .retireAssignment target => [target.value]
  | .grantAuthority => []
  | .fenceAuthority publisher _ => [publisher.value]
  | .advanceEpoch => []

/-- Every identifier of the record is set and within the length limit, and so is
the reason. -/
structure RecordFits (limits : Limits) (mutation : Mutation) : Prop where
  ids : ∀ id ∈ mutation.publisher.value :: opIds mutation.op,
    id ≠ [] ∧ id.length ≤ limits.maxIdLength
  reason : mutation.reason.length ≤ limits.maxNoteLength

/-- The bounds validation puts on what an operation carries. -/
def OpSized (limits : Limits) : MutationOp → Prop
  | .defineClass d =>
      d.precedence.assigned = true ∧ d.precedence.value.toNat ≤ PrecedenceRank.maxRank ∧
        d.description.length ≤ limits.maxDescriptionLength ∧
        d.inheritsFrom.length ≤ limits.maxInheritsFrom
  | .defineScope d => d.description.length ≤ limits.maxDescriptionLength
  | .definePolicy d =>
      d.description.length ≤ limits.maxDescriptionLength ∧
        d.visibleClasses.length ≤ limits.maxPolicyClasses
  | .defineSubject d =>
      d.description.length ≤ limits.maxDescriptionLength ∧
        d.inheritsFrom.length ≤ limits.maxInheritsFrom
  | .assign a => a.note.length ≤ limits.maxNoteLength
  | _ => True

theorem length_le_of_checkTextBounds {value what : Bytes} {limit : Nat} {u : Unit}
    (h : checkTextBounds value limit what = .ok u) : value.length ≤ limit := by
  simp only [checkTextBounds, bind_eq_ok, failIf_eq_ok, exists_const, gt_iff_lt,
    not_lt] at h
  exact h.1

theorem opSized_of_validateMutation {image : StateImage} {mutation : Mutation}
    (h : validateMutation image mutation = .ok ()) :
    OpSized image.limits mutation.op := by
  obtain ⟨op⟩ := mutation
  cases op with
  | defineClass d =>
      simp only [validateMutation, validateClass, validateInheritance, bind_eq_ok,
        failIf_eq_ok, exists_const, gt_iff_lt, not_lt, Bool.not_eq_false] at h
      obtain ⟨-, hdeclared, hrank, u, htext, v, ⟨hcount, -⟩, -⟩ := h
      exact ⟨hdeclared, hrank, length_le_of_checkTextBounds htext, hcount⟩
  | defineScope d =>
      simp only [validateMutation, validateScope, bind_eq_ok, failIf_eq_ok,
        exists_const] at h
      obtain ⟨-, u, htext, -⟩ := h
      exact length_le_of_checkTextBounds htext
  | definePolicy d =>
      simp only [validateMutation, validatePolicy, bind_eq_ok, failIf_eq_ok,
        exists_const] at h
      obtain ⟨-, u, htext, hscope⟩ := h
      cases hfind : image.scopes[d.scope]? with
      | none => simp [hfind] at hscope
      | some scope =>
          simp only [hfind, bind_eq_ok, failIf_eq_ok, exists_const, gt_iff_lt,
            not_lt] at hscope
          exact ⟨length_le_of_checkTextBounds htext, hscope.2.1⟩
  | defineSubject d =>
      simp only [validateMutation, validateSubject, validateSubjectInheritance,
        bind_eq_ok, failIf_eq_ok, exists_const, gt_iff_lt, not_lt] at h
      obtain ⟨-, u, htext, v, ⟨hcount, -⟩, -⟩ := h
      exact ⟨length_le_of_checkTextBounds htext, hcount⟩
  | assign a =>
      simp only [validateMutation, validateAssignment, bind_eq_ok, failIf_eq_ok,
        exists_const] at h
      obtain ⟨-, u, htext, -⟩ := h
      exact length_le_of_checkTextBounds htext
  | retireAssignment target => trivial
  | grantAuthority => trivial
  | fenceAuthority publisher boot => trivial
  | advanceEpoch => trivial

/-- Identifiers that are set and short enough. -/
def IdsFit (limits : Limits) (ids : List Bytes) : Prop :=
  ∀ id ∈ ids, id ≠ [] ∧ id.length ≤ limits.maxIdLength

theorem storedText_of_le {value : Bytes} {limit : Nat} (hlimit : limit ≤ 1024)
    (h : value.length ≤ limit) : storedText value = value :=
  storedText_of_lt (by omega)

section Bounded

variable {limits : Limits}

theorem storedOp_of_opSized {op : MutationOp}
    (hlimits : limitsWithinCompiledCeiling limits = true) (h : OpSized limits op) :
    storedOp op = op := by
  obtain ⟨-, hdescription, hnote, -⟩ := limits_bounds_of_within hlimits
  cases op with
  | defineClass d =>
      obtain ⟨hassigned, -, htext, -⟩ := h
      have hrank : storedRank d.precedence = d.precedence := by
        simp [storedRank, hassigned]
      simp only [storedOp, storedClass, hrank, storedText_of_le hdescription htext]
  | defineScope d =>
      simp only [storedOp, storedScope, storedText_of_le hdescription h]
  | definePolicy d =>
      simp only [storedOp, storedPolicy, storedText_of_le hdescription h.1]
  | defineSubject d =>
      simp only [storedOp, storedSubject, storedText_of_le hdescription h.1]
  | assign a =>
      simp only [storedOp, storedAssignment,
        storedText_of_le (hnote.trans (by norm_num)) h]
  | retireAssignment target => rfl
  | grantAuthority => rfl
  | fenceAuthority publisher boot => rfl
  | advanceEpoch => rfl

/-! What is bounded otherwise reads back if and only if its identifiers fit. -/

theorem classReadable_iff {d : PriorityClassDef} (hrank : RankReadable d.precedence)
    (htext : d.description.length ≤ limits.maxDescriptionLength)
    (hcount : d.inheritsFrom.length ≤ limits.maxInheritsFrom) :
    ClassReadable limits d ↔ IdsFit limits (opIds (.defineClass d)) := by
  simp only [ClassReadable, IdReadable, IdListReadable, IdsFit, opIds,
    List.forall_mem_cons, List.forall_mem_map]
  constructor
  · rintro ⟨hid, -, ⟨-, hparents⟩, -⟩
    exact ⟨hid, hparents⟩
  · rintro ⟨hid, hparents⟩
    exact ⟨hid, hrank, ⟨hcount, hparents⟩, htext⟩

theorem scopeReadable_iff {d : PolicyScopeDef}
    (htext : d.description.length ≤ limits.maxDescriptionLength) :
    ScopeReadable limits d ↔ IdsFit limits (opIds (.defineScope d)) := by
  simp only [ScopeReadable, IdReadable, IdsFit, opIds, List.forall_mem_cons,
    List.forall_mem_append, List.forall_mem_map, Option.mem_toList]
  constructor
  · rintro ⟨hid, hparent, hdefault, -⟩
    exact ⟨hid, hparent, hdefault⟩
  · rintro ⟨hid, hparent, hdefault⟩
    exact ⟨hid, hparent, hdefault, htext⟩

theorem policyReadable_iff {d : PolicyDef}
    (htext : d.description.length ≤ limits.maxDescriptionLength)
    (hcount : d.visibleClasses.length ≤ limits.maxPolicyClasses) :
    PolicyReadable limits d ↔ IdsFit limits (opIds (.definePolicy d)) := by
  simp only [PolicyReadable, IdReadable, IdListReadable, IdsFit, opIds,
    List.forall_mem_cons, List.forall_mem_append, List.forall_mem_map, Option.mem_toList]
  constructor
  · rintro ⟨hid, hscope, ⟨-, hvisible⟩, hdefault, -⟩
    exact ⟨hid, hscope, hvisible, hdefault⟩
  · rintro ⟨hid, hscope, hvisible, hdefault⟩
    exact ⟨hid, hscope, ⟨hcount, hvisible⟩, hdefault, htext⟩

theorem subjectReadable_iff {d : SubjectDef}
    (htext : d.description.length ≤ limits.maxDescriptionLength)
    (hcount : d.inheritsFrom.length ≤ limits.maxInheritsFrom) :
    SubjectReadable limits d ↔ IdsFit limits (opIds (.defineSubject d)) := by
  simp only [SubjectReadable, IdReadable, IdListReadable, IdsFit, opIds,
    List.forall_mem_cons, List.forall_mem_map]
  constructor
  · rintro ⟨hid, ⟨-, hparents⟩, -⟩
    exact ⟨hid, hparents⟩
  · rintro ⟨hid, hparents⟩
    exact ⟨hid, ⟨hcount, hparents⟩, htext⟩

theorem assignmentReadable_iff {a : PriorityAssignment}
    (htext : a.note.length ≤ limits.maxNoteLength) :
    AssignmentReadable limits a ↔ IdsFit limits (opIds (.assign a)) := by
  simp only [AssignmentReadable, IdReadable, IdsFit, opIds, List.forall_mem_cons,
    List.forall_mem_append, List.forall_mem_map, Option.mem_toList]
  constructor
  · rintro ⟨hid, hsubject, hscope, hcls, hdisplaces, hpolicy, -⟩
    exact ⟨hid, hsubject, hscope, hcls, hdisplaces, hpolicy⟩
  · rintro ⟨hid, hsubject, hscope, hcls, hdisplaces, hpolicy⟩
    exact ⟨hid, hsubject, hscope, hcls, hdisplaces, hpolicy, htext⟩

/-- For a validated operation whose record is small enough, the decoder asks for
nothing but its identifiers. -/
theorem opReadable_iff {op : MutationOp} (hsized : OpSized limits op)
    (hlength : (encodeOp op).length ≤ limits.maxRecordPayload) :
    OpReadable limits op ↔ IdsFit limits (opIds op) := by
  cases op with
  | defineClass d =>
      obtain ⟨-, hrank, htext, hcount⟩ := hsized
      simp only [encodeOp, length_encodeBlob] at hlength
      rw [OpReadable, classReadable_iff (fun _ => hrank) htext hcount]
      exact and_iff_right (by omega)
  | defineScope d =>
      simp only [encodeOp, length_encodeBlob] at hlength
      rw [OpReadable, scopeReadable_iff hsized]
      exact and_iff_right (by omega)
  | definePolicy d =>
      simp only [encodeOp, length_encodeBlob] at hlength
      rw [OpReadable, policyReadable_iff hsized.1 hsized.2]
      exact and_iff_right (by omega)
  | defineSubject d =>
      simp only [encodeOp, length_encodeBlob] at hlength
      rw [OpReadable, subjectReadable_iff hsized.1 hsized.2]
      exact and_iff_right (by omega)
  | assign a =>
      simp only [encodeOp, length_encodeBlob] at hlength
      rw [OpReadable, assignmentReadable_iff hsized]
      exact and_iff_right (by omega)
  | retireAssignment target => simp [OpReadable, IdReadable, IdsFit, opIds]
  | grantAuthority => simp [OpReadable, IdsFit, opIds]
  | fenceAuthority publisher boot => simp [OpReadable, IdReadable, IdsFit, opIds]
  | advanceEpoch => simp [OpReadable, IdsFit, opIds]

end Bounded

/-- The generation a commit plans for a mutation. -/
def plannedGeneration (live : StateImage) (mutation : Mutation) : Generation :=
  if Apply.isIdempotent live mutation then live.generation
  else live.generation.next.getD .unset

structure Planned (store : DurableStore) (live : StateImage) (mutation planned : Mutation) :
    Prop where
  opened : store.isOpen = true
  healthy : live.health = .healthy
  valid : validateMutation live mutation = .ok ()
  planned_eq : planned = { mutation with
    resultingGeneration := plannedGeneration live mutation }
  generation_set : (plannedGeneration live mutation).isSet = true
  payload_le : (encodeMutation planned).length ≤ store.options.limits.maxRecordPayload
  growth_le : store.durableBytes +
    Durability.journalRecordBytes (encodeMutation planned).length +
    Durability.journalRecordBytes 40 ≤ store.options.limits.maxStateBytes

theorem planCommit_eq_ok_iff {store : DurableStore} {live : StateImage}
    {mutation planned : Mutation} :
    planCommit store live mutation = .ok planned ↔ Planned store live mutation planned := by
  simp only [planCommit, bind_eq_ok, failIf_eq_ok, exists_const, Bool.not_eq_false,
    gt_iff_lt, not_lt, not_not, pure, Except.pure, Except.ok.injEq, ne_eq]
  constructor
  · rintro ⟨hopen, hhealth, u, hvalid, hset, hpayload, hgrowth, rfl⟩
    exact ⟨hopen, hhealth, hvalid, rfl, hset, hpayload, hgrowth⟩
  · rintro ⟨hopen, hhealth, hvalid, rfl, hset, hpayload, hgrowth⟩
    exact ⟨hopen, hhealth, (), hvalid, hset, hpayload, hgrowth, rfl⟩

theorem Planned.op_eq {store : DurableStore} {live : StateImage}
    {mutation planned : Mutation} (h : Planned store live mutation planned) :
    planned.op = mutation.op := by
  rw [h.planned_eq]

/-- The plan as it reads back: nothing but the system mark is dropped. -/
def withoutSystem (mutation : Mutation) : Mutation := { mutation with system := false }

theorem decodeMutation_planned_iff {store : DurableStore} {live : StateImage}
    {mutation planned : Mutation}
    (hlimits : limitsWithinCompiledCeiling store.options.limits = true)
    (hlive : live.limits = store.options.limits)
    (h : Planned store live mutation planned) :
    decodeMutation (encodeMutation planned) store.options.limits =
      .ok (withoutSystem planned) ↔ RecordFits store.options.limits planned := by
  obtain ⟨-, -, hnote, hrecord, -⟩ := limits_bounds_of_within hlimits
  have hlength : (encodeMutation planned).length < 2 ^ 32 :=
    lt_of_le_of_lt (h.payload_le.trans hrecord) (by norm_num)
  have hsized : OpSized store.options.limits planned.op := by
    rw [h.op_eq, ← hlive]
    exact opSized_of_validateMutation h.valid
  have hop := storedOp_of_opSized hlimits hsized
  have hids := opReadable_iff hsized ((length_encodeOp_le planned).trans h.payload_le)
  have hreadable : MutationReadable store.options.limits (storedMutation planned) ↔
      IdsFit store.options.limits (planned.publisher.value :: opIds planned.op) ∧
        (storedText planned.reason).length ≤ store.options.limits.maxNoteLength := by
    simp only [MutationReadable, storedMutation, hop, hids, IdReadable, IdsFit,
      List.forall_mem_cons]
    tauto
  have hstored (hreason : storedText planned.reason = planned.reason) :
      storedMutation planned = withoutSystem planned := by
    simp only [storedMutation, withoutSystem, hop, hreason]
  constructor
  · intro hdecode
    by_cases hread : MutationReadable store.options.limits (storedMutation planned)
    · rw [decodeMutation_encodeMutation hlength hread] at hdecode
      have hreason : storedText planned.reason = planned.reason :=
        congrArg Mutation.reason (Except.ok.inj hdecode)
      obtain ⟨hfit, htext⟩ := hreadable.mp hread
      rw [hreason] at htext
      exact ⟨hfit, htext⟩
    · obtain ⟨e, he⟩ := decodeMutation_refuses hlength hread
      rw [he] at hdecode
      cases hdecode
  · intro hfits
    have hreason := storedText_of_le (hnote.trans (by norm_num)) hfits.reason
    have hread := hreadable.mpr ⟨hfits.ids, by rw [hreason]; exact hfits.reason⟩
    rw [decodeMutation_encodeMutation hlength hread, hstored hreason]

end PriorityFabric.Readable
