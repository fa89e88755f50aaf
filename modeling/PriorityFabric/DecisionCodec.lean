import PriorityFabric.Bounds
import PriorityFabric.Evaluate

/-!
The decoder of decisions.

Every text and every list of a decision has a bound of its own in the decoder.  A decision
within all of them reads back as it was written.
-/

namespace PriorityFabric.DecisionCodec

open PriorityFabric.Lib.LittleEndian
open PriorityFabric.Lib.ByteReader
open PriorityFabric.Basics
open PriorityFabric.Ident
open PriorityFabric.Hashing
open PriorityFabric.Model
open PriorityFabric.Codec
open PriorityFabric.Codec.Decoder (IdReadable readsIff_id readsIff_u8 readsIff_u32 readsIff_u64
  readsIff_boolean readsIff_str readsIff_str_of_lt readsIff_optional readsIff_enum readsIff_blob)
open PriorityFabric.ModelCodec
open PriorityFabric.Bounds

def maxChainSteps : Nat := 4096

/-- Bounds of short texts and of provenance blobs. -/
def maxCode : Nat := 64
def maxProvenanceBlob : Nat := 4096

def Outcome.ofNat? (n : Nat) : Option Outcome :=
  [.assigned, .inherited, .overridden, .conflict, .unknown, .stale, .fenced, .rejected][n]?

def decodeWholeProvenance (limits : Limits) : Decoder Provenance :=
  Decoder.blob maxProvenanceBlob (Decoder.run (decodeProvenance limits))

def decodeExplanationStep (limits : Limits) : Decoder ExplanationStep := do
  let stage ← Decoder.str maxCode
  let code ← Decoder.str maxCode
  let detail ← Decoder.str limits.maxDescriptionLength
  let assignment ← Decoder.optional (Decoder.id limits)
  let assignmentGeneration ← Decoder.u64
  let cls ← Decoder.optional (Decoder.id limits)
  let classGeneration ← Decoder.u64
  let scope ← Decoder.optional (Decoder.id limits)
  let policy ← Decoder.optional (Decoder.id limits)
  let provenance ← decodeWholeProvenance limits
  return { stage, code, detail, assignment, assignmentGeneration := ⟨assignmentGeneration⟩,
           cls, classGeneration := ⟨classGeneration⟩, scope, policy, provenance }

def decodeEvidenceNote (limits : Limits) : Decoder EvidenceNote := do
  let assignment ← Decoder.id limits
  let assignmentGeneration ← Decoder.u64
  let cls ← Decoder.id limits
  let classGeneration ← Decoder.u64
  let scope ← Decoder.id limits
  let viaSubject ← Decoder.optional (Decoder.id limits)
  let reasonCode ← Decoder.str maxCode
  let reason ← Decoder.str limits.maxDescriptionLength
  let provenance ← decodeWholeProvenance limits
  return { assignment, assignmentGeneration := ⟨assignmentGeneration⟩, cls,
           classGeneration := ⟨classGeneration⟩, scope, viaSubject, reasonCode, reason,
           provenance }

def decodeList {α : Type} (bound : Nat) (tooMany : Nat → Bytes) (item : Decoder α) :
    Decoder (List α) := do
  let count ← Decoder.u32
  refuseIf (count > bound) (makeError .limitExceeded (tooMany count))
  readFold count (fun out => do
    let x ← item
    return out ++ [x]) []

def readDecision (limits : Limits) : Decoder PriorityDecision := do
  let outcome ← Decoder.enum Outcome.ofNat? (text "outcome")
  let authoritative ← Decoder.boolean
  let cls ← Decoder.optional (Decoder.id limits)
  let classGeneration ← Decoder.u64
  let precedence ← decodePrecedence
  let chain ← decodeList limits.maxExplanationSteps
    (fun count => text "decision carries " ++ decimal count ++
      text " explanation steps, limit is " ++ decimal limits.maxExplanationSteps)
    (decodeExplanationStep limits)
  let superseded ← decodeList maxChainSteps
    (fun _ => text "decision carries too many superseded notes") (decodeEvidenceNote limits)
  let rejectedEvidence ← decodeList maxChainSteps
    (fun _ => text "decision carries too many rejected notes") (decodeEvidenceNote limits)
  let conflicts ← decodeList maxChainSteps
    (fun _ => text "decision carries too many conflict notes")
    (Decoder.str limits.maxDescriptionLength)
  let reasonCode ← Decoder.str maxCode
  let reason ← Decoder.str limits.maxDescriptionLength
  let resolution ← Decoder.str maxCode
  let epoch ← Decoder.u64
  let stateGeneration ← Decoder.u64
  let policyGeneration ← Decoder.u64
  let scopeGeneration ← Decoder.u64
  let digest ← decodeDigest
  let privilegedClass ← Decoder.boolean
  return { outcome, authoritative, cls := cls.getD {}, classGeneration := ⟨classGeneration⟩,
           precedence, chain, superseded, rejectedEvidence, conflicts, reasonCode, reason,
           resolution, epoch := ⟨epoch⟩, stateGeneration := ⟨stateGeneration⟩,
           policyGeneration := ⟨policyGeneration⟩, scopeGeneration := ⟨scopeGeneration⟩,
           digest, privilegedClass }

def decodeDecision (payload : Bytes) (limits : Limits) : Result PriorityDecision :=
  Decoder.run (readDecision limits) payload

/-- The provenance of a piece of evidence. -/
structure ProvenanceWithin (limits : Limits) (provenance : Provenance) : Prop where
  publisher : provenance.publisher.value.length ≤ limits.maxIdLength
  op : provenance.op.length ≤ maxOpLength

structure StepWithin (limits : Limits) (step : ExplanationStep) : Prop where
  stage : step.stage.length ≤ maxCode
  code : step.code.length ≤ maxCode
  detail : step.detail.length ≤ limits.maxDescriptionLength
  assignment : ∀ id, step.assignment = some id → IdReadable limits id
  cls : ∀ id, step.cls = some id → IdReadable limits id
  scope : ∀ id, step.scope = some id → IdReadable limits id
  policy : ∀ id, step.policy = some id → IdReadable limits id
  provenance : ProvenanceWithin limits step.provenance

structure NoteWithin (limits : Limits) (note : EvidenceNote) : Prop where
  assignment : IdReadable limits note.assignment
  cls : IdReadable limits note.cls
  scope : IdReadable limits note.scope
  viaSubject : ∀ id, note.viaSubject = some id → IdReadable limits id
  reasonCode : note.reasonCode.length ≤ maxCode
  reason : note.reason.length ≤ limits.maxDescriptionLength
  provenance : ProvenanceWithin limits note.provenance

structure DecisionWithin (limits : Limits) (room : Nat) (decision : PriorityDecision) : Prop where
  cls : decision.cls.value.length ≤ limits.maxIdLength
  precedence : RankFits decision.precedence
  chainLength : decision.chain.length ≤ limits.maxExplanationSteps
  chain : ∀ step ∈ decision.chain, StepWithin limits step
  supersededLength : decision.superseded.length ≤ maxChainSteps
  superseded : ∀ note ∈ decision.superseded, NoteWithin limits note
  rejectedLength : decision.rejectedEvidence.length ≤ maxChainSteps
  rejected : ∀ note ∈ decision.rejectedEvidence, NoteWithin limits note
  conflictsLength : decision.conflicts.length ≤ maxChainSteps
  conflicts : ∀ conflict ∈ decision.conflicts, conflict.length ≤ limits.maxDescriptionLength
  reasonCode : decision.reasonCode.length ≤ maxCode
  reason : decision.reason.length ≤ limits.maxDescriptionLength
  resolution : decision.resolution.length ≤ room

section Reading

variable {limits : Limits}

theorem reads_str {bound : Nat} {s : Bytes} (h : s.length ≤ bound) (hbound : bound < 2 ^ 32) :
    ReadsIff (Decoder.str bound) (Encoder.str s) s True :=
  (readsIff_str_of_lt (by omega)).congr (iff_true_intro h)

theorem reads_optionalId {tag : IdTag} {value : Option (BasicId tag)}
    (h : ∀ id, value = some id → IdReadable limits id) :
    ReadsIff (Decoder.optional (Decoder.id limits)) (Encoder.optional encodeId value) value
      True :=
  (readsIff_optional fun id _ => readsIff_id limits id).congr (iff_true_intro h)

theorem reads_id {tag : IdTag} {id : BasicId tag} (h : IdReadable limits id) :
    ReadsIff (Decoder.id limits) (encodeId id) id True :=
  (readsIff_id limits id).congr (iff_true_intro h)

theorem getD_valid {tag : IdTag} (id : BasicId tag) :
    (if id.valid then some id else none).getD {} = id := by
  split
  · rfl
  · rename_i h
    have hempty : id.value = [] := by simpa [BasicId.valid] using h
    exact BasicId.ext hempty.symm

theorem readable_of_valid {tag : IdTag} {id : BasicId tag} {found : BasicId tag}
    (hlength : id.value.length ≤ limits.maxIdLength)
    (h : (if id.valid then some id else none) = some found) : IdReadable limits found := by
  split at h
  · rename_i hvalid
    cases h
    exact ⟨(BasicId.valid_iff _).mp hvalid, hlength⟩
  · cases h

theorem reads_provenance (hid : limits.maxIdLength ≤ 128) {provenance : Provenance}
    (h : ProvenanceWithin limits provenance) :
    ReadsIff (decodeWholeProvenance limits) (Encoder.str (encodeProvenance provenance))
      provenance True := by
  have hop : storedText provenance.op = provenance.op :=
    storedText_of_lt (lt_of_le_of_lt h.op (by norm_num [maxOpLength]))
  have hstored : storedProvenance provenance = provenance := by
    rw [storedProvenance, hop]
  have hread := readsIff_decodeProvenance limits provenance
  rw [hstored] at hread
  have hpublisher := h.publisher
  have hlength : (encodeProvenance provenance).length ≤ maxProvenanceBlob := by
    have hshort := h.op
    rw [length_encodeProvenance, hop]
    simp only [maxOpLength, maxProvenanceBlob] at hshort ⊢
    split <;> omega
  have hlt : (encodeProvenance provenance).length < 2 ^ 32 := by
    simp only [maxProvenanceBlob] at hlength
    omega
  refine (readsIff_blob hlt (Decoder.run_of_readsIff hread)
    (Decoder.run_refuses_of_readsIff hread)).congr ?_
  exact iff_true_intro ⟨hlength, h.publisher, h.op⟩

theorem reads_list {α : Type} {bound : Nat} (tooMany : Nat → Bytes) {item : Decoder α}
    {enc : α → Bytes} {items : List α} (hlength : items.length ≤ bound) (hbound : bound < 2 ^ 32)
    (hitem : ∀ x ∈ items, ReadsIff item (enc x) x True) :
    ReadsIff (decodeList bound tooMany item) (Encoder.u32 items.length ++ items.flatMap enc)
      items True := by
  have hstep : ∀ out : List α, ∀ x ∈ items, ReadsIff (do
      let x ← item
      return out ++ [x]) (enc x) (out ++ [x]) True :=
    fun out x hx => (hitem x hx).map
  have hfold := ReadsIff.fold items hstep []
  rw [foldl_push, List.nil_append] at hfold
  refine ReadsIff.congr (ReadsIff.bind_true (readsIff_u32 (by omega))
    (ReadsIff.guard fun _ => hfold)) ?_
  simp [foldAll_iff_forall, hlength]

variable (hid : limits.maxIdLength ≤ 128) (hdescription : limits.maxDescriptionLength < 2 ^ 32)
include hid hdescription

theorem reads_explanationStep {step : ExplanationStep} (h : StepWithin limits step) :
    ReadsIff (decodeExplanationStep limits) (encodeExplanationStep step) step True :=
  ReadsIff.congr (ReadsIff.bind_true (reads_str h.stage (by norm_num [maxCode])) <|
    ReadsIff.bind_true (reads_str h.code (by norm_num [maxCode])) <|
    ReadsIff.bind_true (reads_str h.detail hdescription) <|
    ReadsIff.bind_true (reads_optionalId h.assignment) <|
    ReadsIff.bind_true (readsIff_u64 _) <|
    ReadsIff.bind_true (reads_optionalId h.cls) <|
    ReadsIff.bind_true (readsIff_u64 _) <|
    ReadsIff.bind_true (reads_optionalId h.scope) <|
    ReadsIff.bind_true (reads_optionalId h.policy) <|
    ReadsIff.bind_last (reads_provenance hid h.provenance) fun _ => ReadsIff.pure_of_eq rfl)
    (and_self_iff)

theorem reads_evidenceNote {note : EvidenceNote} (h : NoteWithin limits note) :
    ReadsIff (decodeEvidenceNote limits) (encodeEvidenceNote note) note True :=
  ReadsIff.congr (ReadsIff.bind_true (reads_id h.assignment) <|
    ReadsIff.bind_true (readsIff_u64 _) <|
    ReadsIff.bind_true (reads_id h.cls) <|
    ReadsIff.bind_true (readsIff_u64 _) <|
    ReadsIff.bind_true (reads_id h.scope) <|
    ReadsIff.bind_true (reads_optionalId h.viaSubject) <|
    ReadsIff.bind_true (reads_str h.reasonCode (by norm_num [maxCode])) <|
    ReadsIff.bind_true (reads_str h.reason hdescription) <|
    ReadsIff.bind_last (reads_provenance hid h.provenance) fun _ => ReadsIff.pure_of_eq rfl)
    (and_self_iff)

theorem reads_decision (hsteps : limits.maxExplanationSteps < 2 ^ 32)
    {decision : PriorityDecision} (h : DecisionWithin limits maxCode decision) :
    ReadsIff (readDecision limits) (encodeDecision decision) decision True := by
  have houtcome : ReadsIff (Decoder.enum Outcome.ofNat? (text "outcome"))
      (Encoder.u8 decision.outcome.toNat) decision.outcome True :=
    readsIff_enum _ (by cases decision.outcome <;> decide) (by cases decision.outcome <;> rfl)
  have hrank : ReadsIff decodePrecedence (encodePrecedence decision.precedence)
      decision.precedence True := by
    have hread := readsIff_decodePrecedence decision.precedence
    rw [h.precedence.2] at hread
    exact hread.congr (iff_true_intro h.precedence.1)
  have hchain : maxChainSteps < 2 ^ 32 := by norm_num [maxChainSteps]
  have hcode : maxCode < 2 ^ 32 := by norm_num [maxCode]
  have hbytes : encodeDecision decision = Encoder.u8 decision.outcome.toNat ++
      (Encoder.boolean decision.authoritative ++
      (Encoder.optional encodeId (if decision.cls.valid then some decision.cls else none) ++
      (Encoder.u64 decision.classGeneration.value ++
      (encodePrecedence decision.precedence ++
      ((Encoder.u32 decision.chain.length ++ decision.chain.flatMap encodeExplanationStep) ++
      ((Encoder.u32 decision.superseded.length ++
        decision.superseded.flatMap encodeEvidenceNote) ++
      ((Encoder.u32 decision.rejectedEvidence.length ++
        decision.rejectedEvidence.flatMap encodeEvidenceNote) ++
      ((Encoder.u32 decision.conflicts.length ++ decision.conflicts.flatMap Encoder.str) ++
      (Encoder.str decision.reasonCode ++
      (Encoder.str decision.reason ++
      (Encoder.str decision.resolution ++
      (Encoder.u64 decision.epoch.value ++
      (Encoder.u64 decision.stateGeneration.value ++
      (Encoder.u64 decision.policyGeneration.value ++
      (Encoder.u64 decision.scopeGeneration.value ++
      (encodeDigest decision.digest ++
      Encoder.boolean decision.privilegedClass)))))))))))))))) := by
    simp only [encodeDecision, List.append_assoc]
  rw [hbytes]
  refine ReadsIff.congr (ReadsIff.bind_true houtcome <|
    ReadsIff.bind_true (readsIff_boolean _) <|
    ReadsIff.bind_true (reads_optionalId fun id hid => readable_of_valid h.cls hid) <|
    ReadsIff.bind_true (readsIff_u64 _) <|
    ReadsIff.bind_true hrank <|
    ReadsIff.bind_true (reads_list _ h.chainLength hsteps
      fun step hstep => reads_explanationStep hid hdescription (h.chain step hstep)) <|
    ReadsIff.bind_true (reads_list _ h.supersededLength hchain
      fun note hnote => reads_evidenceNote hid hdescription (h.superseded note hnote)) <|
    ReadsIff.bind_true (reads_list _ h.rejectedLength hchain
      fun note hnote => reads_evidenceNote hid hdescription (h.rejected note hnote)) <|
    ReadsIff.bind_true (reads_list _ h.conflictsLength hchain
      fun conflict hconflict => reads_str (h.conflicts conflict hconflict) hdescription) <|
    ReadsIff.bind_true (reads_str h.reasonCode hcode) <|
    ReadsIff.bind_true (reads_str h.reason hdescription) <|
    ReadsIff.bind_true (reads_str h.resolution hcode) <|
    ReadsIff.bind_true (readsIff_u64 _) <|
    ReadsIff.bind_true (readsIff_u64 _) <|
    ReadsIff.bind_true (readsIff_u64 _) <|
    ReadsIff.bind_true (readsIff_u64 _) <|
    ReadsIff.bind_true (readsIff_decodeDigest _) <|
    ReadsIff.bind_last (readsIff_boolean _) fun _ => ReadsIff.pure_of_eq ?_) and_self_iff
  rw [getD_valid]

end Reading

/-- A decision within the decoder's bounds comes back from the wire as it is. -/
theorem decodeDecision_encodeDecision {limits : Limits}
    (hlimits : limitsWithinCompiledCeiling limits = true) {decision : PriorityDecision}
    (h : DecisionWithin limits maxCode decision) :
    decodeDecision (encodeDecision decision) limits = .ok decision := by
  have hbounds : limits.maxIdLength ≤ 128 ∧ limits.maxDescriptionLength < 2 ^ 32 ∧
      limits.maxExplanationSteps < 2 ^ 32 := by
    simp only [limitsWithinCompiledCeiling, Bool.and_eq_true, decide_eq_true_eq] at hlimits
    change _ ∧ _ at hlimits
    simp only [compiledLimitsCeiling] at hlimits
    omega
  exact Decoder.run_of_readsIff (reads_decision hbounds.1 hbounds.2.1 hbounds.2.2 h) trivial

end PriorityFabric.DecisionCodec
