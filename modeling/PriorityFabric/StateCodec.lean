import PriorityFabric.State

/-!
Canonical encodings of the state image and of mutations.
-/

namespace PriorityFabric.StateCodec

open PriorityFabric.Lib.LittleEndian
open PriorityFabric.Lib.ByteReader
open PriorityFabric.Basics
open PriorityFabric.Ident
open PriorityFabric.Hashing
open PriorityFabric.Model
open PriorityFabric.Codec
open PriorityFabric.Codec.Decoder (IdReadable readsIff_id readsIff_u16
  readsIff_u32 readsIff_u64 readsIff_boolean readsIff_raw readsIff_str
  readsIff_blob)
open PriorityFabric.ModelCodec
open PriorityFabric.State

def stateMagic : Nat := 0x31544650

def encodeBlob (blob : Bytes) : Bytes := Encoder.u32 blob.length ++ blob

theorem encodeBlob_of_lt {blob : Bytes} (h : blob.length < 2 ^ 32) :
    encodeBlob blob = Encoder.str blob := by
  rw [encodeBlob, Encoder.str, if_pos h]

@[simp] theorem length_encodeBlob (blob : Bytes) :
    (encodeBlob blob).length = 4 + blob.length := by
  simp [encodeBlob]

def encodeEntry {Def : Type} (encode : Def → Bytes) (entry : Entry Def) : Bytes :=
  encodeBlob (encode entry.definition) ++ encodeBlob (encodeProvenance entry.provenance)

def encodeAssignmentEntry (entry : AssignmentEntry) : Bytes :=
  encodeBlob (encodeAssignment entry.assignment) ++
    (encodeBlob (encodeProvenance entry.provenance) ++
    (Encoder.boolean entry.active ++
    (Encoder.str entry.retirementReason ++
    encodeBlob (encodeProvenance entry.retiredBy))))

def encodeAuthorityEntry (entry : AuthorityEntry) : Bytes :=
  encodeId entry.publisher ++
    (encodeBoot entry.boot ++
    (Encoder.u64 entry.epoch.value ++
    (Encoder.u64 entry.token.value ++
    (Encoder.u8 entry.state.toNat ++
    encodeBlob (encodeProvenance entry.provenance)))))

/-- A collection: its size, then its members in order. -/
def encodeCollection {α : Type} (encode : α → Bytes) (items : List α) : Bytes :=
  Encoder.u32 items.length ++ items.flatMap encode

def encodeMap {K V : Type} [Ord K] [Std.TransOrd K] (encode : V → Bytes)
    (map : Std.ExtTreeMap K V) : Bytes :=
  encodeCollection (fun entry => encode entry.2) map.toList

def encodeState (image : StateImage) : Bytes :=
  Encoder.u32 stateMagic ++
    (Encoder.u16 formatVersion ++
    (Encoder.u64 image.epoch.value ++
    (Encoder.u64 image.generation.value ++
    (Encoder.u64 image.lastSequence ++
    (Encoder.u64 image.nextFencingToken ++
    (Encoder.u64 image.nextAuditSequence ++
    (Encoder.u8 image.health.toNat ++
    (Encoder.str image.healthDetail ++
    (encodeMap (encodeEntry encodeClassDefinition) image.classes ++
    (encodeMap (encodeEntry encodeScopeDefinition) image.scopes ++
    (encodeMap (encodeEntry encodePolicyDefinition) image.policies ++
    (encodeMap (encodeEntry encodeSubjectDefinition) image.subjects ++
    (encodeMap encodeAssignmentEntry image.assignments ++
    (encodeMap encodeAuthorityEntry image.authority ++
    encodeCollection (fun entry => encodeBlob (encodeAuditEntry entry))
      image.audit))))))))))))))

/-- The declared size of a collection, checked against its limit. -/
def readEntityCount (bound : Nat) (what : Bytes) : Decoder Nat := do
  let count ← Decoder.u32
  refuseIf (count > bound)
    (makeError .limitExceeded
      (text "state image declares " ++ decimal count ++ text " " ++ what ++
        text ", limit is " ++ decimal bound))
  return count

/-- A provenance blob; nothing checks that the blob is used up. -/
def decodeProvenanceBlob (limits : Limits) : Decoder Provenance :=
  Decoder.blob limits.maxRecordPayload (readAll (decodeProvenance limits))

def decodeEntry {Def : Type} (limits : Limits) (decode : Bytes → Limits → Result Def) :
    Decoder (Entry Def) := do
  let definition ← Decoder.blob limits.maxRecordPayload (decode · limits)
  let provenance ← decodeProvenanceBlob limits
  return { definition, provenance }

def decodeAssignmentEntry (limits : Limits) : Decoder AssignmentEntry := do
  let assignment ← Decoder.blob limits.maxRecordPayload (decodeAssignment · limits)
  let provenance ← decodeProvenanceBlob limits
  let active ← Decoder.boolean
  let retirementReason ← Decoder.str limits.maxNoteLength
  let retiredBy ← decodeProvenanceBlob limits
  return { assignment, provenance, active, retirementReason, retiredBy }

/-- One byte that names a member of an enumeration of the state image. -/
def readStateEnum {α : Type} (ofNat? : Nat → Option α) (message : Bytes) :
    Decoder α := do
  let value ← Decoder.u8
  match ofNat? value with
  | some a => return a
  | none => refuse (makeError .corrupt message)

def decodeAuthorityEntry (limits : Limits) : Decoder AuthorityEntry := do
  let publisher ← Decoder.id limits
  let boot ← decodeBoot
  let epoch ← Decoder.u64
  let token ← Decoder.u64
  let state ← readStateEnum AuthorityState.ofNat?
    (text "authority record carries an unknown lifecycle state")
  let provenance ← decodeProvenanceBlob limits
  return { publisher, boot, epoch := ⟨epoch⟩, token := ⟨token⟩, state, provenance }

/-- Read a collection into a map; a repeated key keeps its first entry. -/
def decodeMap {K V : Type} [Ord K] [Std.TransOrd K] (bound : Nat) (what : Bytes)
    (decode : Decoder V) (key : V → K) : Decoder (Std.ExtTreeMap K V) := do
  let count ← readEntityCount bound what
  readFold count (fun map => do
    let entry ← decode
    return map.insertIfNew (key entry) entry) ∅

/-- The authority table, whose size is checked again before each insertion. -/
def decodeAuthority (limits : Limits) :
    Decoder (Std.ExtTreeMap Incarnation AuthorityEntry) := do
  let count ← readEntityCount limits.maxPublishers (text "authority records")
  readFold count (fun (map : Std.ExtTreeMap Incarnation AuthorityEntry) => do
    let entry ← decodeAuthorityEntry limits
    refuseIf (map.size ≥ limits.maxPublishers * limits.maxBootsPerPublisher % 2 ^ 32)
      (makeError .limitExceeded
        (text "state image holds more authority records than the limit allows"))
    return map.insertIfNew ⟨entry.publisher, entry.boot⟩ entry) ∅

def decodeAudit (limits : Limits) : Decoder (List AuditEntry) := do
  let count ← readEntityCount limits.maxAuditEntries (text "audit entries")
  readFold count (fun audit => do
    let entry ← Decoder.blob limits.maxRecordPayload (Decoder.run decodeAuditEntry)
    return audit ++ [entry]) []

/-- The longest health detail the decoder accepts. -/
def maxHealthDetail : Nat := 1024

def readState (limits : Limits) : Decoder StateImage := do
  let magic ← Decoder.u32
  refuseIf (magic ≠ stateMagic)
    (makeError .corrupt (text "state image has a wrong magic value"))
  let format ← Decoder.u16
  refuseIf (format ≠ formatVersion)
    (makeError .unsupported
      (text "state image declares format version " ++ decimal format ++
        text ", this build implements " ++ decimal formatVersion))
  let epoch ← Decoder.u64
  let generation ← Decoder.u64
  let lastSequence ← Decoder.u64
  let nextFencingToken ← Decoder.u64
  let nextAuditSequence ← Decoder.u64
  let health ← readStateEnum Health.ofNat?
    (text "state image carries an unknown health value")
  let healthDetail ← Decoder.str maxHealthDetail
  let classes ← decodeMap limits.maxClasses (text "classes")
    (decodeEntry limits decodeClassDefinition) (·.definition.id)
  let scopes ← decodeMap limits.maxScopes (text "scopes")
    (decodeEntry limits decodeScopeDefinition) (·.definition.id)
  let policies ← decodeMap limits.maxPolicies (text "policies")
    (decodeEntry limits decodePolicyDefinition) (·.definition.id)
  let subjects ← decodeMap limits.maxSubjects (text "subjects")
    (decodeEntry limits decodeSubjectDefinition) (·.definition.id)
  let assignments ← decodeMap limits.maxAssignments (text "assignments")
    (decodeAssignmentEntry limits) (·.assignment.id)
  let authority ← decodeAuthority limits
  let audit ← decodeAudit limits
  return { epoch := ⟨epoch⟩, generation := ⟨generation⟩, lastSequence,
           nextFencingToken, nextAuditSequence, limits, classes, scopes, policies,
           subjects, assignments, authority, audit, health, healthDetail }

def decodeState (payload : Bytes) (limits : Limits) : Result StateImage :=
  (Decoder.run (readState limits) payload).map rebuildIndexes

def stateDigest (image : StateImage) : Digest := Sha256.hash (encodeState image)

/-- The part of the encoding that depends on the operation. -/
def encodeOp : MutationOp → Bytes
  | .defineClass cls => encodeBlob (encodeClassDefinition cls)
  | .defineScope scope => encodeBlob (encodeScopeDefinition scope)
  | .definePolicy policy => encodeBlob (encodePolicyDefinition policy)
  | .defineSubject subject => encodeBlob (encodeSubjectDefinition subject)
  | .assign assignment => encodeBlob (encodeAssignment assignment)
  | .retireAssignment target => encodeId target
  | .grantAuthority => []
  | .fenceAuthority publisher boot => encodeId publisher ++ encodeBoot boot
  | .advanceEpoch => []

def encodeMutation (mutation : Mutation) : Bytes :=
  Encoder.u16 mutation.op.code ++
    (Encoder.u64 mutation.epoch.value ++
    (encodeId mutation.publisher ++
    (encodeBoot mutation.boot ++
    (Encoder.u64 mutation.token.value ++
    (Encoder.u64 mutation.recordedAtMs ++
    (Encoder.str mutation.reason ++
    (encodeOp mutation.op ++
    Encoder.u64 mutation.resultingGeneration.value)))))))

def readOp (limits : Limits) : Nat → Decoder MutationOp
  | 1 => do
      return .defineClass (← Decoder.blob limits.maxRecordPayload
        (decodeClassDefinition · limits))
  | 2 => do
      return .defineScope (← Decoder.blob limits.maxRecordPayload
        (decodeScopeDefinition · limits))
  | 3 => do
      return .definePolicy (← Decoder.blob limits.maxRecordPayload
        (decodePolicyDefinition · limits))
  | 4 => do
      return .defineSubject (← Decoder.blob limits.maxRecordPayload
        (decodeSubjectDefinition · limits))
  | 5 => do
      return .assign (← Decoder.blob limits.maxRecordPayload (decodeAssignment · limits))
  | 6 => do return .retireAssignment (← Decoder.id limits)
  | 7 => return .grantAuthority
  | 8 => do
      let publisher ← Decoder.id limits
      let boot ← decodeBoot
      return .fenceAuthority publisher boot
  | _ => return .advanceEpoch

def readMutation (limits : Limits) : Decoder Mutation := do
  let op ← Decoder.u16
  refuseIf (op < 1 || op > 9)
    (makeError .corrupt
      (text "journal record carries an unknown operation " ++ decimal op))
  let epoch ← Decoder.u64
  let publisher ← Decoder.id limits
  let boot ← decodeBoot
  let token ← Decoder.u64
  let recordedAtMs ← Decoder.u64
  let reason ← Decoder.str limits.maxNoteLength
  let op ← readOp limits op
  let resulting ← Decoder.u64
  return { op, epoch := ⟨epoch⟩, publisher, boot, token := ⟨token⟩, recordedAtMs,
           reason, resultingGeneration := ⟨resulting⟩ }

def decodeMutation (payload : Bytes) (limits : Limits) : Result Mutation :=
  Decoder.run (readMutation limits) payload

def storedOp : MutationOp → MutationOp
  | .defineClass cls => .defineClass (storedClass cls)
  | .defineScope scope => .defineScope (storedScope scope)
  | .definePolicy policy => .definePolicy (storedPolicy policy)
  | .defineSubject subject => .defineSubject (storedSubject subject)
  | .assign assignment => .assign (storedAssignment assignment)
  | op => op

/-- What the bytes of a mutation hold: everything but the system mark. -/
def storedMutation (mutation : Mutation) : Mutation :=
  { mutation with
    op := storedOp mutation.op
    reason := storedText mutation.reason
    system := false }

def OpReadable (limits : Limits) : MutationOp → Prop
  | .defineClass cls =>
      (encodeClassDefinition cls).length ≤ limits.maxRecordPayload ∧
        ClassReadable limits cls
  | .defineScope scope =>
      (encodeScopeDefinition scope).length ≤ limits.maxRecordPayload ∧
        ScopeReadable limits scope
  | .definePolicy policy =>
      (encodePolicyDefinition policy).length ≤ limits.maxRecordPayload ∧
        PolicyReadable limits policy
  | .defineSubject subject =>
      (encodeSubjectDefinition subject).length ≤ limits.maxRecordPayload ∧
        SubjectReadable limits subject
  | .assign assignment =>
      (encodeAssignment assignment).length ≤ limits.maxRecordPayload ∧
        AssignmentReadable limits assignment
  | .retireAssignment target => IdReadable limits target
  | .grantAuthority => True
  | .fenceAuthority publisher _ => IdReadable limits publisher
  | .advanceEpoch => True

def MutationReadable (limits : Limits) (mutation : Mutation) : Prop :=
  IdReadable limits mutation.publisher ∧
    mutation.reason.length ≤ limits.maxNoteLength ∧ OpReadable limits mutation.op

theorem length_le_length_encodeIdList {tag : IdTag} (ids : List (BasicId tag)) :
    ids.length ≤ (encodeIdList ids).length := by
  have hflat : ids.length ≤ (ids.flatMap encodeId).length := by
    induction ids with
    | nil => simp
    | cons id ids ih =>
        simp only [List.flatMap_cons, List.length_append, List.length_cons, encodeId,
          Encoder.length_str] at ih ⊢
        omega
  simp only [encodeIdList, List.length_append]
  omega

theorem str_storedText (s : Bytes) : Encoder.str (storedText s) = Encoder.str s := by
  rw [Encoder.str_eq, Encoder.str_eq s, storedText_of_lt (length_storedText_lt s)]

theorem length_encodeClassDefinition_stored (cls : PriorityClassDef) :
    (encodeClassDefinition (storedClass cls)).length =
      (encodeClassDefinition cls).length := by
  simp [encodeClassDefinition, storedClass, str_storedText, encodePrecedence]

theorem encodeScopeDefinition_stored (scope : PolicyScopeDef) :
    encodeScopeDefinition (storedScope scope) = encodeScopeDefinition scope := by
  simp only [encodeScopeDefinition, storedScope, str_storedText]

theorem encodePolicyDefinition_stored (policy : PolicyDef) :
    encodePolicyDefinition (storedPolicy policy) = encodePolicyDefinition policy := by
  simp only [encodePolicyDefinition, storedPolicy, str_storedText]

theorem encodeSubjectDefinition_stored (subject : SubjectDef) :
    encodeSubjectDefinition (storedSubject subject) = encodeSubjectDefinition subject := by
  simp only [encodeSubjectDefinition, storedSubject, str_storedText]

theorem encodeAssignment_stored (assignment : PriorityAssignment) :
    encodeAssignment (storedAssignment assignment) = encodeAssignment assignment := by
  simp only [encodeAssignment, storedAssignment, str_storedText]

theorem readsIff_definitionBlob {Def : Type} {limits : Limits} {dec : Decoder Def}
    {bytes : Bytes} {value : Def} {C : Prop} (hblob : bytes.length < 2 ^ 32)
    (hread : ReadsIff dec bytes value C) :
    ReadsIff (Decoder.blob limits.maxRecordPayload (Decoder.run dec)) (encodeBlob bytes)
      value (bytes.length ≤ limits.maxRecordPayload ∧ C) := by
  rw [encodeBlob_of_lt hblob]
  exact readsIff_blob hblob (Decoder.run_of_readsIff hread)
    (Decoder.run_refuses_of_readsIff hread)

theorem length_lt_of_blob {bytes : Bytes} {bound : Nat}
    (h : (encodeBlob bytes).length < bound) : bytes.length < bound := by
  rw [length_encodeBlob] at h
  omega

theorem length_inheritsFrom_lt {cls : PriorityClassDef} {bound : Nat}
    (h : (encodeClassDefinition cls).length < bound) :
    cls.inheritsFrom.length < bound := by
  have hlist := length_le_length_encodeIdList cls.inheritsFrom
  simp only [encodeClassDefinition, List.length_append] at h
  omega

theorem length_visibleClasses_lt {policy : PolicyDef} {bound : Nat}
    (h : (encodePolicyDefinition policy).length < bound) :
    policy.visibleClasses.length < bound := by
  have hlist := length_le_length_encodeIdList policy.visibleClasses
  simp only [encodePolicyDefinition, List.length_append] at h
  omega

theorem length_subject_inheritsFrom_lt {subject : SubjectDef} {bound : Nat}
    (h : (encodeSubjectDefinition subject).length < bound) :
    subject.inheritsFrom.length < bound := by
  have hlist := length_le_length_encodeIdList subject.inheritsFrom
  simp only [encodeSubjectDefinition, List.length_append] at h
  omega

theorem readsIff_readOp (limits : Limits) {op : MutationOp}
    (hlength : (encodeOp op).length < 2 ^ 32) :
    ReadsIff (readOp limits op.code) (encodeOp op) (storedOp op)
      (OpReadable limits (storedOp op)) := by
  cases op with
  | defineClass cls =>
      have hblob := length_lt_of_blob hlength
      refine ReadsIff.congr (ReadsIff.map (readsIff_definitionBlob hblob
        (readsIff_readClassDefinition limits (length_inheritsFrom_lt hblob)))) ?_
      rw [storedOp, OpReadable, length_encodeClassDefinition_stored]
  | defineScope scope =>
      refine ReadsIff.congr (ReadsIff.map (readsIff_definitionBlob
        (length_lt_of_blob hlength) (readsIff_readScopeDefinition limits scope))) ?_
      rw [storedOp, OpReadable, encodeScopeDefinition_stored]
  | definePolicy policy =>
      have hblob := length_lt_of_blob hlength
      refine ReadsIff.congr (ReadsIff.map (readsIff_definitionBlob hblob
        (readsIff_readPolicyDefinition limits (length_visibleClasses_lt hblob)))) ?_
      rw [storedOp, OpReadable, encodePolicyDefinition_stored]
  | defineSubject subject =>
      have hblob := length_lt_of_blob hlength
      refine ReadsIff.congr (ReadsIff.map (readsIff_definitionBlob hblob
        (readsIff_readSubjectDefinition limits (length_subject_inheritsFrom_lt hblob)))) ?_
      rw [storedOp, OpReadable, encodeSubjectDefinition_stored]
  | assign assignment =>
      refine ReadsIff.congr (ReadsIff.map (readsIff_definitionBlob
        (length_lt_of_blob hlength) (readsIff_readAssignment limits assignment))) ?_
      rw [storedOp, OpReadable, encodeAssignment_stored]
  | retireAssignment target =>
      exact ReadsIff.map (readsIff_id limits target)
  | grantAuthority => exact ReadsIff.pure _
  | fenceAuthority publisher boot =>
      refine ReadsIff.congr (ReadsIff.bind (readsIff_id limits publisher) fun _ =>
        ReadsIff.map (readsIff_decodeBoot boot)) ?_
      simp [OpReadable, storedOp]
  | advanceEpoch => exact ReadsIff.pure _

theorem length_encodeOp_le (mutation : Mutation) :
    (encodeOp mutation.op).length ≤ (encodeMutation mutation).length := by
  simp only [encodeMutation, List.length_append]
  omega

theorem readsIff_readMutation (limits : Limits) {mutation : Mutation}
    (hlength : (encodeMutation mutation).length < 2 ^ 32) :
    ReadsIff (readMutation limits) (encodeMutation mutation) (storedMutation mutation)
      (MutationReadable limits (storedMutation mutation)) := by
  have hop := readsIff_readOp limits
    (lt_of_le_of_lt (length_encodeOp_le mutation) hlength)
  have hcode : mutation.op.code ≠ 0 ∧ mutation.op.code ≤ 9 := by
    cases mutation.op <;> simp [MutationOp.code]
  refine ReadsIff.congr (ReadsIff.bind_true (readsIff_u16 (by omega)) <|
    ReadsIff.guard fun _ =>
    ReadsIff.bind_true (readsIff_u64 _) <|
    ReadsIff.bind (readsIff_id limits _) fun _ =>
    ReadsIff.bind_true (readsIff_decodeBoot _) <|
    ReadsIff.bind_true (readsIff_u64 _) <|
    ReadsIff.bind_true (readsIff_u64 _) <|
    ReadsIff.bind (readsIff_str _ _) fun _ =>
    ReadsIff.bind hop fun _ =>
    ReadsIff.bind_last (readsIff_u64 _) fun _ => ReadsIff.pure_of_eq rfl) ?_
  simp [MutationReadable, storedMutation, hcode]

theorem decodeMutation_encodeMutation {limits : Limits} {mutation : Mutation}
    (hlength : (encodeMutation mutation).length < 2 ^ 32)
    (hreadable : MutationReadable limits (storedMutation mutation)) :
    decodeMutation (encodeMutation mutation) limits = .ok (storedMutation mutation) :=
  Decoder.run_of_readsIff (readsIff_readMutation limits hlength) hreadable

theorem decodeMutation_refuses {limits : Limits} {mutation : Mutation}
    (hlength : (encodeMutation mutation).length < 2 ^ 32)
    (hunreadable : ¬ MutationReadable limits (storedMutation mutation)) :
    ∃ e, decodeMutation (encodeMutation mutation) limits = .error e :=
  Decoder.run_refuses_of_readsIff (readsIff_readMutation limits hlength) hunreadable

end PriorityFabric.StateCodec
