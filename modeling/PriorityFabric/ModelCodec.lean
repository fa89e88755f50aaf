import PriorityFabric.Codec

/-!
Encodings of definitions, provenance and audit entries.

For every kind of value, `stored` is what its bytes hold, `…Readable` is the
condition the decoder imposes, and the two are tied by a `ReadsIff` statement.
-/

namespace PriorityFabric.ModelCodec

open PriorityFabric.Lib.LittleEndian
open PriorityFabric.Lib.ByteReader
open PriorityFabric.Basics
open PriorityFabric.Ident
open PriorityFabric.Hashing
open PriorityFabric.Model
open PriorityFabric.Codec
open PriorityFabric.Codec.Decoder (IdReadable readsIff_id readsIff_u8 readsIff_u16
  readsIff_u32 readsIff_u64 readsIff_boolean readsIff_raw readsIff_str readsIff_optional
  readsIff_enum readsIff_blob readsIff_ofResult)

def encodeId {tag : IdTag} (id : BasicId tag) : Bytes := Encoder.str id.value

def encodeIdList {tag : IdTag} (ids : List (BasicId tag)) : Bytes :=
  Encoder.u32 ids.length ++ ids.flatMap encodeId

def decodeIdList {tag : IdTag} (limits : Limits) (maxEntries : Nat) :
    Decoder (List (BasicId tag)) := do
  let count ← Decoder.u32
  refuseIf (count > maxEntries)
    (makeError .limitExceeded
      (text "list declares " ++ decimal count ++ text " entries, limit is " ++
        decimal maxEntries))
  readFold count (fun out => do
    let id ← Decoder.id limits
    return out ++ [id]) []

/-- A list of identifiers the decoder accepts. -/
def IdListReadable {tag : IdTag} (limits : Limits) (maxEntries : Nat)
    (ids : List (BasicId tag)) : Prop :=
  ids.length ≤ maxEntries ∧ ∀ id ∈ ids, IdReadable limits id

theorem foldl_push {α : Type} (front items : List α) :
    items.foldl (fun out x => out ++ [x]) front = front ++ items := by
  induction items generalizing front with
  | nil => simp
  | cons x items ih => simp [ih]

theorem readsIff_decodeIdList {tag : IdTag} (limits : Limits) (maxEntries : Nat)
    {ids : List (BasicId tag)} (hcount : ids.length < 2 ^ 32) :
    ReadsIff (decodeIdList limits maxEntries) (encodeIdList ids) ids
      (IdListReadable limits maxEntries ids) := by
  have hstep : ∀ out : List (BasicId tag), ∀ id ∈ ids,
      ReadsIff (do
        let id ← Decoder.id limits
        return out ++ [id]) (encodeId id) (out ++ [id]) (IdReadable limits id) :=
    fun out id _ => (readsIff_id limits id).map
  have hfold := ReadsIff.fold ids hstep []
  rw [foldl_push, List.nil_append] at hfold
  refine ReadsIff.congr (ReadsIff.bind_true (readsIff_u32 hcount)
    (ReadsIff.guard fun _ => hfold)) ?_
  simp [IdListReadable, foldAll_iff_forall]

def encodePrecedence (rank : PrecedenceRank) : Bytes :=
  Encoder.boolean rank.assigned ++ Encoder.u32 rank.value.toNat

def decodePrecedence : Decoder PrecedenceRank := do
  let assigned ← Decoder.boolean
  let value ← Decoder.u32
  if assigned = false then return .undeclared
  else
    refuseIf (value > PrecedenceRank.maxRank)
      (makeError .invalidArgument
        (text "precedence rank " ++ decimal value ++ text " exceeds the " ++
          decimal PrecedenceRank.maxRank ++ text " ceiling"))
    return .make (UInt32.ofNat value)

/-- The value of an undeclared rank is not kept. -/
def storedRank (rank : PrecedenceRank) : PrecedenceRank :=
  if rank.assigned = false then .undeclared else rank

def RankReadable (rank : PrecedenceRank) : Prop :=
  rank.assigned = true → rank.value.toNat ≤ PrecedenceRank.maxRank

theorem readsIff_decodePrecedence (rank : PrecedenceRank) :
    ReadsIff decodePrecedence (encodePrecedence rank) (storedRank rank)
      (RankReadable rank) := by
  obtain ⟨value, assigned⟩ := rank
  have hvalue : value.toNat < 2 ^ 32 := value.toNat_lt
  cases assigned with
  | false =>
      refine ReadsIff.congr (ReadsIff.bind_true (readsIff_boolean false)
        (ReadsIff.bind_last (readsIff_u32 hvalue) fun _ => ReadsIff.pure _)) ?_
      simp [RankReadable]
  | true =>
      refine ReadsIff.congr (ReadsIff.bind_true (readsIff_boolean true)
        (ReadsIff.bind_last (readsIff_u32 hvalue) fun _ =>
          ReadsIff.guard fun _ => ReadsIff.pure_of_eq ?_)) ?_
      · simp [PrecedenceRank.make, storedRank]
      · simp [RankReadable]

def encodeBoot (boot : BootId) : Bytes := boot.bytes.toList

def bootOfBytes (bytes : Bytes) : BootId :=
  ⟨List.Vector.ofFn fun i => bytes.getD i 0⟩

def decodeBoot : Decoder BootId := do
  return bootOfBytes (← Decoder.raw 16)

theorem toList_ofFn_getD {α : Type} {n : Nat} (v : List.Vector α n) (d : α) :
    List.Vector.ofFn (fun i : Fin n => v.toList.getD i d) = v := by
  apply List.Vector.ext
  intro i
  have hi : (i : Nat) < v.toList.length := by simp
  rw [List.Vector.get_ofFn, List.getD_eq_getElem?_getD,
    List.getElem?_eq_getElem hi, Option.getD_some]
  exact (List.Vector.get_eq_get_toList v i).symm

theorem readsIff_decodeBoot (boot : BootId) :
    ReadsIff decodeBoot (encodeBoot boot) boot True := by
  have h := (readsIff_raw (BootId.length_toList boot)).map (f := bootOfBytes)
  have hboot : bootOfBytes boot.bytes.toList = boot :=
    congrArg BootId.mk (toList_ofFn_getD boot.bytes 0)
  rwa [hboot] at h

def digestOfBytes (bytes : Bytes) : Digest :=
  ⟨List.Vector.ofFn fun i => bytes.getD i 0⟩

def encodeDigest (digest : Digest) : Bytes := digest.bytes.toList

theorem digestOfBytes_encodeDigest (digest : Digest) :
    digestOfBytes (encodeDigest digest) = digest :=
  congrArg Digest.mk (toList_ofFn_getD digest.bytes 0)

@[simp] theorem length_encodeDigest (digest : Digest) :
    (encodeDigest digest).length = 32 := by
  simp [encodeDigest]

def decodeDigest : Decoder Digest := do
  return digestOfBytes (← Decoder.raw 32)

theorem readsIff_decodeDigest (digest : Digest) :
    ReadsIff decodeDigest (encodeDigest digest) digest True := by
  have h := (readsIff_raw (length_encodeDigest digest)).map (f := digestOfBytes)
  rwa [digestOfBytes_encodeDigest] at h

def encodeProvenance (provenance : Provenance) : Bytes :=
  Encoder.optional encodeId
      (if provenance.publisher.valid then some provenance.publisher else none) ++
    (encodeBoot provenance.boot ++
    (Encoder.u64 provenance.epoch.value ++
    (Encoder.u64 provenance.token.value ++
    (Encoder.u64 provenance.stateGeneration.value ++
    (Encoder.u64 provenance.auditSequence ++
    (Encoder.u64 provenance.recordedAtMs ++
    Encoder.str provenance.op))))))

def maxOpLength : Nat := 64

def decodeProvenance (limits : Limits) : Decoder Provenance := do
  let publisher ← Decoder.optional (Decoder.id limits)
  let boot ← decodeBoot
  let epoch ← Decoder.u64
  let token ← Decoder.u64
  let generation ← Decoder.u64
  let auditSequence ← Decoder.u64
  let recordedAtMs ← Decoder.u64
  let op ← Decoder.str maxOpLength
  return { publisher := publisher.getD {}, boot := boot, epoch := ⟨epoch⟩,
           token := ⟨token⟩, stateGeneration := ⟨generation⟩,
           auditSequence := auditSequence, recordedAtMs := recordedAtMs, op := op }

def storedProvenance (provenance : Provenance) : Provenance :=
  { provenance with op := storedText provenance.op }

/-- A provenance the decoder accepts; the publisher may be unset. -/
def ProvenanceReadable (limits : Limits) (provenance : Provenance) : Prop :=
  provenance.publisher.value.length ≤ limits.maxIdLength ∧
    provenance.op.length ≤ maxOpLength

theorem getD_publisher (publisher : PublisherId) :
    (if publisher.valid then some publisher else none).getD {} = publisher := by
  split
  · rfl
  · rename_i h
    have hempty : publisher.value = [] := by simpa [BasicId.valid] using h
    exact BasicId.ext hempty.symm

theorem readsIff_decodeProvenance (limits : Limits) (provenance : Provenance) :
    ReadsIff (decodeProvenance limits) (encodeProvenance provenance)
      (storedProvenance provenance)
      (ProvenanceReadable limits (storedProvenance provenance)) := by
  refine ReadsIff.congr (ReadsIff.bind
    (readsIff_optional fun a _ => readsIff_id limits a) fun _ =>
    ReadsIff.bind_true (readsIff_decodeBoot _) <|
    ReadsIff.bind_true (readsIff_u64 _) <| ReadsIff.bind_true (readsIff_u64 _) <|
    ReadsIff.bind_true (readsIff_u64 _) <| ReadsIff.bind_true (readsIff_u64 _) <|
    ReadsIff.bind_true (readsIff_u64 _) <|
    ReadsIff.bind_last (readsIff_str _ _) fun _ => ReadsIff.pure_of_eq ?_) ?_
  · simp [getD_publisher, storedProvenance]
  · by_cases hvalid : provenance.publisher.valid = true
    · have hne := (BasicId.valid_iff _).mp hvalid
      simp [ProvenanceReadable, storedProvenance, IdReadable, hvalid, hne]
    · have hempty : provenance.publisher.value = [] := by
        simpa [BasicId.valid] using hvalid
      simp [ProvenanceReadable, storedProvenance, hvalid, hempty]

def encodeClassDefinition (definition : PriorityClassDef) : Bytes :=
  encodeId definition.id ++
    (Encoder.u64 definition.generation.value ++
    (encodePrecedence definition.precedence ++
    (Encoder.u8 definition.kind.toNat ++
    (encodeIdList definition.inheritsFrom ++
    (Encoder.str definition.description ++
    Encoder.boolean definition.privileged)))))

def readClassDefinition (limits : Limits) : Decoder PriorityClassDef := do
  let id ← Decoder.id limits
  let generation ← Decoder.u64
  let precedence ← decodePrecedence
  let kind ← Decoder.enum ClassKind.ofNat? (text "class kind")
  let parents ← decodeIdList limits limits.maxInheritsFrom
  let description ← Decoder.str limits.maxDescriptionLength
  let privileged ← Decoder.boolean
  return { id := id, generation := ⟨generation⟩, precedence := precedence,
           kind := kind, inheritsFrom := parents, description := description,
           privileged := privileged }

def decodeClassDefinition (payload : Bytes) (limits : Limits) :
    Result PriorityClassDef :=
  Decoder.run (readClassDefinition limits) payload

def storedClass (definition : PriorityClassDef) : PriorityClassDef :=
  { definition with
    precedence := storedRank definition.precedence
    description := storedText definition.description }

def ClassReadable (limits : Limits) (definition : PriorityClassDef) : Prop :=
  IdReadable limits definition.id ∧ RankReadable definition.precedence ∧
    IdListReadable limits limits.maxInheritsFrom definition.inheritsFrom ∧
    definition.description.length ≤ limits.maxDescriptionLength

theorem rankReadable_storedRank (rank : PrecedenceRank) :
    RankReadable (storedRank rank) ↔ RankReadable rank := by
  obtain ⟨value, assigned⟩ := rank
  cases assigned <;> simp [RankReadable, storedRank, PrecedenceRank.undeclared]

theorem readsIff_readClassDefinition (limits : Limits)
    {definition : PriorityClassDef} (hcount : definition.inheritsFrom.length < 2 ^ 32) :
    ReadsIff (readClassDefinition limits) (encodeClassDefinition definition)
      (storedClass definition) (ClassReadable limits (storedClass definition)) := by
  refine ReadsIff.congr (ReadsIff.bind (readsIff_id limits _) fun _ =>
    ReadsIff.bind_true (readsIff_u64 _) <|
    ReadsIff.bind (readsIff_decodePrecedence _) fun _ =>
    ReadsIff.bind_true (readsIff_enum _ (ClassKind.toNat_lt _)
      (ClassKind.ofNat?_toNat _)) <|
    ReadsIff.bind (readsIff_decodeIdList limits _ hcount) fun _ =>
    ReadsIff.bind (readsIff_str _ _) fun _ =>
    ReadsIff.bind_last (readsIff_boolean _) fun _ => ReadsIff.pure_of_eq rfl) ?_
  simp [ClassReadable, storedClass, rankReadable_storedRank]

def encodeScopeDefinition (definition : PolicyScopeDef) : Bytes :=
  encodeId definition.id ++
    (Encoder.u64 definition.generation.value ++
    (Encoder.optional encodeId definition.parent ++
    (Encoder.u8 definition.conflictResolution.toNat ++
    (Encoder.optional encodeId definition.unknownDefault ++
    (Encoder.boolean definition.allowOverride ++
    Encoder.str definition.description)))))

def readConflictResolution : Decoder ConflictResolution :=
  Decoder.enum ConflictResolution.ofNat? (text "conflict resolution mode")

def readScopeDefinition (limits : Limits) : Decoder PolicyScopeDef := do
  let id ← Decoder.id limits
  let generation ← Decoder.u64
  let parent ← Decoder.optional (Decoder.id limits)
  let conflict ← readConflictResolution
  let unknownDefault ← Decoder.optional (Decoder.id limits)
  let allowOverride ← Decoder.boolean
  let description ← Decoder.str limits.maxDescriptionLength
  return { id := id, generation := ⟨generation⟩, parent := parent,
           conflictResolution := conflict, unknownDefault := unknownDefault,
           allowOverride := allowOverride, description := description }

def decodeScopeDefinition (payload : Bytes) (limits : Limits) :
    Result PolicyScopeDef :=
  Decoder.run (readScopeDefinition limits) payload

def storedScope (definition : PolicyScopeDef) : PolicyScopeDef :=
  { definition with description := storedText definition.description }

def ScopeReadable (limits : Limits) (definition : PolicyScopeDef) : Prop :=
  IdReadable limits definition.id ∧
    (∀ parent, definition.parent = some parent → IdReadable limits parent) ∧
    (∀ cls, definition.unknownDefault = some cls → IdReadable limits cls) ∧
    definition.description.length ≤ limits.maxDescriptionLength

theorem readsIff_conflictResolution (c : ConflictResolution) :
    ReadsIff readConflictResolution (Encoder.u8 c.toNat) c True :=
  readsIff_enum _ (ConflictResolution.toNat_lt c) (ConflictResolution.ofNat?_toNat c)

theorem readsIff_readScopeDefinition (limits : Limits) (definition : PolicyScopeDef) :
    ReadsIff (readScopeDefinition limits) (encodeScopeDefinition definition)
      (storedScope definition) (ScopeReadable limits (storedScope definition)) := by
  refine ReadsIff.congr (ReadsIff.bind (readsIff_id limits _) fun _ =>
    ReadsIff.bind_true (readsIff_u64 _) <|
    ReadsIff.bind (readsIff_optional fun a _ => readsIff_id limits a) fun _ =>
    ReadsIff.bind_true (readsIff_conflictResolution _) <|
    ReadsIff.bind (readsIff_optional fun a _ => readsIff_id limits a) fun _ =>
    ReadsIff.bind_true (readsIff_boolean _) <|
    ReadsIff.bind_last (readsIff_str _ _) fun _ => ReadsIff.pure_of_eq rfl) ?_
  simp [ScopeReadable, storedScope]

def encodePolicyDefinition (definition : PolicyDef) : Bytes :=
  encodeId definition.id ++
    (Encoder.u64 definition.generation.value ++
    (encodeId definition.scope ++
    (Encoder.u64 definition.scopeGeneration.value ++
    (encodeIdList definition.visibleClasses ++
    (Encoder.optional (fun c : ConflictResolution => Encoder.u8 c.toNat)
      definition.conflictResolution ++
    (Encoder.optional encodeId definition.unknownDefault ++
    (Encoder.boolean definition.requirePolicyForAssignment ++
    Encoder.str definition.description)))))))

def readPolicyDefinition (limits : Limits) : Decoder PolicyDef := do
  let id ← Decoder.id limits
  let generation ← Decoder.u64
  let scope ← Decoder.id limits
  let scopeGeneration ← Decoder.u64
  let visible ← decodeIdList limits limits.maxPolicyClasses
  let conflict ← Decoder.optional readConflictResolution
  let unknownDefault ← Decoder.optional (Decoder.id limits)
  let requirePolicy ← Decoder.boolean
  let description ← Decoder.str limits.maxDescriptionLength
  return { id := id, generation := ⟨generation⟩, scope := scope,
           scopeGeneration := ⟨scopeGeneration⟩, visibleClasses := visible,
           conflictResolution := conflict, unknownDefault := unknownDefault,
           requirePolicyForAssignment := requirePolicy, description := description }

def decodePolicyDefinition (payload : Bytes) (limits : Limits) : Result PolicyDef :=
  Decoder.run (readPolicyDefinition limits) payload

def storedPolicy (definition : PolicyDef) : PolicyDef :=
  { definition with description := storedText definition.description }

def PolicyReadable (limits : Limits) (definition : PolicyDef) : Prop :=
  IdReadable limits definition.id ∧ IdReadable limits definition.scope ∧
    IdListReadable limits limits.maxPolicyClasses definition.visibleClasses ∧
    (∀ cls, definition.unknownDefault = some cls → IdReadable limits cls) ∧
    definition.description.length ≤ limits.maxDescriptionLength

theorem readsIff_readPolicyDefinition (limits : Limits) {definition : PolicyDef}
    (hcount : definition.visibleClasses.length < 2 ^ 32) :
    ReadsIff (readPolicyDefinition limits) (encodePolicyDefinition definition)
      (storedPolicy definition) (PolicyReadable limits (storedPolicy definition)) := by
  refine ReadsIff.congr (ReadsIff.bind (readsIff_id limits _) fun _ =>
    ReadsIff.bind_true (readsIff_u64 _) <|
    ReadsIff.bind (readsIff_id limits _) fun _ =>
    ReadsIff.bind_true (readsIff_u64 _) <|
    ReadsIff.bind (readsIff_decodeIdList limits _ hcount) fun _ =>
    ReadsIff.bind (readsIff_optional fun c _ => readsIff_conflictResolution c) fun _ =>
    ReadsIff.bind (readsIff_optional fun a _ => readsIff_id limits a) fun _ =>
    ReadsIff.bind_true (readsIff_boolean _) <|
    ReadsIff.bind_last (readsIff_str _ _) fun _ => ReadsIff.pure_of_eq rfl) ?_
  simp [PolicyReadable, storedPolicy]

def encodeSubjectDefinition (definition : SubjectDef) : Bytes :=
  encodeId definition.id ++
    (Encoder.u64 definition.generation.value ++
    (encodeIdList definition.inheritsFrom ++
    Encoder.str definition.description))

def readSubjectDefinition (limits : Limits) : Decoder SubjectDef := do
  let id ← Decoder.id limits
  let generation ← Decoder.u64
  let parents ← decodeIdList limits limits.maxInheritsFrom
  let description ← Decoder.str limits.maxDescriptionLength
  return { id := id, generation := ⟨generation⟩, inheritsFrom := parents,
           description := description }

def decodeSubjectDefinition (payload : Bytes) (limits : Limits) : Result SubjectDef :=
  Decoder.run (readSubjectDefinition limits) payload

def storedSubject (definition : SubjectDef) : SubjectDef :=
  { definition with description := storedText definition.description }

def SubjectReadable (limits : Limits) (definition : SubjectDef) : Prop :=
  IdReadable limits definition.id ∧
    IdListReadable limits limits.maxInheritsFrom definition.inheritsFrom ∧
    definition.description.length ≤ limits.maxDescriptionLength

theorem readsIff_readSubjectDefinition (limits : Limits) {definition : SubjectDef}
    (hcount : definition.inheritsFrom.length < 2 ^ 32) :
    ReadsIff (readSubjectDefinition limits) (encodeSubjectDefinition definition)
      (storedSubject definition) (SubjectReadable limits (storedSubject definition)) := by
  refine ReadsIff.congr (ReadsIff.bind (readsIff_id limits _) fun _ =>
    ReadsIff.bind_true (readsIff_u64 _) <|
    ReadsIff.bind (readsIff_decodeIdList limits _ hcount) fun _ =>
    ReadsIff.bind_last (readsIff_str _ _) fun _ => ReadsIff.pure_of_eq rfl) ?_
  simp [SubjectReadable, storedSubject]

def encodeAssignment (assignment : PriorityAssignment) : Bytes :=
  encodeId assignment.id ++
    (Encoder.u64 assignment.generation.value ++
    (encodeId assignment.subject ++
    (Encoder.u64 assignment.subjectGeneration.value ++
    (encodeId assignment.scope ++
    (Encoder.u64 assignment.scopeGeneration.value ++
    (encodeId assignment.cls ++
    (Encoder.u64 assignment.classGeneration.value ++
    (Encoder.u8 assignment.kind.toNat ++
    (Encoder.optional encodeId assignment.displaces ++
    (Encoder.optional encodeId assignment.policy ++
    (Encoder.u64 assignment.policyGeneration.value ++
    Encoder.str assignment.note)))))))))))

def readAssignment (limits : Limits) : Decoder PriorityAssignment := do
  let id ← Decoder.id limits
  let generation ← Decoder.u64
  let subject ← Decoder.id limits
  let subjectGeneration ← Decoder.u64
  let scope ← Decoder.id limits
  let scopeGeneration ← Decoder.u64
  let cls ← Decoder.id limits
  let classGeneration ← Decoder.u64
  let kind ← Decoder.enum AssignmentKind.ofNat? (text "assignment kind")
  let displaces ← Decoder.optional (Decoder.id limits)
  let policy ← Decoder.optional (Decoder.id limits)
  let policyGeneration ← Decoder.u64
  let note ← Decoder.str limits.maxNoteLength
  return { id := id, generation := ⟨generation⟩, subject := subject,
           subjectGeneration := ⟨subjectGeneration⟩, scope := scope,
           scopeGeneration := ⟨scopeGeneration⟩, cls := cls,
           classGeneration := ⟨classGeneration⟩, kind := kind,
           displaces := displaces, policy := policy,
           policyGeneration := ⟨policyGeneration⟩, note := note }

def decodeAssignment (payload : Bytes) (limits : Limits) : Result PriorityAssignment :=
  Decoder.run (readAssignment limits) payload

def storedAssignment (assignment : PriorityAssignment) : PriorityAssignment :=
  { assignment with note := storedText assignment.note }

def AssignmentReadable (limits : Limits) (assignment : PriorityAssignment) : Prop :=
  IdReadable limits assignment.id ∧ IdReadable limits assignment.subject ∧
    IdReadable limits assignment.scope ∧ IdReadable limits assignment.cls ∧
    (∀ cls, assignment.displaces = some cls → IdReadable limits cls) ∧
    (∀ policy, assignment.policy = some policy → IdReadable limits policy) ∧
    assignment.note.length ≤ limits.maxNoteLength

theorem readsIff_readAssignment (limits : Limits) (assignment : PriorityAssignment) :
    ReadsIff (readAssignment limits) (encodeAssignment assignment)
      (storedAssignment assignment)
      (AssignmentReadable limits (storedAssignment assignment)) := by
  refine ReadsIff.congr (ReadsIff.bind (readsIff_id limits _) fun _ =>
    ReadsIff.bind_true (readsIff_u64 _) <|
    ReadsIff.bind (readsIff_id limits _) fun _ =>
    ReadsIff.bind_true (readsIff_u64 _) <|
    ReadsIff.bind (readsIff_id limits _) fun _ =>
    ReadsIff.bind_true (readsIff_u64 _) <|
    ReadsIff.bind (readsIff_id limits _) fun _ =>
    ReadsIff.bind_true (readsIff_u64 _) <|
    ReadsIff.bind_true (readsIff_enum _ (AssignmentKind.toNat_lt _)
      (AssignmentKind.ofNat?_toNat _)) <|
    ReadsIff.bind (readsIff_optional fun a _ => readsIff_id limits a) fun _ =>
    ReadsIff.bind (readsIff_optional fun a _ => readsIff_id limits a) fun _ =>
    ReadsIff.bind_true (readsIff_u64 _) <|
    ReadsIff.bind_last (readsIff_str _ _) fun _ => ReadsIff.pure_of_eq rfl) ?_
  simp [AssignmentReadable, storedAssignment]

def encodeAuditEntry (entry : AuditEntry) : Bytes :=
  Encoder.u64 entry.sequence ++
    (Encoder.str entry.op ++
    (Encoder.u16 entry.result.toNat ++
    (Encoder.str entry.detail ++
    (Encoder.str (encodeProvenance entry.provenance) ++
    (Encoder.u64 entry.stateGeneration.value ++
    encodeDigest entry.digest)))))

/-- Longest audit detail and longest encoded provenance the decoder accepts. -/
def maxAuditDetail : Nat := 1024
def maxAuditProvenance : Nat := 4096

def decodeStatusCode : Decoder StatusCode := do
  let value ← Decoder.u16
  match StatusCode.ofNat? value with
  | some code => return code
  | none => refuse (makeError .protocolError
      (text "audit entry carries an undefined status code " ++ decimal value))

/-- The provenance of an audit entry is decoded under the default limits, and
nothing checks that its blob is used up. -/
def decodeAuditEntry : Decoder AuditEntry := do
  let sequence ← Decoder.u64
  let op ← Decoder.str maxOpLength
  let result ← decodeStatusCode
  let detail ← Decoder.str maxAuditDetail
  let provenance ← Decoder.blob maxAuditProvenance (readAll (decodeProvenance {}))
  let generation ← Decoder.u64
  let digest ← decodeDigest
  return { sequence := sequence, op := op, result := result, detail := detail,
           provenance := provenance, stateGeneration := ⟨generation⟩,
           digest := digest }

def storedAudit (entry : AuditEntry) : AuditEntry :=
  { entry with
    op := storedText entry.op
    detail := storedText entry.detail
    provenance := storedProvenance entry.provenance }

def AuditReadable (entry : AuditEntry) : Prop :=
  entry.op.length ≤ maxOpLength ∧ entry.detail.length ≤ maxAuditDetail ∧
    (encodeProvenance entry.provenance).length ≤ maxAuditProvenance ∧
    ProvenanceReadable {} entry.provenance

theorem length_encodeProvenance (provenance : Provenance) :
    (encodeProvenance provenance).length =
      61 + (if provenance.publisher.valid then 4 + provenance.publisher.value.length
        else 0) + (storedText provenance.op).length := by
  unfold encodeProvenance
  split
  · simp [Encoder.optional, encodeId, Encoder.length_str, encodeBoot]
    omega
  · simp [Encoder.optional, Encoder.length_str, encodeBoot]
    omega

theorem readsIff_decodeStatusCode (code : StatusCode) :
    ReadsIff decodeStatusCode (Encoder.u16 code.toNat) code True := by
  have hlt : code.toNat < 65536 := lt_of_lt_of_le code.toNat_lt (by norm_num)
  have htail : ReadsIff (match StatusCode.ofNat? code.toNat with
      | some code => Pure.pure code
      | none => refuse (makeError .protocolError
          (text "audit entry carries an undefined status code " ++
            decimal code.toNat))) [] code True := by
    rw [StatusCode.ofNat?_toNat]
    exact ReadsIff.pure code
  exact ReadsIff.congr (ReadsIff.bind_last (readsIff_u16 hlt) fun _ => htail)
    and_self_iff

theorem readAll_decodeProvenance (limits : Limits) {provenance : Provenance}
    (h : ProvenanceReadable limits (storedProvenance provenance)) :
    readAll (decodeProvenance limits) (encodeProvenance provenance) =
      .ok (storedProvenance provenance) :=
  readAll_of_readsIff (readsIff_decodeProvenance limits provenance) h

theorem readAll_decodeProvenance_refuses (limits : Limits) {provenance : Provenance}
    (h : ¬ ProvenanceReadable limits (storedProvenance provenance)) :
    ∃ e, readAll (decodeProvenance limits) (encodeProvenance provenance) = .error e :=
  readAll_refuses_of_readsIff (readsIff_decodeProvenance limits provenance) h

theorem encodeProvenance_stored (provenance : Provenance) :
    encodeProvenance (storedProvenance provenance) = encodeProvenance provenance := by
  have hop : Encoder.str (storedText provenance.op) = Encoder.str provenance.op := by
    rw [Encoder.str_eq, Encoder.str_eq provenance.op,
      storedText_of_lt (length_storedText_lt provenance.op)]
  unfold encodeProvenance storedProvenance
  rw [hop]

theorem readsIff_decodeAuditEntry {entry : AuditEntry}
    (hprovenance : entry.provenance.op.length ≤ maxOpLength) :
    ReadsIff decodeAuditEntry (encodeAuditEntry entry) (storedAudit entry)
      (AuditReadable (storedAudit entry)) := by
  have hblob : (encodeProvenance entry.provenance).length < 2 ^ 32 := by
    have hid := entry.provenance.publisher.length_value_le
    have hop : storedText entry.provenance.op = entry.provenance.op :=
      storedText_of_lt (lt_of_le_of_lt hprovenance (by norm_num [maxOpLength]))
    rw [length_encodeProvenance, hop]
    simp only [maxOpLength] at hprovenance
    split <;> omega
  refine ReadsIff.congr (ReadsIff.bind_true (readsIff_u64 _) <|
    ReadsIff.bind (readsIff_str _ _) fun _ =>
    ReadsIff.bind_true (readsIff_decodeStatusCode _) <|
    ReadsIff.bind (readsIff_str _ _) fun _ =>
    ReadsIff.bind (readsIff_blob hblob (readAll_decodeProvenance {})
      (readAll_decodeProvenance_refuses {})) fun _ =>
    ReadsIff.bind_true (readsIff_u64 _) <|
    ReadsIff.bind_last (readsIff_decodeDigest _) fun _ =>
      ReadsIff.pure_of_eq rfl) ?_
  simp [AuditReadable, storedAudit, encodeProvenance_stored]

def encodeExplanationStep (step : ExplanationStep) : Bytes :=
  Encoder.str step.stage ++
    (Encoder.str step.code ++
    (Encoder.str step.detail ++
    (Encoder.optional encodeId step.assignment ++
    (Encoder.u64 step.assignmentGeneration.value ++
    (Encoder.optional encodeId step.cls ++
    (Encoder.u64 step.classGeneration.value ++
    (Encoder.optional encodeId step.scope ++
    (Encoder.optional encodeId step.policy ++
    Encoder.str (encodeProvenance step.provenance)))))))))

def encodeEvidenceNote (note : EvidenceNote) : Bytes :=
  encodeId note.assignment ++
    (Encoder.u64 note.assignmentGeneration.value ++
    (encodeId note.cls ++
    (Encoder.u64 note.classGeneration.value ++
    (encodeId note.scope ++
    (Encoder.optional encodeId note.viaSubject ++
    (Encoder.str note.reasonCode ++
    (Encoder.str note.reason ++
    Encoder.str (encodeProvenance note.provenance))))))))

/-- A decision without a class encodes the absence of one. -/
def encodeDecision (decision : PriorityDecision) : Bytes :=
  Encoder.u8 decision.outcome.toNat ++
    (Encoder.boolean decision.authoritative ++
    (Encoder.optional encodeId (if decision.cls.valid then some decision.cls else none) ++
    (Encoder.u64 decision.classGeneration.value ++
    (encodePrecedence decision.precedence ++
    (Encoder.u32 decision.chain.length ++
    (decision.chain.flatMap encodeExplanationStep ++
    (Encoder.u32 decision.superseded.length ++
    (decision.superseded.flatMap encodeEvidenceNote ++
    (Encoder.u32 decision.rejectedEvidence.length ++
    (decision.rejectedEvidence.flatMap encodeEvidenceNote ++
    (Encoder.u32 decision.conflicts.length ++
    (decision.conflicts.flatMap Encoder.str ++
    (Encoder.str decision.reasonCode ++
    (Encoder.str decision.reason ++
    (Encoder.str decision.resolution ++
    (Encoder.u64 decision.epoch.value ++
    (Encoder.u64 decision.stateGeneration.value ++
    (Encoder.u64 decision.policyGeneration.value ++
    (Encoder.u64 decision.scopeGeneration.value ++
    (encodeDigest decision.digest ++
    Encoder.boolean decision.privilegedClass))))))))))))))))))))

/-- The digest of a decision covers everything but the digest. -/
def computeDecisionDigest (decision : PriorityDecision) : Digest :=
  Sha256.hash (encodeDecision { decision with digest := {} })

end PriorityFabric.ModelCodec
