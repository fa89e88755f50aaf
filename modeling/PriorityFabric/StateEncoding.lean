import PriorityFabric.Lib.PrefixCodes
import PriorityFabric.StateRoundTrip
import PriorityFabric.Store

/-!
What the encoding of a state shows of it.

Every part of the encoding is a prefix code on values short enough for their length
prefixes, so the whole can be read off in one way only.
-/

namespace PriorityFabric.StateEncoding

open PriorityFabric.Lib.LittleEndian
open PriorityFabric.Lib.KeyedTable
open PriorityFabric.Lib.PrefixCodes
open PriorityFabric.Basics
open PriorityFabric.Ident
open PriorityFabric.Hashing
open PriorityFabric.Model
open PriorityFabric.Codec
open PriorityFabric.ModelCodec
open PriorityFabric.State
open PriorityFabric.StateCodec
open PriorityFabric.Bounds
open PriorityFabric.StateRoundTrip (encodeMap_eq length_encode_le length_le_encodeCollection
  length_value_le size_le_encodeMap table_lengths encodeEntry_positive
  encodeAssignmentEntry_positive encodeAuthorityEntry_positive)
open PriorityFabric.Durability (Directory)
open PriorityFabric.Store

def Short (bytes : Bytes) : Prop := bytes.length < 2 ^ 32

theorem prefixCode_number (width : Nat) :
    PrefixCode (appendLe width) (· < 2 ^ (8 * width)) :=
  (PrefixCode.appendLe width).mono (fun value hvalue => by rwa [pow_mul] at hvalue)
    fun _ _ h => h

theorem prefixCode_u64 : PrefixCode Encoder.u64 fun _ => True :=
  PrefixCode.of_field (prefixCode_number 8) (fun value _ => value.toNat_lt)
    fun _ _ h => UInt64.toNat_inj.mp h

theorem prefixCode_generation :
    PrefixCode (fun generation : Generation => Encoder.u64 generation.value) fun _ => True :=
  PrefixCode.of_field prefixCode_u64 (fun _ h => h) fun a b h => by
    cases a
    cases b
    exact congrArg Generation.mk h

theorem prefixCode_epoch :
    PrefixCode (fun epoch : FabricEpoch => Encoder.u64 epoch.value) fun _ => True :=
  PrefixCode.of_field prefixCode_u64 (fun _ h => h) fun a b h => by
    cases a
    cases b
    exact congrArg FabricEpoch.mk h

theorem prefixCode_token :
    PrefixCode (fun token : FencingToken => Encoder.u64 token.value) fun _ => True :=
  PrefixCode.of_field prefixCode_u64 (fun _ h => h) fun a b h => by
    cases a
    cases b
    exact congrArg FencingToken.mk h

theorem prefixCode_boolean : PrefixCode Encoder.boolean fun _ => True :=
  PrefixCode.of_field (prefixCode_number 1) (fun value _ => by cases value <;> decide)
    fun a b h => by cases a <;> cases b <;> first | rfl | cases h

theorem prefixCode_enum {E : Type} {toNat : E → Nat} {ofNat? : Nat → Option E} {width : Nat}
    (hround : ∀ e, ofNat? (toNat e) = some e) (hbound : ∀ e, toNat e < 2 ^ (8 * width)) :
    PrefixCode (fun e => appendLe width (toNat e)) fun _ => True :=
  PrefixCode.of_field (prefixCode_number width) (fun e _ => hbound e) fun a b h => by
    have hboth := hround a
    rw [h, hround b] at hboth
    exact (Option.some.inj hboth).symm

theorem prefixCode_blob : PrefixCode encodeBlob Short :=
  PrefixCode.sized (prefixCode_number 4)

theorem prefixCode_str : PrefixCode Encoder.str Short :=
  prefixCode_blob.congr fun _ h => (encodeBlob_of_lt h).symm

/-- A good record whose encoding fits its length prefix. -/
def ShortRecord {A : Type} (encode : A → Bytes) (good : A → Prop) (a : A) : Prop :=
  good a ∧ Short (encode a)

theorem prefixCode_nested {A : Type} {encode : A → Bytes} {good : A → Prop}
    {blob : Bytes → Bytes} (hblob : PrefixCode blob Short) (h : PrefixCode encode good) :
    PrefixCode (fun a => blob (encode a)) (ShortRecord encode good) := by
  intro first second hfirst hsecond rest rest' heq
  obtain ⟨hbytes, hrest⟩ := hblob _ _ hfirst.2 hsecond.2 _ _ heq
  exact ⟨h.injective hfirst.1 hsecond.1 hbytes, hrest⟩

theorem prefixCode_id {tag : IdTag} :
    PrefixCode (encodeId : BasicId tag → Bytes) fun _ => True :=
  PrefixCode.of_field prefixCode_str
    (fun id _ => lt_of_le_of_lt id.length_value_le (by norm_num))
    fun _ _ h => BasicId.ext h

theorem prefixCode_idList {tag : IdTag} :
    PrefixCode (encodeIdList : List (BasicId tag) → Bytes) (·.length < 2 ^ 32) :=
  (PrefixCode.counted (prefixCode_number 4) prefixCode_id).mono
    (fun _ h => ⟨h, fun _ _ => trivial⟩) fun _ _ h => h

theorem prefixCode_optional {A : Type} {encode : A → Bytes}
    (h : PrefixCode encode fun _ => True) :
    PrefixCode (Encoder.optional encode) fun _ => True :=
  (PrefixCode.optional prefixCode_boolean h rfl fun _ => rfl).mono
    (fun _ _ _ _ => trivial) fun _ _ h => h

theorem prefixCode_rank : PrefixCode encodePrecedence fun _ => True :=
  ((prefixCode_boolean.field PrecedenceRank.assigned).append
    ((prefixCode_number 4).field fun rank : PrecedenceRank => rank.value.toNat)).mono
    (fun rank _ => ⟨trivial, rank.value.toNat_lt⟩) fun a b h => by
      cases a
      cases b
      rw [PrecedenceRank.mk.injEq]
      exact ⟨UInt32.toNat_inj.mp h.2, h.1⟩

theorem prefixCode_boot : PrefixCode encodeBoot fun _ => True :=
  PrefixCode.of_length 16 (fun boot => boot.bytes.2) fun a b _ _ h => by
    cases a
    cases b
    exact congrArg BootId.mk (Subtype.ext h)

theorem prefixCode_digest : PrefixCode encodeDigest fun _ => True :=
  PrefixCode.of_length 32 (fun digest => digest.bytes.2) fun _ _ _ _ h => Digest.ext h

theorem prefixCode_publisher :
    PrefixCode (fun publisher : PublisherId => Encoder.optional encodeId
      (if publisher.valid then some publisher else none)) fun _ => True :=
  PrefixCode.of_field (prefixCode_optional prefixCode_id) (fun _ h => h) fun a b h => by
    rw [← getD_publisher a, h, getD_publisher b]

def ShortProvenance (provenance : Provenance) : Prop := Short provenance.op

theorem prefixCode_provenance : PrefixCode encodeProvenance ShortProvenance :=
  ((prefixCode_publisher.field Provenance.publisher).append <|
    (prefixCode_boot.field Provenance.boot).append <|
    (prefixCode_epoch.field Provenance.epoch).append <|
    (prefixCode_token.field Provenance.token).append <|
    (prefixCode_generation.field Provenance.stateGeneration).append <|
    (prefixCode_u64.field Provenance.auditSequence).append <|
    (prefixCode_u64.field Provenance.recordedAtMs).append <|
    prefixCode_str.field Provenance.op).mono
    (fun _ h => ⟨trivial, trivial, trivial, trivial, trivial, trivial, trivial, h⟩)
    fun a b h => by
      cases a
      cases b
      rwa [Provenance.mk.injEq]

def ShortClass (definition : PriorityClassDef) : Prop :=
  definition.inheritsFrom.length < 2 ^ 32 ∧ Short definition.description

theorem prefixCode_class : PrefixCode encodeClassDefinition ShortClass :=
  ((prefixCode_id.field PriorityClassDef.id).append <|
    (prefixCode_generation.field PriorityClassDef.generation).append <|
    (prefixCode_rank.field PriorityClassDef.precedence).append <|
    ((prefixCode_enum ClassKind.ofNat?_toNat ClassKind.toNat_lt).field
      PriorityClassDef.kind).append <|
    (prefixCode_idList.field PriorityClassDef.inheritsFrom).append <|
    (prefixCode_str.field PriorityClassDef.description).append <|
    prefixCode_boolean.field PriorityClassDef.privileged).mono
    (fun _ h => ⟨trivial, trivial, trivial, trivial, h.1, h.2, trivial⟩)
    fun a b h => by
      cases a
      cases b
      rwa [PriorityClassDef.mk.injEq]

def ShortScope (definition : PolicyScopeDef) : Prop := Short definition.description

theorem prefixCode_conflictResolution :
    PrefixCode (fun c : ConflictResolution => Encoder.u8 c.toNat) fun _ => True :=
  prefixCode_enum ConflictResolution.ofNat?_toNat ConflictResolution.toNat_lt

theorem prefixCode_scope : PrefixCode encodeScopeDefinition ShortScope :=
  ((prefixCode_id.field PolicyScopeDef.id).append <|
    (prefixCode_generation.field PolicyScopeDef.generation).append <|
    ((prefixCode_optional prefixCode_id).field PolicyScopeDef.parent).append <|
    (prefixCode_conflictResolution.field PolicyScopeDef.conflictResolution).append <|
    ((prefixCode_optional prefixCode_id).field PolicyScopeDef.unknownDefault).append <|
    (prefixCode_boolean.field PolicyScopeDef.allowOverride).append <|
    prefixCode_str.field PolicyScopeDef.description).mono
    (fun _ h => ⟨trivial, trivial, trivial, trivial, trivial, trivial, h⟩)
    fun a b h => by
      cases a
      cases b
      rwa [PolicyScopeDef.mk.injEq]

def ShortPolicy (definition : PolicyDef) : Prop :=
  definition.visibleClasses.length < 2 ^ 32 ∧ Short definition.description

theorem prefixCode_policy : PrefixCode encodePolicyDefinition ShortPolicy :=
  ((prefixCode_id.field PolicyDef.id).append <|
    (prefixCode_generation.field PolicyDef.generation).append <|
    (prefixCode_id.field PolicyDef.scope).append <|
    (prefixCode_generation.field PolicyDef.scopeGeneration).append <|
    (prefixCode_idList.field PolicyDef.visibleClasses).append <|
    ((prefixCode_optional prefixCode_conflictResolution).field
      PolicyDef.conflictResolution).append <|
    ((prefixCode_optional prefixCode_id).field PolicyDef.unknownDefault).append <|
    (prefixCode_boolean.field PolicyDef.requirePolicyForAssignment).append <|
    prefixCode_str.field PolicyDef.description).mono
    (fun _ h => ⟨trivial, trivial, trivial, trivial, h.1, trivial, trivial, trivial, h.2⟩)
    fun a b h => by
      cases a
      cases b
      rwa [PolicyDef.mk.injEq]

def ShortSubject (definition : SubjectDef) : Prop :=
  definition.inheritsFrom.length < 2 ^ 32 ∧ Short definition.description

theorem prefixCode_subject : PrefixCode encodeSubjectDefinition ShortSubject :=
  ((prefixCode_id.field SubjectDef.id).append <|
    (prefixCode_generation.field SubjectDef.generation).append <|
    (prefixCode_idList.field SubjectDef.inheritsFrom).append <|
    prefixCode_str.field SubjectDef.description).mono
    (fun _ h => ⟨trivial, trivial, h.1, h.2⟩)
    fun a b h => by
      cases a
      cases b
      rwa [SubjectDef.mk.injEq]

def ShortAssignment (assignment : PriorityAssignment) : Prop := Short assignment.note

theorem prefixCode_assignment : PrefixCode encodeAssignment ShortAssignment :=
  ((prefixCode_id.field PriorityAssignment.id).append <|
    (prefixCode_generation.field PriorityAssignment.generation).append <|
    (prefixCode_id.field PriorityAssignment.subject).append <|
    (prefixCode_generation.field PriorityAssignment.subjectGeneration).append <|
    (prefixCode_id.field PriorityAssignment.scope).append <|
    (prefixCode_generation.field PriorityAssignment.scopeGeneration).append <|
    (prefixCode_id.field PriorityAssignment.cls).append <|
    (prefixCode_generation.field PriorityAssignment.classGeneration).append <|
    ((prefixCode_enum AssignmentKind.ofNat?_toNat AssignmentKind.toNat_lt).field
      PriorityAssignment.kind).append <|
    ((prefixCode_optional prefixCode_id).field PriorityAssignment.displaces).append <|
    ((prefixCode_optional prefixCode_id).field PriorityAssignment.policy).append <|
    (prefixCode_generation.field PriorityAssignment.policyGeneration).append <|
    prefixCode_str.field PriorityAssignment.note).mono
    (fun _ h => ⟨trivial, trivial, trivial, trivial, trivial, trivial, trivial, trivial,
      trivial, trivial, trivial, trivial, h⟩)
    fun a b h => by
      cases a
      cases b
      rwa [PriorityAssignment.mk.injEq]

def ShortAuditEntry (entry : AuditEntry) : Prop :=
  Short entry.op ∧ Short entry.detail ∧
    ShortRecord encodeProvenance ShortProvenance entry.provenance

theorem prefixCode_auditEntry : PrefixCode encodeAuditEntry ShortAuditEntry :=
  ((prefixCode_u64.field AuditEntry.sequence).append <|
    (prefixCode_str.field AuditEntry.op).append <|
    ((prefixCode_enum StatusCode.ofNat?_toNat fun code =>
      code.toNat_lt.trans (by norm_num)).field AuditEntry.result).append <|
    (prefixCode_str.field AuditEntry.detail).append <|
    ((prefixCode_nested prefixCode_str prefixCode_provenance).field
      AuditEntry.provenance).append <|
    (prefixCode_generation.field AuditEntry.stateGeneration).append <|
    prefixCode_digest.field AuditEntry.digest).mono
    (fun _ h => ⟨trivial, h.1, trivial, h.2.1, h.2.2, trivial, trivial⟩)
    fun a b h => by
      cases a
      cases b
      rwa [AuditEntry.mk.injEq]

def ShortEntry {Def : Type} (encode : Def → Bytes) (good : Def → Prop) (entry : Entry Def) :
    Prop :=
  ShortRecord encode good entry.definition ∧
    ShortRecord encodeProvenance ShortProvenance entry.provenance

theorem prefixCode_entry {Def : Type} {encode : Def → Bytes} {good : Def → Prop}
    (h : PrefixCode encode good) : PrefixCode (encodeEntry encode) (ShortEntry encode good) :=
  (((prefixCode_nested prefixCode_blob h).field Entry.definition).append <|
    (prefixCode_nested prefixCode_blob prefixCode_provenance).field Entry.provenance).mono
    (fun _ h => h) fun a b h => by
      cases a
      cases b
      rwa [Entry.mk.injEq]

structure ShortAssignmentEntry (entry : AssignmentEntry) : Prop where
  assignment : ShortRecord encodeAssignment ShortAssignment entry.assignment
  provenance : ShortRecord encodeProvenance ShortProvenance entry.provenance
  retirementReason : Short entry.retirementReason
  retiredBy : ShortRecord encodeProvenance ShortProvenance entry.retiredBy

theorem prefixCode_assignmentEntry :
    PrefixCode encodeAssignmentEntry ShortAssignmentEntry :=
  (((prefixCode_nested prefixCode_blob prefixCode_assignment).field
      AssignmentEntry.assignment).append <|
    ((prefixCode_nested prefixCode_blob prefixCode_provenance).field
      AssignmentEntry.provenance).append <|
    (prefixCode_boolean.field AssignmentEntry.active).append <|
    (prefixCode_str.field AssignmentEntry.retirementReason).append <|
    (prefixCode_nested prefixCode_blob prefixCode_provenance).field
      AssignmentEntry.retiredBy).mono
    (fun _ h => ⟨h.assignment, h.provenance, trivial, h.retirementReason, h.retiredBy⟩)
    fun a b h => by
      cases a
      cases b
      rwa [AssignmentEntry.mk.injEq]

def ShortAuthorityEntry (entry : AuthorityEntry) : Prop :=
  ShortRecord encodeProvenance ShortProvenance entry.provenance

theorem prefixCode_authorityEntry :
    PrefixCode encodeAuthorityEntry ShortAuthorityEntry :=
  ((prefixCode_id.field AuthorityEntry.publisher).append <|
    (prefixCode_boot.field AuthorityEntry.boot).append <|
    (prefixCode_epoch.field AuthorityEntry.epoch).append <|
    (prefixCode_token.field AuthorityEntry.token).append <|
    ((prefixCode_enum AuthorityState.ofNat?_toNat AuthorityState.toNat_lt).field
      AuthorityEntry.state).append <|
    (prefixCode_nested prefixCode_blob prefixCode_provenance).field
      AuthorityEntry.provenance).mono
    (fun _ h => ⟨trivial, trivial, trivial, trivial, trivial, h⟩)
    fun a b h => by
      cases a
      cases b
      rwa [AuthorityEntry.mk.injEq]

/-- Members that are good, and few enough to be counted. -/
def ShortList {A : Type} (good : A → Prop) (items : List A) : Prop :=
  items.length < 2 ^ 32 ∧ ∀ a ∈ items, good a

theorem prefixCode_collection {A : Type} {encode : A → Bytes} {good : A → Prop}
    (h : PrefixCode encode good) : PrefixCode (encodeCollection encode) (ShortList good) :=
  PrefixCode.counted (prefixCode_number 4) h

section Tables

variable {K V : Type} [Ord K] [Std.TransOrd K]

/-- A table keyed by the ids in its entries, which are good and few enough. -/
structure ShortTable (key : V → K) (good : V → Prop) (table : Std.ExtTreeMap K V) : Prop where
  keyed : Keyed key good table
  size : table.size < 2 ^ 32

theorem prefixCode_map [Std.LawfulEqOrd K] [DecidableEq K] {encode : V → Bytes}
    {key : V → K} {good : V → Prop} (h : PrefixCode encode good) :
    PrefixCode (encodeMap encode) (ShortTable key good) := by
  have htable := @PrefixCode.table V UInt8 K _ _ _ _ key _ _ (prefixCode_collection h) good
  refine (htable.congr fun _ _ => encodeMap_eq).mono ?_ fun _ _ h => h
  intro table hshort
  refine ⟨hshort.keyed, by simpa using hshort.size, ?_⟩
  intro v hv
  obtain ⟨k, hk⟩ := mem_values.mp hv
  exact hshort.keyed.good k v hk

end Tables

/-- The keys are the ids of the entries, and every length fits its prefix. -/
structure Representable (image : StateImage) : Prop where
  healthDetail : Short image.healthDetail
  classes : ShortTable (fun entry : ClassEntry => entry.definition.id)
    (ShortEntry encodeClassDefinition ShortClass) image.classes
  scopes : ShortTable (fun entry : ScopeEntry => entry.definition.id)
    (ShortEntry encodeScopeDefinition ShortScope) image.scopes
  policies : ShortTable (fun entry : PolicyEntry => entry.definition.id)
    (ShortEntry encodePolicyDefinition ShortPolicy) image.policies
  subjects : ShortTable (fun entry : SubjectEntry => entry.definition.id)
    (ShortEntry encodeSubjectDefinition ShortSubject) image.subjects
  assignments : ShortTable (fun entry : AssignmentEntry => entry.assignment.id)
    ShortAssignmentEntry image.assignments
  authority : ShortTable AuthorityEntry.key ShortAuthorityEntry image.authority
  audit : ShortList (ShortRecord encodeAuditEntry ShortAuditEntry) image.audit

/-- The images agree but for the limits and the derived index. -/
def SameState (first second : StateImage) : Prop :=
  { first with
    limits := second.limits
    assignmentsBySubject := second.assignmentsBySubject } = second

theorem shows_encodeState : Shows encodeState Representable SameState :=
  ((Shows.const (Encoder.u32 stateMagic)).append <|
    (Shows.const (Encoder.u16 formatVersion)).append <|
    (prefixCode_epoch.field StateImage.epoch).append <|
    (prefixCode_generation.field StateImage.generation).append <|
    (prefixCode_u64.field StateImage.lastSequence).append <|
    (prefixCode_u64.field StateImage.nextFencingToken).append <|
    (prefixCode_u64.field StateImage.nextAuditSequence).append <|
    ((prefixCode_enum Health.ofNat?_toNat Health.toNat_lt).field StateImage.health).append <|
    (prefixCode_str.field StateImage.healthDetail).append <|
    ((prefixCode_map (prefixCode_entry prefixCode_class)).field StateImage.classes).append <|
    ((prefixCode_map (prefixCode_entry prefixCode_scope)).field StateImage.scopes).append <|
    ((prefixCode_map (prefixCode_entry prefixCode_policy)).field StateImage.policies).append <|
    ((prefixCode_map (prefixCode_entry prefixCode_subject)).field
      StateImage.subjects).append <|
    ((prefixCode_map prefixCode_assignmentEntry).field StateImage.assignments).append <|
    ((prefixCode_map prefixCode_authorityEntry).field StateImage.authority).append <|
    (prefixCode_collection (prefixCode_nested prefixCode_blob prefixCode_auditEntry)).field
      StateImage.audit).mono
    (fun _ h => ⟨trivial, trivial, trivial, trivial, trivial, trivial, trivial, trivial,
      h.healthDetail, h.classes, h.scopes, h.policies, h.subjects, h.assignments,
      h.authority, h.audit⟩)
    fun a b h => by
      cases a
      cases b
      obtain ⟨-, -, hepoch, hgeneration, hlast, htoken, haudit, hhealth, hdetail, hclasses,
        hscopes, hpolicies, hsubjects, hassignments, hauthority, hring⟩ := h
      rw [SameState, StateImage.mk.injEq]
      exact ⟨hepoch, hgeneration, hlast, htoken, haudit, rfl, hclasses, hscopes, hpolicies,
        hsubjects, hassignments, rfl, hauthority, hring, hhealth, hdetail⟩

theorem sameState_of_encodeState {first second : StateImage} (hfirst : Representable first)
    (hsecond : Representable second) (h : encodeState first = encodeState second) :
    SameState first second :=
  (shows_encodeState first second hfirst hsecond [] [] (congrArg (· ++ []) h)).1

theorem shortProvenance_of_fits {provenance : Provenance} (h : ProvenanceFits provenance) :
    ShortProvenance provenance :=
  lt_of_le_of_lt h (by norm_num [maxOpLength])

theorem shortEntry_of_length {Def : Type} {encode : Def → Bytes} {good : Def → Prop}
    {entry : Entry Def} (hgood : (encode entry.definition).length < 2 ^ 32 →
      good entry.definition) (hprovenance : ProvenanceFits entry.provenance)
    (hlength : (encodeEntry encode entry).length < 2 ^ 32) : ShortEntry encode good entry := by
  simp only [encodeEntry, List.length_append, length_encodeBlob] at hlength
  exact ⟨⟨hgood (by omega), by unfold Short; omega⟩,
    shortProvenance_of_fits hprovenance, by unfold Short; omega⟩

theorem shortTable_of_length {K V : Type} [Ord K] [Std.TransOrd K] [Std.LawfulEqOrd K]
    {encode : V → Bytes} {key : V → K} {good short : V → Prop} {table : Std.ExtTreeMap K V}
    (hkeyed : Keyed key good table) (hpositive : ∀ v, 0 < (encode v).length)
    (hlength : (encodeMap encode table).length < 2 ^ 32)
    (hshort : ∀ v, good v → (encode v).length < 2 ^ 32 → short v) :
    ShortTable key short table where
  keyed :=
    { key_eq := hkeyed.key_eq
      good := fun k v hv => hshort v (hkeyed.good k v hv)
        (lt_of_le_of_lt (length_value_le (mem_values.mpr ⟨k, hv⟩)) hlength) }
  size := lt_of_le_of_lt (size_le_encodeMap hpositive) hlength

/-- What validation admits is representable, as long as it is encoded in less than four
gigabytes and its free texts are short. -/
theorem representable_of_bounded {image : StateImage} (hbounded : Bounded image)
    (hlimits : limitsWithinCompiledCeiling image.limits = true)
    (hlength : (encodeState image).length < 2 ^ 32) (hdetail : Short image.healthDetail)
    (haudit : ∀ entry ∈ image.audit, Short entry.detail) : Representable image := by
  obtain ⟨-, hdescription, hnote, -⟩ := limits_bounds_of_within hlimits
  have hshort {bytes : Bytes} {limit : Nat} (hlimit : limit ≤ 1024)
      (h : bytes.length ≤ limit) : Short bytes := by
    unfold Short
    omega
  obtain ⟨hclasses, hscopes, hpolicies, hsubjects, hassignments, hauthority, hring⟩ :=
    table_lengths hlength
  have htables := hbounded.tables
  refine ⟨hdetail, ?_, ?_, ?_, ?_, ?_, ?_, ?_⟩
  · refine shortTable_of_length htables.classes (encodeEntry_positive _) hclasses ?_
    intro entry hfits hentry
    refine shortEntry_of_length (fun hlt => ⟨length_inheritsFrom_lt hlt, ?_⟩) hfits.provenance
      hentry
    exact hshort hdescription hfits.description
  · refine shortTable_of_length htables.scopes (encodeEntry_positive _) hscopes ?_
    intro entry hfits hentry
    exact shortEntry_of_length (fun _ => hshort hdescription hfits.description)
      hfits.provenance hentry
  · refine shortTable_of_length htables.policies (encodeEntry_positive _) hpolicies ?_
    intro entry hfits hentry
    refine shortEntry_of_length (fun hlt => ⟨length_visibleClasses_lt hlt, ?_⟩)
      hfits.provenance hentry
    exact hshort hdescription hfits.description
  · refine shortTable_of_length htables.subjects (encodeEntry_positive _) hsubjects ?_
    intro entry hfits hentry
    refine shortEntry_of_length (fun hlt => ⟨length_subject_inheritsFrom_lt hlt, ?_⟩)
      hfits.provenance hentry
    exact hshort hdescription hfits.description
  · refine shortTable_of_length htables.assignments encodeAssignmentEntry_positive
      hassignments ?_
    intro entry hfits hentry
    simp only [encodeAssignmentEntry, List.length_append, length_encodeBlob] at hentry
    have hnotes : image.limits.maxNoteLength ≤ 1024 := by omega
    exact
      { assignment := ⟨hshort hnotes hfits.note, by unfold Short; omega⟩
        provenance := ⟨shortProvenance_of_fits hfits.provenance, by unfold Short; omega⟩
        retirementReason := hshort hnotes hfits.reason
        retiredBy := ⟨shortProvenance_of_fits hfits.retiredBy, by unfold Short; omega⟩ }
  · refine shortTable_of_length htables.authority encodeAuthorityEntry_positive hauthority ?_
    intro entry hfits hentry
    simp only [encodeAuthorityEntry, List.length_append, length_encodeBlob] at hentry
    exact ⟨shortProvenance_of_fits hfits, by unfold Short; omega⟩
  · have hpositive (entry : AuditEntry) : 0 < (encodeBlob (encodeAuditEntry entry)).length := by
      rw [length_encodeBlob]
      omega
    refine ⟨lt_of_le_of_lt (length_le_encodeCollection hpositive) hring, ?_⟩
    intro entry hentry
    have hle := lt_of_le_of_lt
      (length_encode_le (fun entry => encodeBlob (encodeAuditEntry entry)) hentry) hring
    have hfits := hbounded.audit entry hentry
    have hprovenance := shortProvenance_of_fits hfits.provenance
    have hop : Short entry.op := lt_of_le_of_lt hfits.op (by norm_num [maxOpLength])
    rw [length_encodeBlob] at hle
    have hrecord : (encodeProvenance entry.provenance).length < 2 ^ 32 := by
      have hid := entry.provenance.publisher.length_value_le
      have hfit : entry.provenance.op.length ≤ 64 := hfits.provenance
      rw [length_encodeProvenance, storedText_of_lt hprovenance]
      split <;> omega
    exact ⟨⟨hop, haudit entry hentry, hprovenance, hrecord⟩, by unfold Short; omega⟩

/-- The two strings are no collision of the hash. -/
def NoCollision (first second : Bytes) : Prop :=
  Sha256.hash first = Sha256.hash second → first = second

theorem sameState_of_stateDigest {first second : StateImage} (hfirst : Representable first)
    (hsecond : Representable second)
    (hcollision : NoCollision (encodeState first) (encodeState second))
    (h : stateDigest first = stateDigest second) : SameState first second :=
  sameState_of_encodeState hfirst hsecond (hcollision h)

theorem representable_normalizeImage {image : StateImage} (h : Representable image) :
    Representable (normalizeImage image) where
  healthDetail := h.healthDetail
  classes := h.classes
  scopes := h.scopes
  policies := h.policies
  subjects := h.subjects
  assignments := h.assignments
  authority := by
    have hkey (entry : AuthorityEntry) :
        AuthorityEntry.key (normalizeEntry entry) = AuthorityEntry.key entry := by
      unfold normalizeEntry
      split <;> rfl
    have hshort (entry : AuthorityEntry) (hentry : ShortAuthorityEntry entry) :
        ShortAuthorityEntry (normalizeEntry entry) := by
      unfold normalizeEntry
      split
      · exact hentry
      · exact hentry
    refine ⟨h.authority.keyed.map (fun _ entry => hkey entry) fun _ entry => hshort entry, ?_⟩
    rw [normalizeImage, Std.ExtTreeMap.size_map]
    exact h.authority.size
  audit := h.audit

theorem stateDigest_of_verify {s : StoreState} {report : IntegrityReport} {dir : Directory}
    (h : verify s = .ok (report, dir)) (hhealth : report.health = .healthy) :
    ∃ replayed, replay s.dir s.store.options s.store.key = .ok replayed ∧
      stateDigest (normalizeImage replayed.image) = stateDigest (normalizeImage s.live) := by
  unfold verify at h
  rw [bind_eq_ok] at h
  obtain ⟨replayed, hreplay, h⟩ := h
  refine ⟨replayed, hreplay, ?_⟩
  dsimp only at h
  split at h
  · split at h
    · cases h
      cases hhealth
    · rename_i hdigest
      exact not_not.mp hdigest
  · rename_i hnot
    cases h
    exact absurd hhealth hnot

/-- The encoding of a state determines it, and so does its digest where SHA-256 does not
collide; a verification that reports a healthy store has compared equal states. -/
theorem state_encoding_injective :
    (∀ first second, Representable first → Representable second →
      encodeState first = encodeState second → SameState first second) ∧
      (∀ first second, Representable first → Representable second →
        NoCollision (encodeState first) (encodeState second) →
        stateDigest first = stateDigest second → SameState first second) ∧
      ∀ s report dir, verify s = .ok (report, dir) → report.health = .healthy →
        ∃ replayed, replay s.dir s.store.options s.store.key = .ok replayed ∧
          (Representable replayed.image → Representable s.live →
            NoCollision (encodeState (normalizeImage replayed.image))
              (encodeState (normalizeImage s.live)) →
            SameState (normalizeImage replayed.image) (normalizeImage s.live)) := by
  refine ⟨fun _ _ => sameState_of_encodeState, fun _ _ => sameState_of_stateDigest, ?_⟩
  intro s report dir hverify hhealth
  obtain ⟨replayed, hreplay, hdigest⟩ := stateDigest_of_verify hverify hhealth
  refine ⟨replayed, hreplay, fun hreplayed hlive hcollision => ?_⟩
  exact sameState_of_stateDigest (representable_normalizeImage hreplayed)
    (representable_normalizeImage hlive) hcollision hdigest

def oneClass : Mutation where
  op := .defineClass { id := ⟨[108], wellFormed_l⟩, precedence := .make 10 }
  system := true

def populated (limits : Limits) : StateImage :=
  (Apply.applyMutation { limits } oneClass false).2

theorem representable_populated {limits : Limits}
    (hlimits : limitsWithinCompiledCeiling (populated limits).limits = true)
    (hlength : (encodeState (populated limits)).length ≤ 4096)
    (hdetail : (populated limits).healthDetail = [])
    (haudit : ((populated limits).audit.all fun entry => entry.detail.length ≤ 4096) = true) :
    Representable (populated limits) := by
  refine representable_of_bounded (bounded_applyMutation (bounded_empty limits) _ _) hlimits
    (lt_of_le_of_lt hlength (by decide)) ?_ ?_
  · rw [hdetail]
    exact Nat.two_pow_pos 32
  · intro entry hentry
    have hbound := of_decide_eq_true (List.all_eq_true.mp haudit entry hentry)
    exact lt_of_le_of_lt hbound (by decide)

theorem state_encoding_injective_class :
    (populated {}).classes.size = 1 ∧
      SameState (populated {}) (populated { maxClasses := 7 }) :=
  ⟨by decide, state_encoding_injective.1 _ _
    (representable_populated (by decide +kernel) (by decide +kernel) (by decide +kernel)
      (by decide))
    (representable_populated (by decide +kernel) (by decide +kernel) (by decide +kernel)
      (by decide +kernel)) (by decide +kernel)⟩

end PriorityFabric.StateEncoding
