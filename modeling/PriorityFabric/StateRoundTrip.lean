import PriorityFabric.Bounds

/-!
When an encoded image reads back.

The decoder asks for more than the image promises: identifiers within the length
limit, blobs within the record limit, few authority entries, short audit texts.  An
image within its bounds reads back if and only if it meets exactly that, and what
reads back is the image with its index built anew.
-/

namespace PriorityFabric.StateRoundTrip

open PriorityFabric.Lib.LittleEndian
open PriorityFabric.Lib.ByteReader
open PriorityFabric.Lib.KeyedTable
open PriorityFabric.Basics
open PriorityFabric.Ident
open PriorityFabric.Hashing
open PriorityFabric.Model
open PriorityFabric.Codec
open PriorityFabric.Codec.Decoder (IdReadable readsIff_id readsIff_u8 readsIff_u16
  readsIff_u32 readsIff_u64 readsIff_boolean readsIff_str readsIff_blob)
open PriorityFabric.ModelCodec
open PriorityFabric.State
open PriorityFabric.StateCodec
open PriorityFabric.Readable
open PriorityFabric.Bounds

variable {limits : Limits}

/-- A provenance blob the decoder accepts. -/
structure ProvenanceBlobReadable (limits : Limits) (provenance : Provenance) : Prop where
  size : (encodeProvenance provenance).length ≤ limits.maxRecordPayload
  publisher : provenance.publisher.value.length ≤ limits.maxIdLength

theorem storedProvenance_of_fits {provenance : Provenance} (h : ProvenanceFits provenance) :
    storedProvenance provenance = provenance := by
  have hop : storedText provenance.op = provenance.op :=
    storedText_of_le (by norm_num [maxOpLength]) h
  rw [storedProvenance, hop]

theorem readsIff_decodeProvenanceBlob {provenance : Provenance}
    (h : ProvenanceFits provenance)
    (hblob : (encodeProvenance provenance).length < 2 ^ 32) :
    ReadsIff (decodeProvenanceBlob limits) (encodeBlob (encodeProvenance provenance))
      provenance (ProvenanceBlobReadable limits provenance) := by
  have hread := readsIff_decodeProvenance limits provenance
  rw [storedProvenance_of_fits h] at hread
  rw [encodeBlob_of_lt hblob]
  refine (readsIff_blob hblob (readAll_of_readsIff hread)
    (readAll_refuses_of_readsIff hread)).congr ?_
  constructor
  · rintro ⟨hsize, hpublisher, -⟩
    exact ⟨hsize, hpublisher⟩
  · rintro ⟨hsize, hpublisher⟩
    exact ⟨hsize, hpublisher, h⟩

/-- A stored definition the decoder accepts: its encoding `bytes` and the identifiers
`ids` in it, with its provenance. -/
structure EntryReadable (limits : Limits) (bytes : Bytes) (ids : List Bytes)
    (provenance : Provenance) : Prop where
  size : bytes.length ≤ limits.maxRecordPayload
  ids : IdsFit limits ids
  provenance : ProvenanceBlobReadable limits provenance

theorem readsIff_decodeEntry {Def : Type} {encode : Def → Bytes}
    {decode : Bytes → Limits → Result Def} {dec : Decoder Def} {C : Prop} {ids : List Bytes}
    {entry : Entry Def} (hdecode : (decode · limits) = Decoder.run dec)
    (hdefinition : ReadsIff dec (encode entry.definition) entry.definition C)
    (hids : C ↔ IdsFit limits ids) (hprovenance : ProvenanceFits entry.provenance)
    (hlength : (encodeEntry encode entry).length < 2 ^ 32) :
    ReadsIff (decodeEntry limits decode) (encodeEntry encode entry) entry
      (EntryReadable limits (encode entry.definition) ids entry.provenance) := by
  simp only [encodeEntry, List.length_append, length_encodeBlob] at hlength
  unfold decodeEntry
  rw [hdecode]
  refine ReadsIff.congr (ReadsIff.bind (readsIff_definitionBlob (by omega) hdefinition) fun _ =>
    ReadsIff.map (readsIff_decodeProvenanceBlob hprovenance (by omega))) ?_
  rw [hids]
  constructor
  · rintro ⟨⟨hsize, hfit⟩, hblob⟩
    exact ⟨hsize, hfit, hblob⟩
  · rintro ⟨hsize, hfit, hblob⟩
    exact ⟨⟨hsize, hfit⟩, hblob⟩

section Definitions

variable (hlimits : limitsWithinCompiledCeiling limits = true)
include hlimits

theorem readsIff_classEntry {entry : ClassEntry} (h : ClassFits limits entry)
    (hlength : (encodeEntry encodeClassDefinition entry).length < 2 ^ 32) :
    ReadsIff (decodeEntry limits decodeClassDefinition)
      (encodeEntry encodeClassDefinition entry) entry
      (EntryReadable limits (encodeClassDefinition entry.definition)
        (opIds (.defineClass entry.definition)) entry.provenance) := by
  obtain ⟨-, hdescription, -⟩ := limits_bounds_of_within hlimits
  have hblob : (encodeClassDefinition entry.definition).length < 2 ^ 32 := by
    simp only [encodeEntry, List.length_append, length_encodeBlob] at hlength
    omega
  have hread := readsIff_readClassDefinition limits (length_inheritsFrom_lt hblob)
  have hstored : storedClass entry.definition = entry.definition := by
    simp only [storedClass, h.rank.2, storedText_of_le hdescription h.description]
  rw [hstored] at hread
  exact readsIff_decodeEntry rfl hread
    (classReadable_iff h.rank.1 h.description h.parents) h.provenance hlength

theorem readsIff_scopeEntry {entry : ScopeEntry} (h : ScopeFits limits entry)
    (hlength : (encodeEntry encodeScopeDefinition entry).length < 2 ^ 32) :
    ReadsIff (decodeEntry limits decodeScopeDefinition)
      (encodeEntry encodeScopeDefinition entry) entry
      (EntryReadable limits (encodeScopeDefinition entry.definition)
        (opIds (.defineScope entry.definition)) entry.provenance) := by
  obtain ⟨-, hdescription, -⟩ := limits_bounds_of_within hlimits
  have hread := readsIff_readScopeDefinition limits entry.definition
  have hstored : storedScope entry.definition = entry.definition := by
    simp only [storedScope, storedText_of_le hdescription h.description]
  rw [hstored] at hread
  exact readsIff_decodeEntry rfl hread (scopeReadable_iff h.description) h.provenance hlength

theorem readsIff_policyEntry {entry : PolicyEntry} (h : PolicyFits limits entry)
    (hlength : (encodeEntry encodePolicyDefinition entry).length < 2 ^ 32) :
    ReadsIff (decodeEntry limits decodePolicyDefinition)
      (encodeEntry encodePolicyDefinition entry) entry
      (EntryReadable limits (encodePolicyDefinition entry.definition)
        (opIds (.definePolicy entry.definition)) entry.provenance) := by
  obtain ⟨-, hdescription, -⟩ := limits_bounds_of_within hlimits
  have hblob : (encodePolicyDefinition entry.definition).length < 2 ^ 32 := by
    simp only [encodeEntry, List.length_append, length_encodeBlob] at hlength
    omega
  have hread := readsIff_readPolicyDefinition limits (length_visibleClasses_lt hblob)
  have hstored : storedPolicy entry.definition = entry.definition := by
    simp only [storedPolicy, storedText_of_le hdescription h.description]
  rw [hstored] at hread
  exact readsIff_decodeEntry rfl hread (policyReadable_iff h.description h.visible)
    h.provenance hlength

theorem readsIff_subjectEntry {entry : SubjectEntry} (h : SubjectFits limits entry)
    (hlength : (encodeEntry encodeSubjectDefinition entry).length < 2 ^ 32) :
    ReadsIff (decodeEntry limits decodeSubjectDefinition)
      (encodeEntry encodeSubjectDefinition entry) entry
      (EntryReadable limits (encodeSubjectDefinition entry.definition)
        (opIds (.defineSubject entry.definition)) entry.provenance) := by
  obtain ⟨-, hdescription, -⟩ := limits_bounds_of_within hlimits
  have hblob : (encodeSubjectDefinition entry.definition).length < 2 ^ 32 := by
    simp only [encodeEntry, List.length_append, length_encodeBlob] at hlength
    omega
  have hread := readsIff_readSubjectDefinition limits (length_subject_inheritsFrom_lt hblob)
  have hstored : storedSubject entry.definition = entry.definition := by
    simp only [storedSubject, storedText_of_le hdescription h.description]
  rw [hstored] at hread
  exact readsIff_decodeEntry rfl hread (subjectReadable_iff h.description h.parents)
    h.provenance hlength

/-- A stored assignment the decoder accepts. -/
structure AssignmentEntryReadable (limits : Limits) (entry : AssignmentEntry) : Prop where
  definition : EntryReadable limits (encodeAssignment entry.assignment)
    (opIds (.assign entry.assignment)) entry.provenance
  retiredBy : ProvenanceBlobReadable limits entry.retiredBy

theorem readsIff_assignmentEntry {entry : AssignmentEntry} (h : AssignmentFits limits entry)
    (hlength : (encodeAssignmentEntry entry).length < 2 ^ 32) :
    ReadsIff (decodeAssignmentEntry limits) (encodeAssignmentEntry entry) entry
      (AssignmentEntryReadable limits entry) := by
  obtain ⟨-, -, hnote, -⟩ := limits_bounds_of_within hlimits
  simp only [encodeAssignmentEntry, List.length_append, length_encodeBlob] at hlength
  have hread := readsIff_readAssignment limits entry.assignment
  have hstored : storedAssignment entry.assignment = entry.assignment := by
    simp only [storedAssignment, storedText_of_le (hnote.trans (by norm_num)) h.note]
  have hreason : storedText entry.retirementReason = entry.retirementReason :=
    storedText_of_le (hnote.trans (by norm_num)) h.reason
  rw [hstored] at hread
  have hread' := readsIff_str limits.maxNoteLength entry.retirementReason
  rw [hreason] at hread'
  refine ReadsIff.congr (ReadsIff.bind (readsIff_definitionBlob (by omega) hread) fun _ =>
    ReadsIff.bind (readsIff_decodeProvenanceBlob h.provenance (by omega)) fun _ =>
    ReadsIff.bind_true (readsIff_boolean _) <|
    ReadsIff.bind hread' fun _ =>
    ReadsIff.map (readsIff_decodeProvenanceBlob h.retiredBy (by omega))) ?_
  rw [assignmentReadable_iff h.note]
  constructor
  · rintro ⟨⟨hsize, hfit⟩, hblob, -, hretired⟩
    exact ⟨⟨hsize, hfit, hblob⟩, hretired⟩
  · rintro ⟨⟨hsize, hfit, hblob⟩, hretired⟩
    exact ⟨⟨hsize, hfit⟩, hblob, h.reason, hretired⟩

end Definitions

theorem readsIff_stateEnum {α : Type} {ofNat? : Nat → Option α} {n : Nat} {a : α}
    (message : Bytes) (hlt : n < 256) (h : ofNat? n = some a) :
    ReadsIff (readStateEnum ofNat? message) (Encoder.u8 n) a True := by
  have hread : ReadsIff (readStateEnum ofNat? message) (Encoder.u8 n) a (True ∧ True) := by
    apply ReadsIff.bind_last (readsIff_u8 hlt)
    intro _
    simp only [h]
    exact ReadsIff.pure a
  exact hread.congr (and_self_iff)

/-- An authority record the decoder accepts. -/
structure AuthorityReadable (limits : Limits) (entry : AuthorityEntry) : Prop where
  publisher : IdReadable limits entry.publisher
  provenance : ProvenanceBlobReadable limits entry.provenance

theorem readsIff_authorityEntry {entry : AuthorityEntry} (h : AuthorityFits entry)
    (hlength : (encodeAuthorityEntry entry).length < 2 ^ 32) :
    ReadsIff (decodeAuthorityEntry limits) (encodeAuthorityEntry entry) entry
      (AuthorityReadable limits entry) := by
  simp only [encodeAuthorityEntry, List.length_append, length_encodeBlob] at hlength
  refine ReadsIff.congr (ReadsIff.bind (readsIff_id limits entry.publisher) fun _ =>
    ReadsIff.bind_true (readsIff_decodeBoot entry.boot) <|
    ReadsIff.bind_true (readsIff_u64 _) <|
    ReadsIff.bind_true (readsIff_u64 _) <|
    ReadsIff.bind_true (readsIff_stateEnum _ (AuthorityState.toNat_lt _)
      (AuthorityState.ofNat?_toNat _)) <|
    ReadsIff.map (readsIff_decodeProvenanceBlob h (by omega))) ?_
  constructor
  · rintro ⟨hpublisher, hprovenance⟩
    exact ⟨hpublisher, hprovenance⟩
  · rintro ⟨hpublisher, hprovenance⟩
    exact ⟨hpublisher, hprovenance⟩

section Collections

variable {α : Type} {encode : α → Bytes} {items : List α}

theorem length_encode_le (encode : α → Bytes) {item : α} (h : item ∈ items) :
    (encode item).length ≤ (encodeCollection encode items).length := by
  have hmem : encode item ∈ items.map encode := List.mem_map_of_mem h
  have hsub := (List.sublist_flatten_of_mem hmem).length_le
  simp only [encodeCollection, List.length_append]
  rw [List.flatMap_def]
  omega

theorem length_le_encodeCollection (hpositive : ∀ item, 0 < (encode item).length) :
    items.length ≤ (encodeCollection encode items).length := by
  have hflat : items.length ≤ (items.flatMap encode).length := by
    induction items with
    | nil => simp
    | cons item items ih =>
        have := hpositive item
        simp only [List.flatMap_cons, List.length_append, List.length_cons]
        omega
  simp only [encodeCollection, List.length_append]
  omega

theorem readsIff_readEntityCount {count bound : Nat} (what : Bytes) (h : count < 2 ^ 32) :
    ReadsIff (readEntityCount bound what) (Encoder.u32 count) count (count ≤ bound) := by
  refine ReadsIff.congr (ReadsIff.bind_last (readsIff_u32 h) fun _ =>
    ReadsIff.guard (f := fun _ => pure count) fun _ => ReadsIff.pure count) ?_
  simp

variable {K V : Type} [Ord K] [Std.TransOrd K] [Std.LawfulEqOrd K] [DecidableEq K]
  {encodeValue : V → Bytes} {table : Std.ExtTreeMap K V} {key : V → K} {good : V → Prop}

omit [Std.LawfulEqOrd K] [DecidableEq K] in
theorem encodeMap_eq :
    encodeMap encodeValue table = encodeCollection encodeValue (values table) := by
  simp [encodeMap, encodeCollection, values, List.flatMap_map]

theorem readsIff_decodeMap {bound : Nat} {what : Bytes} {decode : Decoder V} {C : V → Prop}
    (hkeyed : Keyed key good table) (hcount : table.size < 2 ^ 32)
    (hread : ∀ v ∈ values table, ReadsIff decode (encodeValue v) v (C v)) :
    ReadsIff (decodeMap bound what decode key) (encodeMap encodeValue table) table
      (table.size ≤ bound ∧ ∀ v ∈ values table, C v) := by
  have hfold := ReadsIff.fold (values table) (fun (map : Std.ExtTreeMap K V) v hv =>
    ReadsIff.map (f := fun entry => map.insertIfNew (key entry) entry) (hread v hv)) ∅
  rw [length_values] at hfold
  have hcollect := collect_values hkeyed
  unfold collect at hcollect
  rw [hcollect, foldAll_iff_forall] at hfold
  rw [encodeMap_eq, encodeCollection, length_values]
  exact ReadsIff.bind (readsIff_readEntityCount what hcount) fun _ => hfold

omit [Std.LawfulEqOrd K] [DecidableEq K] in
theorem length_value_le {v : V} (h : v ∈ values table) :
    (encodeValue v).length ≤ (encodeMap encodeValue table).length := by
  rw [encodeMap_eq]
  exact length_encode_le encodeValue h

omit [Std.LawfulEqOrd K] [DecidableEq K] in
theorem size_le_encodeMap (hpositive : ∀ v, 0 < (encodeValue v).length) :
    table.size ≤ (encodeMap encodeValue table).length := by
  rw [encodeMap_eq, ← length_values]
  exact length_le_encodeCollection hpositive

end Collections

/-- The bound on authority records that is checked before each insertion. -/
def authorityRoom (limits : Limits) : Nat :=
  limits.maxPublishers * limits.maxBootsPerPublisher % 2 ^ 32

theorem readsIff_decodeAuthority {table : Std.ExtTreeMap Incarnation AuthorityEntry}
    (hkeyed : Keyed AuthorityEntry.key AuthorityFits table) (hcount : table.size < 2 ^ 32)
    (hlength : ∀ entry ∈ values table, (encodeAuthorityEntry entry).length < 2 ^ 32) :
    ReadsIff (decodeAuthority limits) (encodeMap encodeAuthorityEntry table) table
      (table.size ≤ limits.maxPublishers ∧ table.size ≤ authorityRoom limits ∧
        ∀ entry ∈ values table, AuthorityReadable limits entry) := by
  have hfits : ∀ entry ∈ values table, AuthorityFits entry := by
    intro entry hentry
    obtain ⟨k, hk⟩ := mem_values.mp hentry
    exact hkeyed.good k entry hk
  have hstep : ∀ (map : Std.ExtTreeMap Incarnation AuthorityEntry), ∀ entry ∈ values table,
      ReadsIff (do
        let entry ← decodeAuthorityEntry limits
        refuseIf (map.size ≥ limits.maxPublishers * limits.maxBootsPerPublisher % 2 ^ 32)
          (makeError .limitExceeded
            (text "state image holds more authority records than the limit allows"))
        return map.insertIfNew ⟨entry.publisher, entry.boot⟩ entry)
        (encodeAuthorityEntry entry) (map.insertIfNew (AuthorityEntry.key entry) entry)
        (AuthorityReadable limits entry ∧ map.size < authorityRoom limits) := by
    intro map entry hentry
    refine ReadsIff.congr (ReadsIff.bind_last (readsIff_authorityEntry (hfits entry hentry)
      (hlength entry hentry)) fun _ => ReadsIff.guard
        (f := fun _ => pure (map.insertIfNew ⟨entry.publisher, entry.boot⟩ entry))
        fun _ => ReadsIff.pure _) ?_
    simp [authorityRoom]
  have hfold := ReadsIff.fold (values table) hstep ∅
  rw [length_values] at hfold
  have hcollect := collect_values hkeyed
  unfold collect at hcollect
  rw [hcollect] at hfold
  have hroom := foldAll_room_iff (C := AuthorityReadable limits) (nodup_key_values hkeyed)
    (authorityRoom limits) ∅ (fun v _ => by simp) (by simp)
  rw [encodeMap_eq, encodeCollection, length_values]
  refine ReadsIff.congr (ReadsIff.bind (readsIff_readEntityCount _ hcount) fun _ => hfold) ?_
  rw [hroom]
  simp

theorem readsIff_decodeAudit {audit : List AuditEntry} (hfits : ∀ entry ∈ audit, AuditFits entry)
    (hcount : audit.length < 2 ^ 32)
    (hlength : ∀ entry ∈ audit, (encodeAuditEntry entry).length < 2 ^ 32) :
    ReadsIff (decodeAudit limits)
      (encodeCollection (fun entry => encodeBlob (encodeAuditEntry entry)) audit)
      (audit.map storedAudit)
      (audit.length ≤ limits.maxAuditEntries ∧ ∀ entry ∈ audit,
        (encodeAuditEntry entry).length ≤ limits.maxRecordPayload ∧
          AuditReadable (storedAudit entry)) := by
  have hblob : ∀ entry ∈ audit, ReadsIff
      (Decoder.blob limits.maxRecordPayload (Decoder.run decodeAuditEntry))
      (encodeBlob (encodeAuditEntry entry)) (storedAudit entry)
      ((encodeAuditEntry entry).length ≤ limits.maxRecordPayload ∧
        AuditReadable (storedAudit entry)) := by
    intro entry hentry
    exact readsIff_definitionBlob (hlength entry hentry)
      (readsIff_decodeAuditEntry (hfits entry hentry).provenance)
  have hfold := ReadsIff.fold audit (fun (found : List AuditEntry) entry hentry =>
    ReadsIff.map (f := fun read => found ++ [read]) (hblob entry hentry)) []
  rw [foldAll_iff_forall] at hfold
  have hlist : audit.foldl (fun found entry => found ++ [storedAudit entry]) [] =
      audit.map storedAudit := by
    have hpush := foldl_push [] (audit.map storedAudit)
    rw [List.foldl_map] at hpush
    simpa using hpush
  rw [hlist] at hfold
  exact ReadsIff.bind (readsIff_readEntityCount _ hcount) fun _ => hfold

/-- What the bytes of an image hold: everything but the index, and texts as stored. -/
def storedImage (image : StateImage) : StateImage :=
  { image with
    assignmentsBySubject := ∅
    audit := image.audit.map storedAudit
    healthDetail := storedText image.healthDetail }

structure TablesReadable (image : StateImage) : Prop where
  classes : ∀ entry ∈ values image.classes,
    EntryReadable image.limits (encodeClassDefinition entry.definition)
      (opIds (.defineClass entry.definition)) entry.provenance
  scopes : ∀ entry ∈ values image.scopes,
    EntryReadable image.limits (encodeScopeDefinition entry.definition)
      (opIds (.defineScope entry.definition)) entry.provenance
  policies : ∀ entry ∈ values image.policies,
    EntryReadable image.limits (encodePolicyDefinition entry.definition)
      (opIds (.definePolicy entry.definition)) entry.provenance
  subjects : ∀ entry ∈ values image.subjects,
    EntryReadable image.limits (encodeSubjectDefinition entry.definition)
      (opIds (.defineSubject entry.definition)) entry.provenance
  assignments : ∀ entry ∈ values image.assignments, AssignmentEntryReadable image.limits entry
  publishers : image.authority.size ≤ image.limits.maxPublishers
  room : image.authority.size ≤ authorityRoom image.limits
  authority : ∀ entry ∈ values image.authority, AuthorityReadable image.limits entry
  audit : ∀ entry ∈ image.audit,
    (encodeAuditEntry entry).length ≤ image.limits.maxRecordPayload ∧
      AuditReadable (storedAudit entry)

structure StateReadable (image : StateImage) : Prop where
  health : (storedText image.healthDetail).length ≤ maxHealthDetail
  tables : TablesReadable image

theorem encodeEntry_positive {Def : Type} (encode : Def → Bytes) (entry : Entry Def) :
    0 < (encodeEntry encode entry).length := by
  simp only [encodeEntry, List.length_append, length_encodeBlob]
  omega

theorem encodeAssignmentEntry_positive (entry : AssignmentEntry) :
    0 < (encodeAssignmentEntry entry).length := by
  simp only [encodeAssignmentEntry, List.length_append, length_encodeBlob]
  omega

theorem encodeAuthorityEntry_positive (entry : AuthorityEntry) :
    0 < (encodeAuthorityEntry entry).length := by
  simp only [encodeAuthorityEntry, List.length_append, length_encodeBlob]
  omega

theorem readsIff_entries {tag : IdTag} {Def : Type} {encode : Def → Bytes}
    {decode : Bytes → Limits → Result Def} {key : Entry Def → BasicId tag}
    {good : Entry Def → Prop} {table : Std.ExtTreeMap (BasicId tag) (Entry Def)}
    {ids : Entry Def → List Bytes} (bound : Nat) (what : Bytes)
    (hkeyed : Keyed key good table)
    (hlength : (encodeMap (encodeEntry encode) table).length < 2 ^ 32)
    (hread : ∀ entry, good entry → (encodeEntry encode entry).length < 2 ^ 32 →
      ReadsIff (decodeEntry limits decode) (encodeEntry encode entry) entry
        (EntryReadable limits (encode entry.definition) (ids entry) entry.provenance)) :
    ReadsIff (decodeMap bound what (decodeEntry limits decode) key)
      (encodeMap (encodeEntry encode) table) table
      (table.size ≤ bound ∧ ∀ entry ∈ values table,
        EntryReadable limits (encode entry.definition) (ids entry) entry.provenance) := by
  apply readsIff_decodeMap hkeyed
  · exact lt_of_le_of_lt (size_le_encodeMap (encodeEntry_positive encode)) hlength
  · intro entry hentry
    obtain ⟨k, hk⟩ := mem_values.mp hentry
    exact hread entry (hkeyed.good k entry hk)
      (lt_of_le_of_lt (length_value_le hentry) hlength)

section Image

variable {image : StateImage} (hbounded : Bounded image)
  (hlimits : limitsWithinCompiledCeiling image.limits = true)
  (hlength : (encodeState image).length < 2 ^ 32)
include hbounded hlimits hlength

omit hbounded hlimits in
theorem table_lengths :
    (encodeMap (encodeEntry encodeClassDefinition) image.classes).length < 2 ^ 32 ∧
      (encodeMap (encodeEntry encodeScopeDefinition) image.scopes).length < 2 ^ 32 ∧
      (encodeMap (encodeEntry encodePolicyDefinition) image.policies).length < 2 ^ 32 ∧
      (encodeMap (encodeEntry encodeSubjectDefinition) image.subjects).length < 2 ^ 32 ∧
      (encodeMap encodeAssignmentEntry image.assignments).length < 2 ^ 32 ∧
      (encodeMap encodeAuthorityEntry image.authority).length < 2 ^ 32 ∧
      (encodeCollection (fun entry => encodeBlob (encodeAuditEntry entry))
        image.audit).length < 2 ^ 32 := by
  simp only [encodeState, List.length_append] at hlength
  generalize (encodeMap (encodeEntry encodeClassDefinition) image.classes).length = classes at *
  generalize (encodeMap (encodeEntry encodeScopeDefinition) image.scopes).length = scopes at *
  generalize (encodeMap (encodeEntry encodePolicyDefinition) image.policies).length = policies at *
  generalize (encodeMap (encodeEntry encodeSubjectDefinition) image.subjects).length = subjects
    at *
  generalize (encodeMap encodeAssignmentEntry image.assignments).length = assignments at *
  generalize (encodeMap encodeAuthorityEntry image.authority).length = authority at *
  generalize (encodeCollection (fun entry => encodeBlob (encodeAuditEntry entry))
    image.audit).length = audit at *
  omega

theorem readsIff_assignmentTable :
    ReadsIff (decodeMap image.limits.maxAssignments (text "assignments")
        (decodeAssignmentEntry image.limits) (·.assignment.id))
      (encodeMap encodeAssignmentEntry image.assignments) image.assignments
      (image.assignments.size ≤ image.limits.maxAssignments ∧
        ∀ entry ∈ values image.assignments, AssignmentEntryReadable image.limits entry) := by
  have htables := hbounded.tables
  have hpart : (encodeMap encodeAssignmentEntry image.assignments).length < 2 ^ 32 :=
    (table_lengths hlength).2.2.2.2.1
  apply readsIff_decodeMap htables.assignments
  · exact lt_of_le_of_lt (size_le_encodeMap encodeAssignmentEntry_positive) hpart
  · intro entry hentry
    obtain ⟨k, hk⟩ := mem_values.mp hentry
    exact readsIff_assignmentEntry hlimits (htables.assignments.good k entry hk)
      (lt_of_le_of_lt (length_value_le hentry) hpart)

omit hlimits in
theorem readsIff_authorityTable :
    ReadsIff (decodeAuthority image.limits)
      (encodeMap encodeAuthorityEntry image.authority) image.authority
      (image.authority.size ≤ image.limits.maxPublishers ∧
        image.authority.size ≤ authorityRoom image.limits ∧
        ∀ entry ∈ values image.authority, AuthorityReadable image.limits entry) := by
  have hpart : (encodeMap encodeAuthorityEntry image.authority).length < 2 ^ 32 :=
    (table_lengths hlength).2.2.2.2.2.1
  apply readsIff_decodeAuthority hbounded.tables.authority
  · exact lt_of_le_of_lt (size_le_encodeMap encodeAuthorityEntry_positive) hpart
  · intro entry hentry
    exact lt_of_le_of_lt (length_value_le hentry) hpart

omit hlimits in
theorem readsIff_auditRing :
    ReadsIff (decodeAudit image.limits)
      (encodeCollection (fun entry => encodeBlob (encodeAuditEntry entry)) image.audit)
      (image.audit.map storedAudit)
      (image.audit.length ≤ image.limits.maxAuditEntries ∧ ∀ entry ∈ image.audit,
        (encodeAuditEntry entry).length ≤ image.limits.maxRecordPayload ∧
          AuditReadable (storedAudit entry)) := by
  have hpart : (encodeCollection (fun entry => encodeBlob (encodeAuditEntry entry))
      image.audit).length < 2 ^ 32 :=
    (table_lengths hlength).2.2.2.2.2.2
  apply readsIff_decodeAudit hbounded.audit
  · refine lt_of_le_of_lt (length_le_encodeCollection fun entry => ?_) hpart
    rw [length_encodeBlob]
    omega
  · intro entry hentry
    have hle : (encodeBlob (encodeAuditEntry entry)).length ≤
        (encodeCollection (fun entry => encodeBlob (encodeAuditEntry entry))
          image.audit).length :=
      length_encode_le (fun entry => encodeBlob (encodeAuditEntry entry)) hentry
    rw [length_encodeBlob] at hle
    omega

theorem readsIff_classTable :
    ReadsIff (decodeMap image.limits.maxClasses (text "classes")
        (decodeEntry image.limits decodeClassDefinition) (·.definition.id))
      (encodeMap (encodeEntry encodeClassDefinition) image.classes) image.classes
      (image.classes.size ≤ image.limits.maxClasses ∧ ∀ entry ∈ values image.classes,
        EntryReadable image.limits (encodeClassDefinition entry.definition)
          (opIds (.defineClass entry.definition)) entry.provenance) := by
  apply readsIff_entries _ _ hbounded.tables.classes (table_lengths hlength).1
  intro entry hfits hentry
  exact readsIff_classEntry hlimits hfits hentry

theorem readsIff_scopeTable :
    ReadsIff (decodeMap image.limits.maxScopes (text "scopes")
        (decodeEntry image.limits decodeScopeDefinition) (·.definition.id))
      (encodeMap (encodeEntry encodeScopeDefinition) image.scopes) image.scopes
      (image.scopes.size ≤ image.limits.maxScopes ∧ ∀ entry ∈ values image.scopes,
        EntryReadable image.limits (encodeScopeDefinition entry.definition)
          (opIds (.defineScope entry.definition)) entry.provenance) := by
  apply readsIff_entries _ _ hbounded.tables.scopes (table_lengths hlength).2.1
  intro entry hfits hentry
  exact readsIff_scopeEntry hlimits hfits hentry

theorem readsIff_policyTable :
    ReadsIff (decodeMap image.limits.maxPolicies (text "policies")
        (decodeEntry image.limits decodePolicyDefinition) (·.definition.id))
      (encodeMap (encodeEntry encodePolicyDefinition) image.policies) image.policies
      (image.policies.size ≤ image.limits.maxPolicies ∧ ∀ entry ∈ values image.policies,
        EntryReadable image.limits (encodePolicyDefinition entry.definition)
          (opIds (.definePolicy entry.definition)) entry.provenance) := by
  apply readsIff_entries _ _ hbounded.tables.policies (table_lengths hlength).2.2.1
  intro entry hfits hentry
  exact readsIff_policyEntry hlimits hfits hentry

theorem readsIff_subjectTable :
    ReadsIff (decodeMap image.limits.maxSubjects (text "subjects")
        (decodeEntry image.limits decodeSubjectDefinition) (·.definition.id))
      (encodeMap (encodeEntry encodeSubjectDefinition) image.subjects) image.subjects
      (image.subjects.size ≤ image.limits.maxSubjects ∧ ∀ entry ∈ values image.subjects,
        EntryReadable image.limits (encodeSubjectDefinition entry.definition)
          (opIds (.defineSubject entry.definition)) entry.provenance) := by
  apply readsIff_entries _ _ hbounded.tables.subjects (table_lengths hlength).2.2.2.1
  intro entry hfits hentry
  exact readsIff_subjectEntry hlimits hfits hentry

theorem readsIff_tables
    {f : Std.ExtTreeMap PriorityClassId ClassEntry → Std.ExtTreeMap PolicyScopeId ScopeEntry →
      Std.ExtTreeMap PolicyId PolicyEntry → Std.ExtTreeMap SubjectId SubjectEntry →
      Std.ExtTreeMap PriorityAssignmentId AssignmentEntry →
      Std.ExtTreeMap Incarnation AuthorityEntry → List AuditEntry → StateImage} :
    ReadsIff (do
        let classes ← decodeMap image.limits.maxClasses (text "classes")
          (decodeEntry image.limits decodeClassDefinition) (·.definition.id)
        let scopes ← decodeMap image.limits.maxScopes (text "scopes")
          (decodeEntry image.limits decodeScopeDefinition) (·.definition.id)
        let policies ← decodeMap image.limits.maxPolicies (text "policies")
          (decodeEntry image.limits decodePolicyDefinition) (·.definition.id)
        let subjects ← decodeMap image.limits.maxSubjects (text "subjects")
          (decodeEntry image.limits decodeSubjectDefinition) (·.definition.id)
        let assignments ← decodeMap image.limits.maxAssignments (text "assignments")
          (decodeAssignmentEntry image.limits) (·.assignment.id)
        let authority ← decodeAuthority image.limits
        let audit ← decodeAudit image.limits
        return f classes scopes policies subjects assignments authority audit)
      (encodeMap (encodeEntry encodeClassDefinition) image.classes ++
        (encodeMap (encodeEntry encodeScopeDefinition) image.scopes ++
        (encodeMap (encodeEntry encodePolicyDefinition) image.policies ++
        (encodeMap (encodeEntry encodeSubjectDefinition) image.subjects ++
        (encodeMap encodeAssignmentEntry image.assignments ++
        (encodeMap encodeAuthorityEntry image.authority ++
        encodeCollection (fun entry => encodeBlob (encodeAuditEntry entry)) image.audit))))))
      (f image.classes image.scopes image.policies image.subjects image.assignments
        image.authority (image.audit.map storedAudit))
      (TablesReadable image) := by
  have hsizes := hbounded.sizes
  refine ReadsIff.congr (ReadsIff.bind (readsIff_classTable hbounded hlimits hlength) fun _ =>
    ReadsIff.bind (readsIff_scopeTable hbounded hlimits hlength) fun _ =>
    ReadsIff.bind (readsIff_policyTable hbounded hlimits hlength) fun _ =>
    ReadsIff.bind (readsIff_subjectTable hbounded hlimits hlength) fun _ =>
    ReadsIff.bind (readsIff_assignmentTable hbounded hlimits hlength) fun _ =>
    ReadsIff.bind (readsIff_authorityTable hbounded hlength) fun _ =>
    ReadsIff.map (readsIff_auditRing hbounded hlength)) ?_
  constructor
  · rintro ⟨⟨-, hclasses⟩, ⟨-, hscopes⟩, ⟨-, hpolicies⟩, ⟨-, hsubjects⟩, ⟨-, hassignments⟩,
      ⟨hpublishers, hroom, hauthority⟩, ⟨-, haudit⟩⟩
    exact ⟨hclasses, hscopes, hpolicies, hsubjects, hassignments, hpublishers, hroom, hauthority,
      haudit⟩
  · rintro ⟨hclasses, hscopes, hpolicies, hsubjects, hassignments, hpublishers, hroom, hauthority,
      haudit⟩
    exact ⟨⟨hsizes.classes, hclasses⟩, ⟨hsizes.scopes, hscopes⟩, ⟨hsizes.policies, hpolicies⟩,
      ⟨hsizes.subjects, hsubjects⟩, ⟨hsizes.assignments, hassignments⟩,
      ⟨hpublishers, hroom, hauthority⟩, ⟨hsizes.audit, haudit⟩⟩

theorem readsIff_readState :
    ReadsIff (readState image.limits) (encodeState image) (storedImage image)
      (StateReadable image) := by
  refine ReadsIff.congr (ReadsIff.bind_true (readsIff_u32 (by decide)) <|
    ReadsIff.guard fun _ =>
    ReadsIff.bind_true (readsIff_u16 (by decide)) <|
    ReadsIff.guard fun _ =>
    ReadsIff.bind_true (readsIff_u64 _) <|
    ReadsIff.bind_true (readsIff_u64 _) <|
    ReadsIff.bind_true (readsIff_u64 _) <|
    ReadsIff.bind_true (readsIff_u64 _) <|
    ReadsIff.bind_true (readsIff_u64 _) <|
    ReadsIff.bind_true (readsIff_stateEnum _ (Health.toNat_lt _) (Health.ofNat?_toNat _)) <|
    ReadsIff.bind (readsIff_str _ _) fun _ =>
    readsIff_tables hbounded hlimits hlength) ?_
  constructor
  · rintro ⟨-, -, hhealth, htables⟩
    exact ⟨hhealth, htables⟩
  · rintro ⟨hhealth, htables⟩
    exact ⟨by decide, by decide, hhealth, htables⟩

/-- An encoded image reads back with its index built anew if and only if it is readable. -/
theorem decodeState_encodeState (h : StateReadable image) :
    decodeState (encodeState image) image.limits = .ok (rebuildIndexes (storedImage image)) := by
  unfold decodeState
  rw [Decoder.run_of_readsIff (readsIff_readState hbounded hlimits hlength) h]
  rfl

theorem decodeState_refuses (h : ¬ StateReadable image) :
    ∃ e, decodeState (encodeState image) image.limits = .error e := by
  obtain ⟨e, he⟩ := Decoder.run_refuses_of_readsIff (readsIff_readState hbounded hlimits hlength) h
  unfold decodeState
  rw [he]
  exact ⟨e, rfl⟩

end Image

end PriorityFabric.StateRoundTrip
