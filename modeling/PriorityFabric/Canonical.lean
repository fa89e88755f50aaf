import PriorityFabric.Rewritten

/-!
Which bytes of queries, mutations and state images are the ones the encoder writes.

An optional epoch is read with its value even where the flag says that there is none, a
provenance blob may go on after the provenance, and the maps of a state image are taken in
any order, the first of a repeated key staying.
-/

namespace PriorityFabric.Canonical

open PriorityFabric.Lib.LittleEndian
open PriorityFabric.Lib.ByteReader
open PriorityFabric.Lib.KeyedTable
open PriorityFabric.Lib.Rewriting
open PriorityFabric.Lib.SortedTables
open PriorityFabric.Basics
open PriorityFabric.Ident
open PriorityFabric.Hashing
open PriorityFabric.Model
open PriorityFabric.Codec
open PriorityFabric.ModelCodec
open PriorityFabric.State
open PriorityFabric.StateCodec
open PriorityFabric.QueryCodec
open PriorityFabric.Rewritten

def readEpoch : Decoder (Option FabricEpoch) := do
  let hasEpoch ← Decoder.boolean
  let epoch ← Decoder.u64
  return if hasEpoch then some ⟨epoch⟩ else none

def canonicalEpoch : Decoder (Option FabricEpoch) := do
  let hasEpoch ← Decoder.boolean
  let epoch ← Decoder.u64
  if hasEpoch then return some ⟨epoch⟩
  else
    refuseIf (epoch ≠ 0)
      (makeError .protocolError (text "absent epoch carries a value"))
    return none

def readQueryWith (epoch : Decoder (Option FabricEpoch)) (limits : Limits) :
    Decoder PriorityQuery := do
  let subject ← Decoder.id limits
  let subjectGeneration ← Decoder.u64
  let scope ← Decoder.id limits
  let asOfEpoch ← epoch
  let policyGeneration ← Decoder.u64
  let scopeGeneration ← Decoder.u64
  let strict ← Decoder.boolean
  let steps ← Decoder.u32
  let correlation ← Decoder.u64
  return { subject, subjectGeneration := ⟨subjectGeneration⟩, scope, asOfEpoch,
           requirePolicyGeneration := ⟨policyGeneration⟩,
           requireScopeGeneration := ⟨scopeGeneration⟩,
           strictConflicts := strict, maxExplanationSteps := steps, correlation }

def canonicalQuery : Limits → Decoder PriorityQuery := readQueryWith canonicalEpoch

theorem readQuery_eq (limits : Limits) : readQuery limits = readQueryWith readEpoch limits := by
  simp only [readQuery, readQueryWith, readEpoch, bind_assoc, pure_bind]

theorem faithful_epoch :
    Faithful readEpoch canonicalEpoch fun epoch w =>
      w = Encoder.boolean epoch.isSome ++ Encoder.u64 (epoch.elim 0 (·.value)) := by
  refine (exact_boolean.bind (V := fun hasEpoch epoch w => Encoder.boolean hasEpoch ++ w =
    Encoder.boolean epoch.isSome ++ Encoder.u64 (epoch.elim 0 (·.value)))
    fun hasEpoch => ?_).mono ?_
  · cases hasEpoch with
    | false =>
        refine (exact_u64.forget (fun x => (Decoder.readsIff_u64 0 x).1 trivial)
          (fun a => by simp) none _).mono ?_
        rintro epoch w ⟨rfl, rfl⟩
        rfl
    | true =>
        refine (exact_u64.last fun epoch => some (FabricEpoch.mk epoch)).mono ?_
        rintro epoch w ⟨value, rfl, rfl⟩
        rfl
  · rintro epoch w ⟨hasEpoch, front, back, rfl, hepoch, rfl⟩
    exact hepoch

theorem faithful_query (limits : Limits) :
    Faithful (readQuery limits) (canonicalQuery limits) fun query w =>
      w = encodeQuery query := by
  have hquery : Faithful (readQueryWith readEpoch limits) (canonicalQuery limits)
      fun query w => w = encodeId query.subject ++
        (Encoder.u64 query.subjectGeneration.value ++ (encodeId query.scope ++
        ((Encoder.boolean query.asOfEpoch.isSome ++
          Encoder.u64 (query.asOfEpoch.elim 0 (·.value))) ++
        (Encoder.u64 query.requirePolicyGeneration.value ++
        (Encoder.u64 query.requireScopeGeneration.value ++
        (Encoder.boolean query.strictConflicts ++ (Encoder.u32 query.maxExplanationSteps ++
        Encoder.u64 query.correlation))))))) :=
    (exact_id limits).next fun _ => exact_u64.next fun _ =>
      (exact_id limits).next fun _ => faithful_epoch.next fun _ =>
      exact_u64.next fun _ => exact_u64.next fun _ =>
      exact_boolean.next fun _ => exact_u32.next fun _ =>
      exact_u64.ends fun _ => rfl
  rw [readQuery_eq]
  refine hquery.mono ?_
  rintro query w rfl
  rw [encodeQuery, List.append_assoc (Encoder.boolean query.asOfEpoch.isSome)]

theorem ofResult_eq_ok {α : Type} {r : Result α} {input rest : Bytes} {a : α} :
    Decoder.ofResult r input = .ok (a, rest) ↔ r = .ok a ∧ input = rest := by
  cases r with
  | error e =>
      constructor
      · intro h
        cases h
      · rintro ⟨h, -⟩
        cases h
  | ok value =>
      constructor
      · intro h
        cases h
        exact ⟨rfl, rfl⟩
      · rintro ⟨h, rfl⟩
        cases h
        rfl

theorem str_injective {s t : Bytes} (hs : s.length < 2 ^ 32) (ht : t.length < 2 ^ 32)
    (h : Encoder.str s = Encoder.str t) : s = t := by
  rw [Encoder.str, if_pos hs, Encoder.str, if_pos ht] at h
  exact (List.append_inj h (by simp)).2

theorem faithful_blob {α : Type} {decode strict : Bytes → Result α} {W : α → Bytes → Prop}
    (h : Whole decode strict W) (bound : Nat) :
    Faithful (Decoder.blob bound decode) (Decoder.blob bound strict) fun a w =>
      ∃ inner, W a inner ∧ inner.length < 2 ^ 32 ∧ w = Encoder.str inner := by
  refine ⟨?_, ?_⟩
  · intro input a rest hread
    obtain ⟨payload, middle, hpayload, hread⟩ := read_bind_eq_ok.mp hread
    obtain ⟨hdecode, rfl⟩ := ofResult_eq_ok.mp hread
    obtain ⟨w, ⟨rfl, hlt, hle⟩, hrewrites⟩ :=
      (exact_boundedStr bound).written input payload middle hpayload
    obtain ⟨inner, hinner, hagain, hshorter, hexact⟩ := h.written payload a hdecode
    have hinput := hrewrites.exact.mpr ⟨_, hpayload⟩
    have hinner_lt : inner.length < 2 ^ 32 := by omega
    refine ⟨_, ⟨inner, hinner, hinner_lt, rfl⟩, ?_, ?_, ?_⟩
    · intro x
      have hstr : Decoder.str bound (Encoder.str inner ++ x) = .ok (inner, x) :=
        (Decoder.readsIff_str_of_lt hinner_lt x).1 (by omega)
      exact read_bind_eq_ok.mpr ⟨inner, x, hstr, ofResult_eq_ok.mpr ⟨hagain, rfl⟩⟩
    · rw [hinput, List.length_append, Encoder.length_str, Encoder.length_str,
        storedText_of_lt hlt, storedText_of_lt hinner_lt]
      omega
    · constructor
      · intro hsame
        have hbytes := List.append_cancel_right (hinput.symm.trans hsame)
        obtain ⟨r, hr⟩ := hexact.mp (str_injective hlt hinner_lt hbytes)
        exact ⟨_, read_bind_eq_ok.mpr ⟨payload, middle, hpayload, ofResult_eq_ok.mpr ⟨hr, rfl⟩⟩⟩
      · rintro ⟨r, hr⟩
        obtain ⟨payload', middle', hpayload', hr⟩ := read_bind_eq_ok.mp hr
        rw [hpayload] at hpayload'
        cases hpayload'
        obtain ⟨hr, -⟩ := ofResult_eq_ok.mp hr
        rw [← hexact.mpr ⟨_, hr⟩]
        exact hinput
  · intro input r hr
    obtain ⟨payload, middle, hpayload, hread⟩ := read_bind_eq_ok.mp hr
    obtain ⟨hstrict, rfl⟩ := ofResult_eq_ok.mp hread
    exact read_bind_eq_ok.mpr
      ⟨payload, _, hpayload, ofResult_eq_ok.mpr ⟨h.sound _ _ hstrict, rfl⟩⟩

theorem whole_run {α : Type} {dec strict : Decoder α} {W : α → Bytes → Prop}
    (h : Faithful dec strict W) : Whole (Decoder.run dec) (Decoder.run strict) W :=
  h.finished _

theorem faithful_encodeBlob {α : Type} {decode strict : Bytes → Result α} {encode : α → Bytes}
    (h : Whole decode strict fun a w => w = encode a) (bound : Nat) :
    Faithful (Decoder.blob bound decode) (Decoder.blob bound strict) fun a w =>
      w = encodeBlob (encode a) := by
  refine (faithful_blob h bound).mono ?_
  rintro a w ⟨inner, rfl, hlt, rfl⟩
  rw [encodeBlob_of_lt hlt]

/-- A provenance blob that holds a provenance and nothing else. -/
def canonicalProvenanceBlob (limits : Limits) : Decoder Provenance :=
  Decoder.blob limits.maxRecordPayload (Decoder.run (decodeProvenance limits))

theorem faithful_provenanceBlob (limits : Limits) :
    Faithful (decodeProvenanceBlob limits) (canonicalProvenanceBlob limits) fun provenance w =>
      w = encodeBlob (encodeProvenance provenance) :=
  faithful_encodeBlob ((exact_provenance limits).unfinished _) _

def canonicalEntry {Def : Type} (limits : Limits) (decode : Bytes → Limits → Result Def) :
    Decoder (Entry Def) := do
  let definition ← Decoder.blob limits.maxRecordPayload (decode · limits)
  let provenance ← canonicalProvenanceBlob limits
  return { definition, provenance }

theorem faithful_entry {Def : Type} {limits : Limits}
    {decode strict : Bytes → Limits → Result Def} {encode : Def → Bytes}
    (h : Whole (decode · limits) (strict · limits) fun d w => w = encode d) :
    Faithful (decodeEntry limits decode) (canonicalEntry limits strict) fun entry w =>
      w = encodeEntry encode entry :=
  (faithful_encodeBlob h _).next fun _ =>
    (faithful_provenanceBlob limits).ends fun _ => rfl

def canonicalAssignmentEntry (limits : Limits) : Decoder AssignmentEntry := do
  let assignment ← Decoder.blob limits.maxRecordPayload (decodeAssignment · limits)
  let provenance ← canonicalProvenanceBlob limits
  let active ← Decoder.boolean
  let retirementReason ← Decoder.str limits.maxNoteLength
  let retiredBy ← canonicalProvenanceBlob limits
  return { assignment, provenance, active, retirementReason, retiredBy }

theorem faithful_assignmentEntry (limits : Limits) :
    Faithful (decodeAssignmentEntry limits) (canonicalAssignmentEntry limits) fun entry w =>
      w = encodeAssignmentEntry entry :=
  (faithful_encodeBlob (whole_run (exact_assignment limits)) _).next fun _ =>
    (faithful_provenanceBlob limits).next fun _ => exact_boolean.next fun _ =>
    (exact_str _).next fun _ =>
    (faithful_provenanceBlob limits).ends fun _ => rfl

def canonicalAuthorityEntry (limits : Limits) : Decoder AuthorityEntry := do
  let publisher ← Decoder.id limits
  let boot ← decodeBoot
  let epoch ← Decoder.u64
  let token ← Decoder.u64
  let state ← readStateEnum AuthorityState.ofNat?
    (text "authority record carries an unknown lifecycle state")
  let provenance ← canonicalProvenanceBlob limits
  return { publisher, boot, epoch := ⟨epoch⟩, token := ⟨token⟩, state, provenance }

theorem faithful_authorityEntry (limits : Limits) :
    Faithful (decodeAuthorityEntry limits) (canonicalAuthorityEntry limits) fun entry w =>
      w = encodeAuthorityEntry entry := by
  have hstate : ∀ n state, AuthorityState.ofNat? n = some state → state.toNat = n :=
    fun n state h => toNat_of_getElem? (by decide) h
  exact (exact_id limits).next fun _ => exact_boot.next fun _ =>
    exact_u64.next fun _ => exact_u64.next fun _ =>
    (exact_stateEnum hstate _).next fun _ =>
    (faithful_provenanceBlob limits).ends fun _ => rfl

def canonicalAuditEntry : Decoder AuditEntry := do
  let sequence ← Decoder.u64
  let op ← Decoder.str maxOpLength
  let result ← decodeStatusCode
  let detail ← Decoder.str maxAuditDetail
  let provenance ← Decoder.blob maxAuditProvenance (Decoder.run (decodeProvenance {}))
  let generation ← Decoder.u64
  let digest ← decodeDigest
  return { sequence := sequence, op := op, result := result, detail := detail,
           provenance := provenance, stateGeneration := ⟨generation⟩,
           digest := digest }

theorem faithful_auditEntry :
    Faithful decodeAuditEntry canonicalAuditEntry fun entry w => w = encodeAuditEntry entry := by
  have hprovenance : Faithful (Decoder.blob maxAuditProvenance (readAll (decodeProvenance {})))
      (Decoder.blob maxAuditProvenance (Decoder.run (decodeProvenance {})))
      fun provenance w => w = Encoder.str (encodeProvenance provenance) := by
    refine (faithful_blob ((exact_provenance {}).unfinished _) _).mono ?_
    rintro provenance w ⟨inner, rfl, -, rfl⟩
    rfl
  exact exact_u64.next fun _ => (exact_str _).next fun _ =>
    exact_statusCode.next fun _ => (exact_str _).next fun _ =>
    hprovenance.next fun _ => exact_u64.next fun _ =>
    exact_digest.ends fun _ => rfl

theorem exact_entityCount (bound : Nat) (what : Bytes) :
    Exact (readEntityCount bound what) fun count w =>
      w = Encoder.u32 count ∧ count < 2 ^ 32 ∧ count ≤ bound := by
  refine (exact_boundedU32.bind fun count => (Faithful.refuseIf _ _).last fun _ => count).mono ?_
  rintro count w ⟨_, front, back, ⟨rfl, hlt⟩, ⟨u, rfl, hle, rfl⟩, rfl⟩
  exact ⟨List.append_nil _, hlt, by simpa using hle⟩

theorem readsIff_entityCount {bound count : Nat} (what : Bytes) (hlt : count < 2 ^ 32)
    (hle : count ≤ bound) :
    ReadsIff (readEntityCount bound what) (Encoder.u32 count) count True := by
  refine ReadsIff.congr (ReadsIff.bind_last (Decoder.readsIff_u32 hlt) fun _ =>
    ReadsIff.guard fun _ => ReadsIff.pure count) ?_
  simp [hle]

theorem counts_entityCount (bound : Nat) (what : Bytes) :
    Counts (readEntityCount bound what) Encoder.u32 := by
  intro input n rest h
  obtain ⟨w, ⟨rfl, hlt, hle⟩, hrewrites⟩ := (exact_entityCount bound what).written input n rest h
  refine ⟨hrewrites.exact.mpr ⟨_, h⟩, ?_⟩
  intro m hm
  refine ⟨by simp, fun x => ?_⟩
  exact (readsIff_entityCount what (by omega) (by omega) x).1 trivial

def unordered : Status :=
  makeError .corrupt (text "state image holds map entries out of key order")

def canonicalMap {K V : Type} [Ord K] [Std.TransOrd K] (bound : Nat) (what : Bytes)
    (decode : Decoder V) (key : V → K) : Decoder (Std.ExtTreeMap K V) := do
  let count ← readEntityCount bound what
  readFold count (orderedStep decode key (fun _ => false) unordered unordered) ∅

theorem encodeMap_eq {K V : Type} [Ord K] [Std.TransOrd K] (encode : V → Bytes)
    (map : Std.ExtTreeMap K V) :
    encodeMap encode map = Encoder.u32 map.size ++ (values map).flatMap encode := by
  rw [encodeMap, encodeCollection, Std.ExtTreeMap.length_toList, values, List.flatMap_map]

section Maps

variable {K V : Type} [Ord K] [Std.TransOrd K] [Std.LawfulEqOrd K] [DecidableEq K]

theorem faithful_map {decode strict : Decoder V} {encode : V → Bytes}
    (h : Faithful decode strict fun v w => w = encode v) (bound : Nat) (what : Bytes)
    (key : V → K) :
    Faithful (decodeMap bound what decode key) (canonicalMap bound what strict key)
      fun map w => w = encodeMap encode map := by
  -- nothing bounds the map but the declared count
  have hdecode : decodeMap bound what decode key = (do
      let count ← readEntityCount bound what
      readFold count (tableStep decode key (fun _ => false) unordered) ∅) := rfl
  rw [hdecode]
  refine (faithful_table (counts_entityCount bound what) (fun _ _ _ _ => rfl) h).mono ?_
  rintro map w rfl
  rw [encodeMap_eq]

end Maps

def canonicalAuthority (limits : Limits) :
    Decoder (Std.ExtTreeMap Incarnation AuthorityEntry) := do
  let count ← readEntityCount limits.maxPublishers (text "authority records")
  readFold count (orderedStep (canonicalAuthorityEntry limits)
    (fun entry => (⟨entry.publisher, entry.boot⟩ : Incarnation))
    (fun size => size ≥ limits.maxPublishers * limits.maxBootsPerPublisher % 2 ^ 32)
    (makeError .limitExceeded
      (text "state image holds more authority records than the limit allows"))
    unordered) ∅

theorem faithful_authority (limits : Limits) :
    Faithful (decodeAuthority limits) (canonicalAuthority limits) fun map w =>
      w = encodeMap encodeAuthorityEntry map := by
  have hfull : ∀ m n : Nat, m ≤ n →
      decide (n ≥ limits.maxPublishers * limits.maxBootsPerPublisher % 2 ^ 32) = false →
      decide (m ≥ limits.maxPublishers * limits.maxBootsPerPublisher % 2 ^ 32) = false := by
    intro m n hmn hn
    rw [decide_eq_false_iff_not] at hn ⊢
    omega
  refine (faithful_table (counts_entityCount _ _) hfull (faithful_authorityEntry limits)).mono ?_
  rintro map w rfl
  rw [encodeMap_eq]

def canonicalAudit (limits : Limits) : Decoder (List AuditEntry) := do
  let count ← readEntityCount limits.maxAuditEntries (text "audit entries")
  readFold count (fun audit => do
    let entry ← Decoder.blob limits.maxRecordPayload (Decoder.run canonicalAuditEntry)
    return audit ++ [entry]) []

theorem faithful_audit (limits : Limits) :
    Faithful (decodeAudit limits) (canonicalAudit limits) fun audit w =>
      w = encodeCollection (fun entry => encodeBlob (encodeAuditEntry entry)) audit := by
  refine ((exact_entityCount _ _).bind fun count => Faithful.fold (fun audit =>
    (faithful_encodeBlob (whole_run faithful_auditEntry) _).last
      fun entry => audit ++ [entry]) count []).mono ?_
  rintro audit w ⟨count, front, back, ⟨rfl, -, -⟩, ⟨items, rfl, rfl, hitems, rfl⟩, rfl⟩
  have hflat : items.flatMap (·.2) = (items.map (·.1)).flatMap fun entry =>
      encodeBlob (encodeAuditEntry entry) := by
    rw [List.flatMap_map]
    exact List.flatMap_congr hitems
  rw [foldl_push, List.nil_append, encodeCollection, List.length_map, hflat]

def canonicalState (limits : Limits) : Decoder StateImage := do
  let magic ← Decoder.u32
  refuseIf (magic ≠ stateMagic)
    (makeError .corrupt (text "state image has a wrong magic value"))
  let format ← Decoder.u16
  refuseIf (format ≠ formatVersion)
    (makeError .unsupported
      (text "state image declares format version " ++ decimal format ++
        text ", this build implements " ++ decimal formatVersion))
  let epoch ← Decoder.u64
  let generation ← Decoder.u64
  let lastSequence ← Decoder.u64
  let nextFencingToken ← Decoder.u64
  let nextAuditSequence ← Decoder.u64
  let health ← readStateEnum Health.ofNat?
    (text "state image carries an unknown health value")
  let healthDetail ← Decoder.str maxHealthDetail
  let classes ← canonicalMap limits.maxClasses (text "classes")
    (canonicalEntry limits fun payload limits =>
      Decoder.run (canonicalClassDefinition limits) payload) (·.definition.id)
  let scopes ← canonicalMap limits.maxScopes (text "scopes")
    (canonicalEntry limits decodeScopeDefinition) (·.definition.id)
  let policies ← canonicalMap limits.maxPolicies (text "policies")
    (canonicalEntry limits decodePolicyDefinition) (·.definition.id)
  let subjects ← canonicalMap limits.maxSubjects (text "subjects")
    (canonicalEntry limits decodeSubjectDefinition) (·.definition.id)
  let assignments ← canonicalMap limits.maxAssignments (text "assignments")
    (canonicalAssignmentEntry limits) (·.assignment.id)
  let authority ← canonicalAuthority limits
  let audit ← canonicalAudit limits
  return { epoch := ⟨epoch⟩, generation := ⟨generation⟩, lastSequence,
           nextFencingToken, nextAuditSequence, limits, classes, scopes, policies,
           subjects, assignments, authority, audit, health, healthDetail }

theorem exact_health (message : Bytes) :
    Exact (readStateEnum Health.ofNat? message) fun health w =>
      w = Encoder.u8 health.toNat := by
  have hhealth : ∀ n health, Health.ofNat? n = some health → health.toNat = n :=
    fun n health h => toNat_of_getElem? (by decide) h
  exact exact_stateEnum hhealth message

theorem faithful_state (limits : Limits) :
    Faithful (readState limits) (canonicalState limits) fun image w =>
      w = encodeState image := by
  refine exact_u32.next fun magic => Faithful.checked fun hmagic =>
    exact_u16.next fun format => Faithful.checked fun hformat => ?_
  obtain rfl : magic = stateMagic := by simpa using hmagic
  obtain rfl : format = formatVersion := by simpa using hformat
  exact exact_u64.next fun _ => exact_u64.next fun _ => exact_u64.next fun _ =>
    exact_u64.next fun _ => exact_u64.next fun _ => (exact_health _).next fun _ =>
    (exact_str _).next fun _ =>
    (faithful_map (faithful_entry (whole_run (faithful_classDefinition limits))) _ _ _).next
      fun _ =>
    (faithful_map (faithful_entry (whole_run (exact_scopeDefinition limits))) _ _ _).next fun _ =>
    (faithful_map (faithful_entry (whole_run (exact_policyDefinition limits))) _ _ _).next fun _ =>
    (faithful_map (faithful_entry (whole_run (exact_subjectDefinition limits))) _ _ _).next
      fun _ =>
    (faithful_map (faithful_assignmentEntry limits) _ _ _).next fun _ =>
    (faithful_authority limits).next fun _ => (faithful_audit limits).ends fun _ => rfl

/-- Only the rank of a class definition can be written in more than one way. -/
def canonicalOp (limits : Limits) : Nat → Decoder MutationOp
  | 1 => do
      return .defineClass (← Decoder.blob limits.maxRecordPayload
        (Decoder.run (canonicalClassDefinition limits)))
  | code => readOp limits code

def canonicalMutation (limits : Limits) : Decoder Mutation := do
  let op ← Decoder.u16
  refuseIf (op < 1 || op > 9)
    (makeError .corrupt
      (text "journal record carries an unknown operation " ++ decimal op))
  let epoch ← Decoder.u64
  let publisher ← Decoder.id limits
  let boot ← decodeBoot
  let token ← Decoder.u64
  let recordedAtMs ← Decoder.u64
  let reason ← Decoder.str limits.maxNoteLength
  let op ← canonicalOp limits op
  let resulting ← Decoder.u64
  return { op, epoch := ⟨epoch⟩, publisher, boot, token := ⟨token⟩, recordedAtMs,
           reason, resultingGeneration := ⟨resulting⟩ }

theorem faithful_opOf {α : Type} {dec strict : Decoder α} {enc : α → Bytes}
    (h : Faithful dec strict fun a w => w = enc a) {make : α → MutationOp} {code : Nat}
    (hmake : ∀ a, encodeOp (make a) = enc a ∧ (make a).code = code) :
    Faithful (do return make (← dec)) (do return make (← strict)) fun op w =>
      w = encodeOp op ∧ op.code = code := by
  refine (h.last make).mono ?_
  rintro op w ⟨a, rfl, rfl⟩
  exact ⟨(hmake a).1.symm, (hmake a).2⟩

theorem faithful_op (limits : Limits) {code : Nat} (h : 1 ≤ code ∧ code ≤ 9) :
    Faithful (readOp limits code) (canonicalOp limits code) fun op w =>
      w = encodeOp op ∧ op.code = code := by
  obtain ⟨hpos, hle⟩ := h
  interval_cases code
  · exact faithful_opOf (faithful_encodeBlob (whole_run (faithful_classDefinition limits)) _)
      fun _ => ⟨rfl, rfl⟩
  · exact faithful_opOf (faithful_encodeBlob (whole_run (exact_scopeDefinition limits)) _)
      fun _ => ⟨rfl, rfl⟩
  · exact faithful_opOf (faithful_encodeBlob (whole_run (exact_policyDefinition limits)) _)
      fun _ => ⟨rfl, rfl⟩
  · exact faithful_opOf (faithful_encodeBlob (whole_run (exact_subjectDefinition limits)) _)
      fun _ => ⟨rfl, rfl⟩
  · exact faithful_opOf (faithful_encodeBlob (whole_run (exact_assignment limits)) _)
      fun _ => ⟨rfl, rfl⟩
  · exact faithful_opOf (exact_id limits) fun _ => ⟨rfl, rfl⟩
  · refine (Faithful.pure _).mono ?_
    rintro op w ⟨rfl, rfl⟩
    exact ⟨rfl, rfl⟩
  · refine ((exact_id limits).bind fun publisher => exact_boot.last fun boot =>
      MutationOp.fenceAuthority publisher boot).mono ?_
    rintro op w ⟨publisher, front, back, rfl, ⟨boot, rfl, rfl⟩, rfl⟩
    exact ⟨rfl, rfl⟩
  · refine (Faithful.pure _).mono ?_
    rintro op w ⟨rfl, rfl⟩
    exact ⟨rfl, rfl⟩

theorem faithful_mutation (limits : Limits) :
    Faithful (readMutation limits) (canonicalMutation limits) fun mutation w =>
      w = encodeMutation mutation := by
  refine exact_u16.next fun code => Faithful.checked fun hcode => ?_
  have hrange : 1 ≤ code ∧ code ≤ 9 := by
    simp only [Bool.or_eq_false_iff, decide_eq_false_iff_not] at hcode
    omega
  refine exact_u64.next fun _ => (exact_id limits).next fun _ => exact_boot.next fun _ =>
    exact_u64.next fun _ => exact_u64.next fun _ => (exact_str _).next fun _ =>
    (faithful_op limits hrange).nextOf fun op hop => exact_u64.ends fun _ => ?_
  subst hop
  rfl

/-- The stricter decoder accepts the whole payload. -/
def Accepts {α : Type} (strict : Decoder α) (payload : Bytes) : Prop :=
  ∃ value, Decoder.run strict payload = .ok value

/-- Where `C` holds, and only there, encoding what was decoded gives the payload; so no two
such payloads decode to the same value. -/
structure CanonicalWhere {α : Type} (decode : Bytes → Result α) (encode : α → Bytes)
    (C : Bytes → Prop) : Prop where
  encode_eq_iff : ∀ payload value, decode payload = .ok value →
    (encode value = payload ↔ C payload)
  injective : ∀ payload other value, C payload → C other → decode payload = .ok value →
    decode other = .ok value → payload = other

theorem canonicalWhere_of_iff {α : Type} {decode : Bytes → Result α} {encode : α → Bytes}
    {C : Bytes → Prop}
    (h : ∀ payload value, decode payload = .ok value → (encode value = payload ↔ C payload)) :
    CanonicalWhere decode encode C := by
  refine ⟨h, ?_⟩
  intro payload other value hpayload hother hdecode hdecode'
  rw [← (h payload value hdecode).mpr hpayload]
  exact (h other value hdecode').mpr hother

theorem canonicalWhere_accepts {α : Type} {dec strict : Decoder α} {encode : α → Bytes}
    (h : Faithful dec strict fun a w => w = encode a) :
    CanonicalWhere (Decoder.run dec) encode (Accepts strict) :=
  canonicalWhere_of_iff fun _ _ hdecode => (whole_run h).encode_eq_iff hdecode

theorem canonicalWhere_true {α : Type} {dec : Decoder α} {encode : α → Bytes}
    (h : Exact dec fun a w => w = encode a) :
    CanonicalWhere (Decoder.run dec) encode fun _ => True := by
  refine canonicalWhere_of_iff fun payload value hdecode => iff_of_true ?_ trivial
  exact ((whole_run h).encode_eq_iff hdecode).mpr ⟨value, hdecode⟩

theorem canonicalWhere_state (limits : Limits) :
    CanonicalWhere (decodeState · limits) encodeState (Accepts (canonicalState limits)) := by
  refine canonicalWhere_of_iff ?_
  intro payload image hdecode
  unfold decodeState at hdecode
  cases hread : Decoder.run (readState limits) payload with
  | error e =>
      rw [hread] at hdecode
      cases hdecode
  | ok read =>
      rw [hread] at hdecode
      cases hdecode
      have hindex : encodeState (rebuildIndexes read) = encodeState read := rfl
      rw [hindex]
      exact (whole_run (faithful_state limits)).encode_eq_iff hread

/-- Decoding a scope, a policy, a subject or an assignment loses nothing.  Encoding a decoded
class definition, query, mutation or state image gives the payload if and only if the stricter
decoder accepts the payload: no undeclared rank carries a value, no absent epoch does, no
provenance blob goes on after the provenance, and the keys of every map increase. -/
theorem encoding_canonical_where (limits : Limits) :
    CanonicalWhere (decodeScopeDefinition · limits) encodeScopeDefinition (fun _ => True) ∧
      CanonicalWhere (decodePolicyDefinition · limits) encodePolicyDefinition
        (fun _ => True) ∧
      CanonicalWhere (decodeSubjectDefinition · limits) encodeSubjectDefinition
        (fun _ => True) ∧
      CanonicalWhere (decodeAssignment · limits) encodeAssignment (fun _ => True) ∧
      CanonicalWhere (decodeClassDefinition · limits) encodeClassDefinition
        (Accepts (canonicalClassDefinition limits)) ∧
      CanonicalWhere (decodeQuery · limits) encodeQuery (Accepts (canonicalQuery limits)) ∧
      CanonicalWhere (decodeMutation · limits) encodeMutation
        (Accepts (canonicalMutation limits)) ∧
      CanonicalWhere (decodeState · limits) encodeState (Accepts (canonicalState limits)) := by
  refine ⟨?_, ?_, ?_, ?_, ?_, ?_, ?_, ?_⟩
  · exact canonicalWhere_true (exact_scopeDefinition limits)
  · exact canonicalWhere_true (exact_policyDefinition limits)
  · exact canonicalWhere_true (exact_subjectDefinition limits)
  · exact canonicalWhere_true (exact_assignment limits)
  · exact canonicalWhere_accepts (faithful_classDefinition limits)
  · exact canonicalWhere_accepts (faithful_query limits)
  · exact canonicalWhere_accepts (faithful_mutation limits)
  · exact canonicalWhere_state limits

/-- A class without a rank whose bytes say one. -/
def valuedClass : PriorityClassDef :=
  { id := ⟨[97], wellFormed_a⟩, precedence := ⟨1, false⟩ }

theorem readable_storedClass_valued : ClassReadable {} (storedClass valuedClass) := by
  refine ⟨⟨by decide, by decide⟩, fun h => ?_, ⟨by decide, ?_⟩, by decide⟩
  · cases h
  · intro id hid
    cases hid

theorem decode_valuedClass :
    decodeClassDefinition (encodeClassDefinition valuedClass) {} =
      .ok (storedClass valuedClass) :=
  Decoder.run_of_readsIff (readsIff_readClassDefinition {} (by decide))
    readable_storedClass_valued

/-- The bytes of a class whose rank is undeclared and has the value one decode to the class
without the value, which other bytes decode to as well. -/
theorem valued_rank_forgotten :
    decodeClassDefinition (encodeClassDefinition valuedClass) {} =
        .ok (storedClass valuedClass) ∧
      decodeClassDefinition (encodeClassDefinition (storedClass valuedClass)) {} =
        .ok (storedClass valuedClass) ∧
      encodeClassDefinition (storedClass valuedClass) ≠ encodeClassDefinition valuedClass := by
  refine ⟨decode_valuedClass, ?_, by decide⟩
  exact Decoder.run_of_readsIff (readsIff_readClassDefinition {} (by decide))
    readable_storedClass_valued

theorem encoding_canonical_where_valued :
    ¬ Accepts (canonicalClassDefinition {}) (encodeClassDefinition valuedClass) := by
  have hiff := (encoding_canonical_where {}).2.2.2.2.1.encode_eq_iff _ _ decode_valuedClass
  intro haccepts
  exact absurd (hiff.mpr haccepts) (by decide)

end PriorityFabric.Canonical
