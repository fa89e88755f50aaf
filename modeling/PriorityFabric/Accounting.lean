import PriorityFabric.StateDirectory

/-!
What recovery reports about a journal.

A journal of committed mutations may go on with a pending record that has no
commit record, and with part of one more record.  Replay is healthy and applies
the committed mutations; the bytes it cuts off are counted as bytes and, once
more, among the unfinished attempts.
-/

namespace PriorityFabric.Accounting

open PriorityFabric.Lib.LittleEndian
open PriorityFabric.Lib.KeyedTable (getElem?_insert_of_ne)
open PriorityFabric.Basics
open PriorityFabric.Ident
open PriorityFabric.Model
open PriorityFabric.State
open PriorityFabric.StateCodec
open PriorityFabric.Durability
open PriorityFabric.JournalScan
open PriorityFabric.Store
open PriorityFabric.StoreFiles
open PriorityFabric.Replaying
open PriorityFabric.StateDirectory

/-- The scan of a segment finds exactly these records, and so many bytes behind them. -/
def ScansBack (dir : Directory) (name key : Bytes) (limits : Limits)
    (records : List JournalRecord) (trailing : Nat) : Prop :=
  ∃ result, scanJournalSegment dir name key limits = .ok result ∧
    result.records = records ∧ result.integrityFailures = 0 ∧
    result.trailingBytes = trailing

/-- A segment of encoded records and part of one more, no larger than the scan will read,
scans to exactly these records. -/
theorem scan_inverts_append {dir : Directory} {name key : Bytes} {limits : Limits}
    {records : List JournalRecord} {torn : JournalRecord} {count : Nat} (hkey : key ≠ [])
    (hwidth : limits.maxRecordPayload < 2 ^ 32) (hlength : records.length < 4000000)
    (hpayloads : ∀ record ∈ torn :: records,
      record.payload.length ≤ limits.maxRecordPayload)
    (hcount : count < (encodeJournalRecord torn key).length)
    (hsize : (journalBytes key records).length + count ≤ limits.maxStateBytes)
    (hfile : dir[name]? =
      some (journalBytes key records ++ (encodeJournalRecord torn key).take count)) :
    ScansBack dir name key limits records count := by
  have htake : ((encodeJournalRecord torn key).take count).length = count := by
    rw [List.length_take]
    omega
  have hshort (record : JournalRecord) (hrecord : record ∈ torn :: records) :
      record.payload.length < 2 ^ 32 :=
    (hpayloads record hrecord).trans_lt hwidth
  have hfits : SegmentFits limits key records
      ((encodeJournalRecord torn key).take count).length := by
    refine ⟨fun record hrecord => ?_, by rwa [htake], hlength⟩
    have hmem : record ∈ torn :: records := List.mem_cons_of_mem _ hrecord
    exact ⟨hpayloads record hmem, hshort record hmem⟩
  rw [length_encodeJournalRecord] at hcount
  have htail : TornTail key limits ((encodeJournalRecord torn key).take count) :=
    ⟨torn, count, hpayloads torn (by simp), hshort torn (by simp), hcount, rfl⟩
  refine ⟨_, scanJournalSegment_eq_ok hkey hfile hfits htail, rfl, rfl, ?_⟩
  rw [scanned_trailingBytes, htake]

def emptyRecord : JournalRecord := ⟨.pending, 1, []⟩

/-- A segment that the record fills to the last byte, and one byte of another record. -/
def overfull : Directory :=
  (∅ : Directory).insert [97]
    (journalBytes [1] [emptyRecord] ++ (encodeJournalRecord emptyRecord [1]).take 1)

theorem scan_inverts_append_one : ScansBack overfull [97] [1] {} [emptyRecord] 1 := by
  have hpayloads : ∀ record ∈ [emptyRecord, emptyRecord],
      record.payload.length ≤ ({} : Limits).maxRecordPayload := by
    simp [emptyRecord]
  refine @scan_inverts_append _ _ _ _ _ emptyRecord 1 (by decide) (by decide) (by decide)
    hpayloads ?_ ?_ ?_
  · rw [length_encodeJournalRecord]
    decide
  · simp [journalBytes, emptyRecord]
  · simp [overfull]

/-- Records that fill the segment to its bound are not read back once there is one more byte
behind them. -/
theorem overfull_segment_refused :
    ¬ ∀ (dir : Directory) (name key : Bytes) (limits : Limits) (records : List JournalRecord)
        (torn : JournalRecord) (count : Nat), key ≠ [] → limits.maxRecordPayload < 2 ^ 32 →
      records.length < 4000000 →
      (∀ record ∈ torn :: records, record.payload.length ≤ limits.maxRecordPayload) →
      count < (encodeJournalRecord torn key).length →
      (journalBytes key records).length ≤ limits.maxStateBytes →
      dir[name]? =
        some (journalBytes key records ++ (encodeJournalRecord torn key).take count) →
      ScansBack dir name key limits records count := by
  intro h
  obtain ⟨result, hscan, -⟩ := h overfull [97] [1] { maxStateBytes := 40 } [emptyRecord]
    emptyRecord 1 (by decide) (by decide) (by decide) (by simp [emptyRecord])
    (by rw [length_encodeJournalRecord]; decide) (by simp [journalBytes, emptyRecord])
    (by simp [overfull])
  have hrefused : scanJournalSegment overfull [97] [1] { maxStateBytes := 40 } =
      .error (makeError .limitExceeded
        (text "durable artifact '" ++ [97] ++ text "' is " ++ decimal 41 ++
          text " bytes, limit is " ++ decimal 40)) := by
    have hfile : overfull[([97] : Bytes)]? = some (journalBytes [1] [emptyRecord] ++
        (encodeJournalRecord emptyRecord [1]).take 1) := by
      simp [overfull]
    have hlength : (journalBytes [1] [emptyRecord] ++
        (encodeJournalRecord emptyRecord [1]).take 1).length = 41 := by
      simp [journalBytes, emptyRecord]
    simp [scanJournalSegment, readFile, hfile, hlength, failIf, bind, Except.bind]
  rw [hrefused] at hscan
  cases hscan

/-- How a journal goes on after its committed mutations. -/
inductive Ending where
  /-- It does not. -/
  | clean
  /-- With part of the pending record of a mutation. -/
  | begun (next : Mutation) (count : Nat)
  /-- With a pending record. -/
  | pending (left : Mutation)
  /-- With a pending record and part of its commit record. -/
  | committing (left : Mutation) (count : Nat)
  /-- With a pending record and part of the pending record of another mutation. -/
  | again (left next : Mutation) (sequence : UInt64) (count : Nat)

namespace Ending

def records (sequence : UInt64) : Ending → List JournalRecord
  | clean | begun _ _ => []
  | pending left | committing left _ | again left _ _ _ => [pendingRecord sequence left]

/-- The record that is there in part, and how much of it. -/
def torn (sequence : UInt64) : Ending → Option (JournalRecord × Nat)
  | clean | pending _ => none
  | begun next count => some (pendingRecord sequence next, count)
  | committing left count => some (commitRecord sequence left, count)
  | again _ next other count => some (pendingRecord other next, count)

def tornBytes : Ending → Nat
  | clean | pending _ => 0
  | begun _ count | committing _ count | again _ _ _ count => count

def tail (key : Bytes) (sequence : UInt64) (ending : Ending) : Bytes :=
  match ending.torn sequence with
  | none => []
  | some (record, count) => (encodeJournalRecord record key).take count

/-- The mutations whose pending record was begun and whose commit record is not complete. -/
def unfinished : Ending → List Mutation
  | clean => []
  | begun next _ => [next]
  | pending left | committing left _ => [left]
  | again left next _ _ => [left, next]

/-- What is torn is torn behind its first byte, and not a commit record. -/
def OneByte : Ending → Prop
  | clean | pending _ => True
  | begun _ count | again _ _ _ count => count = 1
  | committing _ _ => False

/-- A torn record is there in a strict part that is not empty, and fits the record limit. -/
def CutShort (limits : Limits) (key : Bytes) (sequence : UInt64) (ending : Ending) : Prop :=
  ∀ record count, ending.torn sequence = some (record, count) →
    0 < count ∧ count < (encodeJournalRecord record key).length ∧
      record.payload.length ≤ limits.maxRecordPayload ∧ record.payload.length < 2 ^ 32

end Ending

/-- The image a store without snapshot starts from. -/
def firstImage (limits : Limits) (manifest : Manifest) : StateImage where
  limits := limits
  epoch := manifest.epoch
  generation := manifest.stateGeneration
  lastSequence := manifest.lastSequence

/-- A store without snapshot, whose only segment holds committed mutations in sequence
order and ends in the given way. -/
structure Written (dir : Directory) (options : Options) (key : Bytes) (manifest : Manifest)
    (mutations : List Mutation) (ending : Ending) : Prop where
  key_set : key ≠ []
  manifest_file : dir[manifestName]? = some (encodeManifest key manifest)
  manifest_fits : Manifest.Fits manifest
  no_snapshot : manifest.snapshotPresent = false
  names : SegmentNames dir manifest.firstSegment 1
  room : 1 ≤ options.limits.maxJournalSegments
  committed : (∀ mutation ∈ mutations, Carried options.limits mutation) ∧
    ∃ image, playback (firstImage options.limits manifest) mutations = .ok image
  file : dir[journalSegmentName manifest.firstSegment]? =
    some (journalBytes key (commitRecords (manifest.lastSequence + 1) mutations ++
        ending.records (manifest.lastSequence + 1 + UInt64.ofNat mutations.length)) ++
      ending.tail key (manifest.lastSequence + 1 + UInt64.ofNat mutations.length))
  fits : SegmentFits options.limits key
    (commitRecords (manifest.lastSequence + 1) mutations ++
      ending.records (manifest.lastSequence + 1 + UInt64.ofNat mutations.length))
    (ending.tail key (manifest.lastSequence + 1 + UInt64.ofNat mutations.length)).length
  part : ending.CutShort options.limits key
    (manifest.lastSequence + 1 + UInt64.ofNat mutations.length)

/-- Replay is healthy, applies so many records, discards the torn bytes and counts the
unfinished mutations. -/
def AccountsFor (dir : Directory) (options : Options) (key : Bytes)
    (mutations : List Mutation) (ending : Ending) : Prop :=
  ∃ replayed, replay dir options key = .ok replayed ∧
    replayed.report.health = .healthy ∧
    replayed.report.recordsApplied = mutations.length ∧
    replayed.report.trailingBytesDiscarded = ending.tornBytes ∧
    replayed.report.unfinishedAttempts = ending.unfinished.length

section Replay

variable {dir : Directory} {options : Options} {key : Bytes} {manifest : Manifest}
  {mutations : List Mutation} {ending : Ending}

/-- What waits for its commit record in the end. -/
def Ending.waiting (sequence : UInt64) : Ending → Std.ExtTreeMap UInt64 Bytes
  | clean | begun _ _ => ∅
  | pending left | committing left _ | again left _ _ _ => onePending sequence left

def startOf (limits : Limits) (manifest : Manifest) : Replay where
  image := firstImage limits manifest
  report := { recordsApplied := 0 }
  expectedSequence := manifest.lastSequence + 1

theorem settled_startOf (limits : Limits) (manifest : Manifest) :
    Settled (startOf limits manifest) :=
  ⟨rfl, rfl⟩

theorem Written.runs (h : Written dir options key manifest mutations ending)
    {image : StateImage}
    (hplay : playback (firstImage options.limits manifest) mutations = .ok image) :
    Runs options.limits (startOf options.limits manifest)
      (commitRecords (manifest.lastSequence + 1) mutations ++
        ending.records (manifest.lastSequence + 1 + UInt64.ofNat mutations.length))
      { Replay.caughtUp (startOf options.limits manifest) image mutations.length with
        pending := ending.waiting
          (manifest.lastSequence + 1 + UInt64.ofNat mutations.length) } := by
  have hcommits := runs_commitRecords (settled_startOf options.limits manifest)
    h.committed.1 hplay
  have hsettled := settled_caughtUp (startOf options.limits manifest) image mutations.length
  have hexpected : (Replay.caughtUp (startOf options.limits manifest) image
      mutations.length).expectedSequence =
        manifest.lastSequence + 1 + UInt64.ofNat mutations.length := by
    have hlast : image.lastSequence = manifest.lastSequence + UInt64.ofNat mutations.length :=
      playback_lastSequence hplay
    change image.lastSequence + 1 = _
    rw [hlast, UInt64.add_assoc, UInt64.add_comm (UInt64.ofNat _), ← UInt64.add_assoc]
  have hpending (left : Mutation) :=
    @replayRecord_pendingRecord options.limits _ hsettled left
  rw [← hexpected]
  refine hcommits.append ?_
  cases ending with
  | clean | begun => exact .nil _
  | pending left | committing left | again left => exact .cons (hpending left) (.nil _)

theorem Ending.length_tail {limits : Limits} {sequence : UInt64}
    (h : ending.CutShort limits key sequence) :
    (ending.tail key sequence).length = ending.tornBytes := by
  cases ending with
  | clean | pending => rfl
  | begun | committing | again =>
      obtain ⟨-, hcount, -⟩ := h _ _ rfl
      simp only [Ending.tail, Ending.torn, Ending.tornBytes, List.length_take]
      omega

theorem Ending.tornTail {limits : Limits} {sequence : UInt64}
    (h : ending.CutShort limits key sequence) :
    TornTail key limits (ending.tail key sequence) := by
  cases hending : ending.torn sequence with
  | none =>
      rw [Ending.tail, hending]
      exact tornTail_nil key limits
  | some part =>
      obtain ⟨record, count⟩ := part
      obtain ⟨-, hcount, hlimit, hwidth⟩ := h _ _ hending
      rw [length_encodeJournalRecord] at hcount
      rw [Ending.tail, hending]
      exact ⟨record, count, hlimit, hwidth, hcount, rfl⟩

theorem Written.replay_eq (h : Written dir options key manifest mutations ending)
    {last : Replay}
    (hruns : Runs options.limits (startOf options.limits manifest)
      (commitRecords (manifest.lastSequence + 1) mutations ++
        ending.records (manifest.lastSequence + 1 + UInt64.ofNat mutations.length)) last) :
    ∃ dir' scanned, replay dir options key = .ok (concluded dir'
      (Replay.cut (Replay.seen last scanned) ending.tornBytes)) := by
  have hfile := h.file
  have hfits := h.fits
  have htail := Ending.tornTail h.part
  have hlength := Ending.length_tail h.part
  generalize ending.tail key (manifest.lastSequence + 1 + UInt64.ofNat mutations.length) =
    tail at hfile hfits htail hlength
  generalize commitRecords (manifest.lastSequence + 1) mutations ++
    ending.records (manifest.lastSequence + 1 + UInt64.ofNat mutations.length) =
      records at hruns hfile hfits
  rw [← hlength]
  let ledger : Ledger := ⟨manifest, firstImage options.limits manifest, [records]⟩
  have hledger : ledger.start = startOf options.limits manifest := by
    simp [ledger, Ledger.start, startOf, h.no_snapshot]
  have hstart : replayStart dir options.limits key manifest = .ok ledger.start := by
    rw [hledger]
    simp [replayStart, startingImage, h.no_snapshot, startOf, firstImage, bind, Except.bind,
      pure, Except.pure]
  have hconclude (dir' : Directory) (finished : Replay)
      (hsegments : replaySegments options.limits key (List.range' manifest.firstSegment 1)
        dir (startOf options.limits manifest) = .ok (dir', finished)) :
      replay dir options key = .ok (concluded dir' finished) := by
    rw [← hledger] at hsegments
    exact @StateDirectory.replay_eq _ _ _ ledger _ _ _ h.manifest_file h.manifest_fits hstart
      h.names h.room hsegments
  by_cases hnone : tail = []
  · subst hnone
    rw [List.append_nil] at hfile
    have hfiles : SegmentFiles dir key manifest.firstSegment [records] := by
      intro i found hfound
      obtain ⟨rfl, rfl⟩ : i = 0 ∧ found = records := by
        cases i <;> simp_all
      exact hfile
    have hsegments := replaySegments_files h.key_set hfiles (by simpa using hfits) rfl
      (by simpa using hruns) []
    exact ⟨_, _, hconclude _ _ hsegments⟩
  · have hsegments := replaySegments_torn h.key_set hfile hfits htail hnone rfl hruns
    exact ⟨_, _, hconclude _ _ hsegments⟩

theorem Written.report (h : Written dir options key manifest mutations ending) :
    ∃ replayed, replay dir options key = .ok replayed ∧
      replayed.report.health = .healthy ∧
      replayed.report.recordsApplied = mutations.length ∧
      replayed.report.trailingBytesDiscarded = ending.tornBytes ∧
      replayed.report.unfinishedAttempts = ending.tornBytes +
        (ending.waiting (manifest.lastSequence + 1 + UInt64.ofNat mutations.length)).size := by
  obtain ⟨image, hplay⟩ := h.committed.2
  obtain ⟨dir', scanned, hreplay⟩ := h.replay_eq (h.runs hplay)
  refine ⟨_, hreplay, ?_⟩
  generalize ending.waiting (manifest.lastSequence + 1 + UInt64.ofNat mutations.length) =
    waiting
  by_cases hwaiting : waiting.isEmpty = true
  · have hsize : waiting.size = 0 := by
      rwa [Std.ExtTreeMap.isEmpty_eq_size_beq_zero, beq_iff_eq] at hwaiting
    simp [concluded, Replay.conclude, Replay.cut, Replay.seen, Replay.caughtUp, startOf,
      hwaiting, hsize]
  · simp [concluded, Replay.conclude, Replay.cut, Replay.seen, Replay.caughtUp, startOf,
      hwaiting]

theorem Ending.size_waiting (sequence : UInt64) (ending : Ending) :
    (ending.waiting sequence).size = (ending.records sequence).length := by
  have hone (left : Mutation) : (onePending sequence left).size = 1 := by
    simp [onePending, Std.ExtTreeMap.size_insert]
  cases ending with
  | clean | begun => rfl
  | pending left | committing left | again left => exact hone left

/-- Torn bytes and complete records make up the unfinished mutations exactly when what is torn
is one byte of a pending record. -/
theorem Ending.count_eq_iff {limits : Limits} {sequence : UInt64}
    (h : ending.CutShort limits key sequence) :
    ending.tornBytes + (ending.records sequence).length = ending.unfinished.length ↔
      ending.OneByte := by
  cases ending with
  | clean | pending | begun | again => simp [tornBytes, records, unfinished, OneByte]
  | committing left count =>
      obtain ⟨hcount, -⟩ := h _ _ rfl
      simp only [tornBytes, records, unfinished, OneByte, List.length_singleton, iff_false]
      omega

/-- The recovery of a journal is accounted for exactly if and only if it does not end in a
torn record, or in one byte of a pending record. -/
theorem recovery_accounted_iff (h : Written dir options key manifest mutations ending) :
    AccountsFor dir options key mutations ending ↔ ending.OneByte := by
  obtain ⟨replayed, hreplay, hhealth, happlied, htrailing, hunfinished⟩ := h.report
  rw [← Ending.count_eq_iff h.part, ← Ending.size_waiting, ← hunfinished]
  constructor
  · rintro ⟨other, hother, -, -, -, hcount⟩
    rw [hreplay] at hother
    cases hother
    exact hcount
  · intro hcount
    exact ⟨replayed, hreplay, hhealth, happlied, htrailing, hcount⟩

end Replay

def someKey : Bytes := List.replicate 32 0

/-- The committed mutations, and the first bytes of the pending record of an epoch advance. -/
def cutOffBehind (done : List Mutation) (count : Nat) : Directory :=
  ((∅ : Directory).insert manifestName (encodeManifest someKey {})).insert
    (journalSegmentName 0) (journalBytes someKey (commitRecords (0 + 1) done) ++
      (encodeJournalRecord (pendingRecord (0 + 1 + UInt64.ofNat done.length)
        { op := .advanceEpoch }) someKey).take count)

theorem written_cutOffBehind {done : List Mutation} {count : Nat}
    (hcommitted : (∀ mutation ∈ done, Carried {} mutation) ∧
      ∃ image, playback (firstImage {} {}) done = .ok image)
    (hpayloads : PayloadsFit {} (commitRecords (0 + 1) done))
    (hbytes : (journalBytes someKey (commitRecords (0 + 1) done)).length ≤ 65536)
    (hrecords : (commitRecords (0 + 1) done).length < maxRecordsPerSegment)
    (hpositive : 0 < count) (hcount : count ≤ 10) :
    Written (cutOffBehind done count) {} someKey {} done
      (.begun { op := .advanceEpoch } count) where
  key_set := by decide
  manifest_file := by
    rw [cutOffBehind, getElem?_insert_of_ne _ (by decide)]
    simp
  manifest_fits := ⟨by decide, by decide⟩
  no_snapshot := rfl
  names := by
    refine ⟨by decide, ?_, ?_⟩
    · intro i hi
      obtain rfl : i = 0 := by omega
      simp [cutOffBehind]
    · intro name hname index hparse _
      simp only [cutOffBehind, Std.ExtTreeMap.mem_insert, Std.LawfulEqOrd.compare_eq_iff_eq,
        Std.ExtTreeMap.not_mem_empty, or_false] at hname
      rcases hname with rfl | rfl
      · rw [parseJournalSegmentName_journalSegmentName (by decide)] at hparse
        cases hparse
        exact ⟨rfl, by decide⟩
      · rw [parse_manifestName] at hparse
        cases hparse
  room := by decide
  committed := hcommitted
  file := by
    simp [cutOffBehind, Ending.records, Ending.tail, Ending.torn]
  fits := by
    simp only [Ending.records, Ending.tail, Ending.torn, List.append_nil]
    refine ⟨hpayloads, ?_, hrecords⟩
    rw [List.length_take]
    refine le_trans (Nat.add_le_add hbytes (min_le_left _ _)) ?_
    exact le_trans (by omega : 65536 + count ≤ 65546) (by decide)
  part := by
    intro record part hpart
    simp only [Ending.torn, Option.some.injEq, Prod.mk.injEq] at hpart
    obtain ⟨rfl, rfl⟩ := hpart
    have hpayload : (encodeMutation { op := .advanceEpoch }).length ≤ 4096 := by decide
    refine ⟨hpositive, ?_, ?_, ?_⟩
    · rw [length_encodeJournalRecord]
      omega
    · exact le_trans hpayload (by decide)
    · exact lt_of_le_of_lt hpayload (by decide)

def advanced : Mutation :=
  { op := .advanceEpoch, publisher := ⟨[112], wellFormed_p⟩, system := true }

theorem recovery_accounted_behind_commit :
    AccountsFor (cutOffBehind [advanced] 1) {} someKey [advanced]
      (.begun { op := .advanceEpoch } 1) := by
  have hcarried : Carried {} advanced := by
    unfold Carried
    decide
  have hplayed : (playback (firstImage {} {}) [advanced]).isOk = true := by decide
  have hcommitted : ∃ image, playback (firstImage {} {}) [advanced] = .ok image := by
    cases hplay : playback (firstImage {} {}) [advanced] with
    | error e =>
        rw [hplay] at hplayed
        cases hplayed
    | ok image => exact ⟨image, rfl⟩
  refine (recovery_accounted_iff (written_cutOffBehind ⟨?_, hcommitted⟩ ?_
    (by decide +kernel) (by decide) (by decide) (by decide))).mpr rfl
  · intro mutation hmutation
    rwa [List.mem_singleton.mp hmutation]
  · have hpayloads : (commitRecords (0 + 1) [advanced]).all
        (fun record => decide (record.payload.length ≤ 4096)) = true := by decide
    intro record hrecord
    have hlength := of_decide_eq_true (List.all_eq_true.mp hpayloads record hrecord)
    exact ⟨hlength.trans (by decide), lt_of_le_of_lt hlength (by decide)⟩

/-- Ten bytes of one record are counted as ten unfinished attempts. -/
theorem torn_bytes_counted_as_attempts :
    ¬ ∀ (dir : Directory) (options : Options) (key : Bytes) (manifest : Manifest)
        (mutations : List Mutation) (ending : Ending),
      Written dir options key manifest mutations ending →
        AccountsFor dir options key mutations ending := by
  intro h
  have hwritten := @written_cutOffBehind [] 10 ⟨by simp, _, rfl⟩
    (by simp [commitRecords, PayloadsFit]) (by decide) (by decide) (by decide)
    (by decide)
  obtain ⟨other, hother, -, -, -, hcount⟩ := h _ _ _ _ _ _ hwritten
  obtain ⟨replayed, hreplay, -, -, -, hunfinished⟩ := hwritten.report
  rw [hreplay] at hother
  cases hother
  rw [hunfinished, Ending.size_waiting] at hcount
  exact absurd hcount (by decide)

end PriorityFabric.Accounting
