import PriorityFabric.StateDirectory

/-!
What a commit does to the directory.

A commit appends the two records of its mutation to the last segment, after
starting a new one where the last has reached its size.
-/

namespace PriorityFabric.Committing

open PriorityFabric.Lib.LittleEndian
open PriorityFabric.Lib.KeyedTable (getElem?_insert_of_ne)
open PriorityFabric.Basics
open PriorityFabric.Ident
open PriorityFabric.Hashing
open PriorityFabric.Model
open PriorityFabric.Codec
open PriorityFabric.ModelCodec
open PriorityFabric.State
open PriorityFabric.StateCodec
open PriorityFabric.Validate
open PriorityFabric.Apply
open PriorityFabric.Durability
open PriorityFabric.JournalScan
open PriorityFabric.Store
open PriorityFabric.Readable
open PriorityFabric.ApplyFacts
open PriorityFabric.StoreFiles
open PriorityFabric.Replaying
open PriorityFabric.StateDirectory

/-! ## Appending -/

def grown (store : DurableStore) (count : Nat) : DurableStore :=
  { store with
    segmentBytes := store.segmentBytes + count
    durableBytes := store.durableBytes + count }

theorem appendRecord_complete {store : DurableStore} (hopen : store.segmentOpen = true)
    (dir : Directory) (record : Bytes) :
    appendRecord dir store record .complete =
      (.ok (), appendBytes dir store record, grown store record.length) := by
  simp only [appendRecord, hopen, Bool.true_eq_false, if_false, grown]

theorem appendBytes_appendBytes (dir : Directory) {store store' : DurableStore}
    (hindex : store'.segmentIndex = store.segmentIndex) (a b : Bytes) :
    appendBytes (appendBytes dir store a) store' b = appendBytes dir store (a ++ b) := by
  simp only [appendBytes, hindex, insert_insert, Std.ExtTreeMap.getD_insert_self,
    List.append_assoc]

def recordsOf (sequence : UInt64) (planned : Mutation) : List JournalRecord :=
  [pendingRecord sequence planned, commitRecord sequence planned]

/-- The state after the pending record of a refused mutation was written. -/
def stranded (s : StoreState) (planned : Mutation) (live : StateImage) : StoreState where
  dir := appendBytes s.dir s.store
    (journalBytes s.store.key [pendingRecord s.store.nextSequence planned])
  store := { grown s.store ((encodeMutation planned).length + 40) with
    journalRecords := s.store.journalRecords + 1 }
  live := live

def accepted (s : StoreState) (planned : Mutation) (live : StateImage) : StoreState where
  dir := appendBytes s.dir s.store
    (journalBytes s.store.key (recordsOf s.store.nextSequence planned))
  store := { grown s.store ((encodeMutation planned).length + 40 + 80) with
    journalRecords := s.store.journalRecords + 2
    nextSequence := s.store.nextSequence + 1 }
  live := { live with lastSequence := s.store.nextSequence }

theorem length_commitRecord (sequence : UInt64) (planned : Mutation) :
    (commitRecord sequence planned).payload.length = 40 := by
  simp [commitRecord, encodeCommitPayload]

theorem journalCommit_accepted {s : StoreState} {planned : Mutation} {live : StateImage}
    (hopen : s.store.segmentOpen = true)
    (happly : applyMutation s.live planned false = (.ok (), live))
    (hgeneration : live.generation = planned.resultingGeneration) :
    journalCommit s planned .complete .complete = (.ok (), accepted s planned live) := by
  have hpending : (encodeJournalRecord (pendingRecord s.store.nextSequence planned)
      s.store.key).length = (encodeMutation planned).length + 40 := by
    rw [length_encodeJournalRecord]
    rfl
  have hcommit : (encodeJournalRecord (commitRecord s.store.nextSequence planned)
      s.store.key).length = 80 := by
    rw [length_encodeJournalRecord, length_commitRecord]
  have hbytes : journalBytes s.store.key (recordsOf s.store.nextSequence planned) =
      encodeJournalRecord (pendingRecord s.store.nextSequence planned) s.store.key ++
        encodeJournalRecord (commitRecord s.store.nextSequence planned) s.store.key := by
    simp [journalBytes, recordsOf]
  simp only [journalCommit, appendRecord_complete hopen, happly, hgeneration, ne_eq,
    not_true_eq_false, if_false, hpending, accepted, hbytes]
  rw [appendRecord_complete]
  · simp only [Prod.mk.injEq, true_and, StoreState.mk.injEq, and_true]
    refine ⟨appendBytes_appendBytes _ rfl _ _, ?_⟩
    simp only [grown, Nat.add_assoc, Nat.reduceAdd]
    rw [hcommit]
  · exact hopen

theorem journalCommit_stranded {s : StoreState} {planned : Mutation} {live : StateImage}
    {e : Status} (hopen : s.store.segmentOpen = true)
    (happly : applyMutation s.live planned false = (.error e, live)) :
    journalCommit s planned .complete .complete = (.error e, stranded s planned live) := by
  have hpending : (encodeJournalRecord (pendingRecord s.store.nextSequence planned)
      s.store.key).length = (encodeMutation planned).length + 40 := by
    rw [length_encodeJournalRecord]
    rfl
  have hbytes : journalBytes s.store.key [pendingRecord s.store.nextSequence planned] =
      encodeJournalRecord (pendingRecord s.store.nextSequence planned) s.store.key := by
    simp [journalBytes]
  simp only [journalCommit, appendRecord_complete hopen, happly, hpending, stranded, hbytes]
  rfl

/-! ## Outcomes -/

/-- The mutation passes every check made before the first write. -/
structure Journaled (s : StoreState) (mutation planned : Mutation) (rolled : StoreState) :
    Prop where
  plan : Planned s.store s.live mutation planned
  roll : rollSegmentIfNeeded s.dir s.store = .ok (rolled.dir, rolled.store)
  live : rolled.live = s.live

/-- Everything a commit without write failures can do. -/
inductive Committed (s : StoreState) (mutation : Mutation) :
    Result Unit × StoreState → Prop
  | refused (e : Status) (h : ∀ planned rolled, ¬ Journaled s mutation planned rolled) :
      Committed s mutation (.error e, s)
  | stranded {planned : Mutation} {rolled : StoreState} {live : StateImage} (e : Status)
      (h : Journaled s mutation planned rolled)
      (happly : applyMutation s.live planned false = (.error e, live)) :
      Committed s mutation (.error e, stranded rolled planned live)
  | accepted {planned : Mutation} {rolled : StoreState} {live : StateImage}
      (h : Journaled s mutation planned rolled)
      (happly : applyMutation s.live planned false = (.ok (), live)) :
      Committed s mutation (.ok (), accepted rolled planned live)

/-- What rolling to another segment keeps. -/
structure SameStore (store store' : DurableStore) : Prop where
  options : store'.options = store.options
  key : store'.key = store.key
  durableBytes : store'.durableBytes = store.durableBytes
  nextSequence : store'.nextSequence = store.nextSequence
  isOpen : store'.isOpen = store.isOpen
  segmentOpen : store.segmentOpen = true → store'.segmentOpen = true

theorem rollSegmentIfNeeded_same {dir dir' : Directory} {store store' : DurableStore}
    (h : rollSegmentIfNeeded dir store = .ok (dir', store')) : SameStore store store' := by
  unfold rollSegmentIfNeeded at h
  split at h
  · cases h
    exact ⟨rfl, rfl, rfl, rfl, rfl, id⟩
  · simp only [bind_eq_ok, failIf_eq_ok, exists_const, pure, Except.pure, Except.ok.injEq,
      Prod.mk.injEq] at h
    obtain ⟨-, -, rfl⟩ := h
    exact ⟨rfl, rfl, rfl, rfl, rfl, fun _ => rfl⟩

theorem generation_of_planned {store : DurableStore} {live live' : StateImage}
    {mutation planned : Mutation} {replay : Bool} (h : Planned store live mutation planned)
    (happly : applyMutation live planned replay = (.ok (), live')) :
    live'.generation = planned.resultingGeneration := by
  rw [applyMutation_generation happly, h.planned_eq]
  rfl

theorem commit_committed {s : StoreState} (hopen : s.store.segmentOpen = true)
    (mutation : Mutation) : Committed s mutation (commit s mutation) := by
  unfold commit commitWriting
  cases hplan : planCommit s.store s.live mutation with
  | error e =>
      refine .refused e fun planned rolled h => ?_
      rw [planCommit_eq_ok_iff.mpr h.plan] at hplan
      cases hplan
  | ok planned =>
      have hplanned := planCommit_eq_ok_iff.mp hplan
      cases hroll : rollSegmentIfNeeded s.dir s.store with
      | error e =>
          refine .refused e fun planned rolled h => ?_
          rw [h.roll] at hroll
          cases hroll
      | ok rolled =>
          obtain ⟨dir, store⟩ := rolled
          have hjournaled : Journaled s mutation planned { s with dir, store } :=
            ⟨hplanned, hroll, rfl⟩
          have hstore : store.segmentOpen = true :=
            (rollSegmentIfNeeded_same hroll).segmentOpen hopen
          obtain ⟨status, live, happly⟩ :
              ∃ status live, applyMutation s.live planned false = (status, live) :=
            ⟨_, _, rfl⟩
          cases status with
          | error e =>
              have hresult : journalCommit { s with dir, store } planned .complete .complete =
                  (.error e, stranded { s with dir, store } planned live) :=
                journalCommit_stranded hstore happly
              simp only [hresult]
              exact .stranded e hjournaled happly
          | ok u =>
              have hresult : journalCommit { s with dir, store } planned .complete .complete =
                  (.ok (), accepted { s with dir, store } planned live) :=
                journalCommit_accepted hstore happly (generation_of_planned hplanned happly)
              simp only [hresult]
              exact .accepted hjournaled happly

theorem appendRecord_options (dir : Directory) (store : DurableStore) (record : Bytes)
    (write : WriteOutcome) :
    (appendRecord dir store record write).2.2.options = store.options := by
  unfold appendRecord
  split
  · rfl
  · cases write <;> rfl

theorem journalCommit_options (s : StoreState) (planned : Mutation)
    (pendingWrite commitWrite : WriteOutcome) :
    (journalCommit s planned pendingWrite commitWrite).2.store.options =
      s.store.options := by
  have hpending := appendRecord_options s.dir s.store
    (encodeJournalRecord (pendingRecord s.store.nextSequence planned) s.store.key)
    pendingWrite
  simp only [journalCommit]
  generalize appendRecord s.dir s.store
    (encodeJournalRecord (pendingRecord s.store.nextSequence planned) s.store.key)
    pendingWrite = pending at hpending ⊢
  obtain ⟨status, dir, store⟩ := pending
  cases status with
  | error e => exact hpending
  | ok u =>
      simp only
      obtain ⟨status, live⟩ := applyMutation s.live planned false
      cases status with
      | error e => exact hpending
      | ok u =>
          simp only
          split
          · exact hpending
          · have hcommit := appendRecord_options dir
              { store with journalRecords := store.journalRecords + 1 }
              (encodeJournalRecord (commitRecord s.store.nextSequence planned) store.key)
              commitWrite
            generalize appendRecord dir { store with
              journalRecords := store.journalRecords + 1 }
              (encodeJournalRecord (commitRecord s.store.nextSequence planned) store.key)
              commitWrite = written at hcommit ⊢
            obtain ⟨status, dir, store⟩ := written
            cases status with
            | error e => exact hcommit.trans hpending
            | ok u => exact hcommit.trans hpending

theorem commitWriting_options (s : StoreState) (mutation : Mutation)
    (pendingWrite commitWrite : WriteOutcome) :
    (commitWriting s mutation pendingWrite commitWrite).2.store.options =
      s.store.options := by
  unfold commitWriting
  cases planCommit s.store s.live mutation with
  | error e => rfl
  | ok planned =>
      cases hroll : rollSegmentIfNeeded s.dir s.store with
      | error e => rfl
      | ok rolled =>
          obtain ⟨dir, store⟩ := rolled
          exact (journalCommit_options _ _ _ _).trans (rollSegmentIfNeeded_same hroll).options

theorem commit_options (s : StoreState) (mutation : Mutation) :
    (commit s mutation).2.store.options = s.store.options :=
  commitWriting_options s mutation _ _

/-! ## The append cursor -/

/-- The size of the segment is part of the measured size, or a segment that is about
to roll is always within the growth bound.  Opening measures no size in a directory
of more than 4096 entries. -/
def Measured (store : DurableStore) : Prop :=
  store.segmentBytes ≤ store.durableBytes ∨
    segmentRollBytes + store.options.limits.maxRecordPayload + 120 ≤
      store.options.limits.maxStateBytes

/-- The growth bound admits the bytes, which are those of one commit at most. -/
structure Room (store : DurableStore) (count : Nat) : Prop where
  growth : store.durableBytes + count ≤ store.options.limits.maxStateBytes
  small : count ≤ store.options.limits.maxRecordPayload + 120

/-- The store appends to the last segment of the ledger. -/
structure Cursor (s : StoreState) (ledger : Ledger) (front : List (List JournalRecord))
    (records : List JournalRecord) : Prop where
  admissible : limitsWithinCompiledCeiling s.store.options.limits = true
  holds : Holds s.dir s.store.options.limits s.store.key ledger
  last : ledger.segments = front ++ [records]
  index : s.store.segmentIndex = ledger.manifest.firstSegment + front.length
  index_le : s.store.segmentIndex ≤ 1024
  bytes : s.store.segmentBytes = (journalBytes s.store.key records).length
  measured : Measured s.store
  opened : s.store.segmentOpen = true

theorem journalBytes_append (key : Bytes) (front back : List JournalRecord) :
    journalBytes key (front ++ back) = journalBytes key front ++ journalBytes key back := by
  simp [journalBytes]

theorem Cursor.content {s : StoreState} {ledger : Ledger}
    {front : List (List JournalRecord)} {records : List JournalRecord}
    (h : Cursor s ledger front records) :
    s.dir[journalSegmentName s.store.segmentIndex]? =
      some (journalBytes s.store.key records) := by
  rw [h.index]
  exact h.holds.last_file h.last

theorem Cursor.appendBytes_eq {s : StoreState} {ledger : Ledger}
    {front : List (List JournalRecord)} {records : List JournalRecord}
    (h : Cursor s ledger front records) (bytes : Bytes) :
    appendBytes s.dir s.store bytes =
      s.dir.insert (lastName ledger front) (journalBytes s.store.key records ++ bytes) := by
  have hcontent : s.dir.getD (journalSegmentName s.store.segmentIndex) [] =
      journalBytes s.store.key records := by
    rw [Std.ExtTreeMap.getD_eq_getD_getElem?, h.content]
    rfl
  rw [appendBytes, hcontent, lastName, h.index]

theorem Cursor.fits {s : StoreState} {ledger : Ledger}
    {front : List (List JournalRecord)} {records more : List JournalRecord} {tail : Nat}
    (h : Cursor s ledger front records) (hroll : s.store.segmentBytes < segmentRollBytes)
    (hmore : PayloadsFit s.store.options.limits more) (hcount : more.length ≤ 2)
    (hroom : Room s.store ((journalBytes s.store.key more).length + tail)) :
    SegmentFits s.store.options.limits s.store.key (records ++ more) tail := by
  have hold := h.holds.fits records (by rw [h.last]; simp)
  have hbytes := h.bytes
  obtain ⟨hgrowth, hsmall⟩ := hroom
  refine ⟨?_, ?_, ?_⟩
  · intro record hrecord
    rcases List.mem_append.mp hrecord with hrecord | hrecord
    · exact hold.payloads record hrecord
    · exact hmore record hrecord
  · rw [journalBytes_append, List.length_append]
    rcases h.measured with hmeasured | hmeasured <;> omega
  · have hforty := length_records_le s.store.key records
    rw [List.length_append]
    simp only [segmentRollBytes] at hroll
    simp only [maxRecordsPerSegment]
    omega

theorem Cursor.append {s : StoreState} {ledger : Ledger}
    {front : List (List JournalRecord)} {records more : List JournalRecord}
    (h : Cursor s ledger front records) (hroll : s.store.segmentBytes < segmentRollBytes)
    (hmore : PayloadsFit s.store.options.limits more) (hcount : more.length ≤ 2)
    (hroom : Room s.store (journalBytes s.store.key more).length) (live : StateImage) :
    Cursor
      { dir := appendBytes s.dir s.store (journalBytes s.store.key more)
        store := grown s.store (journalBytes s.store.key more).length
        live := live }
      { ledger with segments := front ++ [records ++ more] } front (records ++ more) where
  admissible := h.admissible
  holds := by
    simp only [h.appendBytes_eq, ← journalBytes_append]
    exact h.holds.rewrite h.last (h.fits hroll hmore hcount hroom)
  last := rfl
  index := h.index
  index_le := h.index_le
  bytes := by
    simp only [grown, journalBytes_append, List.length_append, h.bytes]
  measured := h.measured.imp_left fun hle => Nat.add_le_add_right hle _
  opened := h.opened

theorem Cursor.roll {s rolled : StoreState} {ledger : Ledger}
    {front : List (List JournalRecord)} {records : List JournalRecord}
    (h : Cursor s ledger front records)
    (hroll : rollSegmentIfNeeded s.dir s.store = .ok (rolled.dir, rolled.store)) :
    ∃ front' records',
      Cursor rolled { ledger with segments := front' ++ [records'] } front' records' ∧
        (front' ++ [records']).flatten = ledger.records ∧
        rolled.store.segmentBytes < segmentRollBytes := by
  unfold rollSegmentIfNeeded at hroll
  split at hroll
  · rename_i hsmall
    simp only [Except.ok.injEq, Prod.mk.injEq] at hroll
    obtain ⟨hdir, hstore⟩ := hroll
    have hlast := h.last
    refine ⟨front, records, ?_, by rw [Ledger.records, hlast], by rw [← hstore]; exact hsmall⟩
    obtain ⟨dir, store, live⟩ := rolled
    simp only at hdir hstore
    subst hdir hstore
    rw [← hlast]
    exact { h with }
  · simp only [bind_eq_ok, failIf_eq_ok, exists_const, ge_iff_le, not_le, pure, Except.pure,
      Except.ok.injEq, Prod.mk.injEq] at hroll
    obtain ⟨hnext, hdir, hstore⟩ := hroll
    obtain ⟨-, -, -, -, -, hmax⟩ := limits_bounds_of_within h.admissible
    have hindex := h.index
    have hindexLe := h.index_le
    have hmod : (s.store.segmentIndex + 1) % 2 ^ 32 = s.store.segmentIndex + 1 :=
      Nat.mod_eq_of_lt (by omega)
    have hlength : ledger.segments.length = front.length + 1 := by
      rw [h.last]
      simp
    have hname : s.store.segmentIndex + 1 =
        ledger.manifest.firstSegment + ledger.segments.length := by omega
    rw [hmod] at hnext hdir hstore
    obtain ⟨hnone, hholds⟩ := h.holds.roll (by omega) (by omega)
    rw [← hname] at hnone hholds
    have hsize : fileSize (openAppend s.dir (journalSegmentName (s.store.segmentIndex + 1)))
        (journalSegmentName (s.store.segmentIndex + 1)) = 0 := by
      have hnot : journalSegmentName (s.store.segmentIndex + 1) ∉ s.dir := by
        rw [Std.ExtTreeMap.mem_iff_isSome_getElem?, hnone]
        simp
      simp [fileSize, openAppend_of_not_mem hnot]
    refine ⟨ledger.segments, [], ?_, by simp [Ledger.records], ?_⟩
    · obtain ⟨dir, store, live⟩ := rolled
      simp only at hdir hstore
      subst hdir hstore
      exact
        { admissible := h.admissible
          holds := hholds
          last := rfl
          index := hname
          index_le := by
            simp only
            omega
          bytes := by simp [hsize, journalBytes]
          measured := .inl (by simp [hsize])
          opened := rfl }
    · rw [← hstore]
      simp only [hsize, segmentRollBytes]
      norm_num

/-! ## The journal of a store -/

/-- The store's journal is that of the given mutations, and the store is ready to
append the next. -/
structure Journal (s : StoreState) (ledger : Ledger) (mutations : List Mutation) :
    Prop where
  cursor : ∃ front records, Cursor s ledger front records
  opened : s.store.isOpen = true
  records : ledger.records = commitRecords (ledger.manifest.lastSequence + 1) mutations
  carried : ∀ mutation ∈ mutations, Carried s.store.options.limits mutation
  next : s.store.nextSequence =
    ledger.manifest.lastSequence + 1 + UInt64.ofNat mutations.length

theorem forty_le_length_encodeMutation (mutation : Mutation) :
    40 ≤ (encodeMutation mutation).length := by
  simp only [encodeMutation, encodeBoot, List.length_append, Encoder.length_u16,
    Encoder.length_u64, BootId.length_toList]
  omega

theorem payloadsFit_recordsOf {store : DurableStore} {live : StateImage}
    {mutation planned : Mutation}
    (hlimits : limitsWithinCompiledCeiling store.options.limits = true)
    (h : Planned store live mutation planned) (sequence : UInt64) :
    PayloadsFit store.options.limits (recordsOf sequence planned) := by
  obtain ⟨-, -, -, hrecord, -⟩ := limits_bounds_of_within hlimits
  have hpayload := h.payload_le
  have hforty := forty_le_length_encodeMutation planned
  intro record hmem
  rcases List.mem_cons.mp hmem with rfl | hmem
  · exact ⟨hpayload, by change (encodeMutation planned).length < _; omega⟩
  · rw [List.mem_singleton] at hmem
    subst hmem
    rw [length_commitRecord]
    exact ⟨by omega, by norm_num⟩

theorem length_journalBytes_recordsOf (key : Bytes) (sequence : UInt64)
    (planned : Mutation) :
    (journalBytes key (recordsOf sequence planned)).length =
      (encodeMutation planned).length + 40 + 80 := by
  simp only [journalBytes, recordsOf, List.flatMap_cons, List.flatMap_nil,
    List.length_append, length_encodeJournalRecord, length_commitRecord, List.length_nil]
  rfl

theorem room_of_planned {store : DurableStore} {live : StateImage}
    {mutation planned : Mutation}
    (hlimits : limitsWithinCompiledCeiling store.options.limits = true)
    (h : Planned store live mutation planned) (key : Bytes) (sequence : UInt64) :
    Room store (journalBytes key (recordsOf sequence planned)).length := by
  obtain ⟨-, -, -, hrecord, -⟩ := limits_bounds_of_within hlimits
  have hpayload := h.payload_le
  have hgrowth := h.growth_le
  have hpending : journalRecordBytes (encodeMutation planned).length =
      (encodeMutation planned).length + 40 := by
    rw [journalRecordBytes, recordOverheadBytes, if_pos (by omega)]
  have hcommit : journalRecordBytes 40 = 80 := rfl
  rw [hpending, hcommit] at hgrowth
  rw [length_journalBytes_recordsOf]
  exact ⟨by omega, by omega⟩

/-- Writing the records of a planned mutation, or only its pending record, moves the
cursor behind them; the segment has room for the rest. -/
theorem Cursor.journaled {s rolled : StoreState} {ledger : Ledger}
    {front : List (List JournalRecord)} {records more : List JournalRecord}
    {mutation planned : Mutation} (h : Cursor s ledger front records)
    (hjournaled : Journaled s mutation planned rolled)
    (hmore : more <+: recordsOf s.store.nextSequence planned) (live : StateImage) :
    ∃ front' records',
      Cursor
        { dir := appendBytes rolled.dir rolled.store (journalBytes rolled.store.key more)
          store := grown rolled.store (journalBytes rolled.store.key more).length
          live := live }
        { ledger with segments := front' ++ [records'] } front' records' ∧
      (front' ++ [records']).flatten = ledger.records ++ more ∧
      ∀ tail, (journalBytes rolled.store.key more).length + tail ≤
          (encodeMutation planned).length + 40 + 80 →
        SegmentFits rolled.store.options.limits rolled.store.key records' tail := by
  obtain ⟨front', records', hrolled, hrecords, hsmall⟩ := h.roll hjournaled.roll
  obtain ⟨hoptions, -, hdurable, -, -, -⟩ := rollSegmentIfNeeded_same hjournaled.roll
  obtain ⟨rest, hrest⟩ := hmore
  have hfit : PayloadsFit rolled.store.options.limits more := by
    intro record hrecord
    rw [hoptions]
    refine payloadsFit_recordsOf h.admissible hjournaled.plan s.store.nextSequence record ?_
    rw [← hrest]
    exact List.mem_append_left _ hrecord
  have hcount : more.length ≤ 2 := by
    have hlength := congrArg List.length hrest
    simp only [List.length_append, recordsOf, List.length_cons, List.length_nil] at hlength
    omega
  have hroom (tail : Nat) (htail : (journalBytes rolled.store.key more).length + tail ≤
      (encodeMutation planned).length + 40 + 80) :
      Room rolled.store ((journalBytes rolled.store.key more).length + tail) := by
    obtain ⟨hgrowth, hpart⟩ := room_of_planned h.admissible hjournaled.plan rolled.store.key
      s.store.nextSequence
    rw [length_journalBytes_recordsOf] at hgrowth hpart
    rw [← hdurable, ← hoptions] at hgrowth
    rw [← hoptions] at hpart
    exact ⟨by omega, by omega⟩
  have hwhole : (journalBytes rolled.store.key more).length + 0 ≤
      (encodeMutation planned).length + 40 + 80 := by
    rw [← length_journalBytes_recordsOf rolled.store.key s.store.nextSequence, ← hrest,
      journalBytes_append, List.length_append]
    omega
  refine ⟨front', records' ++ more,
    hrolled.append hsmall hfit hcount (hroom 0 hwhole) live, ?_, ?_⟩
  · rw [← hrecords]
    simp
  · intro tail htail
    exact hrolled.fits hsmall hfit hcount (hroom tail htail)

theorem Journal.accepted {s rolled : StoreState} {ledger : Ledger}
    {mutations : List Mutation} {mutation planned : Mutation}
    (h : Journal s ledger mutations) (hjournaled : Journaled s mutation planned rolled)
    (hcarried : Carried s.store.options.limits planned) (live : StateImage) :
    ∃ segments, Journal (accepted rolled planned live) { ledger with segments }
      (mutations ++ [planned]) := by
  obtain ⟨front, records, hcursor⟩ := h.cursor
  obtain ⟨hoptions, -, -, hnext, hisOpen, -⟩ := rollSegmentIfNeeded_same hjournaled.roll
  obtain ⟨front', records', happended, hrecords, -⟩ :=
    hcursor.journaled hjournaled (List.prefix_refl _) live
  rw [← hnext, length_journalBytes_recordsOf] at happended
  refine ⟨front' ++ [records'], ?_⟩
  refine
    { cursor := ⟨_, _, { happended with }⟩
      opened := by
        change rolled.store.isOpen = true
        rw [hisOpen]
        exact h.opened
      records := ?_
      carried := ?_
      next := ?_ }
  · change (front' ++ [records']).flatten = _
    rw [hrecords, h.records, commitRecords_snoc, h.next]
    rfl
  · intro m hm
    change Carried rolled.store.options.limits m
    rw [hoptions]
    rcases List.mem_append.mp hm with hm | hm
    · exact h.carried m hm
    · rw [List.mem_singleton] at hm
      subst hm
      exact hcarried
  · change rolled.store.nextSequence + 1 = _
    rw [hnext, h.next, List.length_append, List.length_singleton, UInt64.ofNat_add,
      ← UInt64.add_assoc]
    rfl

/-! ## Replay of the journal -/

/-- What a healthy replay reports: the image, the unchanged directory and the
number of records it applied. -/
structure Recovered (replayed : Replayed) (dir : Directory) (image : StateImage)
    (applied : Nat) : Prop where
  health : replayed.report.health = .healthy
  ok : replayed.report.ok = true
  image : replayed.image = image
  dir : replayed.dir = dir
  applied : replayed.report.recordsApplied = applied

theorem recovered_concluded {finished : Replay} (dir : Directory)
    (hhealth : finished.report.health = .healthy) :
    Recovered (concluded dir finished) dir finished.image finished.report.recordsApplied := by
  unfold concluded Replay.conclude
  cases hpending : finished.pending.isEmpty with
  | false =>
      simp only [hhealth, and_self, if_true, beq_self_eq_true]
      exact ⟨rfl, rfl, rfl, rfl, rfl⟩
  | true =>
      simp only [Bool.true_eq_false, hhealth, and_false, if_false, beq_self_eq_true, if_true]
      exact ⟨rfl, rfl, rfl, rfl, rfl⟩

theorem replayStart_eq_ok {dir : Directory} {limits : Limits} {key : Bytes}
    {manifest : Manifest} {start : Replay}
    (h : replayStart dir limits key manifest = .ok start) :
    start.image.lastSequence = manifest.lastSequence := by
  simp only [replayStart, bind_eq_ok, pure, Except.pure, Except.ok.injEq] at h
  obtain ⟨found, -, rfl⟩ := h
  rfl

theorem settled_of_holds {dir : Directory} {limits : Limits} {key : Bytes} {ledger : Ledger}
    (h : Holds dir limits key ledger) : Settled ledger.start where
  pending := rfl
  expected := by
    have hlast := replayStart_eq_ok h.start
    rw [hlast]
    rfl

theorem Journal.runs {s : StoreState} {ledger : Ledger} {mutations : List Mutation}
    {image : StateImage} (h : Journal s ledger mutations)
    (hplay : playback ledger.base mutations = .ok image) :
    Runs s.store.options.limits ledger.start ledger.records
      (Replay.caughtUp ledger.start image mutations.length) := by
  obtain ⟨front, records, hcursor⟩ := h.cursor
  have hruns := runs_commitRecords (settled_of_holds hcursor.holds) h.carried hplay
  rw [h.records]
  exact hruns

theorem Journal.next_eq {s : StoreState} {ledger : Ledger} {mutations : List Mutation}
    {image : StateImage} (h : Journal s ledger mutations)
    (hplay : playback ledger.base mutations = .ok image) :
    s.store.nextSequence = image.lastSequence + 1 := by
  obtain ⟨front, records, hcursor⟩ := h.cursor
  have hbase : ledger.base.lastSequence = ledger.manifest.lastSequence :=
    replayStart_eq_ok hcursor.holds.start
  rw [h.next, playback_lastSequence hplay, hbase, UInt64.add_assoc, UInt64.add_assoc,
    UInt64.add_comm 1]

/-- A fresh replay of the journal reproduces the image its mutations lead to. -/
theorem Journal.replay {s : StoreState} {ledger : Ledger} {mutations : List Mutation}
    {image : StateImage} (h : Journal s ledger mutations)
    (hplay : playback ledger.base mutations = .ok image) :
    ∃ replayed, replay s.dir s.store.options s.store.key = .ok replayed ∧
      Recovered replayed s.dir image
        (ledger.manifest.snapshotPresent.toNat + mutations.length) := by
  obtain ⟨front, records, hcursor⟩ := h.cursor
  refine ⟨_, replay_of_holds hcursor.holds (h.runs hplay), ?_⟩
  exact recovered_concluded s.dir rfl

/-! ## A fresh store -/

def openedState (opened : Opened) : StoreState where
  dir := opened.dir
  store := opened.store
  live := opened.image

/-- The ledger of a store that was never checkpointed. -/
def freshLedger (limits : Limits) (segments : List (List JournalRecord)) : Ledger where
  manifest := {}
  base := { limits }
  segments := segments

theorem obtainKey_eq_ok {dir dir' : Directory} {key : Bytes}
    {entropy : List.Vector UInt8 storeKeyBytes}
    (h : obtainKey dir entropy = .ok (key, dir')) :
    readStoreKey dir' = .ok key ∧
      ∀ name, name ≠ keyName → (name ∈ dir' ↔ name ∈ dir) := by
  unfold obtainKey at h
  split at h
  · cases hread : readStoreKey dir with
    | error e =>
        rw [hread] at h
        cases h
    | ok found =>
        rw [hread] at h
        cases h
        exact ⟨hread, fun _ _ => Iff.rfl⟩
  · cases h
    have hlength : entropy.toList.length = storeKeyBytes := entropy.toList_length
    refine ⟨?_, ?_⟩
    · refine readStoreKey_eq_ok Std.ExtTreeMap.getElem?_insert_self ?_
        (decodeKeyFile_encodeKeyFile hlength)
      rw [length_encodeKeyFile, hlength]
      decide
    · intro name hname
      rw [Std.ExtTreeMap.mem_insert, Std.LawfulEqOrd.compare_eq_iff_eq]
      simp [Ne.symm hname]

/-- Where no file is a stray segment, none claims a segment once the manifest is there. -/
theorem unclaimed_writeManifest {dir keyed : Directory} (key : Bytes)
    (hstray : dir.keys.find? (fun name => (parseJournalSegmentName name).isSome) = none)
    (hmem : ∀ name, name ≠ keyName → (name ∈ keyed ↔ name ∈ dir)) :
    ∀ name ∈ writeManifest keyed key {}, ∀ index,
      parseJournalSegmentName name ≠ some index := by
  intro name hname index hparse
  rw [writeManifest, Std.ExtTreeMap.mem_insert, Std.LawfulEqOrd.compare_eq_iff_eq] at hname
  rcases hname with rfl | hname
  · rw [parse_manifestName] at hparse
    cases hparse
  · have hne : name ≠ keyName := by
      rintro rfl
      rw [parse_keyName] at hparse
      cases hparse
    have hdir := (hmem name hne).mp hname
    rw [List.find?_eq_none] at hstray
    have := hstray name (Std.ExtTreeMap.mem_keys.mpr hdir)
    simp [hparse] at this

theorem journal_createStore {dir : Directory} {options : Options}
    {entropy : List.Vector UInt8 storeKeyBytes} {opened : Opened}
    (hlimits : limitsWithinCompiledCeiling options.limits = true)
    (hsegments : 1 ≤ options.limits.maxJournalSegments)
    (h : createStore dir options entropy = .ok opened) :
    opened.store.options = options ∧ opened.image = { limits := options.limits } ∧
      Journal (openedState opened) (freshLedger options.limits [[]]) [] := by
  simp only [createStore, bind_eq_ok, failIf_eq_ok, exists_const, pure, Except.pure,
    Except.ok.injEq, not_not, ne_eq] at h
  obtain ⟨-, hstray, ⟨key, keyed⟩, hkey, rfl⟩ := h
  obtain ⟨hread, hmem⟩ := obtainKey_eq_ok hkey
  have hunclaimed := unclaimed_writeManifest key hstray hmem
  have hempty : Holds (writeManifest keyed key {}) options.limits key
      (freshLedger options.limits []) :=
    { key_file := by
        rw [writeManifest, readStoreKey_congr (getElem?_insert_of_ne _ (by decide))]
        exact hread
      manifest_file := Std.ExtTreeMap.getElem?_insert_self
      manifest_fits := ⟨by simp [freshLedger], by simp [freshLedger]⟩
      start := rfl
      names :=
        { bound := by simp [freshLedger]
          present := fun i hi => absurd hi (Nat.not_lt_zero i)
          only := fun name hname index hparse => absurd hparse (hunclaimed name hname index) }
      files := fun i records h => by simp [freshLedger] at h
      fits := fun records h => by simp [freshLedger] at h
      count := Nat.zero_le _ }
  have hrolled := (hempty.roll (by simp [freshLedger]) hsegments).2
  refine ⟨rfl, rfl, ?_⟩
  exact
    { cursor := ⟨[], [],
        { admissible := hlimits
          holds := hrolled
          last := rfl
          index := rfl
          index_le := Nat.zero_le _
          bytes := rfl
          measured := .inl (Nat.zero_le _)
          opened := rfl }⟩
      opened := rfl
      records := rfl
      carried := fun m hm => by cases hm
      next := rfl }

theorem createStore_of_openStore {dir : Directory} {options : Options}
    {entropy : List.Vector UInt8 storeKeyBytes} {opened : Opened}
    (hfresh : dir.contains manifestName = false)
    (h : openStore dir options entropy = .ok opened) :
    limitsWithinCompiledCeiling options.limits = true ∧
      createStore (withLock dir options) options entropy = .ok opened := by
  have hmanifest : (withLock dir options).contains manifestName = false := by
    unfold withLock
    split
    · rw [openAppend, Std.ExtTreeMap.contains_insertIfNew, hfresh]
      decide
    · exact hfresh
  simp only [openStore, bind_eq_ok, failIf_eq_ok, exists_const, Bool.not_eq_false,
    hmanifest, if_true] at h
  exact h

end PriorityFabric.Committing
