import PriorityFabric.ApplyFacts
import PriorityFabric.StoreFiles

/-!
Replay of a journal.

The records of consecutive commits replay to the image that applying the
mutations in order gives.  Records are counted segment by segment, so the number
of scanned records is kept apart.
-/

namespace PriorityFabric.Replaying

open PriorityFabric.Lib.LittleEndian
open PriorityFabric.Basics
open PriorityFabric.Hashing
open PriorityFabric.Model
open PriorityFabric.ModelCodec
open PriorityFabric.State
open PriorityFabric.StateCodec
open PriorityFabric.Apply
open PriorityFabric.Durability
open PriorityFabric.JournalScan
open PriorityFabric.Store
open PriorityFabric.StoreFiles
open PriorityFabric.ApplyFacts
open PriorityFabric.Readable (withoutSystem)

/-- Apply one acknowledged mutation under the next sequence number. -/
def playOne (image : StateImage) (mutation : Mutation) : Result StateImage :=
  match applyMutation image mutation true with
  | (.error e, _) => .error e
  | (.ok (), next) => .ok { next with lastSequence := image.lastSequence + 1 }

def playback (image : StateImage) (mutations : List Mutation) : Result StateImage :=
  mutations.foldlM playOne image

@[simp] theorem playback_nil (image : StateImage) : playback image [] = .ok image := rfl

theorem playback_cons (image : StateImage) (mutation : Mutation)
    (mutations : List Mutation) :
    playback image (mutation :: mutations) =
      (playOne image mutation).bind (playback · mutations) := by
  rfl

theorem playback_append (image : StateImage) (front back : List Mutation) :
    playback image (front ++ back) =
      (playback image front).bind (playback · back) := by
  unfold playback
  rw [List.foldlM_append]
  rfl

theorem playback_snoc {image middle : StateImage} {mutations : List Mutation}
    (h : playback image mutations = .ok middle) (mutation : Mutation) :
    playback image (mutations ++ [mutation]) = playOne middle mutation := by
  rw [playback_append, h]
  simp only [Except.bind, playback_cons, playback_nil]
  cases playOne middle mutation <;> rfl

theorem playOne_eq_ok {image next : StateImage} {mutation : Mutation}
    (h : applyMutation image mutation true = (.ok (), next)) :
    playOne image mutation = .ok { next with lastSequence := image.lastSequence + 1 } := by
  simp only [playOne, h]

theorem playOne_eq_ok_iff {image image' : StateImage} {mutation : Mutation} :
    playOne image mutation = .ok image' ↔
      ∃ next, applyMutation image mutation true = (.ok (), next) ∧
        image' = { next with lastSequence := image.lastSequence + 1 } := by
  unfold playOne
  split
  · rename_i h
    simp [h]
  · rename_i next h
    simp only [h, Except.ok.injEq, Prod.mk.injEq, true_and, exists_eq_left']
    exact eq_comm

theorem playback_lastSequence {image image' : StateImage} {mutations : List Mutation}
    (h : playback image mutations = .ok image') :
    image'.lastSequence = image.lastSequence + UInt64.ofNat mutations.length := by
  induction mutations generalizing image with
  | nil =>
      cases h
      simp
  | cons mutation mutations ih =>
      rw [playback_cons] at h
      cases hone : playOne image mutation with
      | error e =>
          rw [hone] at h
          cases h
      | ok next =>
          rw [hone] at h
          obtain ⟨applied, -, rfl⟩ := playOne_eq_ok_iff.mp hone
          rw [ih h, List.length_cons, UInt64.ofNat_add, UInt64.add_assoc,
            UInt64.add_comm (UInt64.ofNat _)]
          rfl

/-- The records of consecutive commits from a sequence number on. -/
def commitRecords : UInt64 → List Mutation → List JournalRecord
  | _, [] => []
  | sequence, mutation :: mutations =>
      pendingRecord sequence mutation :: commitRecord sequence mutation ::
        commitRecords (sequence + 1) mutations

theorem commitRecords_snoc (sequence : UInt64) (mutations : List Mutation)
    (mutation : Mutation) :
    commitRecords sequence (mutations ++ [mutation]) =
      commitRecords sequence mutations ++
        [pendingRecord (sequence + UInt64.ofNat mutations.length) mutation,
          commitRecord (sequence + UInt64.ofNat mutations.length) mutation] := by
  induction mutations generalizing sequence with
  | nil => simp [commitRecords]
  | cons first mutations ih =>
      have hsequence : sequence + 1 + UInt64.ofNat mutations.length =
          sequence + UInt64.ofNat (mutations.length + 1) := by
        rw [UInt64.ofNat_add, UInt64.add_assoc, UInt64.add_comm 1]
        rfl
      simp only [List.cons_append, commitRecords, ih, List.length_cons, hsequence]

theorem length_le_length_commitRecords (sequence : UInt64) (mutations : List Mutation) :
    mutations.length ≤ (commitRecords sequence mutations).length := by
  induction mutations generalizing sequence with
  | nil => simp
  | cons mutation mutations ih =>
      have hrest := ih (sequence + 1)
      simp only [commitRecords, List.length_cons]
      omega

/-- The mutation's record reads back as the mutation, without its system mark. -/
def Carried (limits : Limits) (mutation : Mutation) : Prop :=
  decodeMutation (encodeMutation mutation) limits = .ok (withoutSystem mutation)

theorem decodeCommitPayload_encodeCommitPayload (sequence : UInt64) (digest : Digest) :
    decodeCommitPayload (encodeCommitPayload sequence digest) = .ok (sequence, digest) := by
  have hlength : (encodeCommitPayload sequence digest).length = 40 := by
    simp [encodeCommitPayload]
  have hsequence : fieldAt (encodeCommitPayload sequence digest) 0 8 = sequence.toNat :=
    @fieldAt_append [] _ 0 8 _ rfl (lt_of_lt_of_eq sequence.toNat_lt (by norm_num))
  have hdigest : ((encodeCommitPayload sequence digest).drop 8).take 32 =
      encodeDigest digest := by
    rw [encodeCommitPayload, List.drop_left' (by simp)]
    exact List.take_of_length_le (by simp)
  simp only [decodeCommitPayload, bind_eq_ok, failIf_eq_ok, exists_const, hlength, hsequence,
    hdigest, digestOfBytes_encodeDigest, UInt64.ofNat_toNat, pure, Except.pure, ne_eq,
    not_true_eq_false, not_false_eq_true, and_self]

/-- The records are replayed one by one, none is rejected. -/
inductive Runs (limits : Limits) : Replay → List JournalRecord → Replay → Prop
  | nil (replay : Replay) : Runs limits replay [] replay
  | cons {replay next last : Replay} {record : JournalRecord}
      {records : List JournalRecord} (h : replayRecord limits replay record = .ok next)
      (hrest : Runs limits next records last) : Runs limits replay (record :: records) last

namespace Runs

variable {limits : Limits}

theorem append {replay middle last : Replay} {front back : List JournalRecord}
    (hfront : Runs limits replay front middle) (hback : Runs limits middle back last) :
    Runs limits replay (front ++ back) last := by
  induction hfront with
  | nil replay => exact hback
  | cons h hrest ih => exact .cons h (ih hback)

theorem split {replay last : Replay} {front back : List JournalRecord}
    (h : Runs limits replay (front ++ back) last) :
    ∃ middle, Runs limits replay front middle ∧ Runs limits middle back last := by
  induction front generalizing replay with
  | nil => exact ⟨replay, .nil replay, h⟩
  | cons record front ih =>
      cases h with
      | cons hrecord hrest =>
          obtain ⟨middle, hfront, hback⟩ := ih hrest
          exact ⟨middle, .cons hrecord hfront, hback⟩

theorem replayRecords_append {replay middle : Replay} {front : List JournalRecord}
    (h : Runs limits replay front middle) (back : List JournalRecord) :
    replayRecords limits replay (front ++ back) = replayRecords limits middle back := by
  induction h with
  | nil replay => rfl
  | cons hrecord hrest ih =>
      rw [List.cons_append, replayRecords, hrecord]
      exact ih

theorem replayRecords_eq {replay last : Replay} {records : List JournalRecord}
    (h : Runs limits replay records last) : replayRecords limits replay records = last := by
  have happend := h.replayRecords_append []
  rwa [List.append_nil] at happend

end Runs

theorem replayRecord_health {limits : Limits} {replay next : Replay}
    {record : JournalRecord} (h : replayRecord limits replay record = .ok next) :
    next.report.health = replay.report.health := by
  unfold replayRecord at h
  split at h
  · unfold replayPending at h
    split at h
    · cases h
    · split at h
      · cases h
      · cases h
        rfl
  · unfold replayCommit at h
    split at h
    · cases h
    · split at h
      · cases h
      · split at h
        · cases h
        · split at h
          · cases h
          · split at h
            · cases h
            · split at h
              · cases h
              · unfold replayApply at h
                split at h
                · cases h
                · cases h
                  rfl

theorem Runs.health {limits : Limits} {replay last : Replay} {records : List JournalRecord}
    (h : Runs limits replay records last) :
    last.report.health = replay.report.health := by
  induction h with
  | nil replay => rfl
  | cons hrecord hrest ih => rw [ih, replayRecord_health hrecord]

/-- The first rejected record stops the replay. -/
inductive Stops (limits : Limits) : Replay → List JournalRecord → Replay → Prop
  | here {replay stopped : Replay} {record : JournalRecord}
      (records : List JournalRecord) (h : replayRecord limits replay record = .error stopped) :
      Stops limits replay (record :: records) stopped
  | later {replay next stopped : Replay} {record : JournalRecord}
      {records : List JournalRecord} (h : replayRecord limits replay record = .ok next)
      (hrest : Stops limits next records stopped) :
      Stops limits replay (record :: records) stopped

namespace Stops

variable {limits : Limits}

theorem of_runs {replay middle stopped : Replay} {front back : List JournalRecord}
    (hfront : Runs limits replay front middle) (hback : Stops limits middle back stopped) :
    Stops limits replay (front ++ back) stopped := by
  induction hfront with
  | nil replay => exact hback
  | cons h hrest ih => exact .later h (ih hback)

theorem split {replay stopped : Replay} {front back : List JournalRecord}
    (h : Stops limits replay (front ++ back) stopped) :
    Stops limits replay front stopped ∨
      ∃ middle, Runs limits replay front middle ∧ Stops limits middle back stopped := by
  induction front generalizing replay with
  | nil => exact .inr ⟨replay, .nil replay, h⟩
  | cons record front ih =>
      cases h with
      | here records hrecord => exact .inl (.here front hrecord)
      | later hrecord hrest =>
          rcases ih hrest with hfront | ⟨middle, hfront, hback⟩
          · exact .inl (.later hrecord hfront)
          · exact .inr ⟨middle, .cons hrecord hfront, hback⟩

theorem replayRecords_eq {replay stopped : Replay} {records : List JournalRecord}
    (h : Stops limits replay records stopped) :
    replayRecords limits replay records = stopped := by
  induction h with
  | here records hrecord =>
      rw [replayRecords, hrecord]
  | later hrecord hrest ih =>
      rw [replayRecords, hrecord]
      exact ih

end Stops

theorem replayRecord_degraded {limits : Limits} {replay stopped : Replay}
    {record : JournalRecord} (h : replayRecord limits replay record = .error stopped) :
    stopped.report.health = .degraded := by
  unfold replayRecord at h
  split at h
  · unfold replayPending at h
    split at h
    · cases h
      rfl
    · split at h
      · cases h
        rfl
      · cases h
  · unfold replayCommit at h
    split at h
    · cases h
      rfl
    · split at h
      · cases h
        rfl
      · split at h
        · cases h
          rfl
        · split at h
          · cases h
            rfl
          · split at h
            · cases h
              rfl
            · split at h
              · cases h
                rfl
              · unfold replayApply at h
                split at h
                · cases h
                  rfl
                · cases h

theorem Stops.degraded {limits : Limits} {replay stopped : Replay}
    {records : List JournalRecord} (h : Stops limits replay records stopped) :
    stopped.report.health = .degraded := by
  induction h with
  | here records hrecord => exact replayRecord_degraded hrecord
  | later hrecord hrest ih => exact ih

/-- The replay after further mutations: nothing is pending. -/
def Replay.caughtUp (replay : Replay) (image : StateImage) (count : Nat) : Replay where
  image := image
  report := { replay.report with
    recordsApplied := replay.report.recordsApplied + count }
  expectedSequence := image.lastSequence + 1
  pending := ∅

/-- The replay stands between two commits. -/
structure Settled (replay : Replay) : Prop where
  pending : replay.pending = ∅
  expected : replay.expectedSequence = replay.image.lastSequence + 1

theorem settled_caughtUp (replay : Replay) (image : StateImage) (count : Nat) :
    Settled (Replay.caughtUp replay image count) :=
  ⟨rfl, rfl⟩

/-- The payload of one mutation that waits for its commit. -/
def onePending (sequence : UInt64) (mutation : Mutation) : Std.ExtTreeMap UInt64 Bytes :=
  (∅ : Std.ExtTreeMap UInt64 Bytes).insert sequence (encodeMutation mutation)

theorem erase_onePending (sequence : UInt64) (mutation : Mutation) :
    (onePending sequence mutation).erase sequence = ∅ := by
  apply Std.ExtTreeMap.ext_getElem?
  intro other
  rw [onePending, Std.ExtTreeMap.getElem?_erase, Std.ExtTreeMap.getElem?_insert]
  split <;> simp

theorem getElem?_onePending (sequence : UInt64) (mutation : Mutation) :
    (onePending sequence mutation)[sequence]? = some (encodeMutation mutation) := by
  simp [onePending]

theorem replayRecord_pendingRecord {limits : Limits} {replay : Replay}
    (hsettled : Settled replay) (mutation : Mutation) :
    replayRecord limits replay (pendingRecord replay.expectedSequence mutation) =
      .ok { replay with pending := onePending replay.expectedSequence mutation } := by
  simp only [replayRecord, replayPending, pendingRecord, hsettled.pending]
  rw [if_neg (by simp), if_neg (by simp)]
  rfl

theorem stops_two_pending {limits : Limits} {replay : Replay} (hsettled : Settled replay)
    (first second : Mutation) (rest : List JournalRecord) :
    ∃ stopped, Stops limits replay
      (pendingRecord replay.expectedSequence first ::
        pendingRecord replay.expectedSequence second :: rest) stopped := by
  have hheld : (onePending replay.expectedSequence first).contains
      replay.expectedSequence = true := by
    simp [onePending]
  obtain ⟨stopped, hstopped⟩ : ∃ stopped, replayRecord limits
      { replay with pending := onePending replay.expectedSequence first }
      (pendingRecord replay.expectedSequence second) = .error stopped := by
    simp only [replayRecord, replayPending, pendingRecord, hheld, if_true]
    rw [if_neg (by simp)]
    exact ⟨_, rfl⟩
  exact ⟨stopped, .later (replayRecord_pendingRecord hsettled first) (.here rest hstopped)⟩

theorem runs_commit {limits : Limits} {replay : Replay} {next : StateImage}
    {mutation : Mutation} (hsettled : Settled replay) (hcarried : Carried limits mutation)
    (happly : applyMutation replay.image mutation true = (.ok (), next)) :
    Runs limits replay
      [pendingRecord replay.expectedSequence mutation,
        commitRecord replay.expectedSequence mutation]
      (Replay.caughtUp replay
        { next with lastSequence := replay.image.lastSequence + 1 } 1) := by
  have hreplay : applyMutation replay.image (withoutSystem mutation) true = (.ok (), next) :=
    applyMutation_replay happly
  refine .cons (replayRecord_pendingRecord hsettled mutation) (.cons ?_ (.nil _))
  have hdigest : encodeMutation (withoutSystem mutation) = encodeMutation mutation := rfl
  have hdecode : decodeMutation (encodeMutation mutation) limits =
      .ok (withoutSystem mutation) := hcarried
  simp only [replayRecord, replayCommit, commitRecord,
    decodeCommitPayload_encodeCommitPayload, getElem?_onePending, hdecode, hdigest, ne_eq,
    not_true_eq_false, if_false, replayApply, hreplay, erase_onePending,
    Replay.caughtUp, ← hsettled.expected]

theorem runs_commitRecords {limits : Limits} {replay : Replay} {image : StateImage}
    {mutations : List Mutation} (hsettled : Settled replay)
    (hcarried : ∀ mutation ∈ mutations, Carried limits mutation)
    (hplay : playback replay.image mutations = .ok image) :
    Runs limits replay (commitRecords replay.expectedSequence mutations)
      (Replay.caughtUp replay image mutations.length) := by
  induction mutations generalizing replay with
  | nil =>
      cases hplay
      obtain ⟨hpending, hexpected⟩ := hsettled
      cases replay
      simp only at hpending hexpected
      subst hpending hexpected
      exact .nil _
  | cons mutation mutations ih =>
      rw [playback_cons] at hplay
      cases hone : playOne replay.image mutation with
      | error e =>
          rw [hone] at hplay
          cases hplay
      | ok next =>
          rw [hone] at hplay
          obtain ⟨applied, happly, rfl⟩ := playOne_eq_ok_iff.mp hone
          have hfirst := runs_commit hsettled (hcarried mutation (by simp)) happly
          have hrest := ih (settled_caughtUp replay
            { applied with lastSequence := replay.image.lastSequence + 1 } 1)
            (fun m hm => hcarried m (by simp [hm])) hplay
          have hlength : replay.report.recordsApplied + 1 + mutations.length =
              replay.report.recordsApplied + (mutation :: mutations).length := by
            simp only [List.length_cons]
            omega
          have hnext : (Replay.caughtUp replay
              { applied with lastSequence := replay.image.lastSequence + 1 }
              1).expectedSequence = replay.expectedSequence + 1 := by
            rw [hsettled.expected]
            rfl
          rw [hnext] at hrest
          simp only [Replay.caughtUp, hlength] at hfirst hrest ⊢
          exact hfirst.append hrest

/-- The replay that has scanned further records. -/
def Replay.seen (replay : Replay) (count : Nat) : Replay :=
  { replay with report := { replay.report with
      recordsScanned := replay.report.recordsScanned + count } }

theorem replayRecord_seen (limits : Limits) (replay : Replay) (record : JournalRecord)
    (count : Nat) :
    replayRecord limits (Replay.seen replay count) record =
      match replayRecord limits replay record with
      | .error stopped => .error (Replay.seen stopped count)
      | .ok next => .ok (Replay.seen next count) := by
  unfold replayRecord
  cases record.kind with
  | pending =>
      by_cases hlow : record.sequence < replay.expectedSequence
      · simp only [replayPending, Replay.seen, hlow, if_true]
        rfl
      · by_cases hheld : replay.pending.contains record.sequence = true
        · simp only [replayPending, Replay.seen, hlow, hheld, if_true, if_false]
          rfl
        · simp only [replayPending, Replay.seen, hlow, hheld, if_false, Bool.false_eq_true]
  | commit =>
      simp only [replayCommit, Replay.seen]
      cases decodeCommitPayload record.payload with
      | error e => rfl
      | ok named =>
          obtain ⟨sequence, digest⟩ := named
          by_cases hnamed : sequence ≠ record.sequence
          · simp only [if_pos hnamed]
            rfl
          · simp only [if_neg hnamed]
            cases replay.pending[sequence]? with
            | none => rfl
            | some payload =>
                cases hdecode : decodeMutation payload limits with
                | error e =>
                    simp only [hdecode]
                    rfl
                | ok mutation =>
                    simp only [hdecode]
                    by_cases hnext : sequence ≠ replay.expectedSequence
                    · simp only [hnext, if_true, ne_eq, not_false_eq_true]
                      rfl
                    · simp only [hnext, if_false]
                      by_cases hhash : Sha256.hash (encodeMutation mutation) ≠ digest
                      · simp only [if_pos hhash]
                        rfl
                      · simp only [if_neg hhash, replayApply]
                        obtain ⟨status, image⟩ := applyMutation replay.image mutation true
                        cases status <;> rfl

theorem Runs.seen {limits : Limits} {replay last : Replay} {records : List JournalRecord}
    (h : Runs limits replay records last) (count : Nat) :
    Runs limits (Replay.seen replay count) records (Replay.seen last count) := by
  induction h with
  | nil replay => exact .nil _
  | cons hrecord hrest ih =>
      refine .cons ?_ ih
      rw [replayRecord_seen, hrecord]

theorem Stops.seen {limits : Limits} {replay stopped : Replay}
    {records : List JournalRecord} (h : Stops limits replay records stopped) (count : Nat) :
    Stops limits (Replay.seen replay count) records (Replay.seen stopped count) := by
  induction h with
  | here records hrecord =>
      refine .here records ?_
      rw [replayRecord_seen, hrecord]
  | later hrecord hrest ih =>
      refine .later ?_ ih
      rw [replayRecord_seen, hrecord]

theorem Replay.seen_seen (replay : Replay) (m n : Nat) :
    Replay.seen (Replay.seen replay m) n = Replay.seen replay (m + n) := by
  simp only [Replay.seen, Nat.add_assoc]

/-- The files of consecutive segments hold the given records. -/
def SegmentFiles (dir : Directory) (key : Bytes) (first : Nat)
    (segments : List (List JournalRecord)) : Prop :=
  ∀ i records, segments[i]? = some records →
    dir[journalSegmentName (first + i)]? = some (journalBytes key records)

/-- The records of a segment, and `tail` further bytes, are within what a scan
reads. -/
structure SegmentFits (limits : Limits) (key : Bytes) (records : List JournalRecord)
    (tail : Nat) : Prop where
  payloads : PayloadsFit limits records
  bytes : (journalBytes key records).length + tail ≤ limits.maxStateBytes
  count : records.length < maxRecordsPerSegment

theorem scanJournalSegment_eq_ok {dir : Directory} {limits : Limits} {name key tail : Bytes}
    {records : List JournalRecord} (hkey : key ≠ [])
    (hfile : dir[name]? = some (journalBytes key records ++ tail))
    (hfits : SegmentFits limits key records tail.length)
    (htail : TornTail key limits tail) :
    scanJournalSegment dir name key limits = .ok (scanned records tail.length) := by
  have hlength : (journalBytes key records ++ tail).length ≤ limits.maxStateBytes := by
    rw [List.length_append]
    exact hfits.bytes
  simp only [scanJournalSegment, bind_eq_ok, failIf_eq_ok, exists_const, pure, Except.pure,
    Except.ok.injEq]
  exact ⟨hkey, _, readFile_eq_ok hfile hlength,
    scanLoop_scanned hfits.payloads htail hfits.count⟩

@[simp] theorem scanned_records (records : List JournalRecord) (tail : Nat) :
    (scanned records tail).records = records := rfl

@[simp] theorem scanned_trailingBytes (records : List JournalRecord) (tail : Nat) :
    (scanned records tail).trailingBytes = tail := rfl

theorem account_scanned (replay : Replay) (records : List JournalRecord) (tail : Nat) :
    replay.account (scanned records tail) = Replay.seen replay records.length := by
  simp [Replay.account, scanned, Replay.seen]

theorem SegmentFiles.tail {dir : Directory} {key : Bytes} {first : Nat}
    {records : List JournalRecord} {segments : List (List JournalRecord)}
    (h : SegmentFiles dir key first (records :: segments)) :
    SegmentFiles dir key (first + 1) segments := by
  intro i found hfound
  have hnext := h (i + 1) found (by simpa using hfound)
  rwa [Nat.add_comm i 1, ← Nat.add_assoc] at hnext

theorem not_degraded_seen {replay : Replay} (h : replay.report.health = .healthy)
    (count : Nat) : ¬ (Replay.seen replay count).report.health = .degraded := by
  intro hdegraded
  change replay.report.health = .degraded at hdegraded
  rw [h] at hdegraded
  cases hdegraded

theorem replaySegments_files {dir : Directory} {limits : Limits} {key : Bytes}
    (hkey : key ≠ []) {segments : List (List JournalRecord)} {first : Nat}
    {replay last : Replay} (hfiles : SegmentFiles dir key first segments)
    (hfits : ∀ records ∈ segments, SegmentFits limits key records 0)
    (hhealth : replay.report.health = .healthy)
    (hrun : Runs limits replay segments.flatten last) (rest : List Nat) :
    replaySegments limits key (List.range' first segments.length ++ rest) dir replay =
      replaySegments limits key rest dir (Replay.seen last segments.flatten.length) := by
  induction segments generalizing first replay last with
  | nil =>
      cases hrun
      simp [Replay.seen]
  | cons records segments ih =>
      rw [List.flatten_cons] at hrun
      obtain ⟨middle, hrecords, hsegments⟩ := hrun.split
      have hfile : dir[journalSegmentName first]? = some (journalBytes key records ++ []) := by
        rw [List.append_nil]
        exact hfiles 0 records rfl
      have hscan := scanJournalSegment_eq_ok hkey hfile (hfits records (by simp))
        (tornTail_nil key limits)
      have hmiddle : middle.report.health = .healthy := by rw [hrecords.health, hhealth]
      have hdegraded := not_degraded_seen hmiddle records.length
      have hcontinue := ih hfiles.tail (fun r hr => hfits r (by simp [hr]))
        (show (Replay.seen middle records.length).report.health = .healthy from hmiddle)
        (hsegments.seen records.length)
      rw [List.length_cons, List.range'_succ, List.cons_append, replaySegments]
      simp only [hscan, bind, Except.bind, account_scanned, scanned_records,
        scanned_trailingBytes, (hrecords.seen records.length).replayRecords_eq, hdegraded,
        if_false, List.length_nil, gt_iff_lt, Nat.lt_irrefl]
      rw [hcontinue, Replay.seen_seen, List.flatten_cons, List.length_append]

theorem replaySegments_stops {dir : Directory} {limits : Limits} {key : Bytes}
    (hkey : key ≠ []) {segments : List (List JournalRecord)} {first : Nat}
    {replay stopped : Replay} (hfiles : SegmentFiles dir key first segments)
    (hfits : ∀ records ∈ segments, SegmentFits limits key records 0)
    (hhealth : replay.report.health = .healthy)
    (hstops : Stops limits replay segments.flatten stopped) (rest : List Nat) :
    ∃ count, replaySegments limits key (List.range' first segments.length ++ rest) dir replay =
      .ok (dir, Replay.seen stopped count) := by
  induction segments generalizing first replay stopped with
  | nil => cases hstops
  | cons records segments ih =>
      rw [List.flatten_cons] at hstops
      have hfile : dir[journalSegmentName first]? = some (journalBytes key records ++ []) := by
        rw [List.append_nil]
        exact hfiles 0 records rfl
      have hscan := scanJournalSegment_eq_ok hkey hfile (hfits records (by simp))
        (tornTail_nil key limits)
      rw [List.length_cons, List.range'_succ, List.cons_append, replaySegments]
      rcases hstops.split with hhere | ⟨middle, hrecords, hlater⟩
      · have hdegraded : (Replay.seen stopped records.length).report.health = .degraded :=
          hhere.degraded
        simp only [hscan, bind, Except.bind, account_scanned, scanned_records,
          (hhere.seen records.length).replayRecords_eq, hdegraded, if_true]
        exact ⟨_, rfl⟩
      · have hmiddle : middle.report.health = .healthy := by rw [hrecords.health, hhealth]
        have hdegraded := not_degraded_seen hmiddle records.length
        obtain ⟨count, hcontinue⟩ := ih hfiles.tail (fun r hr => hfits r (by simp [hr]))
          (show (Replay.seen middle records.length).report.health = .healthy from hmiddle)
          (hlater.seen records.length)
        simp only [hscan, bind, Except.bind, account_scanned, scanned_records,
          scanned_trailingBytes, (hrecords.seen records.length).replayRecords_eq, hdegraded,
          if_false, List.length_nil, gt_iff_lt, Nat.lt_irrefl]
        rw [hcontinue, Replay.seen_seen]
        exact ⟨_, rfl⟩

def Replay.cut (replay : Replay) (count : Nat) : Replay :=
  { replay with report := { replay.report with
      unfinishedAttempts := replay.report.unfinishedAttempts + count
      trailingBytesDiscarded := replay.report.trailingBytesDiscarded + count } }

theorem replaySegments_torn {dir : Directory} {limits : Limits} {key tail : Bytes}
    (hkey : key ≠ []) {records : List JournalRecord} {index : Nat} {replay last : Replay}
    (hfile : dir[journalSegmentName index]? = some (journalBytes key records ++ tail))
    (hfits : SegmentFits limits key records tail.length)
    (htail : TornTail key limits tail) (hne : tail ≠ [])
    (hhealth : replay.report.health = .healthy)
    (hrun : Runs limits replay records last) :
    replaySegments limits key [index] dir replay =
      .ok (dir.insert (journalSegmentName index) (journalBytes key records),
        Replay.cut (Replay.seen last records.length) tail.length) := by
  have hscan := scanJournalSegment_eq_ok hkey hfile hfits htail
  have hlast : last.report.health = .healthy := by rw [hrun.health, hhealth]
  have hdegraded := not_degraded_seen hlast records.length
  have hpositive : 0 < tail.length := List.length_pos_iff.mpr hne
  have hcut : truncateTail dir (journalSegmentName index) tail.length =
      dir.insert (journalSegmentName index) (journalBytes key records) := by
    have hcontent : dir.getD (journalSegmentName index) [] =
        journalBytes key records ++ tail := by
      rw [Std.ExtTreeMap.getD_eq_getD_getElem?, hfile]
      rfl
    simp only [truncateTail, hcontent, List.length_append, Nat.add_sub_cancel,
      List.take_left']
  rw [replaySegments]
  simp only [hscan, bind, Except.bind, account_scanned, scanned_records,
    scanned_trailingBytes, (hrun.seen records.length).replayRecords_eq, hdegraded,
    if_false, gt_iff_lt, hpositive, if_true, List.isEmpty_nil, hcut]
  rfl

end PriorityFabric.Replaying
