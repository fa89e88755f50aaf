import PriorityFabric.Serving

/-!
A journal that ends in a pending record without its commit record.

Replay passes over such a record, but the sequence number it carries is given out
again: once another commit is accepted, replay finds two pending records for one
sequence number and rejects the second.
-/

namespace PriorityFabric.Unfinished

open PriorityFabric.Lib.LittleEndian
open PriorityFabric.Basics
open PriorityFabric.Model
open PriorityFabric.State
open PriorityFabric.StateCodec
open PriorityFabric.Apply
open PriorityFabric.Durability
open PriorityFabric.JournalScan
open PriorityFabric.Store
open PriorityFabric.ApplyFacts
open PriorityFabric.Replaying
open PriorityFabric.StateDirectory
open PriorityFabric.Committing
open PriorityFabric.Serving

theorem journalBytes_singleton (key : Bytes) (record : JournalRecord) :
    journalBytes key [record] = encodeJournalRecord record key := by
  simp [journalBytes]

theorem length_journalBytes_pendingRecord (key : Bytes) (sequence : UInt64)
    (planned : Mutation) :
    (journalBytes key [pendingRecord sequence planned]).length =
      (encodeMutation planned).length + 40 := by
  rw [journalBytes_singleton, length_encodeJournalRecord]
  rfl

/-- A commit appends nothing, or its pending record and perhaps its commit record. -/
theorem Cursor.committed {s : StoreState} {ledger : Ledger}
    {front : List (List JournalRecord)} {records : List JournalRecord}
    (h : Cursor s ledger front records) (mutation : Mutation) :
    ∃ front' records' more, Cursor (commit s mutation).2
        { ledger with segments := front' ++ [records'] } front' records' ∧
      (front' ++ [records']).flatten = ledger.records ++ more ∧
      ((∃ planned rolled, Journaled s mutation planned rolled) →
        pendingRecord s.store.nextSequence (planOf s.live mutation) ∈ more.head?) := by
  have hcommitted := commit_committed h.opened mutation
  generalize commit s mutation = result at hcommitted
  cases hcommitted with
  | refused e hnot =>
      refine ⟨front, records, [], ?_, ?_, ?_⟩
      · rw [← h.last]
        exact h
      · rw [List.append_nil, Ledger.records, h.last]
      · rintro ⟨planned, rolled, hjournaled⟩
        exact absurd hjournaled (hnot planned rolled)
  | @stranded planned rolled live e hjournaled happly =>
      have hplanned : planned = planOf s.live mutation := hjournaled.plan.planned_eq
      obtain ⟨-, -, -, hsequence, -, -⟩ := rollSegmentIfNeeded_same hjournaled.roll
      obtain ⟨front', records', happended, hrecords, -⟩ := h.journaled hjournaled
        (show [pendingRecord s.store.nextSequence planned] <+: _ from ⟨_, rfl⟩) live
      rw [← hsequence, length_journalBytes_pendingRecord] at happended
      rw [hplanned] at hrecords
      exact ⟨front', records', _, { happended with }, hrecords, fun _ => rfl⟩
  | @accepted planned rolled live hjournaled happly =>
      have hplanned : planned = planOf s.live mutation := hjournaled.plan.planned_eq
      obtain ⟨-, -, -, hsequence, -, -⟩ := rollSegmentIfNeeded_same hjournaled.roll
      obtain ⟨front', records', happended, hrecords, -⟩ :=
        h.journaled hjournaled (List.prefix_refl _) live
      rw [← hsequence, length_journalBytes_recordsOf] at happended
      rw [hplanned] at hrecords
      exact ⟨front', records', _, { happended with }, hrecords, fun _ => rfl⟩

theorem commit_unjournaled {s : StoreState} {mutation : Mutation}
    (hopen : s.store.segmentOpen = true)
    (hnot : ∀ planned rolled, ¬ Journaled s mutation planned rolled) :
    ∃ e, commit s mutation = (.error e, s) := by
  have hcommitted := commit_committed hopen mutation
  generalize commit s mutation = result at hcommitted
  cases hcommitted with
  | refused e _ => exact ⟨e, rfl⟩
  | stranded e hjournaled _ => exact absurd hjournaled (hnot _ _)
  | accepted hjournaled _ => exact absurd hjournaled (hnot _ _)

theorem journaled_of_accepted {s : StoreState} {mutation : Mutation}
    (hopen : s.store.segmentOpen = true) (haccepted : (commit s mutation).1 = .ok ()) :
    ∃ planned rolled, Journaled s mutation planned rolled := by
  by_contra hnot
  obtain ⟨e, hcommit⟩ := commit_unjournaled hopen fun planned rolled hjournaled =>
    hnot ⟨planned, rolled, hjournaled⟩
  rw [hcommit] at haccepted
  cases haccepted

/-- The journal leads to the image, except that its last record is the pending record
of a mutation under the next sequence number. -/
structure Dangling (s : StoreState) (ledger : Ledger) (image : StateImage) (applied : Nat)
    (left : Mutation) : Prop where
  cursor : ∃ front records, Cursor s ledger front records
  runs : ∃ settled, Runs s.store.options.limits ledger.start settled
      (Replay.caughtUp ledger.start image applied) ∧
    ledger.records = settled ++ [pendingRecord s.store.nextSequence left]
  next : s.store.nextSequence = image.lastSequence + 1

/-- A mutation whose commit record was not written leaves its pending record. -/
theorem Serves.stranded {s rolled : StoreState} {ledger : Ledger} {mutations : List Mutation}
    {mutation planned : Mutation} {image : StateImage} (h : Serves s ledger mutations)
    (hplay : playback ledger.base mutations = .ok image)
    (hjournaled : Journaled s mutation planned rolled) (live : StateImage) :
    ∃ front records,
      Dangling (stranded rolled planned live) { ledger with segments := front ++ [records] }
        image mutations.length planned ∧
      Cursor (Committing.stranded rolled planned live)
        { ledger with segments := front ++ [records] } front records ∧
      ∀ tail, tail ≤ 80 →
        SegmentFits rolled.store.options.limits rolled.store.key records tail := by
  obtain ⟨front, records, hcursor⟩ := h.journal.cursor
  obtain ⟨hoptions, -, -, hsequence, -, -⟩ := rollSegmentIfNeeded_same hjournaled.roll
  obtain ⟨front', records', happended, hrecords, hroom⟩ := hcursor.journaled hjournaled
    (show [pendingRecord s.store.nextSequence planned] <+: _ from ⟨_, rfl⟩) live
  rw [← hsequence, length_journalBytes_pendingRecord] at happended
  have hcursor' : Cursor (Committing.stranded rolled planned live)
      { ledger with segments := front' ++ [records'] } front' records' :=
    { happended with }
  refine ⟨front', records', ?_, hcursor', ?_⟩
  · refine ⟨⟨front', records', hcursor'⟩, ⟨ledger.records, ?_, ?_⟩, ?_⟩
    · change Runs rolled.store.options.limits _ _ _
      rw [hoptions]
      exact h.journal.runs hplay
    · change _ = _ ++ [pendingRecord rolled.store.nextSequence planned]
      rw [hsequence]
      exact hrecords
    · change rolled.store.nextSequence = _
      rw [hsequence]
      exact h.journal.next_eq hplay
  · intro tail htail
    refine hroom tail ?_
    rw [length_journalBytes_pendingRecord]
    omega

theorem Dangling.runs_pending {s : StoreState} {ledger : Ledger} {image : StateImage}
    {applied : Nat} {left : Mutation} (h : Dangling s ledger image applied left) :
    Runs s.store.options.limits ledger.start ledger.records
      { Replay.caughtUp ledger.start image applied with
        pending := onePending (image.lastSequence + 1) left } := by
  obtain ⟨settled, hruns, hrecords⟩ := h.runs
  rw [hrecords, h.next]
  refine hruns.append (.cons ?_ (.nil _))
  exact replayRecord_pendingRecord (settled_caughtUp ledger.start image applied) left

theorem Dangling.replay {s : StoreState} {ledger : Ledger} {image : StateImage}
    {applied : Nat} {left : Mutation} (h : Dangling s ledger image applied left) :
    ∃ replayed, replay s.dir s.store.options s.store.key = .ok replayed ∧
      Recovered replayed s.dir image (ledger.manifest.snapshotPresent.toNat + applied) := by
  obtain ⟨front, records, hcursor⟩ := h.cursor
  refine ⟨_, replay_of_holds hcursor.holds h.runs_pending, ?_⟩
  exact recovered_concluded s.dir rfl

/-- The journal holds a record that replay rejects. -/
structure Broken (s : StoreState) (ledger : Ledger) : Prop where
  cursor : ∃ front records, Cursor s ledger front records
  stops : ∃ stopped, Stops s.store.options.limits ledger.start ledger.records stopped

theorem Stops.append {limits : Limits} {replay stopped : Replay}
    {records : List JournalRecord} (h : Stops limits replay records stopped)
    (more : List JournalRecord) : Stops limits replay (records ++ more) stopped := by
  induction h with
  | here records hrecord => exact .here (records ++ more) hrecord
  | later hrecord hrest ih => exact .later hrecord ih

/-- The next record that is written takes the sequence number of the pending one. -/
theorem Dangling.followed {s next : StoreState} {ledger : Ledger} {image : StateImage}
    {applied : Nat} {left planned : Mutation} {front : List (List JournalRecord)}
    {records more : List JournalRecord} (h : Dangling s ledger image applied left)
    (hnext : Cursor next { ledger with segments := front ++ [records] } front records)
    (hoptions : next.store.options = s.store.options)
    (hflat : (front ++ [records]).flatten = ledger.records ++ more)
    (hmore : pendingRecord s.store.nextSequence planned ∈ more.head?) :
    Broken next { ledger with segments := front ++ [records] } := by
  obtain ⟨settled, hruns, hrecords⟩ := h.runs
  obtain ⟨rest, rfl⟩ := List.head?_eq_some_iff.mp hmore
  refine ⟨⟨_, _, hnext⟩, ?_⟩
  obtain ⟨stopped, hstops⟩ := @stops_two_pending s.store.options.limits _
    (settled_caughtUp ledger.start image applied) left planned rest
  have hexpected : (Replay.caughtUp ledger.start image applied).expectedSequence =
      s.store.nextSequence := h.next.symm
  rw [hexpected] at hstops
  refine ⟨stopped, ?_⟩
  change Stops _ ledger.start (front ++ [records]).flatten stopped
  rw [hflat, hrecords, List.append_assoc, hoptions]
  exact Stops.of_runs hruns hstops

theorem Dangling.journaled {s : StoreState} {ledger : Ledger} {image : StateImage}
    {applied : Nat} {left mutation : Mutation} (h : Dangling s ledger image applied left)
    (hjournaled : ∃ planned rolled, Journaled s mutation planned rolled) :
    ∃ segments, Broken (commit s mutation).2 { ledger with segments } := by
  obtain ⟨front, records, hcursor⟩ := h.cursor
  obtain ⟨front', records', more, hnext, hflat, hmore⟩ :=
    Cursor.committed hcursor mutation
  exact ⟨_, h.followed hnext (commit_options s mutation) hflat (hmore hjournaled)⟩

theorem Dangling.stranded {s rolled : StoreState} {ledger : Ledger} {image : StateImage}
    {applied : Nat} {left mutation planned : Mutation}
    (h : Dangling s ledger image applied left)
    (hjournaled : Journaled s mutation planned rolled) (live : StateImage) :
    ∃ segments, Broken (stranded rolled planned live) { ledger with segments } := by
  obtain ⟨front, records, hcursor⟩ := h.cursor
  obtain ⟨hoptions, -, -, hsequence, -, -⟩ := rollSegmentIfNeeded_same hjournaled.roll
  obtain ⟨front', records', happended, hflat, -⟩ := hcursor.journaled hjournaled
    (show [pendingRecord s.store.nextSequence planned] <+: _ from ⟨_, rfl⟩) live
  rw [← hsequence, length_journalBytes_pendingRecord] at happended
  have hnext : Cursor (Committing.stranded rolled planned live)
      { ledger with segments := front' ++ [records'] } front' records' :=
    { happended with }
  exact ⟨_, h.followed hnext hoptions hflat rfl⟩

theorem Broken.committed {s : StoreState} {ledger : Ledger} (h : Broken s ledger)
    (mutation : Mutation) :
    ∃ segments, Broken (commit s mutation).2 { ledger with segments } := by
  obtain ⟨front, records, hcursor⟩ := h.cursor
  obtain ⟨stopped, hstops⟩ := h.stops
  obtain ⟨front', records', more, hnext, hflat, -⟩ := Cursor.committed hcursor mutation
  refine ⟨front' ++ [records'], ⟨_, _, hnext⟩, stopped, ?_⟩
  change Stops _ ledger.start (front' ++ [records']).flatten stopped
  rw [hflat, commit_options]
  exact Stops.append hstops more

theorem Broken.replay {s : StoreState} {ledger : Ledger} (h : Broken s ledger) :
    ∃ replayed, replay s.dir s.store.options s.store.key = .ok replayed ∧
      replayed.report.health = .degraded := by
  obtain ⟨front, records, hcursor⟩ := h.cursor
  obtain ⟨stopped, hstops⟩ := h.stops
  exact replay_of_holds_stops hcursor.holds hstops

end PriorityFabric.Unfinished
