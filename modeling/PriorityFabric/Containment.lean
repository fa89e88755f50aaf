import PriorityFabric.Crashes

/-!
Writes that fail while the store goes on.

A commit whose first write fails returns before it touches the image, and the store takes
further commits.  They are recovered if the failed write left nothing behind; a commit whose
second write fails has changed the image already.
-/

namespace PriorityFabric.Containment

open PriorityFabric.Lib.LittleEndian
open PriorityFabric.Basics
open PriorityFabric.Ident
open PriorityFabric.Model
open PriorityFabric.State
open PriorityFabric.StateCodec
open PriorityFabric.Validate
open PriorityFabric.Apply
open PriorityFabric.ApplyFacts
open PriorityFabric.Durability
open PriorityFabric.JournalScan
open PriorityFabric.Store
open PriorityFabric.Readable
open PriorityFabric.StoreFiles
open PriorityFabric.Replaying
open PriorityFabric.StateDirectory
open PriorityFabric.Committing
open PriorityFabric.Serving
open PriorityFabric.Unfinished
open PriorityFabric.Reopening
open PriorityFabric.CommitRuns
open PriorityFabric.Crashes

/-- The bytes of a record that a failed write leaves in the segment. -/
def leftover (record : Bytes) : WriteOutcome → Bytes
  | .complete | .unflushed => record
  | .short written => record.take written

theorem appendRecord_failed {store : DurableStore} {write : WriteOutcome}
    (hopen : store.segmentOpen = true) (hfails : write ≠ .complete) (dir : Directory)
    (record : Bytes) :
    ∃ e, appendRecord dir store record write =
      (.error e, appendBytes dir store (leftover record write), store) := by
  cases write with
  | complete => exact absurd rfl hfails
  | short written => exact ⟨_, appendRecord_short hopen dir record written⟩
  | unflushed =>
      simp only [appendRecord, hopen, Bool.true_eq_false, if_false]
      exact ⟨_, rfl⟩

theorem complete_of_appendRecord {dir dir' : Directory} {store store' : DurableStore}
    {record : Bytes} {write : WriteOutcome}
    (h : appendRecord dir store record write = (.ok (), dir', store')) : write = .complete := by
  unfold appendRecord at h
  split at h
  · cases h
  · cases write with
    | complete => rfl
    | short written => cases h
    | unflushed => cases h

/-- A commit that fails in its first write. -/
inductive FirstFailed (s : StoreState) (mutation : Mutation) (write : WriteOutcome) :
    StoreState → Prop
  | untouched (hnot : ∀ planned rolled, ¬ Journaled s mutation planned rolled) :
      FirstFailed s mutation write s
  | begun {rolled : StoreState}
      (h : Journaled s mutation (planOf s.live mutation) rolled) :
      FirstFailed s mutation write
        { rolled with
          dir := appendBytes rolled.dir rolled.store
            (leftover (encodeJournalRecord (pendingRecord rolled.store.nextSequence
              (planOf s.live mutation)) rolled.store.key) write) }

theorem firstFailed_commitWriting {s : StoreState} (hopen : s.store.segmentOpen = true)
    (mutation : Mutation) {write : WriteOutcome} (hfails : write ≠ .complete)
    (commitWrite : WriteOutcome) :
    ∃ e t, commitWriting s mutation write commitWrite = (.error e, t) ∧
      FirstFailed s mutation write t := by
  unfold commitWriting
  cases hplan : planCommit s.store s.live mutation with
  | error e =>
      refine ⟨e, s, rfl, .untouched fun planned rolled h => ?_⟩
      rw [planCommit_eq_ok_iff.mpr h.plan] at hplan
      cases hplan
  | ok planned =>
      have hplanned := planCommit_eq_ok_iff.mp hplan
      obtain rfl : planned = planOf s.live mutation := hplanned.planned_eq
      cases hroll : rollSegmentIfNeeded s.dir s.store with
      | error e =>
          refine ⟨e, s, rfl, .untouched fun planned rolled h => ?_⟩
          rw [h.roll] at hroll
          cases hroll
      | ok rolled =>
          obtain ⟨dir, store⟩ := rolled
          have hstore : store.segmentOpen = true :=
            (rollSegmentIfNeeded_same hroll).segmentOpen hopen
          obtain ⟨e, hwrite⟩ := appendRecord_failed hstore hfails dir
            (encodeJournalRecord (pendingRecord store.nextSequence (planOf s.live mutation))
              store.key)
          refine ⟨e, _, ?_, @FirstFailed.begun s mutation write { s with dir, store }
            ⟨hplanned, hroll, rfl⟩⟩
          simp only [journalCommit, hwrite]

theorem FirstFailed.live {s t : StoreState} {mutation : Mutation} {write : WriteOutcome}
    (h : FirstFailed s mutation write t) : t.live = s.live := by
  cases h with
  | untouched hnot => rfl
  | begun hjournaled => exact hjournaled.live

theorem FirstFailed.opened {s t : StoreState} {mutation : Mutation} {write : WriteOutcome}
    (h : FirstFailed s mutation write t) (hopen : s.store.segmentOpen = true) :
    t.store.segmentOpen = true := by
  cases h with
  | untouched hnot => exact hopen
  | begun hjournaled => exact (rollSegmentIfNeeded_same hjournaled.roll).segmentOpen hopen

theorem FirstFailed.options {s t : StoreState} {mutation : Mutation} {write : WriteOutcome}
    (h : FirstFailed s mutation write t) : t.store.options = s.store.options := by
  cases h with
  | untouched hnot => rfl
  | begun hjournaled => exact (rollSegmentIfNeeded_same hjournaled.roll).options

/-- The mutation reaches its first write, and the whole record is left there. -/
def LeavesWhole (s : StoreState) (mutation : Mutation) (write : WriteOutcome) : Prop :=
  (∃ planned rolled, Journaled s mutation planned rolled) ∧
    ∀ written, write = .short written → pendingBytes s.live mutation ≤ written

/-- The mutation does not reach its first write, or nothing was written. -/
def LeavesNothing (s : StoreState) (mutation : Mutation) (write : WriteOutcome) : Prop :=
  (∀ planned rolled, ¬ Journaled s mutation planned rolled) ∨ write = .short 0

theorem leftover_whole {live : StateImage} {mutation : Mutation} {write : WriteOutcome}
    (hwhole : ∀ written, write = .short written → pendingBytes live mutation ≤ written)
    (sequence : UInt64) (key : Bytes) :
    leftover (encodeJournalRecord (pendingRecord sequence (planOf live mutation)) key) write =
      journalBytes key [pendingRecord sequence (planOf live mutation)] := by
  rw [journalBytes_singleton]
  cases write with
  | complete => rfl
  | unflushed => rfl
  | short written =>
      refine List.take_of_length_le ?_
      rw [length_encodeJournalRecord]
      exact hwhole written rfl

section Opening

variable {s t : StoreState} {ledger : Ledger} {served : List Mutation} {mutation : Mutation}
  {write : WriteOutcome}

/-- The directory opens healthy with the image of these mutations. -/
def OpensWith (s : StoreState) (base : StateImage) (mutations : List Mutation)
    (entropy : List.Vector UInt8 storeKeyBytes) : Prop :=
  ∃ opened, openStore s.dir s.store.options entropy = .ok opened ∧
    opened.report.health = .healthy ∧ playback base mutations = .ok opened.image

/-- The store has its mutations in the journal, and behind them a pending record without
its commit record. -/
def Stray (s : StoreState) (ledger : Ledger) (served : List Mutation) : Prop :=
  ∃ image left, playback ledger.base served = .ok image ∧ image.health = .healthy ∧
    Dangling s ledger image served.length left

theorem opensWith_of_serves (h : Serves s ledger served)
    (entropy : List.Vector UInt8 storeKeyBytes) : OpensWith s ledger.base served entropy := by
  obtain ⟨opened, hopen, hhealth, -, -, hplay, -⟩ := Serves.reopen h entropy
  exact ⟨opened, hopen, hhealth, hplay⟩

theorem opensWith_of_stray (h : Stray s ledger served)
    (entropy : List.Vector UInt8 storeKeyBytes) : OpensWith s ledger.base served entropy := by
  obtain ⟨image, left, hplay, hhealthy, hdangling⟩ := h
  obtain ⟨opened, hopen, hhealth, hstate, -⟩ := Dangling.reopen hdangling hhealthy entropy
  have himage : opened.image = image := congrArg StoreState.live hstate
  exact ⟨opened, hopen, hhealth, by rw [himage, hplay]⟩

/-- Whatever the first write left, the next opening goes back to what was acknowledged. -/
theorem FirstFailed.opensWith (h : Serves s ledger served)
    (hfailed : FirstFailed s mutation write t) (entropy : List.Vector UInt8 storeKeyBytes) :
    OpensWith t ledger.base served entropy := by
  cases hfailed with
  | untouched hnot => exact opensWith_of_serves h entropy
  | @begun rolled hjournaled =>
      obtain ⟨hoptions, -, -, -, -, -⟩ := rollSegmentIfNeeded_same hjournaled.roll
      unfold OpensWith
      simp only [hoptions]
      by_cases hwhole : ∀ written, write = .short written →
          pendingBytes s.live mutation ≤ written
      · rw [leftover_whole hwhole]
        obtain ⟨opened, hopen, hhealth, -, hplay, -⟩ := @opens_dangling _ _ _ _ _ [] h
          hjournaled (Nat.zero_le _) (tornTail_nil _ _) entropy
        rw [List.append_nil] at hopen
        exact ⟨opened, hopen, hhealth, hplay⟩
      · push Not at hwhole
        obtain ⟨written, rfl, hcount⟩ := hwhole
        obtain ⟨opened, hopen, hhealth, -, hplay, -⟩ :=
          opens_begun h hjournaled hcount entropy
        exact ⟨opened, hopen, hhealth, hplay⟩

/-- Behind a pending record without its commit, a torn record is cut off and a whole one
is rejected. -/
theorem FirstFailed.opensWith_stray_iff (h : Stray s ledger served)
    (hfailed : FirstFailed s mutation write t) (entropy : List.Vector UInt8 storeKeyBytes) :
    OpensWith t ledger.base served entropy ↔ ¬ LeavesWhole s mutation write := by
  cases hfailed with
  | untouched hnot =>
      refine iff_of_true (opensWith_of_stray h entropy) ?_
      rintro ⟨⟨planned, rolled, hjournaled⟩, -⟩
      exact hnot planned rolled hjournaled
  | @begun rolled hjournaled =>
      obtain ⟨image, left, hplay, hhealthy, hdangling⟩ := h
      obtain ⟨hoptions, -, -, -, -, -⟩ := rollSegmentIfNeeded_same hjournaled.roll
      by_cases hwhole : ∀ written, write = .short written →
          pendingBytes s.live mutation ≤ written
      · refine iff_of_false ?_ (not_not.mpr ⟨⟨_, _, hjournaled⟩, hwhole⟩)
        rw [leftover_whole hwhole]
        rintro ⟨opened, hopen, hhealth, -⟩
        obtain ⟨segments, hbroken⟩ := Dangling.stranded hdangling hjournaled rolled.live
        rw [Broken.reopen hbroken hopen] at hhealth
        cases hhealth
      · refine iff_of_true ?_ fun hleaves => hwhole hleaves.2
        push Not at hwhole
        obtain ⟨written, rfl, hcount⟩ := hwhole
        obtain ⟨front, records, hrolled, hcursor, hroom⟩ :=
          Dangling.rolled hdangling hjournaled
        have htail := tornTail_pending hcursor.admissible hjournaled hcount
        rw [pendingBytes, recordOverheadBytes] at hcount
        have hfits := hroom ((encodeJournalRecord (pendingRecord rolled.store.nextSequence
            (planOf s.live mutation)) rolled.store.key).take written).length (by
          rw [List.length_take]
          omega)
        obtain ⟨opened, hopen, hhealth, hstate, -⟩ :=
          Dangling.reopen_torn hrolled hhealthy hcursor hfits htail entropy
        have himage : opened.image = image := congrArg StoreState.live hstate
        exact ⟨opened, hopen, hhealth, by rw [himage, hplay]⟩

/-- A first write that left nothing leaves a store that serves what it served. -/
theorem FirstFailed.serves (h : Serves s ledger served)
    (hfailed : FirstFailed s mutation write t) (hnothing : LeavesNothing s mutation write) :
    ∃ segments, Serves t { ledger with segments } served := by
  cases hfailed with
  | untouched hnot => exact ⟨ledger.segments, h⟩
  | @begun rolled hjournaled =>
      obtain rfl : write = .short 0 := hnothing.resolve_left fun hnot => hnot _ _ hjournaled
      obtain ⟨front, records, hrolled, hcursor, -⟩ := Serves.rolled h hjournaled
      refine ⟨front ++ [records], ?_⟩
      rw [leftover, List.take_zero, Cursor.appendBytes_nil hcursor]
      exact hrolled

end Opening

/-- Every later commit settles and finds a token if it needs one. -/
def AllClear : StoreState → List Mutation → Prop
  | _, [] => True
  | s, mutation :: rest => Settles s mutation ∧
      (∀ planned rolled, Journaled s mutation planned rolled → TokenLeft s.live mutation) ∧
      AllClear (commit s mutation).2 rest

theorem serves_commitAll {s : StoreState} {ledger : Ledger} {served later : List Mutation}
    (h : Serves s ledger served) (hclear : AllClear s later) :
    ∃ segments, Serves (commitAll s later).2 { ledger with segments }
      (served ++ (commitAll s later).1) := by
  induction later generalizing s ledger served with
  | nil =>
      rw [commitAll, List.append_nil]
      exact ⟨ledger.segments, h⟩
  | cons mutation rest ih =>
      obtain ⟨hsettles, htoken, hrest⟩ := hclear
      rcases h.commit hsettles htoken with ⟨e, hcommit⟩ | ⟨next, segments, hcommit, hnext⟩
      · rw [hcommit] at hrest
        simp only [commitAll, hcommit]
        exact ih h hrest
      · rw [hcommit] at hrest
        obtain ⟨segments', hlast⟩ := ih hnext hrest
        rw [List.append_assoc, List.singleton_append] at hlast
        simp only [commitAll, hcommit]
        exact ⟨segments', hlast⟩

section Failed

variable {s : StoreState} {ledger : Ledger} {served : List Mutation} {mutation : Mutation}

/-- A failed write is contained: the commit returns an error and leaves the image as it was,
and the next opening is healthy with everything acknowledged, before and later. -/
def Contained (s : StoreState) (mutation : Mutation) (first second : WriteOutcome)
    (base : StateImage) (served later : List Mutation)
    (entropy : List.Vector UInt8 storeKeyBytes) : Prop :=
  (∃ e, (commitWriting s mutation first second).1 = .error e) ∧
    (commitWriting s mutation first second).2.live = s.live ∧
    OpensWith (commitAll (commitWriting s mutation first second).2 later).2 base
      (served ++ (commitAll (commitWriting s mutation first second).2 later).1) entropy

def GetsToCommit (s : StoreState) (mutation : Mutation) : Prop :=
  (∃ planned rolled, Journaled s mutation planned rolled) ∧
    ∃ live, applyMutation s.live (planOf s.live mutation) false = (.ok (), live)

theorem applyMutation_ne {image image' : StateImage} {mutation : Mutation} {replay : Bool}
    (h : applyMutation image mutation replay = (.ok (), image')) : image' ≠ image := by
  obtain ⟨expected, -, happlied⟩ := applyMutation_eq_ok_iff.mp h
  have hsequence : image'.nextAuditSequence = image.nextAuditSequence + 1 := by
    cases happlied with
    | repeated hrepeated => rfl
    | performed hfresh hperform =>
        cases perform_eq_ok hperform with
        | assign a result hop hadmitted => cases hadmitted <;> rfl
        | _ => rfl
  rintro rfl
  simp at hsequence

theorem live_of_second_failed (hopen : s.store.segmentOpen = true)
    (h : GetsToCommit s mutation) {second : WriteOutcome} (hfails : second ≠ .complete) :
    (commitWriting s mutation .complete second).2.live ≠ s.live := by
  obtain ⟨⟨planned, rolled, hjournaled⟩, live, happly⟩ := h
  obtain rfl : planned = planOf s.live mutation := hjournaled.plan.planned_eq
  obtain ⟨hplanned, hroll, hlive⟩ := hjournaled
  have hstore : rolled.store.segmentOpen = true :=
    (rollSegmentIfNeeded_same hroll).segmentOpen hopen
  have hgeneration : live.generation = (planOf s.live mutation).resultingGeneration :=
    generation_of_planned hplanned happly
  have hchanged : (commitWriting s mutation .complete second).2.live = live := by
    simp only [commitWriting, planCommit_eq_ok_iff.mpr hplanned, hroll, journalCommit,
      appendRecord_complete hstore, happly, hgeneration, ne_eq, not_true_eq_false, if_false]
    split
    · rfl
    · rename_i hwrite
      exact absurd (complete_of_appendRecord hwrite) hfails
  rw [hchanged]
  exact applyMutation_ne happly

theorem contained_of_stalls {first second : WriteOutcome} {later : List Mutation}
    {entropy : List.Vector UInt8 storeKeyBytes} {e : Status} {t : StoreState}
    {base : StateImage} (hopen : s.store.segmentOpen = true)
    (hcommit : commitWriting s mutation first second = (.error e, t))
    (hfailed : FirstFailed s mutation first t) (hstalls : Stalls t later) :
    Contained s mutation first second base served later entropy ↔
      OpensWith t base served entropy := by
  unfold Contained
  rw [hcommit, commitAll_stalls (hfailed.opened hopen) hstalls, List.append_nil]
  exact ⟨fun h => h.2.2, fun h => ⟨⟨e, rfl⟩, hfailed.live, h⟩⟩

end Failed

/-- The epoch before a commit and after it, its second write having failed. -/
def epochsAround (opened : Opened) : Bool × FabricEpoch × FabricEpoch :=
  let result := commitWriting (openedState opened) systemAdvance .complete (.short 0)
  (result.1.isOk, opened.image.epoch, result.2.live.epoch)

end PriorityFabric.Containment
