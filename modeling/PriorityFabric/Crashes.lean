import PriorityFabric.CommitRuns
import PriorityFabric.Reopening

/-!
A crash in the middle of a commit.

The journal ends in the beginning of a record, which the next opening cuts off, or
in a pending record whose commit record is missing, which stays.  The sequence
number of such a record is given out again, so the first commit after the crash
makes the opening after it fail.
-/

namespace PriorityFabric.Crashes

open PriorityFabric.Lib.LittleEndian
open PriorityFabric.Basics
open PriorityFabric.Model
open PriorityFabric.State
open PriorityFabric.StateCodec
open PriorityFabric.Validate
open PriorityFabric.Apply
open PriorityFabric.Durability
open PriorityFabric.JournalScan
open PriorityFabric.Store
open PriorityFabric.Readable
open PriorityFabric.DerivedIndex
open PriorityFabric.ApplyFacts
open PriorityFabric.StoreFiles
open PriorityFabric.Replaying
open PriorityFabric.StateDirectory
open PriorityFabric.Committing
open PriorityFabric.Serving
open PriorityFabric.Unfinished
open PriorityFabric.Reopening
open PriorityFabric.CommitRuns

/-! ## Accepted commits -/

/-- Every mutation is accepted in the state it is handed to. -/
def AllAccepted : StoreState → List Mutation → Prop
  | _, [] => True
  | s, mutation :: rest => (commit s mutation).1 = .ok () ∧ AllAccepted (commit s mutation).2 rest

theorem commit_of_accepted {s : StoreState} {mutation : Mutation}
    (h : (commit s mutation).1 = .ok ()) :
    commit s mutation = (.ok (), (commit s mutation).2) :=
  Prod.ext h rfl

theorem commitAll_accepted {s : StoreState} {mutation : Mutation} {rest : List Mutation}
    (h : (commit s mutation).1 = .ok ()) :
    commitAll s (mutation :: rest) =
      (planOf s.live mutation :: (commitAll (commit s mutation).2 rest).1,
        (commitAll (commit s mutation).2 rest).2) := by
  rw [commitAll, commit_of_accepted h]

theorem commitAll_options (s : StoreState) (mutations : List Mutation) :
    (commitAll s mutations).2.store.options = s.store.options := by
  induction mutations generalizing s with
  | nil => rfl
  | cons mutation mutations ih =>
      have hstep := commit_options s mutation
      rw [commitAll]
      generalize commit s mutation = result at hstep ⊢
      obtain ⟨status, next⟩ := result
      cases status with
      | error e => exact (ih next).trans hstep
      | ok u => exact (ih next).trans hstep

theorem Serves.commitAll {s : StoreState} {ledger : Ledger}
    {acknowledged mutations : List Mutation} (h : Serves s ledger acknowledged)
    (haccepted : AllAccepted s mutations)
    (hfits : ∀ mutation ∈ mutations, RecordFits s.store.options.limits mutation) :
    ∃ segments, Serves (commitAll s mutations).2 { ledger with segments }
      (acknowledged ++ (commitAll s mutations).1) := by
  induction mutations generalizing s ledger acknowledged with
  | nil =>
      refine ⟨ledger.segments, ?_⟩
      rw [CommitRuns.commitAll, List.append_nil]
      exact h
  | cons mutation mutations ih =>
      obtain ⟨hfirst, hrest⟩ := haccepted
      obtain ⟨segments, hnext⟩ := h.accepted (commit_of_accepted hfirst)
        (hfits mutation (by simp))
      have hoptions := commit_options s mutation
      obtain ⟨segments', hlast⟩ := ih hnext hrest fun m hm => by
        rw [hoptions]
        exact hfits m (by simp [hm])
      refine ⟨segments', ?_⟩
      rw [commitAll_accepted hfirst]
      rw [List.append_assoc, List.singleton_append] at hlast
      exact hlast

/-! ## The crash -/

def pendingBytes (live : StateImage) (mutation : Mutation) : Nat :=
  (encodeMutation (planOf live mutation)).length + recordOverheadBytes

def commitBytes : Nat := 40 + recordOverheadBytes

/-- The directory left when a commit is cut off after `count` bytes of its records. -/
def interrupted (s : StoreState) (mutation : Mutation) (count : Nat) : Directory :=
  if count < pendingBytes s.live mutation then
    (commitWriting s mutation (.short count) .complete).2.dir
  else
    (commitWriting s mutation .complete
      (.short (count - pendingBytes s.live mutation))).2.dir

/-- The publisher check lets the mutation pass. -/
def Authorized (live : StateImage) (mutation : Mutation) : Prop :=
  mutation.system = false → checkAuthority live mutation = .ok ()

/-- The crash leaves a pending record that has no commit record: the mutation gets as
far as its first write, the pending record is complete and the commit record is not,
or is never written because the publisher check refuses the mutation. -/
structure LeavesPending (s : StoreState) (mutation : Mutation) (count : Nat) : Prop where
  journaled : ∃ planned rolled, Journaled s mutation planned rolled
  pending : pendingBytes s.live mutation ≤ count
  unfinished : count < pendingBytes s.live mutation + commitBytes ∨
    ¬ Authorized s.live mutation

/-- Everything a crash in a commit can leave. -/
inductive Interrupted (s : StoreState) (mutation : Mutation) (count : Nat) :
    Directory → Prop
  | untouched (h : ∀ planned rolled, ¬ Journaled s mutation planned rolled) :
      Interrupted s mutation count s.dir
  | begun {rolled : StoreState}
      (h : Journaled s mutation (planOf s.live mutation) rolled)
      (hcount : count < pendingBytes s.live mutation) :
      Interrupted s mutation count (appendBytes rolled.dir rolled.store
        ((encodeJournalRecord (pendingRecord rolled.store.nextSequence
          (planOf s.live mutation)) rolled.store.key).take count))
  | refused {rolled : StoreState} {live : StateImage} (e : Status)
      (h : Journaled s mutation (planOf s.live mutation) rolled)
      (hcount : pendingBytes s.live mutation ≤ count)
      (happly : applyMutation s.live (planOf s.live mutation) false = (.error e, live)) :
      Interrupted s mutation count (appendBytes rolled.dir rolled.store
        (journalBytes rolled.store.key
          [pendingRecord rolled.store.nextSequence (planOf s.live mutation)]))
  | written {rolled : StoreState} {live : StateImage}
      (h : Journaled s mutation (planOf s.live mutation) rolled)
      (hcount : pendingBytes s.live mutation ≤ count)
      (happly : applyMutation s.live (planOf s.live mutation) false = (.ok (), live)) :
      Interrupted s mutation count (appendBytes rolled.dir rolled.store
        (journalBytes rolled.store.key
            [pendingRecord rolled.store.nextSequence (planOf s.live mutation)] ++
          (encodeJournalRecord (commitRecord rolled.store.nextSequence
            (planOf s.live mutation)) rolled.store.key).take
              (count - pendingBytes s.live mutation)))

theorem appendRecord_short {store : DurableStore} (hopen : store.segmentOpen = true)
    (dir : Directory) (record : Bytes) (count : Nat) :
    appendRecord dir store record (.short count) =
      (.error (makeError .ioError (text "write failed")),
        appendBytes dir store (record.take count), store) := by
  simp only [appendRecord, hopen, Bool.true_eq_false, if_false]

theorem journalCommit_short_pending {s : StoreState} (hopen : s.store.segmentOpen = true)
    (planned : Mutation) (count : Nat) (commitWrite : WriteOutcome) :
    (journalCommit s planned (.short count) commitWrite).2.dir =
      appendBytes s.dir s.store
        ((encodeJournalRecord (pendingRecord s.store.nextSequence planned)
          s.store.key).take count) := by
  simp only [journalCommit, appendRecord_short hopen]

theorem journalCommit_refused {s : StoreState} {planned : Mutation} {live : StateImage}
    {e : Status} (hopen : s.store.segmentOpen = true)
    (happly : applyMutation s.live planned false = (.error e, live))
    (commitWrite : WriteOutcome) :
    (journalCommit s planned .complete commitWrite).2.dir =
      appendBytes s.dir s.store
        (journalBytes s.store.key [pendingRecord s.store.nextSequence planned]) := by
  simp only [journalCommit, appendRecord_complete hopen, happly, journalBytes_singleton]

theorem journalCommit_short_commit {s : StoreState} {planned : Mutation} {live : StateImage}
    (hopen : s.store.segmentOpen = true)
    (happly : applyMutation s.live planned false = (.ok (), live))
    (hgeneration : live.generation = planned.resultingGeneration) (count : Nat) :
    (journalCommit s planned .complete (.short count)).2.dir =
      appendBytes s.dir s.store
        (journalBytes s.store.key [pendingRecord s.store.nextSequence planned] ++
          (encodeJournalRecord (commitRecord s.store.nextSequence planned)
            s.store.key).take count) := by
  simp only [journalCommit, appendRecord_complete hopen, happly, hgeneration, ne_eq,
    not_true_eq_false, if_false, journalBytes_singleton]
  rw [appendRecord_short]
  · exact appendBytes_appendBytes _ rfl _ _
  · exact hopen

theorem interrupted_interrupted {s : StoreState} (hopen : s.store.segmentOpen = true)
    (mutation : Mutation) (count : Nat) :
    Interrupted s mutation count (interrupted s mutation count) := by
  unfold interrupted commitWriting
  cases hplan : planCommit s.store s.live mutation with
  | error e =>
      simp only [ite_self]
      refine .untouched fun planned rolled h => ?_
      rw [planCommit_eq_ok_iff.mpr h.plan] at hplan
      cases hplan
  | ok planned =>
      have hplanned := planCommit_eq_ok_iff.mp hplan
      have heq : planned = planOf s.live mutation := hplanned.planned_eq
      subst heq
      cases hroll : rollSegmentIfNeeded s.dir s.store with
      | error e =>
          simp only [ite_self]
          refine .untouched fun planned rolled h => ?_
          rw [h.roll] at hroll
          cases hroll
      | ok rolled =>
          obtain ⟨dir, store⟩ := rolled
          have hjournaled : Journaled s mutation (planOf s.live mutation)
              { s with dir, store } := ⟨hplanned, hroll, rfl⟩
          have hstore : store.segmentOpen = true :=
            (rollSegmentIfNeeded_same hroll).segmentOpen hopen
          simp only
          split
          · rename_i hcount
            rw [journalCommit_short_pending hstore]
            exact .begun hjournaled hcount
          · rename_i hcount
            rw [not_lt] at hcount
            obtain ⟨status, live, happly⟩ : ∃ status live,
                applyMutation s.live (planOf s.live mutation) false = (status, live) :=
              ⟨_, _, rfl⟩
            cases status with
            | error e =>
                rw [@journalCommit_refused { s with dir, store } _ live e hstore happly]
                exact .refused e hjournaled hcount happly
            | ok u =>
                rw [@journalCommit_short_commit { s with dir, store } _ live hstore happly
                  (generation_of_planned hplanned happly)]
                exact .written hjournaled hcount happly

/-! ## The first opening -/

/-- The mutation in flight survives, if at all, with its commit record complete. -/
def Survives (s : StoreState) (mutation : Mutation) (count : Nat)
    (survivors : List Mutation) : Prop :=
  survivors = [] ∨
    pendingBytes s.live mutation + commitBytes ≤ count ∧ survivors = [planOf s.live mutation]

theorem commit_eq_accepted {s rolled : StoreState} {mutation planned : Mutation}
    {live : StateImage} (hopen : s.store.segmentOpen = true)
    (hjournaled : Journaled s mutation planned rolled)
    (happly : applyMutation s.live planned false = (.ok (), live)) :
    commit s mutation = (.ok (), accepted rolled planned live) := by
  obtain ⟨hplanned, hroll, hlive⟩ := hjournaled
  obtain ⟨dir, store, live'⟩ := rolled
  subst hlive
  have hstore : store.segmentOpen = true :=
    (rollSegmentIfNeeded_same hroll).segmentOpen hopen
  unfold commit commitWriting
  simp only [planCommit_eq_ok_iff.mpr hplanned, hroll]
  exact @journalCommit_accepted { s with dir, store } _ _ hstore happly
    (generation_of_planned hplanned happly)

/-- Rolling leaves the cursor behind the same records, with room for a commit. -/
theorem Cursor.rolled {s rolled : StoreState} {ledger : Ledger}
    {front : List (List JournalRecord)} {records : List JournalRecord}
    {mutation planned : Mutation} (h : Cursor s ledger front records)
    (hjournaled : Journaled s mutation planned rolled) :
    ∃ front' records',
      Cursor rolled { ledger with segments := front' ++ [records'] } front' records' ∧
      (front' ++ [records']).flatten = ledger.records ∧
      ∀ tail, tail ≤ (encodeMutation planned).length + 40 + 80 →
        SegmentFits rolled.store.options.limits rolled.store.key records' tail := by
  obtain ⟨hoptions, -, hdurable, -, -, -⟩ := rollSegmentIfNeeded_same hjournaled.roll
  obtain ⟨front', records', hrolled, hrecords, hsmall⟩ := h.roll hjournaled.roll
  refine ⟨front', records', hrolled, hrecords, fun tail htail => ?_⟩
  have hroom : Room rolled.store ((journalBytes rolled.store.key []).length + tail) := by
    obtain ⟨hgrowth, hpart⟩ := room_of_planned h.admissible hjournaled.plan
      rolled.store.key s.store.nextSequence
    rw [length_journalBytes_recordsOf, ← hoptions] at hgrowth hpart
    rw [← hdurable] at hgrowth
    change Room rolled.store (0 + tail)
    exact ⟨by omega, by omega⟩
  have hfits := hrolled.fits hsmall (fun record hrecord => by cases hrecord)
    (Nat.zero_le _) hroom
  rwa [List.append_nil] at hfits

theorem Serves.rolled {s rolled : StoreState} {ledger : Ledger} {mutations : List Mutation}
    {mutation planned : Mutation} (h : Serves s ledger mutations)
    (hjournaled : Journaled s mutation planned rolled) :
    ∃ front records, Serves rolled { ledger with segments := front ++ [records] } mutations ∧
      Cursor rolled { ledger with segments := front ++ [records] } front records ∧
      ∀ tail, tail ≤ (encodeMutation planned).length + 40 + 80 →
        SegmentFits rolled.store.options.limits rolled.store.key records tail := by
  obtain ⟨front, records, hcursor⟩ := h.journal.cursor
  obtain ⟨hoptions, -, -, hsequence, hisOpen, -⟩ := rollSegmentIfNeeded_same hjournaled.roll
  obtain ⟨front', records', hrolled, hrecords, hroom⟩ := Cursor.rolled hcursor hjournaled
  refine ⟨front', records', ?_, hrolled, hroom⟩
  refine
    { journal :=
        { cursor := ⟨front', records', hrolled⟩
          opened := hisOpen.trans h.journal.opened
          records := hrecords.trans h.journal.records
          carried := ?_
          next := hsequence.trans h.journal.next }
      image := ?_
      counted := ?_
      limits := ?_
      healthy := ?_ }
  · rw [hoptions]
    exact h.journal.carried
  · rw [hjournaled.live]
    exact h.image
  · rw [hjournaled.live]
    exact h.counted
  · rw [hjournaled.live, hoptions]
    exact h.limits
  · rw [hjournaled.live]
    exact h.healthy

theorem Dangling.rolled {s rolled : StoreState} {ledger : Ledger} {image : StateImage}
    {applied : Nat} {left mutation planned : Mutation}
    (h : Dangling s ledger image applied left)
    (hjournaled : Journaled s mutation planned rolled) :
    ∃ front records,
      Dangling rolled { ledger with segments := front ++ [records] } image applied left ∧
      Cursor rolled { ledger with segments := front ++ [records] } front records ∧
      ∀ tail, tail ≤ (encodeMutation planned).length + 40 + 80 →
        SegmentFits rolled.store.options.limits rolled.store.key records tail := by
  obtain ⟨front, records, hcursor⟩ := h.cursor
  obtain ⟨settled, hruns, hleft⟩ := h.runs
  obtain ⟨hoptions, -, -, hsequence, -, -⟩ := rollSegmentIfNeeded_same hjournaled.roll
  obtain ⟨front', records', hrolled, hrecords, hroom⟩ := Cursor.rolled hcursor hjournaled
  refine ⟨front', records', ⟨⟨front', records', hrolled⟩, ⟨settled, ?_, ?_⟩, ?_⟩, hrolled,
    hroom⟩
  · rw [hoptions]
    exact hruns
  · rw [hsequence]
    exact hrecords.trans hleft
  · rw [hsequence]
    exact h.next

section FirstOpening

variable {s : StoreState} {ledger : Ledger} {acknowledged : List Mutation}
  {mutation : Mutation} {count : Nat}

/-- The crash came before the pending record was complete, or after the commit record
was: the journal goes on where it was. -/
def OpensClean (s : StoreState) (ledger : Ledger) (acknowledged : List Mutation)
    (mutation : Mutation) (count : Nat) (opened : Opened) : Prop :=
  ∃ segments survivors, Survives s mutation count survivors ∧
    Serves (openedState opened) { ledger with segments } (acknowledged ++ survivors)

/-- The crash came in between: the pending record stays in the journal. -/
def OpensDangling (s : StoreState) (ledger : Ledger) (acknowledged : List Mutation)
    (mutation : Mutation) (opened : Opened) : Prop :=
  ∃ segments image, playback ledger.base acknowledged = .ok image ∧
    image.health = .healthy ∧
    Dangling (openedState opened) { ledger with segments } image acknowledged.length
      (planOf s.live mutation)

theorem tornTail_pending {rolled : StoreState}
    (hadmissible : limitsWithinCompiledCeiling rolled.store.options.limits = true)
    (hjournaled : Journaled s mutation (planOf s.live mutation) rolled)
    (hcount : count < pendingBytes s.live mutation) :
    TornTail rolled.store.key rolled.store.options.limits
      ((encodeJournalRecord (pendingRecord rolled.store.nextSequence
        (planOf s.live mutation)) rolled.store.key).take count) := by
  obtain ⟨-, -, -, hpayload, -⟩ := limits_bounds_of_within hadmissible
  have hplanned : (encodeMutation (planOf s.live mutation)).length ≤
      rolled.store.options.limits.maxRecordPayload := by
    rw [(rollSegmentIfNeeded_same hjournaled.roll).options]
    exact hjournaled.plan.payload_le
  rw [pendingBytes, recordOverheadBytes] at hcount
  exact ⟨_, count, hplanned, by change (encodeMutation _).length < _; omega, hcount, rfl⟩

theorem opens_begun {rolled : StoreState} (h : Serves s ledger acknowledged)
    (hjournaled : Journaled s mutation (planOf s.live mutation) rolled)
    (hcount : count < pendingBytes s.live mutation)
    (entropy : List.Vector UInt8 storeKeyBytes) :
    ∃ opened, openStore (appendBytes rolled.dir rolled.store
        ((encodeJournalRecord (pendingRecord rolled.store.nextSequence
          (planOf s.live mutation)) rolled.store.key).take count)) s.store.options entropy =
        .ok opened ∧
      opened.report.health = .healthy ∧ opened.store.options = s.store.options ∧
      playback ledger.base acknowledged = .ok opened.image ∧
      (Measurable (withLock (appendBytes rolled.dir rolled.store
          ((encodeJournalRecord (pendingRecord rolled.store.nextSequence
            (planOf s.live mutation)) rolled.store.key).take count)) s.store.options)
          s.store.options.limits →
        OpensClean s ledger acknowledged mutation count opened) := by
  obtain ⟨front, records, hrolled, hcursor, hroom⟩ := Serves.rolled h hjournaled
  obtain ⟨hoptions, -, -, -, -, -⟩ := rollSegmentIfNeeded_same hjournaled.roll
  have htail := tornTail_pending hcursor.admissible hjournaled hcount
  rw [pendingBytes, recordOverheadBytes] at hcount
  have hfits := hroom ((encodeJournalRecord (pendingRecord rolled.store.nextSequence
      (planOf s.live mutation)) rolled.store.key).take count).length (by
    rw [List.length_take]
    omega)
  have hreopen := Serves.reopen_torn hrolled hcursor hfits htail entropy
  rw [hoptions] at hreopen
  obtain ⟨opened, hopen, hhealth, hopened, -, hplay, hserves⟩ := hreopen
  refine ⟨opened, hopen, hhealth, hopened, hplay, fun hmeasurable => ?_⟩
  rw [Cursor.measurable_appendBytes hcursor] at hmeasurable
  refine ⟨front ++ [records], [], .inl rfl, ?_⟩
  rw [List.append_nil]
  exact hserves hmeasurable

theorem opens_dangling {rolled : StoreState} {tail : Bytes}
    (h : Serves s ledger acknowledged)
    (hjournaled : Journaled s mutation (planOf s.live mutation) rolled)
    (hlength : tail.length ≤ 80)
    (htail : TornTail rolled.store.key rolled.store.options.limits tail)
    (entropy : List.Vector UInt8 storeKeyBytes) :
    ∃ opened, openStore (appendBytes rolled.dir rolled.store
        (journalBytes rolled.store.key
          [pendingRecord rolled.store.nextSequence (planOf s.live mutation)] ++ tail))
        s.store.options entropy = .ok opened ∧
      opened.report.health = .healthy ∧ opened.store.options = s.store.options ∧
      playback ledger.base acknowledged = .ok opened.image ∧
      (Measurable (withLock (appendBytes rolled.dir rolled.store
          (journalBytes rolled.store.key
            [pendingRecord rolled.store.nextSequence (planOf s.live mutation)] ++ tail))
          s.store.options) s.store.options.limits →
        OpensDangling s ledger acknowledged mutation opened) := by
  obtain ⟨image, hplay, -⟩ := h.image
  obtain ⟨hoptions, -, -, -, -, -⟩ := rollSegmentIfNeeded_same hjournaled.roll
  obtain ⟨front, records, hdangling, hcursor, hroom⟩ :=
    Serves.stranded h hplay hjournaled s.live
  have hhealth := (Serves.replayed h hplay).2.2
  have hreopen := Dangling.reopen_torn hdangling hhealth hcursor (hroom _ hlength) htail entropy
  have hdir : appendBytes (stranded rolled (planOf s.live mutation) s.live).dir
      (stranded rolled (planOf s.live mutation) s.live).store tail =
        appendBytes rolled.dir rolled.store (journalBytes rolled.store.key
          [pendingRecord rolled.store.nextSequence (planOf s.live mutation)] ++ tail) :=
    appendBytes_appendBytes _ rfl _ _
  have hstored : (stranded rolled (planOf s.live mutation) s.live).store.options =
      s.store.options := hoptions
  rw [hdir, hstored] at hreopen
  obtain ⟨opened, hopen, hreport, hstate, hleft⟩ := hreopen
  have himage : opened.image = image := congrArg StoreState.live hstate
  refine ⟨opened, hopen, hreport, congrArg (·.store.options) hstate, by rw [himage, hplay],
    fun hmeasurable => ?_⟩
  rw [← hdir, Cursor.measurable_appendBytes hcursor] at hmeasurable
  exact ⟨front ++ [records], image, hplay, hhealth, hleft hmeasurable⟩

/-- The opening after a crash succeeds, and what it finds depends on where the crash
came. -/
theorem opens_interrupted (h : Serves s ledger acknowledged)
    (hfits : pendingBytes s.live mutation + commitBytes ≤ count →
      RecordFits s.store.options.limits mutation) (htoken : TokenLeft s.live mutation)
    (hmeasurable : Measurable (withLock (interrupted s mutation count) s.store.options)
      s.store.options.limits) (entropy : List.Vector UInt8 storeKeyBytes) :
    ∃ opened, openStore (interrupted s mutation count) s.store.options entropy = .ok opened ∧
      opened.report.health = .healthy ∧ opened.store.options = s.store.options ∧
      (¬ LeavesPending s mutation count ∧
          OpensClean s ledger acknowledged mutation count opened ∨
        LeavesPending s mutation count ∧
          OpensDangling s ledger acknowledged mutation opened) := by
  obtain ⟨front, records, hcursor⟩ := h.journal.cursor
  have hcases := interrupted_interrupted hcursor.opened mutation count
  generalize interrupted s mutation count = dir at hcases hmeasurable ⊢
  cases hcases with
  | untouched hnot =>
      obtain ⟨opened, hopen, hhealth, hopened, -, -, hserves⟩ := Serves.reopen h entropy
      refine ⟨opened, hopen, hhealth, hopened, .inl ⟨?_, ledger.segments, [], .inl rfl, ?_⟩⟩
      · rintro ⟨⟨planned, rolled, hjournaled⟩, -, -⟩
        exact hnot planned rolled hjournaled
      · rw [List.append_nil]
        exact hserves hmeasurable
  | begun hjournaled hcount =>
      obtain ⟨opened, hopen, hhealth, hopened, -, hclean⟩ :=
        opens_begun h hjournaled hcount entropy
      refine ⟨opened, hopen, hhealth, hopened, .inl ⟨?_, hclean hmeasurable⟩⟩
      intro hleaves
      exact absurd hleaves.pending (not_le.mpr hcount)
  | @refused rolled live e hjournaled hcount happly =>
      have hrefused : ¬ Authorized s.live mutation := by
        intro hauthorized
        obtain ⟨live', hlive⟩ :=
          applyMutation_planned hjournaled.plan hauthorized h.counted htoken
        rw [hlive] at happly
        cases happly
      obtain ⟨opened, hopen, hhealth, hopened, -, hdangling⟩ := @opens_dangling _ _ _ _ _ []
        h hjournaled (Nat.zero_le _) (tornTail_nil _ _) entropy
      rw [List.append_nil] at hopen hdangling
      exact ⟨opened, hopen, hhealth, hopened, .inr ⟨⟨⟨_, _, hjournaled⟩, hcount,
        .inr hrefused⟩, hdangling hmeasurable⟩⟩
  | @written rolled live hjournaled hcount happly =>
      obtain ⟨-, -, -, hsequence, -, -⟩ := rollSegmentIfNeeded_same hjournaled.roll
      by_cases hunfinished : count < pendingBytes s.live mutation + commitBytes
      · -- The commit record was begun; the opening cuts it off.
        have hshort : count - pendingBytes s.live mutation < 40 + 40 := by
          simp only [commitBytes, recordOverheadBytes] at hunfinished
          omega
        have htail : TornTail rolled.store.key rolled.store.options.limits
            ((encodeJournalRecord (commitRecord rolled.store.nextSequence
              (planOf s.live mutation)) rolled.store.key).take
                (count - pendingBytes s.live mutation)) := by
          have hpayloads := payloadsFit_recordsOf hcursor.admissible hjournaled.plan
            rolled.store.nextSequence
            (commitRecord rolled.store.nextSequence (planOf s.live mutation))
            (by simp [recordsOf])
          obtain ⟨hoptions, -, -, -, -, -⟩ := rollSegmentIfNeeded_same hjournaled.roll
          rw [hoptions]
          refine ⟨_, _, hpayloads.1, hpayloads.2, ?_, rfl⟩
          rw [length_commitRecord]
          exact hshort
        obtain ⟨opened, hopen, hhealth, hopened, -, hdangling⟩ := opens_dangling h hjournaled
          (by rw [List.length_take]; omega) htail entropy
        exact ⟨opened, hopen, hhealth, hopened, .inr ⟨⟨⟨_, _, hjournaled⟩, hcount,
          .inl hunfinished⟩, hdangling hmeasurable⟩⟩
      · -- Both records are complete: the commit counts as made.
        have hcommit := commit_eq_accepted hcursor.opened hjournaled happly
        obtain ⟨segments, hserves⟩ := h.accepted hcommit (hfits (not_lt.mp hunfinished))
        have hwhole : (encodeJournalRecord (commitRecord rolled.store.nextSequence
            (planOf s.live mutation)) rolled.store.key).take
              (count - pendingBytes s.live mutation) =
            encodeJournalRecord (commitRecord rolled.store.nextSequence
              (planOf s.live mutation)) rolled.store.key := by
          refine List.take_of_length_le ?_
          rw [length_encodeJournalRecord, length_commitRecord]
          simp only [commitBytes, recordOverheadBytes] at hunfinished
          omega
        have hdir : appendBytes rolled.dir rolled.store
            (journalBytes rolled.store.key
                [pendingRecord rolled.store.nextSequence (planOf s.live mutation)] ++
              (encodeJournalRecord (commitRecord rolled.store.nextSequence
                (planOf s.live mutation)) rolled.store.key).take
                  (count - pendingBytes s.live mutation)) =
            (accepted rolled (planOf s.live mutation) live).dir := by
          rw [hwhole, ← journalBytes_singleton, ← journalBytes_append]
          rfl
        obtain ⟨hoptions, -, -, -, -, -⟩ := rollSegmentIfNeeded_same hjournaled.roll
        have hreopen := Serves.reopen hserves entropy
        have hstored : (accepted rolled (planOf s.live mutation) live).store.options =
            s.store.options := hoptions
        rw [hstored, ← hdir] at hreopen
        obtain ⟨opened, hopen, hhealth, hopened, -, -, hserved⟩ := hreopen
        refine ⟨opened, hopen, hhealth, hopened, .inl ⟨?_, segments,
          [planOf s.live mutation], .inr ⟨by omega, rfl⟩, hserved hmeasurable⟩⟩
        rintro ⟨-, -, hleft | hleft⟩
        · exact hunfinished hleft
        · obtain ⟨expected, hadmissible, -⟩ := applyMutation_eq_ok_iff.mp happly
          exact hleft fun hsystem => hadmissible.authorized rfl hsystem

end FirstOpening

/-! ## The second opening -/

/-- A store that was created in an empty place and has taken accepted commits only. -/
inductive Grown : StoreState → List Mutation → Prop
  | created {dir : Directory} {options : Options}
      {entropy : List.Vector UInt8 storeKeyBytes} {opened : Opened}
      (hfresh : dir.contains manifestName = false)
      (hopen : openStore dir options entropy = .ok opened) : Grown (openedState opened) []
  | committed {s next : StoreState} {acknowledged : List Mutation} {mutation : Mutation}
      (h : Grown s acknowledged) (hcommit : commit s mutation = (.ok (), next)) :
      Grown next (acknowledged ++ [planOf s.live mutation])

/-- After the crash, the first opening and further commits, the directory opens
healthy, with the image of the acknowledged mutations and possibly the one in
flight. -/
def Recovers (s : StoreState) (acknowledged : List Mutation) (inFlight : Mutation)
    (count : Nat) (first : Opened) (further : List Mutation)
    (entropy : List.Vector UInt8 storeKeyBytes) : Prop :=
  ∃ second survivors,
    openStore (commitAll (openedState first) further).2.dir s.store.options entropy =
      .ok second ∧
    second.report.health = .healthy ∧ Survives s inFlight count survivors ∧
    playback { limits := s.store.options.limits }
      (acknowledged ++ survivors ++ (commitAll (openedState first) further).1) =
        .ok second.image

theorem Grown.faithful {s : StoreState} {acknowledged : List Mutation}
    (h : Grown s acknowledged) (hsegments : 1 ≤ s.store.options.limits.maxJournalSegments)
    (hfits : ∀ mutation ∈ acknowledged, RecordFits s.store.options.limits mutation) :
    Faithful s acknowledged := by
  induction h with
  | @created dir options entropy opened hfresh hopen =>
      obtain ⟨hlimits, hcreate⟩ := createStore_of_openStore hfresh hopen
      have hoptions : opened.store.options = options := by
        simp only [createStore, bind_eq_ok, failIf_eq_ok, exists_const, pure, Except.pure,
          Except.ok.injEq] at hcreate
        obtain ⟨-, -, _, -, rfl⟩ := hcreate
        rfl
      change 1 ≤ opened.store.options.limits.maxJournalSegments at hsegments
      rw [hoptions] at hsegments
      exact faithful_openStore hfresh hopen hsegments
  | @committed s next acknowledged mutation h hcommit ih =>
      have hoptions := commit_options s mutation
      rw [hcommit] at hoptions
      change next.store.options = s.store.options at hoptions
      rw [hoptions] at hsegments hfits
      obtain ⟨segments, hserves⟩ := ih hsegments fun m hm => hfits m (by simp [hm])
      have hlast := hfits (planOf s.live mutation) (by simp)
      obtain ⟨segments', hnext⟩ := hserves.accepted hcommit ⟨hlast.ids, hlast.reason⟩
      refine ⟨segments', ?_⟩
      rw [hoptions]
      exact hnext

theorem not_stalls_of_accepted {s : StoreState} {mutation : Mutation}
    {rest : List Mutation} (hopen : s.store.segmentOpen = true)
    (haccepted : AllAccepted s (mutation :: rest)) : ¬ Stalls s (mutation :: rest) := by
  obtain ⟨planned, rolled, hjournaled⟩ := journaled_of_accepted hopen haccepted.1
  exact fun hstalls => hstalls mutation (by simp) planned rolled hjournaled

/-- The directory does not open healthy once a commit behind a dangling record has reached
its first write. -/
theorem Dangling.degraded {s : StoreState} {ledger : Ledger} {image : StateImage}
    {applied : Nat} {left : Mutation} {further : List Mutation} {opened : Opened}
    {entropy : List.Vector UInt8 storeKeyBytes} (h : Dangling s ledger image applied left)
    (hreaches : ¬ Stalls s further)
    (hopen : openStore (commitAll s further).2.dir s.store.options entropy = .ok opened) :
    opened.report.health = .degraded := by
  obtain ⟨segments, hbroken⟩ := CommitRuns.Dangling.commitAll h hreaches
  rw [← commitAll_options s further] at hopen
  exact Broken.reopen hbroken hopen

/-- After a crash in a commit, a first opening, further accepted commits and a second
opening, nothing is lost if and only if there were no further commits or the crash did
not leave a pending record without its commit record. -/
theorem crash_recovers_iff {s : StoreState} {acknowledged : List Mutation}
    (h : Grown s acknowledged) (hsegments : 1 ≤ s.store.options.limits.maxJournalSegments)
    (hfits : ∀ mutation ∈ acknowledged, RecordFits s.store.options.limits mutation)
    (inFlight : Mutation) (count : Nat)
    (hcarried : pendingBytes s.live inFlight + commitBytes ≤ count →
      RecordFits s.store.options.limits inFlight)
    (hmeasurable : Measurable (withLock (interrupted s inFlight count) s.store.options)
      s.store.options.limits) (entropy : List.Vector UInt8 storeKeyBytes) :
    ∃ first, openStore (interrupted s inFlight count) s.store.options entropy = .ok first ∧
      first.report.health = .healthy ∧
      ∀ further, AllAccepted (openedState first) further →
        (∀ mutation ∈ further, RecordFits s.store.options.limits mutation) →
        (Recovers s acknowledged inFlight count first further entropy ↔
          further = [] ∨ ¬ LeavesPending s inFlight count) := by
  have hfaithful := h.faithful hsegments hfits
  have htoken := hfaithful.tokenLeft inFlight
  obtain ⟨segments, hserves⟩ := hfaithful
  obtain ⟨first, hopen, hhealth, hoptions, hfirst⟩ := opens_interrupted hserves
    hcarried htoken hmeasurable entropy
  have hlimits (further : List Mutation) :
      (commitAll (openedState first) further).2.store.options = s.store.options :=
    (commitAll_options _ _).trans hoptions
  have hstored : (openedState first).store.options = s.store.options := hoptions
  refine ⟨first, hopen, hhealth, fun further haccepted hfurther => ?_⟩
  rcases hfirst with ⟨hclean, segments', survivors, hsurvivors, hserved⟩ |
    ⟨hleaves, segments', image, hplay, himage, hdangling⟩
  · refine iff_of_true ?_ (.inr hclean)
    rw [← hstored] at hfurther
    obtain ⟨segments₂, hlast⟩ := Serves.commitAll hserved haccepted hfurther
    obtain ⟨second, hsecond, hhealthy, -, -, hplay, -⟩ := Serves.reopen hlast entropy
    rw [hlimits] at hsecond
    exact ⟨second, survivors, hsecond, hhealthy, hsurvivors, hplay⟩
  · cases further with
    | nil =>
        refine iff_of_true ?_ (.inl rfl)
        obtain ⟨second, hsecond, hhealthy, hstate, -⟩ :=
          Dangling.reopen hdangling himage entropy
        rw [hstored] at hsecond
        have hsame : second.image = image := congrArg StoreState.live hstate
        refine ⟨second, [], hsecond, hhealthy, .inl rfl, ?_⟩
        rw [List.append_nil, commitAll, List.append_nil, hsame]
        exact hplay
    | cons mutation rest =>
        refine iff_of_false ?_ (by simp [hleaves])
        rintro ⟨second, survivors, hsecond, hhealthy, -⟩
        rw [← hstored] at hsecond
        obtain ⟨front, records, hcursor⟩ := hdangling.cursor
        rw [Dangling.degraded hdangling (not_stalls_of_accepted hcursor.opened haccepted)
          hsecond] at hhealthy
        cases hhealthy

theorem opens_begun_state {s rolled : StoreState} {ledger : Ledger}
    {acknowledged : List Mutation} {mutation : Mutation} {count : Nat} {image : StateImage}
    (h : Serves s ledger acknowledged) (hplay : playback ledger.base acknowledged = .ok image)
    (hjournaled : Journaled s mutation (planOf s.live mutation) rolled)
    (hcount : count < pendingBytes s.live mutation)
    (entropy : List.Vector UInt8 storeKeyBytes) :
    ∃ opened, openStore (appendBytes rolled.dir rolled.store
        ((encodeJournalRecord (pendingRecord rolled.store.nextSequence
          (planOf s.live mutation)) rolled.store.key).take count)) s.store.options entropy =
        .ok opened ∧
      openedState opened = resumed (withLock rolled.dir s.store.options) s.store.options
        rolled.store.key rolled.store.segmentIndex image := by
  obtain ⟨front, records, hrolled, hcursor, hroom⟩ := Serves.rolled h hjournaled
  obtain ⟨hoptions, -, -, -, -, -⟩ := rollSegmentIfNeeded_same hjournaled.roll
  have htail := tornTail_pending hcursor.admissible hjournaled hcount
  rw [pendingBytes, recordOverheadBytes] at hcount
  have hfits := hroom ((encodeJournalRecord (pendingRecord rolled.store.nextSequence
      (planOf s.live mutation)) rolled.store.key).take count).length (by
    rw [List.length_take]
    omega)
  obtain ⟨opened, hopen, -, hstate⟩ := Cursor.reopen hcursor (hrolled.journal.runs hplay)
    (Serves.replayed hrolled hplay).2.2 hfits htail entropy
  rw [hoptions] at hopen hstate
  refine ⟨opened, hopen, ?_⟩
  rw [hcursor.index]
  exact hstate

/-- A crash in the pending record of the first commit, and a commit after it. -/
theorem crash_recovers_begun :
    ∃ opened first, openStore ∅ creating zeroKey = .ok opened ∧
      openStore (interrupted (openedState opened) systemAdvance 10) creating zeroKey =
        .ok first ∧
      first.report.health = .healthy ∧ AllAccepted (openedState first) [systemAdvance] ∧
      Recovers (openedState opened) [] systemAdvance 10 first [systemAdvance] zeroKey := by
  obtain ⟨opened, hopen⟩ := openStore_empty
  have hoptions : (openedState opened).store.options = creating :=
    options_of_openStore_empty hopen
  obtain ⟨segments, hserves⟩ := faithful_openStore (by simp) hopen (by decide)
  obtain ⟨front, records, hcursor⟩ := hserves.journal.cursor
  obtain ⟨image, hplay, -⟩ := hserves.image
  have hlive : (openedState opened).live = image := by
    obtain ⟨hlimits, hcreate⟩ := createStore_of_openStore (by simp) hopen
    obtain ⟨-, himage, -⟩ := journal_createStore hlimits (by decide) hcreate
    cases hplay
    rw [hoptions]
    exact himage
  have hrun : (openStore ∅ creating zeroKey).toOption.map (fun opened =>
      let s := openedState opened
      let t := resumed (withLock s.dir creating) creating s.store.key s.store.segmentIndex
        s.live
      ((commit s systemAdvance).1.isOk, (commit t systemAdvance).1.isOk,
        s.store.segmentBytes, decide (10 < pendingBytes s.live systemAdvance))) =
      some (true, true, 0, true) := by decide
  rw [hopen] at hrun
  simp only [Except.toOption, Option.map_some, Option.some.injEq, Prod.mk.injEq,
    decide_eq_true_eq] at hrun
  obtain ⟨haccepts, hfurther, hempty, hcount⟩ := hrun
  have hok : (commit (openedState opened) systemAdvance).1 = .ok () := by
    generalize (commit (openedState opened) systemAdvance).1 = status at haccepts
    cases status with
    | error e => cases haccepts
    | ok u => rfl
  obtain ⟨planned, rolled, hjournaled⟩ := journaled_of_accepted hcursor.opened hok
  obtain rfl : planned = planOf (openedState opened).live systemAdvance :=
    hjournaled.plan.planned_eq
  have hrolled : (rolled.dir, rolled.store) =
      ((openedState opened).dir, (openedState opened).store) := by
    have hroll := hjournaled.roll
    rw [rollSegmentIfNeeded, if_pos (by rw [hempty]; decide)] at hroll
    exact (Except.ok.inj hroll).symm
  obtain ⟨hdir, hstore⟩ := Prod.mk.inj hrolled
  have hinterrupted : interrupted (openedState opened) systemAdvance 10 =
      appendBytes rolled.dir rolled.store ((encodeJournalRecord (pendingRecord
        rolled.store.nextSequence (planOf (openedState opened).live systemAdvance))
          rolled.store.key).take 10) := by
    have hcases := interrupted_interrupted hcursor.opened systemAdvance 10
    generalize interrupted (openedState opened) systemAdvance 10 = dir at hcases
    cases hcases with
    | untouched hnot => exact absurd hjournaled (hnot _ _)
    | @begun rolled' hbegun _ =>
        have heq := hbegun.roll.symm.trans hjournaled.roll
        simp only [Except.ok.injEq, Prod.mk.injEq] at heq
        rw [heq.1, heq.2]
    | refused e _ hle _ => exact absurd hcount (not_lt.mpr hle)
    | written _ hle _ => exact absurd hcount (not_lt.mpr hle)
  obtain ⟨first, hfirst, hhealth, hrecovers⟩ := crash_recovers_iff
    (.created (by simp) hopen) (by rw [hoptions]; decide) (by simp) systemAdvance 10
    (fun hwritten => by omega)
    (by
      rw [hoptions]
      exact .inr (by decide)) zeroKey
  obtain ⟨other, hother, hstate⟩ := opens_begun_state hserves hplay hjournaled hcount zeroKey
  rw [← hinterrupted, hfirst] at hother
  cases hother
  rw [hoptions] at hfirst hstate
  have haccepted : AllAccepted (openedState first) [systemAdvance] := by
    refine ⟨?_, trivial⟩
    rw [hstate, hdir, hstore, ← hlive]
    generalize (commit _ systemAdvance).1 = status at hfurther ⊢
    cases status with
    | error e => cases hfurther
    | ok u => rfl
  refine ⟨opened, first, hopen, hfirst, hhealth, haccepted,
    (hrecovers [systemAdvance] haccepted ?_).mpr (.inr fun hleaves => ?_)⟩
  · intro mutation hmutation
    rw [List.mem_singleton] at hmutation
    subst hmutation
    rw [hoptions]
    exact recordFits_systemAdvance
  · exact absurd hleaves.pending (not_le.mpr hcount)

/-- A crash right after the pending record of a mutation that would be accepted. -/
theorem interrupted_pendingBytes {s : StoreState} {mutation : Mutation}
    (hopen : s.store.segmentOpen = true) (haccepted : (commit s mutation).1.isOk = true) :
    ∃ rolled live, Journaled s mutation (planOf s.live mutation) rolled ∧
      interrupted s mutation (pendingBytes s.live mutation) =
        (stranded rolled (planOf s.live mutation) live).dir := by
  have hcommitted := commit_committed hopen mutation
  have hcases := interrupted_interrupted hopen mutation (pendingBytes s.live mutation)
  generalize commit s mutation = result at haccepted hcommitted
  generalize interrupted s mutation (pendingBytes s.live mutation) = dir at hcases ⊢
  cases hcommitted with
  | refused e hnot => cases haccepted
  | stranded e hjournaled happly => cases haccepted
  | @accepted planned rolled live hjournaled happly =>
      have hplanned : planned = planOf s.live mutation := hjournaled.plan.planned_eq
      subst hplanned
      cases hcases with
      | untouched hnot => exact absurd hjournaled (hnot _ _)
      | begun h hcount => exact absurd hcount (lt_irrefl _)
      | refused e h hcount hrefused =>
          rw [happly] at hrefused
          cases hrefused
      | @written rolled' live' h hcount happly' =>
          refine ⟨rolled', live', h, ?_⟩
          rw [Nat.sub_self, List.take_zero, List.append_nil]
          rfl

/-- A crash between the two records of a commit: the next commit is accepted, and the
directory does not open healthy any more. -/
theorem pending_left_then_accepted_not_recovered :
    ∃ opened first, openStore ∅ creating zeroKey = .ok opened ∧
      openStore (interrupted (openedState opened) systemAdvance
        (pendingBytes (openedState opened).live systemAdvance)) creating zeroKey = .ok first ∧
      AllAccepted (openedState first) [systemAdvance] ∧
      ¬ Recovers (openedState opened) [] systemAdvance
        (pendingBytes (openedState opened).live systemAdvance) first [systemAdvance]
        zeroKey := by
  obtain ⟨opened, hopen⟩ := openStore_empty
  have hoptions : (openedState opened).store.options = creating :=
    options_of_openStore_empty hopen
  obtain ⟨segments, hserves⟩ := faithful_openStore (by simp) hopen (by decide)
  obtain ⟨front, records, hcursor⟩ := hserves.journal.cursor
  obtain ⟨image, hplay, -⟩ := hserves.image
  have hhealth := (Serves.replayed hserves hplay).2.2
  have hlive : (openedState opened).live = image := by
    obtain ⟨hlimits, hcreate⟩ := createStore_of_openStore (by simp) hopen
    obtain ⟨-, himage, -⟩ := journal_createStore hlimits (by decide) hcreate
    cases hplay
    rw [hoptions]
    exact himage
  -- The mutation in flight would have been accepted, and so is the one after the crash.
  have hrun : (match openStore ∅ creating zeroKey with
      | .ok opened =>
          let s := openedState opened
          let dir := interrupted s systemAdvance (pendingBytes s.live systemAdvance)
          let t := resumed (withLock dir creating) creating s.store.key s.store.segmentIndex
            s.live
          ((commit s systemAdvance).1.isOk, (commit t systemAdvance).1.isOk,
            s.store.segmentBytes)
      | .error _ => (false, false, 1)) = (true, true, 0) := by decide
  rw [hopen] at hrun
  simp only [Prod.mk.injEq] at hrun
  obtain ⟨haccepts, hfurther, hempty⟩ := hrun
  obtain ⟨rolled, live, hjournaled, hdir⟩ := interrupted_pendingBytes hcursor.opened haccepts
  have hrolled : rolled.store = (openedState opened).store := by
    have hroll := hjournaled.roll
    rw [rollSegmentIfNeeded, if_pos (by rw [hempty]; decide)] at hroll
    simp only [Except.ok.injEq, Prod.mk.injEq] at hroll
    exact hroll.2.symm
  obtain ⟨front', records', hdangling, -, -⟩ := Serves.stranded hserves hplay hjournaled live
  have hreopen := Dangling.reopen hdangling hhealth zeroKey
  have hstored : (stranded rolled (planOf (openedState opened).live systemAdvance)
      live).store.options = creating := by
    change rolled.store.options = creating
    rw [hrolled, hoptions]
  rw [hstored, ← hdir] at hreopen
  obtain ⟨first, hfirst, -, hstate, hleft⟩ := hreopen
  have haccepted : AllAccepted (openedState first) [systemAdvance] := by
    refine ⟨?_, trivial⟩
    change openedState first = resumed _ creating rolled.store.key rolled.store.segmentIndex
      image at hstate
    rw [hrolled, ← hlive] at hstate
    rw [hstate]
    generalize (commit _ systemAdvance).1 = status at hfurther ⊢
    cases status with
    | error e => cases hfurther
    | ok u => rfl
  have hstored' : (openedState first).store.options = creating :=
    congrArg (·.store.options) hstate
  refine ⟨opened, first, hopen, hfirst, haccepted, ?_⟩
  rintro ⟨second, survivors, hsecond, hhealthy, -⟩
  rw [hoptions, ← hstored'] at hsecond
  have hmeasurable : Measurable (withLock (interrupted (openedState opened) systemAdvance
      (pendingBytes (openedState opened).live systemAdvance)) creating) creating.limits :=
    .inr (by decide)
  have hdangling := hleft hmeasurable
  obtain ⟨front, records, hcursor⟩ := hdangling.cursor
  rw [Dangling.degraded hdangling (not_stalls_of_accepted hcursor.opened haccepted)
    hsecond] at hhealthy
  cases hhealthy

end PriorityFabric.Crashes
