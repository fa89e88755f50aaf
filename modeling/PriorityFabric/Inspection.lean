import PriorityFabric.Crashes

/-!
What looking at a store does to its files.

Verification and opening share one replay, and the replay cuts unusable bytes off the last
segment.  Whether the files stay as they are depends on how that segment ends.
-/

namespace PriorityFabric.Inspection

open PriorityFabric.Lib.LittleEndian
open PriorityFabric.Lib.KeyedTable (getElem?_insert_of_ne)
open PriorityFabric.Basics
open PriorityFabric.Ident
open PriorityFabric.Model
open PriorityFabric.State
open PriorityFabric.StateCodec
open PriorityFabric.Durability
open PriorityFabric.JournalScan
open PriorityFabric.Store
open PriorityFabric.Readable
open PriorityFabric.StoreFiles
open PriorityFabric.Replaying
open PriorityFabric.StateDirectory
open PriorityFabric.Committing
open PriorityFabric.Serving
open PriorityFabric.CommitRuns
open PriorityFabric.Reopening
open PriorityFabric.Crashes

/-- Every file is there with every byte it had. -/
def FilesKept (dir dir' : Directory) : Prop :=
  ∀ name content : Bytes, dir[name]? = some content → dir'[name]? = some content

theorem filesKept_refl (dir : Directory) : FilesKept dir dir := fun _ _ hfile => hfile

def replaySegment (limits : Limits) (replay : Replay) (scan : JournalScanResult) : Replay :=
  replayRecords limits (replay.account scan) scan.records

/-- Segments that are scanned to their last byte and whose records all replay. -/
inductive Clean (limits : Limits) (key : Bytes) (dir : Directory) :
    List Nat → Replay → Replay → Prop
  | nil (replay : Replay) : Clean limits key dir [] replay replay
  | cons {index : Nat} {rest : List Nat} {replay finished : Replay} {scan : JournalScanResult}
      (hscan : scanJournalSegment dir (journalSegmentName index) key limits = .ok scan)
      (hhealth : (replaySegment limits replay scan).report.health ≠ .degraded)
      (htail : scan.trailingBytes = 0)
      (h : Clean limits key dir rest (replaySegment limits replay scan) finished) :
      Clean limits key dir (index :: rest) replay finished

/-- The records of the last segment replay, and bytes that are no complete record follow
them. -/
structure EndsTorn (limits : Limits) (key : Bytes) (dir : Directory) (last : Nat)
    (replay : Replay) : Prop where
  torn : ∃ scan, scanJournalSegment dir (journalSegmentName last) key limits = .ok scan ∧
    (replaySegment limits replay scan).report.health ≠ .degraded ∧ 0 < scan.trailingBytes

/-- The store can be read up to its last segment, and that one ends in an unfinished
append. -/
structure Torn (dir : Directory) (options : Options) (key : Bytes) : Prop where
  present : dir.contains manifestName = true
  torn : ∃ manifest start earlier last finished,
    readManifest dir key = .ok manifest ∧
    replayStart dir options.limits key manifest = .ok start ∧
    discoverSegments dir manifest.firstSegment = earlier ++ [last] ∧
    earlier.length + 1 ≤ options.limits.maxJournalSegments ∧
    Clean options.limits key dir earlier start finished ∧
    EndsTorn options.limits key dir last finished

theorem trailingBytes_scanLoop_le {key : Bytes} {limits : Limits} {bound : Nat}
    (room offset : Nat) (data : Bytes) (result : JournalScanResult)
    (hdata : data.length ≤ bound) (hresult : result.trailingBytes ≤ bound) :
    (scanLoop key limits room offset data result).trailingBytes ≤ bound := by
  induction room generalizing offset data result with
  | zero =>
      unfold scanLoop
      split
      · exact hresult
      · exact hdata
  | succ room ih =>
      unfold scanLoop
      split
      · exact hresult
      · simp only
        split
        · exact hdata
        · refine ih _ _ _ ?_ hresult
          rw [List.length_drop]
          omega

theorem trailingBytes_le {dir : Directory} {name key : Bytes} {limits : Limits}
    {scan : JournalScanResult} (h : scanJournalSegment dir name key limits = .ok scan) :
    ∃ content, dir[name]? = some content ∧ scan.trailingBytes ≤ content.length := by
  simp only [scanJournalSegment, bind_eq_ok, failIf_eq_ok, exists_const, readFile_eq_ok_iff,
    pure, Except.pure, Except.ok.injEq] at h
  obtain ⟨-, content, ⟨hfile, -⟩, rfl⟩ := h
  exact ⟨content, hfile, trailingBytes_scanLoop_le _ _ _ _ (Nat.le_refl _) (Nat.zero_le _)⟩

theorem not_filesKept_truncateTail {dir : Directory} {name content : Bytes} {trailing : Nat}
    (hfile : dir[name]? = some content) (hpositive : 0 < trailing)
    (hle : trailing ≤ content.length) : ¬ FilesKept dir (truncateTail dir name trailing) := by
  intro h
  have hkept := h name content hfile
  have hgetD : dir.getD name [] = content := by
    rw [Std.ExtTreeMap.getD_eq_getD_getElem?, hfile]
    rfl
  rw [truncateTail, Std.ExtTreeMap.getElem?_insert_self, hgetD, Option.some.injEq] at hkept
  have hlength := congrArg List.length hkept
  rw [List.length_take] at hlength
  omega

section Replays

variable {limits : Limits} {key : Bytes} {dir : Directory}

/-- The segments end torn: all but the last are clean. -/
def SegmentsTorn (limits : Limits) (key : Bytes) (dir : Directory) (segments : List Nat)
    (replay : Replay) : Prop :=
  ∃ earlier last finished, segments = earlier ++ [last] ∧
    Clean limits key dir earlier replay finished ∧ EndsTorn limits key dir last finished

theorem segmentsTorn_nil (replay : Replay) : ¬ SegmentsTorn limits key dir [] replay := by
  rintro ⟨earlier, last, finished, h, -⟩
  simp at h

theorem segmentsTorn_cons {index : Nat} {rest : List Nat} {replay : Replay}
    {scan : JournalScanResult}
    (hscan : scanJournalSegment dir (journalSegmentName index) key limits = .ok scan) :
    SegmentsTorn limits key dir (index :: rest) replay ↔
      (replaySegment limits replay scan).report.health ≠ .degraded ∧
        (if scan.trailingBytes = 0 then
          SegmentsTorn limits key dir rest (replaySegment limits replay scan)
        else rest = []) := by
  constructor
  · rintro ⟨earlier, last, finished, hsegments, hclean, hends⟩
    cases hclean with
    | nil =>
        obtain ⟨rfl, rfl⟩ := List.cons.inj hsegments
        obtain ⟨scan', hscan', hhealth, hpositive⟩ := hends.torn
        rw [hscan, Except.ok.injEq] at hscan'
        subst hscan'
        exact ⟨hhealth, by rw [if_neg (by omega)]⟩
    | @cons first earlier _ _ scan' hscan' hhealth htail hclean =>
        obtain ⟨rfl, rfl⟩ := List.cons.inj hsegments
        rw [hscan, Except.ok.injEq] at hscan'
        subst hscan'
        refine ⟨hhealth, ?_⟩
        rw [if_pos htail]
        exact ⟨earlier, last, finished, rfl, hclean, hends⟩
  · rintro ⟨hhealth, h⟩
    split at h
    · rename_i htail
      obtain ⟨earlier, last, finished, rfl, hclean, hends⟩ := h
      exact ⟨index :: earlier, last, finished, rfl, .cons hscan hhealth htail hclean, hends⟩
    · rename_i htail
      subst h
      exact ⟨[], index, replay, rfl, .nil replay,
        ⟨scan, hscan, hhealth, by omega⟩⟩

theorem segmentsTorn_of_error {index : Nat} {rest : List Nat} {replay : Replay} {e : Status}
    (hscan : scanJournalSegment dir (journalSegmentName index) key limits = .error e) :
    ¬ SegmentsTorn limits key dir (index :: rest) replay := by
  rintro ⟨earlier, last, finished, hsegments, hclean, hends⟩
  cases hclean with
  | nil =>
      obtain ⟨rfl, rfl⟩ := List.cons.inj hsegments
      obtain ⟨scan, hscan', -⟩ := hends.torn
      rw [hscan] at hscan'
      cases hscan'
  | cons hscan' =>
      obtain ⟨rfl, -⟩ := List.cons.inj hsegments
      rw [hscan] at hscan'
      cases hscan'

theorem filesKept_replaySegments {segments : List Nat} {replay : Replay} :
    (∀ dir' finished, replaySegments limits key segments dir replay = .ok (dir', finished) →
      FilesKept dir dir') ↔ ¬ SegmentsTorn limits key dir segments replay := by
  induction segments generalizing replay with
  | nil =>
      refine ⟨fun _ => segmentsTorn_nil replay, fun _ dir' finished h => ?_⟩
      cases h
      exact filesKept_refl dir
  | cons index rest ih =>
      cases hscan : scanJournalSegment dir (journalSegmentName index) key limits with
      | error e =>
          refine ⟨fun _ => segmentsTorn_of_error hscan, fun _ dir' finished h => ?_⟩
          simp only [replaySegments, hscan, bind, Except.bind] at h
          cases h
      | ok scan =>
          rw [segmentsTorn_cons hscan]
          simp only [replaySegments, hscan, bind, Except.bind, pure, Except.pure, replaySegment]
          by_cases hhealth :
              (replayRecords limits (replay.account scan) scan.records).report.health = .degraded
          · -- Damage was found: the replay stops and nothing is cut.
            rw [if_pos hhealth]
            refine ⟨fun _ h => h.1 hhealth, fun _ dir' finished h => ?_⟩
            cases h
            exact filesKept_refl dir
          · rw [if_neg hhealth]
            by_cases htail : scan.trailingBytes = 0
            · rw [if_neg (by omega), if_pos htail, ih]
              exact ⟨fun h htorn => h htorn.2, fun h htorn => h ⟨hhealth, htorn⟩⟩
            · rw [if_pos (by omega), if_neg htail]
              cases rest with
              | nil =>
                  obtain ⟨content, hfile, hle⟩ := trailingBytes_le hscan
                  refine ⟨fun h => ?_, fun h => absurd ⟨hhealth, rfl⟩ h⟩
                  exact absurd (h _ _ rfl) (not_filesKept_truncateTail hfile (by omega) hle)
              | cons next rest =>
                  refine ⟨fun _ h => ?_, fun _ dir' finished h => ?_⟩
                  · cases h.2
                  · cases h
                    exact filesKept_refl dir

/-- A replay returns the directory it was given, or that with the end of one file cut off. -/
theorem dir_replaySegments {segments : List Nat} {replay finished : Replay} {dir' : Directory}
    (h : replaySegments limits key segments dir replay = .ok (dir', finished)) :
    dir' = dir ∨ ∃ name trailing, dir' = truncateTail dir name trailing := by
  induction segments generalizing replay with
  | nil =>
      cases h
      exact .inl rfl
  | cons index rest ih =>
      simp only [replaySegments, bind_eq_ok] at h
      obtain ⟨scan, -, h⟩ := h
      split at h
      · cases h
        exact .inl rfl
      · split at h
        · split at h
          · cases h
            exact .inr ⟨_, _, rfl⟩
          · cases h
            exact .inl rfl
        · exact ih h

end Replays

section Stores

variable {dir dir' : Directory} {options : Options} {key : Bytes}

theorem replay_eq_ok_iff {replayed : Replayed} :
    replay dir options key = .ok replayed ↔
      if dir.contains manifestName = true then
        ∃ manifest start finished, readManifest dir key = .ok manifest ∧
          replayStart dir options.limits key manifest = .ok start ∧
          (discoverSegments dir manifest.firstSegment).length ≤
            options.limits.maxJournalSegments ∧
          replaySegments options.limits key (discoverSegments dir manifest.firstSegment) dir
            start = .ok (replayed.dir, finished) ∧
          finished.conclude = (replayed.report, replayed.image)
      else replayed = freshReplay options.limits dir
        (text "fresh state directory: no manifest, no journal, no snapshot") := by
  unfold replay
  cases hpresent : dir.contains manifestName with
  | false =>
      simp only [if_true, Bool.false_eq_true, if_false, pure, Except.pure, Except.ok.injEq]
      exact eq_comm
  | true =>
      simp only [Bool.true_eq_false, if_false, if_true, bind_eq_ok, failIf_eq_ok, exists_const,
        gt_iff_lt, not_lt, pure, Except.pure, Except.ok.injEq]
      constructor
      · rintro ⟨manifest, hmanifest, start, hstart, hcount, ⟨dir', finished⟩, hsegments, rfl⟩
        exact ⟨manifest, start, finished, hmanifest, hstart, hcount, hsegments, rfl⟩
      · rintro ⟨manifest, start, finished, hmanifest, hstart, hcount, hsegments, hconclude⟩
        refine ⟨manifest, hmanifest, start, hstart, hcount, (replayed.dir, finished), hsegments, ?_⟩
        rw [hconclude]

theorem filesKept_replay :
    (∀ replayed, replay dir options key = .ok replayed → FilesKept dir replayed.dir) ↔
      ¬ Torn dir options key := by
  simp only [replay_eq_ok_iff]
  cases hpresent : dir.contains manifestName with
  | false =>
      simp only [Bool.false_eq_true, if_false]
      refine ⟨fun _ htorn => ?_, fun _ replayed h => ?_⟩
      · rw [htorn.present] at hpresent
        cases hpresent
      · rw [h]
        exact filesKept_refl dir
  | true =>
      simp only [if_true]
      constructor
      · rintro h ⟨-, manifest, start, earlier, last, finished, hmanifest, hstart, hsegments, hcount,
          hclean, hends⟩
        have htorn : SegmentsTorn options.limits key dir
            (discoverSegments dir manifest.firstSegment) start :=
          ⟨earlier, last, finished, hsegments, hclean, hends⟩
        refine filesKept_replaySegments.mp (fun dir' final hreplayed => ?_) htorn
        refine h ⟨final.conclude.1, final.conclude.2, dir'⟩
          ⟨manifest, start, final, hmanifest, hstart, ?_, hreplayed, rfl⟩
        rw [hsegments, List.length_append]
        exact hcount
      · rintro h replayed ⟨manifest, start, final, hmanifest, hstart, hcount, hreplayed, -⟩
        refine filesKept_replaySegments.mpr (fun htorn => ?_) _ _ hreplayed
        obtain ⟨earlier, last, finished, hsegments, hclean, hends⟩ := htorn
        refine h ⟨hpresent, manifest, start, earlier, last, finished, hmanifest, hstart, hsegments,
          ?_, hclean, hends⟩
        rw [hsegments, List.length_append] at hcount
        exact hcount

theorem dir_of_verify {s : StoreState} :
    (∃ report, verify s = .ok (report, dir')) ↔
      ∃ replayed, replay s.dir s.store.options s.store.key = .ok replayed ∧
        replayed.dir = dir' := by
  unfold verify
  simp only [bind_eq_ok]
  constructor
  · rintro ⟨report, replayed, hreplayed, h⟩
    refine ⟨replayed, hreplayed, ?_⟩
    split at h
    · split at h
      · cases h
        rfl
      · split at h
        · cases h
          rfl
        · cases h
          rfl
    · cases h
      rfl
  · rintro ⟨replayed, hreplayed, rfl⟩
    refine exists_comm.mp ⟨replayed, ?_⟩
    simp only [hreplayed, true_and]
    split
    · split
      · exact ⟨_, rfl⟩
      · split
        · exact ⟨_, rfl⟩
        · exact ⟨_, rfl⟩
    · exact ⟨_, rfl⟩

theorem contains_of_replay {replayed : Replayed} (h : replay dir options key = .ok replayed)
    {name : Bytes} (hname : name ∈ dir) : name ∈ replayed.dir := by
  rw [replay_eq_ok_iff] at h
  split at h
  · obtain ⟨manifest, start, finished, -, -, -, hsegments, -⟩ := h
    rcases dir_replaySegments hsegments with heq | ⟨cut, trailing, heq⟩
    · rw [heq]
      exact hname
    · rw [heq, truncateTail, Std.ExtTreeMap.mem_insert]
      exact .inr hname
  · rw [h]
    exact hname

theorem filesKept_openAppend_iff {found : Directory} (hfiles : ∀ name ∈ dir, name ∈ found)
    (segment : Bytes) : FilesKept dir (openAppend found segment) ↔ FilesKept dir found := by
  refine forall_congr' fun name => forall_congr' fun content => imp_congr_right fun hfile => ?_
  have hmem : name ∈ found := hfiles name (getElem?_eq_some_iff.mp hfile).1
  rw [openAppend, Std.ExtTreeMap.getElem?_insertIfNew, if_neg]
  rintro ⟨heq, hnone⟩
  rw [Std.LawfulEqOrd.eq_of_compare heq] at hnone
  exact hnone hmem

theorem dir_of_openStore (hlock : options.exclusiveLock = false)
    (hpresent : dir.contains manifestName = true)
    (entropy : List.Vector UInt8 storeKeyBytes) :
    (∃ opened, openStore dir options entropy = .ok opened ∧ opened.dir = dir') ↔
      limitsWithinCompiledCeiling options.limits = true ∧ ∃ key replayed,
        readStoreKey dir = .ok key ∧ replay dir options key = .ok replayed ∧
        dir' = openAppend replayed.dir
          (journalSegmentName ((segmentIndices replayed.dir).foldl max 0)) := by
  simp only [openStore, withLock, hlock, Bool.false_eq_true, if_false, hpresent,
    Bool.true_eq_false, bind_eq_ok, failIf_eq_ok, exists_const, Bool.not_eq_false, resumeStore,
    pure, Except.pure, Except.ok.injEq]
  constructor
  · rintro ⟨opened, ⟨hlimits, key, hkey, replayed, hreplayed, rfl⟩, rfl⟩
    exact ⟨hlimits, key, replayed, hkey, hreplayed, rfl⟩
  · rintro ⟨hlimits, key, replayed, hkey, hreplayed, rfl⟩
    exact ⟨_, ⟨hlimits, key, hkey, replayed, hreplayed, rfl⟩, rfl⟩

end Stores

/-- A verification of an open store, and an opening without the lock of a directory that
holds a manifest, keep every byte of every file exactly when the store does not end in an
unfinished append that the replay gets to. -/
theorem inspection_keeps_files_iff (s : StoreState) {dir : Directory} {options : Options}
    (hlock : options.exclusiveLock = false) (hpresent : dir.contains manifestName = true)
    (entropy : List.Vector UInt8 storeKeyBytes) :
    ((∀ report dir', verify s = .ok (report, dir') → FilesKept s.dir dir') ↔
        ¬ Torn s.dir s.store.options s.store.key) ∧
      ((∀ opened, openStore dir options entropy = .ok opened → FilesKept dir opened.dir) ↔
        ¬ (limitsWithinCompiledCeiling options.limits = true ∧
          ∃ key, readStoreKey dir = .ok key ∧ Torn dir options key)) := by
  constructor
  · rw [← filesKept_replay]
    constructor
    · intro h replayed hreplayed
      obtain ⟨report, hverify⟩ := dir_of_verify.mpr ⟨replayed, hreplayed, rfl⟩
      exact h report _ hverify
    · intro h report dir' hverify
      obtain ⟨replayed, hreplayed, rfl⟩ := dir_of_verify.mp ⟨report, hverify⟩
      exact h replayed hreplayed
  · constructor
    · rintro h ⟨hlimits, key, hkey, htorn⟩
      refine filesKept_replay.mp (fun replayed hreplayed => ?_) htorn
      obtain ⟨opened, hopen, hdir⟩ := (dir_of_openStore hlock hpresent entropy).mpr
        ⟨hlimits, key, replayed, hkey, hreplayed, rfl⟩
      have hkept := h opened hopen
      rw [hdir, filesKept_openAppend_iff fun _ => contains_of_replay hreplayed] at hkept
      exact hkept
    · intro h opened hopen
      obtain ⟨hlimits, key, replayed, hkey, hreplayed, hdir⟩ :=
        (dir_of_openStore hlock hpresent entropy).mp ⟨opened, hopen, rfl⟩
      rw [hdir, filesKept_openAppend_iff fun _ => contains_of_replay hreplayed]
      exact filesKept_replay.mpr (fun htorn => h ⟨hlimits, key, hkey, htorn⟩) replayed hreplayed

def inspecting : Options := { exclusiveLock := false }

/-- The store while its writer has ten bytes of the first record on the disk. -/
def midAppend (opened : Opened) : StoreState :=
  (commitWriting (openedState opened) systemAdvance (.short 10) .complete).2

theorem inspection_keeps_files_iff_empty :
    ∃ opened, openStore ∅ creating zeroKey = .ok opened ∧
      opened.dir.contains manifestName = true ∧
      ((∀ again, openStore opened.dir inspecting zeroKey = .ok again →
          FilesKept opened.dir again.dir) ↔
        ¬ (limitsWithinCompiledCeiling inspecting.limits = true ∧
          ∃ key, readStoreKey opened.dir = .ok key ∧ Torn opened.dir inspecting key)) := by
  obtain ⟨opened, hopen⟩ := openStore_empty
  have hpresent : (openStore ∅ creating zeroKey).toOption.map
      (·.dir.contains manifestName) = some true := by decide
  rw [hopen] at hpresent
  have hmanifest : opened.dir.contains manifestName = true := Option.some.inj hpresent
  exact ⟨opened, hopen, hmanifest,
    (inspection_keeps_files_iff (openedState opened) rfl hmanifest zeroKey).2⟩

section Writer

variable {s rolled : StoreState} {ledger : Ledger} {acknowledged : List Mutation}
  {mutation : Mutation} {count : Nat}

theorem midAppend_eq (hjournaled : Journaled s mutation (planOf s.live mutation) rolled)
    (hopen : rolled.store.segmentOpen = true) :
    (commitWriting s mutation (.short count) .complete).2 =
      { rolled with
        dir := appendBytes rolled.dir rolled.store
          ((encodeJournalRecord (pendingRecord rolled.store.nextSequence
            (planOf s.live mutation)) rolled.store.key).take count) } := by
  obtain ⟨hplan, hroll, hlive⟩ := hjournaled
  cases rolled with
  | mk dir store live =>
      cases hlive
      simp only [commitWriting, planCommit_eq_ok_iff.mpr hplan, hroll, journalCommit,
        appendRecord_short hopen]

/-- The replay of a store whose commit has got some way into its first record cuts off what
is written of it. -/
theorem replay_cuts_append (h : Serves s ledger acknowledged)
    (hjournaled : Journaled s mutation (planOf s.live mutation) rolled)
    (hpositive : 0 < count) (hcount : count < pendingBytes s.live mutation)
    {options : Options} (hlimits : options.limits = s.store.options.limits) :
    ∃ replayed, replay (commitWriting s mutation (.short count) .complete).2.dir options
        s.store.key = .ok replayed ∧
      ¬ FilesKept (commitWriting s mutation (.short count) .complete).2.dir replayed.dir ∧
      (commitWriting s mutation (.short count) .complete).2.dir.contains manifestName = true ∧
      readStoreKey (commitWriting s mutation (.short count) .complete).2.dir =
        .ok s.store.key := by
  obtain ⟨front, records, hrolled, hcursor, hroom⟩ := Serves.rolled h hjournaled
  obtain ⟨hoptions, hkey, -, -, -, -⟩ := rollSegmentIfNeeded_same hjournaled.roll
  have htail := tornTail_pending hcursor.admissible hjournaled hcount
  rw [midAppend_eq hjournaled hcursor.opened]
  rw [pendingBytes, recordOverheadBytes] at hcount
  generalize htail_eq : (encodeJournalRecord (pendingRecord rolled.store.nextSequence
    (planOf s.live mutation)) rolled.store.key).take count = tail at htail ⊢
  have hlength : tail.length =
      min count ((encodeMutation (planOf s.live mutation)).length + 40) := by
    rw [← htail_eq, List.length_take, length_encodeJournalRecord]
    rfl
  have hnil : tail ≠ [] := by
    rintro rfl
    rw [List.length_nil] at hlength
    omega
  have hfits := hroom tail.length (by omega)
  have hholds := hcursor.holds
  obtain ⟨image, hplay, -⟩ := hrolled.image
  have hrun := hrolled.journal.runs hplay
  rw [hoptions, ← hlimits] at hholds hfits htail hrun
  have hreplay := replay_of_holds_torn hholds hcursor.last hfits htail hnil hrun
  have hkept : ¬ FilesKept (appendBytes rolled.dir rolled.store tail) rolled.dir := by
    intro h
    have hfile := hholds.last_file hcursor.last
    rw [hcursor.appendBytes_eq] at h
    have hsame := h _ _ Std.ExtTreeMap.getElem?_insert_self
    rw [hfile, Option.some.injEq] at hsame
    exact hnil (List.self_eq_append_right.mp hsame)
  have hmanifest : (appendBytes rolled.dir rolled.store tail).contains manifestName = true := by
    rw [hcursor.appendBytes_eq]
    refine contains_of_getElem? (Eq.trans (getElem?_insert_of_ne _ ?_) hholds.manifest_file)
    exact hholds.lastName_ne hcursor.last parse_manifestName
  have hkeyFile : readStoreKey (appendBytes rolled.dir rolled.store tail) =
      .ok rolled.store.key := by
    rw [hcursor.appendBytes_eq, readStoreKey_congr (getElem?_insert_of_ne _ ?_)]
    · exact hholds.key_file
    · exact hholds.lastName_ne hcursor.last parse_keyName
  rw [← hcursor.appendBytes_eq] at hreplay
  rw [← hkey]
  exact ⟨_, hreplay, hkept, hmanifest, hkeyFile⟩

end Writer

/-- The inspection cuts off what the writer has written. -/
theorem inspection_truncates_append :
    ∃ opened, openStore ∅ creating zeroKey = .ok opened ∧
      (∃ report dir', verify (midAppend opened) = .ok (report, dir') ∧
        ¬ FilesKept (midAppend opened).dir dir') ∧
      ∃ again, openStore (midAppend opened).dir inspecting zeroKey = .ok again ∧
        ¬ FilesKept (midAppend opened).dir again.dir := by
  obtain ⟨opened, hopen⟩ := openStore_empty
  have hoptions : (openedState opened).store.options = creating :=
    options_of_openStore_empty hopen
  obtain ⟨segments, hserves⟩ := faithful_openStore (by simp) hopen (by decide)
  obtain ⟨front, records, hcursor⟩ := hserves.journal.cursor
  have haccepts : (openStore ∅ creating zeroKey).toOption.map
      (fun opened => ((commit (openedState opened) systemAdvance).1.isOk,
        decide (10 < pendingBytes (openedState opened).live systemAdvance))) =
      some (true, true) := by
    decide
  rw [hopen] at haccepts
  simp only [Except.toOption, Option.map_some, Option.some.injEq, Prod.mk.injEq,
    decide_eq_true_eq] at haccepts
  obtain ⟨haccepts, hbegun⟩ := haccepts
  obtain ⟨rolled, -, hjournaled, -⟩ := interrupted_pendingBytes hcursor.opened haccepts
  have hstate := @midAppend_eq _ rolled _ 10 hjournaled
    ((rollSegmentIfNeeded_same hjournaled.roll).segmentOpen hcursor.opened)
  have hcut (options : Options) (hlimits : options.limits = ({} : Limits)) :=
    replay_cuts_append hserves hjournaled (by decide) hbegun
      (hlimits.trans (congrArg Options.limits hoptions).symm)
  have hstored : (midAppend opened).store.options = creating ∧
      (midAppend opened).store.key = (openedState opened).store.key := by
    rw [midAppend, hstate, ← hoptions]
    exact ⟨(rollSegmentIfNeeded_same hjournaled.roll).options,
      (rollSegmentIfNeeded_same hjournaled.roll).key⟩
  refine ⟨opened, hopen, ?_, ?_⟩
  · obtain ⟨replayed, hreplay, hlost, -, -⟩ := hcut creating rfl
    obtain ⟨report, hverify⟩ := (@dir_of_verify replayed.dir (midAppend opened)).mpr
      ⟨replayed, by rw [hstored.1, hstored.2]; exact hreplay, rfl⟩
    exact ⟨report, _, hverify, hlost⟩
  · obtain ⟨replayed, hreplay, hlost, hpresent, hkey⟩ := hcut inspecting rfl
    obtain ⟨again, hagain, hdir⟩ := (dir_of_openStore rfl hpresent zeroKey).mpr
      ⟨by decide, _, replayed, hkey, hreplay, rfl⟩
    refine ⟨again, hagain, ?_⟩
    rw [midAppend, hdir, filesKept_openAppend_iff fun _ => contains_of_replay hreplay]
    exact hlost

end PriorityFabric.Inspection
