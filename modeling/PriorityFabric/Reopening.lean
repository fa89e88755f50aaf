import PriorityFabric.Unfinished

/-!
Opening a directory that holds a journal.

The lock file is none of the files replay reads.  Opening resumes on the last
segment, and serves the image the journal leads to.
-/

namespace PriorityFabric.Reopening

open PriorityFabric.Lib.LittleEndian
open PriorityFabric.Lib.KeyedTable (getElem?_insert_of_ne)
open PriorityFabric.Basics
open PriorityFabric.Model
open PriorityFabric.State
open PriorityFabric.StateCodec
open PriorityFabric.Apply
open PriorityFabric.Durability
open PriorityFabric.JournalScan
open PriorityFabric.Store
open PriorityFabric.DerivedIndex
open PriorityFabric.ApplyFacts
open PriorityFabric.StoreFiles
open PriorityFabric.Replaying
open PriorityFabric.StateDirectory
open PriorityFabric.Committing
open PriorityFabric.Serving
open PriorityFabric.Unfinished

theorem getElem?_openAppend_of_ne {dir : Directory} {name other : Bytes}
    (h : name ≠ other) : (openAppend dir name)[other]? = dir[other]? := by
  rw [openAppend, Std.ExtTreeMap.getElem?_insertIfNew, if_neg]
  rintro ⟨heq, -⟩
  exact h (Std.LawfulEqOrd.eq_of_compare heq)

theorem getElem?_withLock_of_ne {dir : Directory} (options : Options) {name : Bytes}
    (h : lockName ≠ name) : (withLock dir options)[name]? = dir[name]? := by
  unfold withLock
  split
  · exact getElem?_openAppend_of_ne h
  · rfl

theorem lockName_ne_segment {name : Bytes} {index : Nat}
    (h : parseJournalSegmentName name = some index) : lockName ≠ name := by
  rintro rfl
  rw [parse_lockName] at h
  cases h

theorem Holds.withLock {dir : Directory} {limits : Limits} {key : Bytes} {ledger : Ledger}
    (h : Holds dir limits key ledger) (options : Options) :
    Holds (withLock dir options) limits key ledger := by
  have hsegment {name : Bytes} {index : Nat}
      (hparse : parseJournalSegmentName name = some index) :
      (Store.withLock dir options)[name]? = dir[name]? :=
    getElem?_withLock_of_ne options (lockName_ne_segment hparse)
  refine { h with key_file := ?_, manifest_file := ?_, start := ?_, names := ?_, files := ?_ }
  · rw [readStoreKey_congr (getElem?_withLock_of_ne options (by decide))]
    exact h.key_file
  · rw [getElem?_withLock_of_ne options (by decide)]
    exact h.manifest_file
  · rw [replayStart_congr (getElem?_withLock_of_ne options (by decide))]
    exact h.start
  · refine h.names.congr fun name index hparse => ?_
    rw [Std.ExtTreeMap.mem_iff_isSome_getElem?, Std.ExtTreeMap.mem_iff_isSome_getElem?,
      hsegment hparse]
  · intro i records hrecords
    have hi : i < ledger.segments.length := (List.getElem?_eq_some_iff.mp hrecords).1
    have hbound := h.names.bound
    rw [hsegment (parseJournalSegmentName_journalSegmentName (by omega))]
    exact h.files i records hrecords

theorem withLock_insert {dir : Directory} (options : Options) {name : Bytes}
    (h : lockName ≠ name) (content : Bytes) :
    withLock (dir.insert name content) options = (withLock dir options).insert name content := by
  unfold withLock
  split
  · apply Std.ExtTreeMap.ext_getElem?
    intro other
    simp only [openAppend, Std.ExtTreeMap.getElem?_insertIfNew, Std.ExtTreeMap.getElem?_insert,
      Std.ExtTreeMap.mem_insert, Std.LawfulEqOrd.compare_eq_iff_eq]
    by_cases hlock : lockName = other
    · have hother : name ≠ other := fun heq => h (hlock.trans heq.symm)
      simp [hlock, hother]
    · simp [hlock]
  · rfl

/-- A directory that can be measured is at least as large as each of its files. -/
theorem fileSize_le_measureDurableBytes {dir : Directory} (h : dir.size ≤ 4096)
    (name : Bytes) : fileSize dir name ≤ measureDurableBytes dir := by
  have hmeasure : measureDurableBytes dir = (dir.toList.map (·.2.length)).sum := by
    simp [measureDurableBytes, directoryBytes, failIf, Nat.not_lt.mpr h, bind, Except.bind,
      pure, Except.pure]
  rw [hmeasure, fileSize, Std.ExtTreeMap.getD_eq_getD_getElem?]
  cases hfile : dir[name]? with
  | none => exact Nat.zero_le _
  | some content =>
      have hmem : (name, content) ∈ dir.toList :=
        Std.ExtTreeMap.mem_toList_iff_getElem?_eq_some.mpr hfile
      exact List.single_le_sum (fun _ _ => Nat.zero_le _) _ (List.mem_map_of_mem hmem)

/-- The directory can be measured, or a segment that is about to roll is always
within the growth bound. -/
def Measurable (dir : Directory) (limits : Limits) : Prop :=
  dir.size ≤ 4096 ∨ segmentRollBytes + limits.maxRecordPayload + 120 ≤ limits.maxStateBytes

def resumed (dir : Directory) (options : Options) (key : Bytes) (index : Nat)
    (image : StateImage) : StoreState where
  dir := dir
  store :=
    { options, key
      segmentIndex := index
      segmentBytes := fileSize dir (journalSegmentName index)
      durableBytes := measureDurableBytes dir
      nextSequence := image.lastSequence + 1
      segmentOpen := true
      isOpen := true }
  live := image

theorem openStore_resumed {dir dir' : Directory} {options : Options} {key : Bytes}
    {image : StateImage} {replayed : Replayed} {first count applied : Nat}
    (entropy : List.Vector UInt8 storeKeyBytes)
    (hlimits : limitsWithinCompiledCeiling options.limits = true)
    (hmanifest : (withLock dir options).contains manifestName = true)
    (hkey : readStoreKey (withLock dir options) = .ok key)
    (hreplay : replay (withLock dir options) options key = .ok replayed)
    (hrecovered : Recovered replayed dir' image applied)
    (hhealth : image.health = .healthy)
    (hnames : SegmentNames dir' first (count + 1)) :
    ∃ opened, openStore dir options entropy = .ok opened ∧
      opened.report.health = .healthy ∧
      openedState opened = resumed dir' options key (first + count) image := by
  have hhighest := highest_segment_eq hnames
  have happend : openAppend dir' (journalSegmentName (first + count)) = dir' :=
    openAppend_of_mem (hnames.present count (Nat.lt_succ_self count))
  have hdegraded : ¬ image.health = .degraded := by
    rw [hhealth]
    exact fun h => by cases h
  have hopen : openStore dir options entropy = resumeStore (withLock dir options) options := by
    simp only [openStore, hlimits, hmanifest, failIf, Bool.true_eq_false, if_false, bind,
      Except.bind]
  rw [hopen, resumeStore]
  simp only [hkey, hreplay, bind, Except.bind, hrecovered.image, hdegraded, if_false,
    hrecovered.dir, hhighest, happend]
  exact ⟨_, rfl, hrecovered.health, rfl⟩

theorem cursor_resumed {dir : Directory} {options : Options} {key : Bytes} {ledger : Ledger}
    {front : List (List JournalRecord)} {records : List JournalRecord} (image : StateImage)
    (hlimits : limitsWithinCompiledCeiling options.limits = true)
    (hholds : Holds dir options.limits key ledger)
    (hlast : ledger.segments = front ++ [records])
    (hindex : ledger.manifest.firstSegment + front.length ≤ 1024)
    (hmeasurable : Measurable dir options.limits) :
    Cursor (resumed dir options key (ledger.manifest.firstSegment + front.length) image)
      ledger front records where
  admissible := hlimits
  holds := hholds
  last := hlast
  index := rfl
  index_le := hindex
  bytes := by
    change fileSize dir (lastName ledger front) = _
    rw [fileSize, Std.ExtTreeMap.getD_eq_getD_getElem?, hholds.last_file hlast]
    rfl
  measured := hmeasurable.imp_left fun hsize => fileSize_le_measureDurableBytes hsize _
  opened := rfl

theorem Cursor.appendBytes_nil {s : StoreState} {ledger : Ledger}
    {front : List (List JournalRecord)} {records : List JournalRecord}
    (h : Cursor s ledger front records) : appendBytes s.dir s.store [] = s.dir := by
  rw [h.appendBytes_eq, List.append_nil]
  exact insert_of_getElem? (h.holds.last_file h.last)

/-- The directory is opened at the end of its last complete record; the beginning of a
further record is cut off. -/
theorem Cursor.reopen {s : StoreState} {ledger : Ledger}
    {front : List (List JournalRecord)} {records : List JournalRecord} {last : Replay}
    {tail : Bytes} (h : Cursor s ledger front records)
    (hrun : Runs s.store.options.limits ledger.start ledger.records last)
    (hhealth : last.image.health = .healthy)
    (hfits : SegmentFits s.store.options.limits s.store.key records tail.length)
    (htail : TornTail s.store.key s.store.options.limits tail)
    (entropy : List.Vector UInt8 storeKeyBytes) :
    ∃ opened, openStore (appendBytes s.dir s.store tail) s.store.options entropy =
        .ok opened ∧
      opened.report.health = .healthy ∧
      openedState opened = resumed (withLock s.dir s.store.options) s.store.options
        s.store.key (ledger.manifest.firstSegment + front.length) last.image := by
  have hholds := Holds.withLock h.holds s.store.options
  have hnames := hholds.names
  rw [h.last, List.length_append, List.length_singleton] at hnames
  have hsettled : last.report.health = .healthy := hrun.health
  by_cases hnil : tail = []
  · subst hnil
    rw [Cursor.appendBytes_nil h]
    exact openStore_resumed entropy h.admissible (contains_of_getElem? hholds.manifest_file)
      hholds.key_file (replay_of_holds hholds hrun) (recovered_concluded _ hsettled) hhealth
      hnames
  · have hbound := h.holds.last_bound h.last
    have hlock : lockName ≠ lastName ledger front :=
      lockName_ne_segment (parseJournalSegmentName_journalSegmentName hbound)
    have htorn := @withLock_insert s.dir s.store.options _ hlock
      (journalBytes s.store.key records ++ tail)
    have hmanifest : (withLock (appendBytes s.dir s.store tail) s.store.options).contains
        manifestName = true := by
      rw [h.appendBytes_eq, htorn]
      refine contains_of_getElem? (Eq.trans (getElem?_insert_of_ne _ ?_) hholds.manifest_file)
      exact hholds.lastName_ne h.last parse_manifestName
    have hkey : readStoreKey (withLock (appendBytes s.dir s.store tail) s.store.options) =
        .ok s.store.key := by
      rw [h.appendBytes_eq, htorn, readStoreKey_congr (getElem?_insert_of_ne _ ?_)]
      · exact hholds.key_file
      · exact hholds.lastName_ne h.last parse_keyName
    have hreplay := replay_of_holds_torn hholds h.last hfits htail hnil hrun
    rw [← htorn, ← h.appendBytes_eq] at hreplay
    exact openStore_resumed entropy h.admissible hmanifest hkey hreplay
      (recovered_concluded _ hsettled) hhealth hnames

theorem Cursor.measurable_appendBytes {s : StoreState} {ledger : Ledger}
    {front : List (List JournalRecord)} {records : List JournalRecord}
    (h : Cursor s ledger front records) (options : Options) (bytes : Bytes)
    (limits : Limits) :
    Measurable (withLock (appendBytes s.dir s.store bytes) options) limits ↔
      Measurable (withLock s.dir options) limits := by
  have hlock : lockName ≠ lastName ledger front := lockName_ne_segment
    (parseJournalSegmentName_journalSegmentName (h.holds.last_bound h.last))
  have hmem : (withLock s.dir options).contains (lastName ledger front) = true := by
    apply contains_of_getElem?
    rw [getElem?_withLock_of_ne options hlock, h.holds.last_file h.last]
  have hsize : (withLock (appendBytes s.dir s.store bytes) options).size =
      (withLock s.dir options).size := by
    rw [h.appendBytes_eq, withLock_insert options hlock, Std.ExtTreeMap.size_insert,
      if_pos hmem]
  rw [Measurable, Measurable, hsize]

section Reopen

variable {s : StoreState} {ledger : Ledger} {mutations : List Mutation}

theorem Serves.replayed {image : StateImage} (h : Serves s ledger mutations)
    (hplay : playback ledger.base mutations = .ok image) :
    Counted image ∧ image.limits = s.store.options.limits ∧ image.health = .healthy := by
  obtain ⟨replayed, hplayed, hsame⟩ := h.image
  have himage : image = withIndex s.live image.assignmentsBySubject := by
    rw [hplayed] at hplay
    cases hplay
    exact hsame.symm.eq_withIndex
  rw [himage]
  exact ⟨{ h.counted with }, h.limits, h.healthy⟩

theorem serves_resumed {image : StateImage} (h : Serves s ledger mutations)
    {front : List (List JournalRecord)} {records : List JournalRecord}
    (hcursor : Cursor s ledger front records)
    (hplay : playback ledger.base mutations = .ok image)
    (hmeasurable : Measurable (withLock s.dir s.store.options) s.store.options.limits) :
    Serves (resumed (withLock s.dir s.store.options) s.store.options s.store.key
      (ledger.manifest.firstSegment + front.length) image) ledger mutations := by
  obtain ⟨hcounted, hlimits, hhealthy⟩ := Serves.replayed h hplay
  have hindex := hcursor.index_le
  rw [hcursor.index] at hindex
  refine
    { journal :=
        { cursor := ⟨front, records, cursor_resumed image hcursor.admissible
            (Holds.withLock hcursor.holds _) hcursor.last hindex hmeasurable⟩
          opened := rfl
          records := h.journal.records
          carried := h.journal.carried
          next := ?_ }
      image := ⟨image, hplay, SameState.refl _⟩
      counted := hcounted
      limits := hlimits
      healthy := hhealthy }
  change image.lastSequence + 1 = _
  rw [← h.journal.next_eq hplay, h.journal.next]

/-- A store can be opened again from its directory, also when a further record was
begun. -/
theorem Serves.reopen_torn (h : Serves s ledger mutations)
    {front : List (List JournalRecord)} {records : List JournalRecord} {tail : Bytes}
    (hcursor : Cursor s ledger front records)
    (hfits : SegmentFits s.store.options.limits s.store.key records tail.length)
    (htail : TornTail s.store.key s.store.options.limits tail)
    (entropy : List.Vector UInt8 storeKeyBytes) :
    ∃ opened, openStore (appendBytes s.dir s.store tail) s.store.options entropy =
        .ok opened ∧
      opened.report.health = .healthy ∧ opened.store.options = s.store.options ∧
      opened.dir = withLock s.dir s.store.options ∧
      playback ledger.base mutations = .ok opened.image ∧
      (Measurable (withLock s.dir s.store.options) s.store.options.limits →
        Serves (openedState opened) ledger mutations) := by
  obtain ⟨image, hplay, -⟩ := h.image
  obtain ⟨opened, hopen, hreport, hstate⟩ := Cursor.reopen hcursor (h.journal.runs hplay)
    (Serves.replayed h hplay).2.2 hfits htail entropy
  have himage : opened.image = image := congrArg StoreState.live hstate
  refine ⟨opened, hopen, hreport, congrArg (·.store.options) hstate,
    congrArg StoreState.dir hstate, ?_, ?_⟩
  · rw [himage]
    exact hplay
  · intro hmeasurable
    rw [hstate]
    exact serves_resumed h hcursor hplay hmeasurable

theorem Serves.reopen (h : Serves s ledger mutations)
    (entropy : List.Vector UInt8 storeKeyBytes) :
    ∃ opened, openStore s.dir s.store.options entropy = .ok opened ∧
      opened.report.health = .healthy ∧ opened.store.options = s.store.options ∧
      opened.dir = withLock s.dir s.store.options ∧
      playback ledger.base mutations = .ok opened.image ∧
      (Measurable (withLock s.dir s.store.options) s.store.options.limits →
        Serves (openedState opened) ledger mutations) := by
  obtain ⟨front, records, hcursor⟩ := h.journal.cursor
  have hfits : SegmentFits s.store.options.limits s.store.key records
      ([] : Bytes).length := hcursor.holds.fits records (by rw [hcursor.last]; simp)
  have hreopen := Serves.reopen_torn h hcursor hfits (tornTail_nil _ _) entropy
  rwa [Cursor.appendBytes_nil hcursor] at hreopen

end Reopen

section Unfinished

variable {s : StoreState} {ledger : Ledger} {image : StateImage} {applied : Nat}
  {left : Mutation}

/-- A pending record without its commit does not stop the opening, and stays. -/
theorem Dangling.reopen_torn (h : Dangling s ledger image applied left)
    (hhealth : image.health = .healthy)
    {front : List (List JournalRecord)} {records : List JournalRecord} {tail : Bytes}
    (hcursor : Cursor s ledger front records)
    (hfits : SegmentFits s.store.options.limits s.store.key records tail.length)
    (htail : TornTail s.store.key s.store.options.limits tail)
    (entropy : List.Vector UInt8 storeKeyBytes) :
    ∃ opened, openStore (appendBytes s.dir s.store tail) s.store.options entropy =
        .ok opened ∧
      opened.report.health = .healthy ∧
      openedState opened = resumed (withLock s.dir s.store.options) s.store.options
        s.store.key s.store.segmentIndex image ∧
      (Measurable (withLock s.dir s.store.options) s.store.options.limits →
        Dangling (openedState opened) ledger image applied left) := by
  obtain ⟨opened, hopen, hreport, hstate⟩ := Cursor.reopen hcursor h.runs_pending hhealth
    hfits htail entropy
  refine ⟨opened, hopen, hreport, ?_, ?_⟩
  · rw [hcursor.index]
    exact hstate
  intro hmeasurable
  have hindex := hcursor.index_le
  rw [hcursor.index] at hindex
  obtain ⟨settled, hruns, hrecords⟩ := h.runs
  rw [h.next] at hrecords
  rw [hstate]
  refine ⟨⟨front, records, cursor_resumed image hcursor.admissible
    (Holds.withLock hcursor.holds _) hcursor.last hindex hmeasurable⟩,
    ⟨settled, hruns, hrecords⟩, rfl⟩

theorem Dangling.reopen (h : Dangling s ledger image applied left)
    (hhealth : image.health = .healthy) (entropy : List.Vector UInt8 storeKeyBytes) :
    ∃ opened, openStore s.dir s.store.options entropy = .ok opened ∧
      opened.report.health = .healthy ∧
      openedState opened = resumed (withLock s.dir s.store.options) s.store.options
        s.store.key s.store.segmentIndex image ∧
      (Measurable (withLock s.dir s.store.options) s.store.options.limits →
        Dangling (openedState opened) ledger image applied left) := by
  obtain ⟨front, records, hcursor⟩ := h.cursor
  have hfits : SegmentFits s.store.options.limits s.store.key records
      ([] : Bytes).length := hcursor.holds.fits records (by rw [hcursor.last]; simp)
  have hreopen := Dangling.reopen_torn h hhealth hcursor hfits (tornTail_nil _ _) entropy
  rwa [Cursor.appendBytes_nil hcursor] at hreopen

theorem Broken.reopen {opened : Opened} {entropy : List.Vector UInt8 storeKeyBytes}
    (h : Broken s ledger) (hopen : openStore s.dir s.store.options entropy = .ok opened) :
    opened.report.health = .degraded := by
  obtain ⟨front, records, hcursor⟩ := h.cursor
  obtain ⟨stopped, hstops⟩ := h.stops
  have hholds := Holds.withLock hcursor.holds s.store.options
  obtain ⟨replayed, hreplay, hdegraded⟩ := replay_of_holds_stops hholds hstops
  have hresume : openStore s.dir s.store.options entropy =
      resumeStore (withLock s.dir s.store.options) s.store.options := by
    simp only [openStore, hcursor.admissible, contains_of_getElem? hholds.manifest_file, failIf,
      Bool.true_eq_false, if_false, bind, Except.bind]
  rw [hresume, resumeStore] at hopen
  simp only [hholds.key_file, hreplay, bind, Except.bind, pure, Except.pure,
    Except.ok.injEq] at hopen
  rw [← hopen]
  simp only
  split
  · rfl
  · exact hdegraded

end Unfinished

end PriorityFabric.Reopening
