import PriorityFabric.Connections
import PriorityFabric.Inspection
import PriorityFabric.Republication
import PriorityFabric.Snapshots

/-!
The segments a store appends to and the segments replay reads.

Replay starts at the segment the manifest names, opening resumes on the highest one
there is, and a checkpoint moves the manifest before it creates the new segment.
-/

namespace PriorityFabric.Selection

open PriorityFabric.Lib.LittleEndian
open PriorityFabric.Lib.KeyedTable (getElem?_insert_of_ne)
open PriorityFabric.Basics
open PriorityFabric.Ident
open PriorityFabric.Model
open PriorityFabric.State
open PriorityFabric.StateCodec
open PriorityFabric.StateRoundTrip
open PriorityFabric.Apply
open PriorityFabric.Durability
open PriorityFabric.Bounds
open PriorityFabric.Store
open PriorityFabric.StoreFiles
open PriorityFabric.StateDirectory
open PriorityFabric.Committing
open PriorityFabric.CommitRuns (zeroKey systemAdvance)
open PriorityFabric.Reopening
open PriorityFabric.Inspection
open PriorityFabric.Readable (Planned planCommit_eq_ok_iff)
open PriorityFabric.Serving (planOf)
open PriorityFabric.Republication (FilesWithin)
open PriorityFabric.Connections (commit_of_journals)
open PriorityFabric.Calls
open PriorityFabric.Checkpoints
open PriorityFabric.Snapshots

/-! ## Histories -/

/-- A state directory, or the store that is open on it. -/
inductive Site where
  | closed (dir : Directory)
  | running (s : StoreState)

def Site.dir : Site → Directory
  | .closed dir => dir
  | .running s => s.dir

/-- How far a checkpoint had come when its process ended. -/
inductive Stage where
  | snapshotReplaced
  | manifestReplaced
  | segmentOpened (removed : Nat)
  deriving DecidableEq

/-- A checkpoint gets as far as its snapshot. -/
structure Folds (s : StoreState) : Prop where
  isOpen : s.store.isOpen = true
  healthy : s.live.health = .healthy
  size : (encodeState s.live).length ≤ s.store.options.limits.maxStateBytes

/-- The segment counter has no room for a checkpoint. -/
def CounterSpent (s : StoreState) : Prop :=
  s.store.options.limits.maxJournalSegments ≤
    ((s.store.segmentIndex + 1) % 2 ^ 32 + 1) % 2 ^ 32

instance (s : StoreState) : Decidable (CounterSpent s) := inferInstanceAs (Decidable (_ ≤ _))

/-- What is on the disk at a stage; a spent counter ends the checkpoint after its manifest. -/
def stageDir (s : StoreState) : Stage → Directory
  | .snapshotReplaced => snapshotDir s
  | .manifestReplaced => manifestDir s
  | .segmentOpened removed =>
      if CounterSpent s then manifestDir s
      else removeSegments (segmentDir s) (min removed (retiredSegments s))

/-- What happens to a store.  `changes` stands for whatever the owner of the image does to
it, `leaves` for a close and for a crash between two operations. -/
inductive Act where
  | opens (options : Options) (entropy : List.Vector UInt8 storeKeyBytes)
  | commits (mutation : Mutation) (pendingWrite commitWrite : WriteOutcome)
  | changes (image : StateImage)
  | verifies
  | checkpoints
  | crashes (stage : Stage)
  | leaves

def opening (dir : Directory) (options : Options)
    (entropy : List.Vector UInt8 storeKeyBytes) : Site :=
  match openStore dir options entropy with
  | .ok opened => .running (openedState opened)
  | .error _ => .closed (withLock dir options)

def verifying (s : StoreState) : StoreState :=
  match verify s with
  | .ok (_, dir) => { s with dir }
  | .error _ => s

/-- The directory a crash in a checkpoint leaves. -/
def crashing (s : StoreState) (stage : Stage) : Directory :=
  match withSnapshot s with
  | .ok _ => stageDir s stage
  | .error _ => s.dir

def Act.onStore (s : StoreState) : Act → Site
  | .opens _ _ => .running s
  | .commits mutation pendingWrite commitWrite =>
      .running (commitWriting s mutation pendingWrite commitWrite).2
  | .changes image => .running { s with live := image }
  | .verifies => .running (verifying s)
  | .checkpoints => .running (checkpoint s).2
  | .crashes stage => .closed (crashing s stage)
  | .leaves => .closed s.dir

def Site.after : Site → Act → Site
  | .closed dir, .opens options entropy => opening dir options entropy
  | .closed dir, _ => .closed dir
  | .running s, act => act.onStore s

def Site.course (site : Site) (acts : List Act) : Site := acts.foldl Site.after site

/-- The checkpoint stops between its manifest and the segment the manifest names. -/
def StopsShort : Site → Act → Prop
  | .running s, .checkpoints => Folds s ∧ CounterSpent s
  | .running s, .crashes stage =>
      Folds s ∧ (stage = .manifestReplaced ∨ stage ≠ .snapshotReplaced ∧ CounterSpent s)
  | _, _ => False

/-- No checkpoint of the history stops short. -/
def Unbroken : Site → List Act → Prop
  | _, [] => True
  | site, act :: acts => ¬ StopsShort site act ∧ Unbroken (site.after act) acts

/-! ## What holds between acts -/

/-- A directory with its key and manifest, a segment the manifest refers to, and segments
that stay until the manifest has passed them. -/
structure Linked (held : List Nat) (dir : Directory) (key : Bytes) (manifest : Manifest)
    (index : Nat) : Prop where
  key_file : readStoreKey dir = .ok key
  manifest_file : dir[manifestName]? = some (encodeManifest key manifest)
  fits : Manifest.Fits manifest
  selected : manifest.firstSegment ≤ index
  segment : journalSegmentName index ∈ dir
  index_lt : index < 1024
  bound : ∀ name ∈ dir, ∀ i, parseJournalSegmentName name = some i → i < 1024
  held : ∀ i ∈ held, i < 1024 ∧ (journalSegmentName i ∈ dir ∨ i < manifest.firstSegment)

/-- The directory has not become a store, or it is linked. -/
def LinkedDir (held : List Nat) (dir : Directory) : Prop :=
  dir.contains manifestName = false ∧ held = [] ∨
    ∃ key manifest index, Linked held dir key manifest index

structure LinkedStore (held : List Nat) (s : StoreState) : Prop where
  admissible : limitsWithinCompiledCeiling s.store.options.limits = true
  linked : ∃ manifest, Linked held s.dir s.store.key manifest s.store.segmentIndex

def LinkedSite (held : List Nat) : Site → Prop
  | .closed dir => LinkedDir held dir
  | .running s => LinkedStore held s

/-- Nothing happens to the key, the manifest and the names of the segments. -/
structure SameLinks (dir dir' : Directory) : Prop where
  key : dir'[keyName]? = dir[keyName]?
  manifest : dir'[manifestName]? = dir[manifestName]?
  kept : ∀ name ∈ dir, name ∈ dir'
  names : ∀ name ∈ dir', ∀ i, parseJournalSegmentName name = some i → name ∈ dir

theorem mem_of_mem_removeSegments {dir : Directory} {count : Nat} {name : Bytes}
    (h : name ∈ removeSegments dir count) : name ∈ dir := by
  induction count with
  | zero => exact h
  | succ count ih =>
      rw [removeSegments_succ, Std.ExtTreeMap.mem_erase] at h
      exact ih h.2

section Links

variable {held : List Nat} {dir dir' : Directory} {key : Bytes} {manifest : Manifest}
  {index : Nat}

theorem SameLinks.refl (dir : Directory) : SameLinks dir dir :=
  ⟨rfl, rfl, fun _ h => h, fun _ h _ _ => h⟩

theorem Linked.congr (h : Linked held dir key manifest index) (hsame : SameLinks dir dir') :
    Linked held dir' key manifest index where
  key_file := by
    rw [readStoreKey_congr hsame.key]
    exact h.key_file
  manifest_file := hsame.manifest.trans h.manifest_file
  fits := h.fits
  selected := h.selected
  segment := hsame.kept _ h.segment
  index_lt := h.index_lt
  bound := fun name hname i hparse => h.bound name (hsame.names name hname i hparse) i hparse
  held := fun i hi => ⟨(h.held i hi).1, (h.held i hi).2.imp_left (hsame.kept _)⟩

theorem sameLinks_insert {name : Bytes} (hparse : parseJournalSegmentName name = none)
    (hkey : name ≠ keyName) (hmanifest : name ≠ manifestName) (content : Bytes) :
    SameLinks dir (dir.insert name content) where
  key := getElem?_insert_of_ne _ hkey
  manifest := getElem?_insert_of_ne _ hmanifest
  kept := fun other h => Std.ExtTreeMap.mem_insert.mpr (.inr h)
  names := by
    intro other h i hother
    rcases Std.ExtTreeMap.mem_insert.mp h with heq | h
    · rw [← Std.LawfulEqOrd.eq_of_compare heq, hparse] at hother
      cases hother
    · exact h

theorem sameLinks_segment {i : Nat} (hi : i < 2 ^ 32) (hmem : journalSegmentName i ∈ dir)
    (content : Bytes) : SameLinks dir (dir.insert (journalSegmentName i) content) where
  key := getElem?_insert_of_ne _ (journalSegmentName_ne hi parse_keyName)
  manifest := getElem?_insert_of_ne _ (journalSegmentName_ne hi parse_manifestName)
  kept := fun other h => Std.ExtTreeMap.mem_insert.mpr (.inr h)
  names := by
    intro other h i' hother
    rcases Std.ExtTreeMap.mem_insert.mp h with heq | h
    · rw [← Std.LawfulEqOrd.eq_of_compare heq]
      exact hmem
    · exact h

theorem sameLinks_withLock (dir : Directory) (options : Options) :
    SameLinks dir (withLock dir options) := by
  unfold withLock
  split
  · by_cases hmem : lockName ∈ dir
    · rw [openAppend_of_mem hmem]
      exact .refl dir
    · rw [openAppend_of_not_mem hmem]
      exact sameLinks_insert parse_lockName (by decide) (by decide) []
  · exact .refl dir

theorem sameLinks_replaySegments {limits : Limits} {segments : List Nat}
    {replay finished : Replay} (hsegments : ∀ i ∈ segments, i < 2 ^ 32)
    (h : replaySegments limits key segments dir replay = .ok (dir', finished)) :
    SameLinks dir dir' := by
  induction segments generalizing replay with
  | nil =>
      cases h
      exact .refl dir
  | cons i rest ih =>
      simp only [replaySegments, bind_eq_ok] at h
      obtain ⟨scan, hscan, h⟩ := h
      split at h
      · cases h
        exact .refl dir
      · split at h
        · split at h
          · cases h
            obtain ⟨content, hfile, -⟩ := trailingBytes_le hscan
            have hmem : journalSegmentName i ∈ dir := by
              rw [Std.ExtTreeMap.mem_iff_isSome_getElem?, hfile]
              rfl
            exact sameLinks_segment (hsegments i List.mem_cons_self) hmem _
          · cases h
            exact .refl dir
        · exact ih (fun j hj => hsegments j (List.mem_cons_of_mem _ hj)) h

theorem mem_discoverSegments {first i : Nat} :
    i ∈ discoverSegments dir first ↔
      first ≤ i ∧ ∃ name ∈ dir, parseJournalSegmentName name = some i := by
  simp only [discoverSegments, List.mem_mergeSort, List.mem_filter, decide_eq_true_eq,
    mem_segmentIndices, and_comm]

theorem Linked.replay {options : Options} {replayed : Replayed}
    (h : Linked held dir key manifest index)
    (hreplay : replay dir options key = .ok replayed) : SameLinks dir replayed.dir := by
  rw [replay_eq_ok_iff, if_pos (contains_of_getElem? h.manifest_file)] at hreplay
  obtain ⟨found, start, finished, -, -, -, hsegments, -⟩ := hreplay
  refine sameLinks_replaySegments (fun i hi => ?_) hsegments
  obtain ⟨-, name, hname, hparse⟩ := mem_discoverSegments.mp hi
  exact (h.bound name hname i hparse).trans (by norm_num)

theorem linked_openAppend (hkey : readStoreKey dir = .ok key)
    (hmanifest : dir[manifestName]? = some (encodeManifest key manifest))
    (hfits : Manifest.Fits manifest)
    (hbound : ∀ name ∈ dir, ∀ i, parseJournalSegmentName name = some i → i < 1024)
    (hheld : ∀ i ∈ held, i < 1024 ∧ (journalSegmentName i ∈ dir ∨ i < manifest.firstSegment))
    (hfirst : manifest.firstSegment ≤ index) (hlt : index < 1024) :
    Linked held (openAppend dir (journalSegmentName index)) key manifest index := by
  have hother {name : Bytes} (hname : parseJournalSegmentName name = none) :
      (openAppend dir (journalSegmentName index))[name]? = dir[name]? :=
    getElem?_openAppend_of_ne (journalSegmentName_ne (hlt.trans (by norm_num)) hname)
  have hmem {name : Bytes} : name ∈ openAppend dir (journalSegmentName index) ↔
      journalSegmentName index = name ∨ name ∈ dir := by
    rw [openAppend, Std.ExtTreeMap.mem_insertIfNew, Std.LawfulEqOrd.compare_eq_iff_eq]
  constructor
  · rw [readStoreKey_congr (hother parse_keyName)]
    exact hkey
  · exact (hother parse_manifestName).trans hmanifest
  · exact hfits
  · exact hfirst
  · exact hmem.mpr (.inl rfl)
  · exact hlt
  · intro name hname i hparse
    rcases hmem.mp hname with rfl | hname
    · rw [parseJournalSegmentName_journalSegmentName (hlt.trans (by norm_num))] at hparse
      cases hparse
      exact hlt
    · exact hbound name hname i hparse
  · exact fun i hi => ⟨(hheld i hi).1, (hheld i hi).2.imp_left (hmem.mpr <| .inr ·)⟩

theorem Linked.removeSegments (h : Linked held dir key manifest index) {count : Nat}
    (hcount : count ≤ manifest.firstSegment) :
    Linked held (removeSegments dir count) key manifest index := by
  have hfirst := h.selected
  have hlt := h.index_lt
  have hother {name : Bytes} (hname : parseJournalSegmentName name = none) :
      (Store.removeSegments dir count)[name]? = dir[name]? :=
    getElem?_removeSegments fun i hi => journalSegmentName_ne (by omega) hname
  have hstays {i : Nat} (hi : i < 1024) (hpassed : count ≤ i)
      (hmem : journalSegmentName i ∈ dir) :
      journalSegmentName i ∈ Store.removeSegments dir count := by
    rw [Std.ExtTreeMap.mem_iff_isSome_getElem?] at hmem ⊢
    rw [getElem?_removeSegments]
    · exact hmem
    · intro j hj heq
      have := journalSegmentName_injective (by omega) (by omega) heq
      omega
  constructor
  · rw [readStoreKey_congr (hother parse_keyName)]
    exact h.key_file
  · exact (hother parse_manifestName).trans h.manifest_file
  · exact h.fits
  · exact hfirst
  · exact hstays hlt (by omega) h.segment
  · exact hlt
  · exact fun name hname => h.bound name (mem_of_mem_removeSegments hname)
  · intro i hi
    obtain ⟨hi, hmem | hpassed⟩ := h.held i hi
    · by_cases hle : count ≤ i
      · exact ⟨hi, .inl (hstays hi hle hmem)⟩
      · exact ⟨hi, .inr (by omega)⟩
    · exact ⟨hi, .inr hpassed⟩

theorem linkedDir_congr (h : LinkedDir held dir) (hsame : SameLinks dir dir') :
    LinkedDir held dir' := by
  rcases h with ⟨hfresh, hheld⟩ | ⟨key, manifest, index, hlinked⟩
  · refine .inl ⟨?_, hheld⟩
    rw [Std.ExtTreeMap.contains_eq_isSome_getElem?, hsame.manifest,
      ← Std.ExtTreeMap.contains_eq_isSome_getElem?]
    exact hfresh
  · exact .inr ⟨key, manifest, index, hlinked.congr hsame⟩

end Links

/-! ## Opening -/

theorem foldl_max_bounds (indices : List Nat) (start : Nat) :
    start ≤ indices.foldl max start ∧ (∀ i ∈ indices, i ≤ indices.foldl max start) ∧
      (indices.foldl max start = start ∨ indices.foldl max start ∈ indices) := by
  induction indices generalizing start with
  | nil => simp
  | cons index indices ih =>
      obtain ⟨hstart, hle, hmem⟩ := ih (max start index)
      rw [List.foldl_cons]
      refine ⟨by omega, ?_, ?_⟩
      · intro i hi
        rcases List.mem_cons.mp hi with rfl | hi
        · omega
        · exact hle i hi
      · rcases hmem with heq | hmem
        · rcases max_choice start index with hmax | hmax
          · exact .inl (heq.trans hmax)
          · rw [heq, hmax]
            exact .inr List.mem_cons_self
        · exact .inr (List.mem_cons_of_mem _ hmem)

section Opens

variable {held : List Nat} {dir : Directory} {options : Options}
  {entropy : List.Vector UInt8 storeKeyBytes} {opened : Opened}

theorem linked_createStore (hlimits : limitsWithinCompiledCeiling options.limits = true)
    (h : createStore dir options entropy = .ok opened) : LinkedStore [] (openedState opened) := by
  simp only [createStore, bind_eq_ok, failIf_eq_ok, exists_const, pure, Except.pure,
    Except.ok.injEq, not_not, ne_eq] at h
  obtain ⟨-, hstray, ⟨key, keyed⟩, hkey, rfl⟩ := h
  obtain ⟨hread, hmem⟩ := obtainKey_eq_ok hkey
  have hunclaimed := unclaimed_writeManifest key hstray hmem
  have hkeyed : readStoreKey (writeManifest keyed key {}) = .ok key := by
    rw [writeManifest, readStoreKey_congr (getElem?_insert_of_ne _ (by decide))]
    exact hread
  exact ⟨hlimits, {}, linked_openAppend hkeyed Std.ExtTreeMap.getElem?_insert_self
    ⟨by norm_num, by norm_num⟩
    (fun name hname i hparse => absurd hparse (hunclaimed name hname i))
    (fun i hi => absurd hi List.not_mem_nil) (Nat.zero_le _) (by norm_num)⟩

theorem linked_resumeStore {key : Bytes} {manifest : Manifest} {index : Nat}
    (hlimits : limitsWithinCompiledCeiling options.limits = true)
    (hlinked : Linked held dir key manifest index) (h : resumeStore dir options = .ok opened) :
    LinkedStore held (openedState opened) := by
  simp only [resumeStore, bind_eq_ok, pure, Except.pure, Except.ok.injEq] at h
  obtain ⟨found, hkey, replayed, hreplay, rfl⟩ := h
  obtain rfl : found = key := by
    rw [hlinked.key_file] at hkey
    exact (Except.ok.inj hkey).symm
  have hafter := hlinked.congr (hlinked.replay hreplay)
  obtain ⟨-, hle, hchoice⟩ := foldl_max_bounds (segmentIndices replayed.dir) 0
  have hparse : parseJournalSegmentName (journalSegmentName index) = some index :=
    parseJournalSegmentName_journalSegmentName (hlinked.index_lt.trans (by norm_num))
  have hindex := hle index (mem_segmentIndices.mpr ⟨_, hafter.segment, hparse⟩)
  have hlt : (segmentIndices replayed.dir).foldl max 0 < 1024 := by
    rcases hchoice with hzero | hmem
    · rw [hzero]
      norm_num
    · obtain ⟨name, hname, hclaims⟩ := mem_segmentIndices.mp hmem
      exact hafter.bound name hname _ hclaims
  exact ⟨hlimits, manifest, linked_openAppend hafter.key_file hafter.manifest_file hafter.fits
    hafter.bound hafter.held (hafter.selected.trans hindex) hlt⟩

theorem linked_openStore (hdir : LinkedDir held dir)
    (h : openStore dir options entropy = .ok opened) : LinkedStore held (openedState opened) := by
  obtain ⟨hlimits, -⟩ := openStore_options h
  rcases hdir with ⟨hfresh, rfl⟩ | ⟨key, manifest, index, hlinked⟩
  · exact linked_createStore hlimits (createStore_of_openStore hfresh h).2
  · have hlocked := hlinked.congr (sameLinks_withLock dir options)
    have hpresent := contains_of_getElem? hlocked.manifest_file
    simp only [openStore, bind_eq_ok, failIf_eq_ok, exists_const, Bool.not_eq_false, hpresent,
      Bool.true_eq_false, if_false] at h
    exact linked_resumeStore hlimits hlocked h.2

end Opens

/-! ## Committing -/

/-- What an append may do: the bytes of the current segment change. -/
structure Appended (dir : Directory) (store : DurableStore) (dir' : Directory)
    (store' : DurableStore) : Prop where
  links : SameLinks dir dir'
  snapshot : dir'[snapshotName]? = dir[snapshotName]?
  key : store'.key = store.key
  index : store'.segmentIndex = store.segmentIndex

section Commits

variable {held : List Nat} {s : StoreState} {manifest : Manifest}

theorem appended_appendRecord {dir : Directory} {store : DurableStore}
    (hlt : store.segmentIndex < 2 ^ 32) (hmem : journalSegmentName store.segmentIndex ∈ dir)
    (record : Bytes) (outcome : WriteOutcome) :
    Appended dir store (appendRecord dir store record outcome).2.1
      (appendRecord dir store record outcome).2.2 := by
  have hbytes (bytes : Bytes) : Appended dir store (appendBytes dir store bytes) store :=
    ⟨sameLinks_segment hlt hmem _, getElem?_insert_of_ne _ (journalSegmentName_ne hlt
      parse_snapshotName), rfl, rfl⟩
  unfold appendRecord
  split
  · exact ⟨.refl dir, rfl, rfl, rfl⟩
  · cases outcome with
    | complete => exact { hbytes record with }
    | short written => exact hbytes (record.take written)
    | unflushed => exact hbytes record

theorem SameLinks.trans {dir dir' dir'' : Directory} (h : SameLinks dir dir')
    (h' : SameLinks dir' dir'') : SameLinks dir dir'' where
  key := h'.key.trans h.key
  manifest := h'.manifest.trans h.manifest
  kept := fun name hname => h'.kept name (h.kept name hname)
  names := fun name hname i hparse => h.names name (h'.names name hname i hparse) i hparse

theorem appended_journalCommit (hlt : s.store.segmentIndex < 2 ^ 32)
    (hmem : journalSegmentName s.store.segmentIndex ∈ s.dir) (planned : Mutation)
    (pendingWrite commitWrite : WriteOutcome) :
    Appended s.dir s.store (journalCommit s planned pendingWrite commitWrite).2.dir
      (journalCommit s planned pendingWrite commitWrite).2.store := by
  have hpending := appended_appendRecord hlt hmem
    (encodeJournalRecord (pendingRecord s.store.nextSequence planned) s.store.key) pendingWrite
  simp only [journalCommit]
  generalize appendRecord s.dir s.store (encodeJournalRecord (pendingRecord
    s.store.nextSequence planned) s.store.key) pendingWrite = first at hpending ⊢
  obtain ⟨status, dir, store⟩ := first
  cases status with
  | error e => exact hpending
  | ok u =>
      simp only
      generalize applyMutation s.live planned false = applied
      obtain ⟨applyStatus, live⟩ := applied
      cases applyStatus with
      | error e => exact { hpending with }
      | ok u =>
          simp only
          split
          · exact { hpending with }
          · have hindex : store.segmentIndex = s.store.segmentIndex := hpending.index
            have hcommit := @appended_appendRecord dir
              { store with journalRecords := store.journalRecords + 1 } (by rwa [hindex])
              (by rw [hindex]; exact hpending.links.kept _ hmem)
              (encodeJournalRecord (commitRecord s.store.nextSequence planned) store.key)
              commitWrite
            generalize appendRecord dir { store with journalRecords := store.journalRecords + 1 }
              (encodeJournalRecord (commitRecord s.store.nextSequence planned) store.key)
              commitWrite = second at hcommit ⊢
            obtain ⟨status, dir', store'⟩ := second
            have hboth : Appended s.dir s.store dir' store' :=
              ⟨hpending.links.trans hcommit.links, hcommit.snapshot.trans hpending.snapshot,
                hcommit.key.trans hpending.key, hcommit.index.trans hpending.index⟩
            cases status with
            | error e => exact hboth
            | ok u => exact { hboth with }

theorem linked_rolled (hlimits : limitsWithinCompiledCeiling s.store.options.limits = true)
    (h : Linked held s.dir s.store.key manifest s.store.segmentIndex) {dir : Directory}
    {store : DurableStore} (hroll : rollSegmentIfNeeded s.dir s.store = .ok (dir, store)) :
    Linked held dir store.key manifest store.segmentIndex := by
  obtain ⟨-, -, -, -, -, hsegments⟩ := limits_bounds_of_within hlimits
  have hlt := h.index_lt
  have hfirst := h.selected
  unfold rollSegmentIfNeeded at hroll
  split at hroll
  · cases hroll
    exact h
  · simp only [bind_eq_ok, failIf_eq_ok, exists_const, pure, Except.pure, Except.ok.injEq,
      Prod.mk.injEq] at hroll
    obtain ⟨hroom, rfl, rfl⟩ := hroll
    exact linked_openAppend h.key_file h.manifest_file h.fits h.bound h.held
      (by omega) (by omega)

theorem linked_commitWriting (h : LinkedStore held s) (mutation : Mutation)
    (pendingWrite commitWrite : WriteOutcome) :
    LinkedStore held (commitWriting s mutation pendingWrite commitWrite).2 := by
  refine ⟨?_, ?_⟩
  · rw [commitWriting_options]
    exact h.admissible
  · obtain ⟨manifest, hlinked⟩ := h.linked
    unfold commitWriting
    cases planCommit s.store s.live mutation with
    | error e => exact ⟨manifest, hlinked⟩
    | ok planned =>
        simp only
        cases hroll : rollSegmentIfNeeded s.dir s.store with
        | error e => exact ⟨manifest, hlinked⟩
        | ok rolled =>
            obtain ⟨dir, store⟩ := rolled
            have hrolled := linked_rolled h.admissible hlinked hroll
            have happended := @appended_journalCommit { s with dir, store }
              (hrolled.index_lt.trans (by norm_num)) hrolled.segment planned pendingWrite
              commitWrite
            refine ⟨manifest, ?_⟩
            rw [happended.key, happended.index]
            exact hrolled.congr happended.links

end Commits

/-! ## Checkpoints -/

section Folding

variable {held : List Nat} {s : StoreState}

theorem withSnapshot_iff {dir : Directory} :
    withSnapshot s = .ok dir ↔ Folds s ∧ dir = snapshotDir s := by
  rw [withSnapshot_eq_ok]
  constructor
  · rintro ⟨hopen, hhealth, hbytes, hdir⟩
    exact ⟨⟨hopen, hhealth, hbytes⟩, hdir⟩
  · rintro ⟨⟨hopen, hhealth, hbytes⟩, hdir⟩
    exact ⟨hopen, hhealth, hbytes, hdir⟩

theorem getElem?_manifestDir {name : Bytes} (hmanifest : name ≠ manifestName)
    (hsnapshot : name ≠ snapshotName) : (manifestDir s)[name]? = s.dir[name]? := by
  rw [manifestDir, withManifest, writeManifest, getElem?_insert_of_ne _ hmanifest.symm,
    snapshotDir, getElem?_insert_of_ne _ hsnapshot.symm]

theorem readStoreKey_manifestDir : readStoreKey (manifestDir s) = readStoreKey s.dir :=
  readStoreKey_congr (getElem?_manifestDir (by decide) (by decide))

theorem mem_manifestDir {name : Bytes} {i : Nat} (hparse : parseJournalSegmentName name = some i) :
    name ∈ manifestDir s ↔ name ∈ s.dir := by
  rw [Std.ExtTreeMap.mem_iff_isSome_getElem?, Std.ExtTreeMap.mem_iff_isSome_getElem?,
    getElem?_manifestDir]
  · rintro rfl
    rw [parse_manifestName] at hparse
    cases hparse
  · rintro rfl
    rw [parse_snapshotName] at hparse
    cases hparse

theorem linked_segmentDir (h : LinkedStore held s) (hfolds : Folds s) (hroom : ¬ CounterSpent s)
    {count : Nat} (hcount : count ≤ retiredSegments s) :
    Linked held (removeSegments (segmentDir s) count) s.store.key
      (checkpointManifest (snapshotDir s) s) ((s.store.segmentIndex + 1) % 2 ^ 32) := by
  obtain ⟨manifest, hlinked⟩ := h.linked
  have hbytes := hfolds.size
  obtain ⟨-, -, -, -, -, hsegments⟩ := limits_bounds_of_within h.admissible
  have hlt := hlinked.index_lt
  have hselected := hlinked.selected
  have hnext : (s.store.segmentIndex + 1) % 2 ^ 32 = s.store.segmentIndex + 1 := by omega
  have hfirst : (checkpointManifest (snapshotDir s) s).firstSegment =
      s.store.segmentIndex + 1 := hnext
  have hspace : s.store.segmentIndex + 1 < 1024 := by
    unfold CounterSpent at hroom
    omega
  have hretired : retiredSegments s ≤ s.store.segmentIndex + 1 := Nat.min_le_left _ _
  refine Linked.removeSegments (linked_openAppend ?_ manifest_manifestDir
    (fits_checkpointManifest h.admissible hbytes) ?_ ?_ (le_refl _) (by omega)) (by omega)
  · rw [readStoreKey_manifestDir]
    exact hlinked.key_file
  · exact fun name hname i hparse => hlinked.bound name ((mem_manifestDir hparse).mp hname) i hparse
  · intro i hi
    obtain ⟨hi, hmem | hpassed⟩ := hlinked.held i hi
    · have hparse : parseJournalSegmentName (journalSegmentName i) = some i :=
        parseJournalSegmentName_journalSegmentName (hi.trans (by norm_num))
      exact ⟨hi, .inl ((mem_manifestDir hparse).mpr hmem)⟩
    · exact ⟨hi, .inr (by omega)⟩

theorem linked_checkpoint (h : LinkedStore held s) (hroom : ¬ (Folds s ∧ CounterSpent s)) :
    LinkedStore held (checkpoint s).2 := by
  refine ⟨?_, ?_⟩
  · rw [checkpoint_options]
    exact h.admissible
  · unfold checkpoint
    cases hsnapshot : withSnapshot s with
    | error e => exact h.linked
    | ok dir =>
        obtain ⟨hfolds, rfl⟩ := withSnapshot_iff.mp hsnapshot
        have hspace : ¬ CounterSpent s := fun hspent => hroom ⟨hfolds, hspent⟩
        have hnext : ¬ ((s.store.segmentIndex + 1) % 2 ^ 32 + 1) % 2 ^ 32 ≥
            s.store.options.limits.maxJournalSegments := hspace
        have hopened := linked_segmentDir h hfolds hspace (le_refl _)
        simp only [hnext, if_false]
        exact ⟨_, hopened⟩

theorem linkedDir_stageDir (h : LinkedStore held s) (hfolds : Folds s) {stage : Stage}
    (hstage : ¬ (stage = .manifestReplaced ∨ stage ≠ .snapshotReplaced ∧ CounterSpent s)) :
    LinkedDir held (stageDir s stage) := by
  obtain ⟨manifest, hlinked⟩ := h.linked
  cases stage with
  | snapshotReplaced =>
      have hsame : SameLinks s.dir (snapshotDir s) :=
        sameLinks_insert parse_snapshotName (by decide) (by decide) _
      exact .inr ⟨_, _, _, hlinked.congr hsame⟩
  | manifestReplaced => simp at hstage
  | segmentOpened removed =>
      have hspace : ¬ CounterSpent s := fun hspent => hstage (.inr ⟨by simp, hspent⟩)
      rw [stageDir, if_neg hspace]
      exact .inr ⟨_, _, _, linked_segmentDir h hfolds hspace (Nat.min_le_right _ _)⟩

end Folding

/-! ## Runs -/

section Runs

variable {held : List Nat} {site : Site}

theorem linked_of_holding {i : Nat} (h : LinkedSite [i] site) :
    ∃ key manifest index, Linked [i] site.dir key manifest index := by
  cases site with
  | closed dir =>
      rcases h with ⟨-, hheld⟩ | hlinked
      · cases hheld
      · exact hlinked
  | running s =>
      obtain ⟨-, manifest, hlinked⟩ := h
      exact ⟨_, _, _, hlinked⟩

theorem linked_opening {dir : Directory} (h : LinkedDir held dir) (options : Options)
    (entropy : List.Vector UInt8 storeKeyBytes) :
    LinkedSite held (opening dir options entropy) := by
  unfold opening
  cases hopen : openStore dir options entropy with
  | ok opened => exact linked_openStore h hopen
  | error e => exact linkedDir_congr h (sameLinks_withLock dir options)

theorem linked_verifying {s : StoreState} (h : LinkedStore held s) :
    LinkedStore held (verifying s) := by
  obtain ⟨manifest, hlinked⟩ := h.linked
  unfold verifying
  cases hverify : verify s with
  | error e => exact h
  | ok found =>
      obtain ⟨report, dir⟩ := found
      obtain ⟨replayed, hreplay, rfl⟩ := dir_of_verify.mp ⟨report, hverify⟩
      exact ⟨h.admissible, manifest, hlinked.congr (hlinked.replay hreplay)⟩

theorem linked_crashing {s : StoreState} (h : LinkedStore held s) {stage : Stage}
    (hact : ¬ StopsShort (.running s) (.crashes stage)) : LinkedDir held (crashing s stage) := by
  obtain ⟨manifest, hlinked⟩ := h.linked
  unfold crashing
  cases hsnapshot : withSnapshot s with
  | error e => exact .inr ⟨_, _, _, hlinked⟩
  | ok dir =>
      obtain ⟨hfolds, -⟩ := withSnapshot_iff.mp hsnapshot
      exact linkedDir_stageDir h hfolds fun hstage => hact ⟨hfolds, hstage⟩

theorem linked_after (h : LinkedSite held site) {act : Act} (hact : ¬ StopsShort site act) :
    LinkedSite held (site.after act) := by
  cases site with
  | closed dir =>
      cases act with
      | opens options entropy => exact linked_opening h options entropy
      | _ => exact h
  | running s =>
      cases act with
      | opens options entropy => exact h
      | commits mutation pendingWrite commitWrite =>
          exact linked_commitWriting h mutation pendingWrite commitWrite
      | changes image => exact ⟨h.admissible, h.linked⟩
      | verifies => exact linked_verifying h
      | checkpoints => exact linked_checkpoint h hact
      | crashes stage => exact linked_crashing h hact
      | leaves =>
          obtain ⟨manifest, hlinked⟩ := h.linked
          exact .inr ⟨_, _, _, hlinked⟩

theorem linked_course (h : LinkedSite held site) {acts : List Act} (hacts : Unbroken site acts) :
    LinkedSite held (site.course acts) := by
  induction acts generalizing site with
  | nil => exact h
  | cons act acts ih => exact ih (linked_after h hacts.1) hacts.2

end Runs

theorem discovered_of_mem {dir : Directory} {first i : Nat} (hi : i < 1024)
    (hmem : journalSegmentName i ∈ dir) (hfirst : first ≤ i) : i ∈ discoverSegments dir first :=
  mem_discoverSegments.mpr
    ⟨hfirst, _, hmem, parseJournalSegmentName_journalSegmentName (hi.trans (by norm_num))⟩

/-- In a history in which no checkpoint stops short, an open store appends to a segment the
manifest refers to; and replay goes on to read that segment until a manifest has passed it. -/
theorem segment_selected {dir : Directory} (hnew : dir.contains manifestName = false)
    {acts : List Act} (hacts : Unbroken (.closed dir) acts) {s : StoreState}
    (hrun : (Site.closed dir).course acts = .running s) :
    ∃ manifest, readManifest s.dir s.store.key = .ok manifest ∧
      manifest.firstSegment ≤ s.store.segmentIndex ∧
      s.store.segmentIndex ∈ discoverSegments s.dir manifest.firstSegment ∧
      ∀ later, Unbroken (.running s) later →
        ∃ key manifest', readStoreKey ((Site.running s).course later).dir = .ok key ∧
          readManifest ((Site.running s).course later).dir key = .ok manifest' ∧
          (s.store.segmentIndex < manifest'.firstSegment ∨
            s.store.segmentIndex ∈ discoverSegments ((Site.running s).course later).dir
              manifest'.firstSegment) := by
  have hstart : LinkedSite [] (.closed dir) := .inl ⟨hnew, rfl⟩
  have hstore : LinkedStore [] s := by
    have hcourse := linked_course hstart hacts
    rwa [hrun] at hcourse
  obtain ⟨manifest, hlinked⟩ := hstore.linked
  refine ⟨manifest, readManifest_eq_ok hlinked.manifest_file hlinked.fits, hlinked.selected,
    discovered_of_mem hlinked.index_lt hlinked.segment hlinked.selected, fun later hlater => ?_⟩
  have hholding : LinkedSite [s.store.segmentIndex] (.running s) := by
    refine ⟨hstore.admissible, manifest, { hlinked with held := fun i hi => ?_ }⟩
    obtain rfl := List.mem_singleton.mp hi
    exact ⟨hlinked.index_lt, .inl hlinked.segment⟩
  obtain ⟨key, manifest', index, hafter⟩ := linked_of_holding (linked_course hholding hlater)
  obtain ⟨hlt, hheld⟩ := hafter.held _ List.mem_cons_self
  refine ⟨key, manifest', hafter.key_file, readManifest_eq_ok hafter.manifest_file hafter.fits, ?_⟩
  rcases Nat.lt_or_ge s.store.segmentIndex manifest'.firstSegment with hpassed | hfirst
  · exact .inl hpassed
  · have hmem := hheld.resolve_right (by omega)
    exact .inr (discovered_of_mem hlt hmem hfirst)

/-! ## A manifest without segments -/

/-- The manifest names a snapshot, and a segment above every one there is. -/
structure Overtaken (dir : Directory) (limits : Limits) (key : Bytes) (manifest : Manifest)
    (image : StateImage) : Prop where
  key_file : readStoreKey dir = .ok key
  manifest_file : dir[manifestName]? = some (encodeManifest key manifest)
  fits : Manifest.Fits manifest
  start : replayStart dir limits key manifest = .ok (Ledger.start ⟨manifest, image, []⟩)
  first_pos : 0 < manifest.firstSegment
  below : ∀ name ∈ dir, ∀ i, parseJournalSegmentName name = some i → i < manifest.firstSegment

section Overtaken

variable {dir dir' : Directory} {limits : Limits} {key : Bytes} {manifest : Manifest}
  {image : StateImage}

theorem Overtaken.congr (h : Overtaken dir limits key manifest image)
    (hsame : SameLinks dir dir') (hsnapshot : dir'[snapshotName]? = dir[snapshotName]?) :
    Overtaken dir' limits key manifest image where
  key_file := by
    rw [readStoreKey_congr hsame.key]
    exact h.key_file
  manifest_file := hsame.manifest.trans h.manifest_file
  fits := h.fits
  start := by
    rw [replayStart_congr hsnapshot]
    exact h.start
  first_pos := h.first_pos
  below := fun name hname i hparse => h.below name (hsame.names name hname i hparse) i hparse

theorem Overtaken.segmentNames (h : Overtaken dir limits key manifest image) :
    SegmentNames dir manifest.firstSegment 0 where
  bound := h.fits.firstSegment.le
  present := fun i hi => absurd hi (Nat.not_lt_zero i)
  only := fun name hname i hparse hfirst => absurd (h.below name hname i hparse) (by omega)

theorem Overtaken.reopen {options : Options} (h : Overtaken dir options.limits key manifest image)
    (hlimits : limitsWithinCompiledCeiling options.limits = true)
    (hhealth : image.health = .healthy) (entropy : List.Vector UInt8 storeKeyBytes) :
    ∃ opened index, openStore dir options entropy = .ok opened ∧
      opened.report.health = .healthy ∧ index < manifest.firstSegment ∧
      openedState opened = resumed (openAppend (withLock dir options) (journalSegmentName index))
        options key index image := by
  have hlocked := h.congr (sameLinks_withLock dir options)
    (getElem?_withLock_of_ne options (by decide))
  have hreplay : replay (withLock dir options) options key =
      .ok (concluded (withLock dir options) (Ledger.start ⟨manifest, image, []⟩)) :=
    @replay_eq _ _ _ ⟨manifest, image, []⟩ 0 _ _ hlocked.manifest_file hlocked.fits hlocked.start
      hlocked.segmentNames (Nat.zero_le _) rfl
  have hrecovered : Recovered _ _ image _ := recovered_concluded (withLock dir options)
    (rfl : (Ledger.start ⟨manifest, image, []⟩).report.health = .healthy)
  have hpresent := contains_of_getElem? hlocked.manifest_file
  have hdegraded : ¬ image.health = .degraded := by
    rw [hhealth]
    exact fun h => by cases h
  obtain ⟨-, -, hchoice⟩ := foldl_max_bounds (segmentIndices (withLock dir options)) 0
  have hlow : (segmentIndices (withLock dir options)).foldl max 0 < manifest.firstSegment := by
    rcases hchoice with hzero | hmem
    · rw [hzero]
      exact h.first_pos
    · obtain ⟨name, hname, hparse⟩ := mem_segmentIndices.mp hmem
      exact hlocked.below name hname _ hparse
  have hopen : openStore dir options entropy = resumeStore (withLock dir options) options := by
    simp only [openStore, hlimits, hpresent, failIf, Bool.true_eq_false, if_false, bind,
      Except.bind]
  rw [hopen, resumeStore]
  simp only [hlocked.key_file, hreplay, bind, Except.bind, hrecovered.image, hdegraded, if_false,
    hrecovered.dir]
  exact ⟨_, _, rfl, hrecovered.health, hlow, rfl⟩

theorem replayStart_checkpoint {s : StoreState}
    (hadmissible : limitsWithinCompiledCeiling s.store.options.limits = true)
    (hwithin : Within s.store.options.limits s.live) (hfolds : Folds s)
    (hsize : (encodeState s.live).length + 58 ≤ s.live.limits.maxStateBytes)
    (hstate : StateReadable s.live)
    (hfile : dir[snapshotName]? = some (encodeSnapshot s.store.key (encodeState s.live))) :
    replayStart dir s.store.options.limits s.store.key (checkpointManifest (snapshotDir s) s) =
      .ok (Ledger.start ⟨checkpointManifest (snapshotDir s) s,
        rebuildIndexes (storedImage s.live), []⟩) := by
  obtain ⟨hbounded, hlimits⟩ := hwithin
  have hlength := length_snapshot_lt hadmissible hfolds.size
  rw [← hlimits] at hadmissible
  have hread := (@readSnapshot_eq_ok_iff _ s.live.limits _ _
    (checkpointManifest (snapshotDir s) s) _ hfile hlength).mpr
    ⟨hsize, fun _ => rfl, decodeState_encodeState hbounded hadmissible hlength hstate⟩
  rw [← hlimits]
  simp only [replayStart, startingImage, checkpointManifest, if_true] at hread ⊢
  rw [hread]
  rfl

theorem overtaken_manifestDir {s : StoreState} (h : LinkedStore [] s) (hfolds : Folds s)
    (hwithin : Within s.store.options.limits s.live)
    (hsize : (encodeState s.live).length + 58 ≤ s.live.limits.maxStateBytes)
    (hstate : StateReadable s.live)
    (hindex : ∀ name ∈ s.dir, ∀ i, parseJournalSegmentName name = some i →
      i ≤ s.store.segmentIndex) :
    Overtaken (manifestDir s) s.store.options.limits s.store.key
      (checkpointManifest (snapshotDir s) s) (rebuildIndexes (storedImage s.live)) := by
  obtain ⟨manifest, hlinked⟩ := h.linked
  have hlt := hlinked.index_lt
  have hfirst : (checkpointManifest (snapshotDir s) s).firstSegment =
      s.store.segmentIndex + 1 := by
    change (s.store.segmentIndex + 1) % 2 ^ 32 = _
    omega
  constructor
  · rw [readStoreKey_manifestDir]
    exact hlinked.key_file
  · exact manifest_manifestDir
  · exact fits_checkpointManifest h.admissible hfolds.size
  · exact replayStart_checkpoint h.admissible hwithin hfolds hsize hstate snapshot_manifestDir
  · omega
  · intro name hname i hparse
    have hle := hindex name ((mem_manifestDir hparse).mp hname) i hparse
    omega

/-- A commit of a store that was opened there is acknowledged, and the next opening does not
see it. -/
theorem Overtaken.forgets {options : Options}
    (h : Overtaken dir options.limits key manifest image)
    (hlimits : limitsWithinCompiledCeiling options.limits = true)
    (hhealth : image.health = .healthy) {store : DurableStore}
    (hindex : store.segmentIndex < 1024)
    (hsegment : journalSegmentName store.segmentIndex ∈ dir)
    (hbytes : store.segmentBytes < segmentRollBytes) {mutation : Mutation} {s' : StoreState}
    (hcommit : commit ⟨dir, store, image⟩ mutation = (.ok (), s'))
    (entropy : List.Vector UInt8 storeKeyBytes) :
    ∃ opened, openStore s'.dir options entropy = .ok opened ∧ opened.image = image := by
  unfold commit commitWriting at hcommit
  cases hplan : planCommit store image mutation with
  | error e => simp [hplan] at hcommit
  | ok planned =>
      simp only [hplan, rollSegmentIfNeeded, hbytes, if_true] at hcommit
      have happended := @appended_journalCommit ⟨dir, store, image⟩
        (hindex.trans (by norm_num)) hsegment planned .complete .complete
      rw [hcommit] at happended
      obtain ⟨opened, index, hopen, -, -, hopened⟩ :=
        (h.congr happended.links happended.snapshot).reopen hlimits hhealth entropy
      exact ⟨opened, hopen, congrArg StoreState.live hopened⟩

end Overtaken

def twoSegments : Options :=
  { createIfMissing := true, limits := { maxJournalSegments := 2 } }

def stopsAtOnce : List Act :=
  [.opens twoSegments zeroKey, .checkpoints, .leaves, .opens twoSegments zeroKey]

def firstImage : StateImage := { limits := twoSegments.limits }

/-- A store that has just been created. -/
structure Created (s : StoreState) : Prop where
  linked : LinkedStore [] s
  options_eq : s.store.options = twoSegments
  live_eq : s.live = firstImage
  isOpen : s.store.isOpen = true
  index_eq : s.store.segmentIndex = 0
  below : ∀ name ∈ s.dir, ∀ i, parseJournalSegmentName name = some i → i ≤ s.store.segmentIndex
  files : FilesWithin s.dir 10000

theorem holds_created {options : Options} {opened : Opened}
    (hopen : openStore ∅ options zeroKey = .ok opened)
    (hsegments : 1 ≤ options.limits.maxJournalSegments) :
    (openedState opened).store.options = options ∧
      (openedState opened).live = { limits := options.limits } ∧
      (openedState opened).store.isOpen = true ∧ (openedState opened).store.segmentIndex = 0 ∧
      Holds (openedState opened).dir options.limits (openedState opened).store.key
        (freshLedger options.limits [[]]) := by
  obtain ⟨hlimits, hcreate⟩ := createStore_of_openStore (by simp) hopen
  obtain ⟨hoptions, himage, hjournal⟩ := journal_createStore hlimits hsegments hcreate
  obtain ⟨front, records, hcursor⟩ := hjournal.cursor
  have hstore : (openedState opened).store.options = options := hoptions
  have hfront : front = [] := by
    have hlast : [[]] = front ++ [records] := hcursor.last
    have hlength := congrArg List.length hlast
    simp only [List.length_append, List.length_singleton] at hlength
    exact List.length_eq_zero_iff.mp (by omega)
  have hindex : (openedState opened).store.segmentIndex = 0 := by
    rw [hcursor.index, hfront]
    rfl
  have hholds := hcursor.holds
  rw [hstore] at hholds
  exact ⟨hstore, himage, hjournal.opened, hindex, hholds⟩

theorem exists_created : ∃ s, opening ∅ twoSegments zeroKey = .running s ∧ Created s := by
  have hfound : (match openStore ∅ twoSegments zeroKey with
      | .ok opened => opened.dir.toList.all fun file => file.2.length ≤ 10000
      | .error _ => false) = true := by decide
  cases hopen : openStore ∅ twoSegments zeroKey with
  | error e => simp [hopen] at hfound
  | ok opened =>
      simp only [hopen] at hfound
      have hlinked := linked_openStore (.inl ⟨by simp, rfl⟩) hopen
      obtain ⟨hoptions, himage, hisOpen, hindex, hholds⟩ := holds_created hopen (by decide)
      have hrunning : opening ∅ twoSegments zeroKey = .running (openedState opened) := by
        unfold opening
        rw [hopen]
      refine ⟨openedState opened, hrunning, hlinked, hoptions, himage, hisOpen, hindex,
        fun name hname i hparse => ?_, fun name content hfile => ?_⟩
      · have honly := (hholds.names.only name hname i hparse (Nat.zero_le _)).2
        change i < 0 + 1 at honly
        omega
      · have hmem := Std.ExtTreeMap.mem_toList_iff_getElem?_eq_some.mpr hfile
        exact of_decide_eq_true (List.all_eq_true.mp hfound _ hmem)

theorem dir_checkpoint_spent {s : StoreState} (hfolds : Folds s) (hspent : CounterSpent s) :
    (checkpoint s).2.dir = manifestDir s := by
  have hnext : ((s.store.segmentIndex + 1) % 2 ^ 32 + 1) % 2 ^ 32 ≥
      s.store.options.limits.maxJournalSegments := hspent
  unfold checkpoint
  rw [withSnapshot_iff.mpr ⟨hfolds, rfl⟩]
  simp only [hnext, if_true]
  rfl

/-- The image the snapshot of a new store reads back as. -/
def servedImage : StateImage := rebuildIndexes (storedImage firstImage)

section Created

variable {s : StoreState}

theorem Created.folds (h : Created s) : Folds s := by
  have hlength : (encodeState firstImage).length ≤ twoSegments.limits.maxStateBytes := by
    decide
  refine ⟨h.isOpen, ?_, ?_⟩
  · rw [h.live_eq]
    rfl
  · rw [h.live_eq, h.options_eq]
    exact hlength

theorem Created.spent (h : Created s) : CounterSpent s := by
  unfold CounterSpent
  rw [h.index_eq, h.options_eq]
  decide

theorem Created.overtaken (h : Created s) :
    Overtaken (manifestDir s) twoSegments.limits s.store.key
      (checkpointManifest (snapshotDir s) s) servedImage := by
  have hlength : (encodeState firstImage).length + 58 ≤ firstImage.limits.maxStateBytes := by
    decide
  have hreadable : SnapshotReadable s.live := by
    rw [h.live_eq]
    exact snapshotReadable_fresh ⟨rfl, rfl, rfl, rfl, rfl, rfl, rfl, rfl, rfl⟩ rfl rfl hlength
  have hwithin : Within s.store.options.limits s.live := by
    rw [h.live_eq, h.options_eq]
    exact within_empty _
  have hover := overtaken_manifestDir h.linked h.folds hwithin hreadable.size hreadable.state
    h.below
  rw [h.options_eq, h.live_eq] at hover
  exact hover

theorem Created.filesWithin (h : Created s) :
    FilesWithin (withLock (manifestDir s) twoSegments) 10000 := by
  have hlength : (encodeState firstImage).length ≤ 1000 := by decide
  refine FilesWithin.openAppend ((h.files.insert _ ?_).insert _ ?_) _
  · rw [length_encodeSnapshot, h.live_eq]
    omega
  · rw [length_encodeManifest]
    norm_num

theorem Created.acknowledges (h : Created s) :
    ∃ s', commit (resumed (withLock (manifestDir s) twoSegments) twoSegments s.store.key 0
        servedImage) systemAdvance = (.ok (), s') ∧ s'.live.epoch ≠ servedImage.epoch := by
  have happly : (applyMutation servedImage (planOf servedImage systemAdvance) false).1.isOk ∧
      (applyMutation servedImage (planOf servedImage systemAdvance) false).2.epoch ≠
        servedImage.epoch := by
    decide
  have hrecords : journalRecordBytes (encodeMutation (planOf servedImage systemAdvance)).length +
      journalRecordBytes 40 ≤ 1000 := by
    decide
  have hpayload : (encodeMutation (planOf servedImage systemAdvance)).length ≤
      twoSegments.limits.maxRecordPayload := by
    decide
  have hmeasure := Republication.measureDurableBytes_le h.filesWithin
  have hsize := h.filesWithin.fileSize_le (journalSegmentName 0)
  obtain ⟨hok, hepoch⟩ := happly
  cases hresult : applyMutation servedImage (planOf servedImage systemAdvance) false with
  | mk status image =>
      rw [hresult] at hok hepoch
      cases status with
      | error e => cases hok
      | ok u =>
          have hplanned : Planned (resumed (withLock (manifestDir s) twoSegments) twoSegments
              s.store.key 0 servedImage).store servedImage systemAdvance
              (planOf servedImage systemAdvance) :=
            { opened := rfl
              healthy := rfl
              valid := by decide
              planned_eq := rfl
              generation_set := by decide
              payload_le := hpayload
              growth_le := by
                change measureDurableBytes _ + _ + _ ≤ 268435456
                omega }
          have hsegment : fileSize (withLock (manifestDir s) twoSegments)
              (journalSegmentName 0) < segmentRollBytes :=
            lt_of_le_of_lt hsize (by decide)
          obtain ⟨s', hcommit, hsame⟩ := commit_of_journals
            ⟨⟨_, planCommit_eq_ok_iff.mpr hplanned⟩, .inl ⟨hsegment, rfl⟩⟩ hresult
          exact ⟨s', hcommit, by rw [hsame.epoch]; exact hepoch⟩

end Created

/-- A checkpoint that fails on the segment counter leaves a store whose next opening appends
to a segment replay does not read: a commit is acknowledged and then forgotten. -/
theorem acknowledged_commit_forgotten :
    ∃ s s' manifest opened, (Site.closed ∅).course stopsAtOnce = .running s ∧
      readManifest s.dir s.store.key = .ok manifest ∧
      s.store.segmentIndex < manifest.firstSegment ∧
      s.store.segmentIndex ∉ discoverSegments s.dir manifest.firstSegment ∧
      commit s systemAdvance = (.ok (), s') ∧
      openStore s'.dir twoSegments zeroKey = .ok opened ∧
      opened.image.epoch ≠ s'.live.epoch := by
  obtain ⟨s, hopened, hcreated⟩ := exists_created
  have hover := hcreated.overtaken
  have hfirst : (checkpointManifest (snapshotDir s) s).firstSegment = 1 := by
    change (s.store.segmentIndex + 1) % 2 ^ 32 = 1
    rw [hcreated.index_eq]
    norm_num
  have hlimits : limitsWithinCompiledCeiling twoSegments.limits = true := by decide
  obtain ⟨opened, index, hopen, -, hindex, hstate⟩ := hover.reopen hlimits rfl zeroKey
  obtain rfl : index = 0 := by omega
  obtain ⟨manifest, hlinked⟩ := hcreated.linked.linked
  have hsegment : journalSegmentName 0 ∈ withLock (manifestDir s) twoSegments := by
    have hmem := hlinked.segment
    rw [hcreated.index_eq] at hmem
    exact (sameLinks_withLock _ _).kept _
      ((mem_manifestDir (parseJournalSegmentName_journalSegmentName (by norm_num))).mpr hmem)
  rw [openAppend_of_mem hsegment] at hstate
  have hreopened : opening (manifestDir s) twoSegments zeroKey =
      .running (openedState opened) := by
    unfold opening
    rw [hopen]
  have hrun : (Site.closed ∅).course stopsAtOnce = .running (openedState opened) := by
    simp only [Site.course, stopsAtOnce, List.foldl_cons, List.foldl_nil, Site.after, hopened,
      Act.onStore, dir_checkpoint_spent hcreated.folds hcreated.spent, hreopened]
  have hlocked := hover.congr (sameLinks_withLock _ twoSegments)
    (getElem?_withLock_of_ne twoSegments (by decide))
  obtain ⟨s', hcommit, hepoch⟩ := hcreated.acknowledges
  have hsize := hcreated.filesWithin.fileSize_le (journalSegmentName 0)
  obtain ⟨again, hagain, himage⟩ := hlocked.forgets hlimits rfl (by norm_num) hsegment
    (lt_of_le_of_lt hsize (by decide)) hcommit zeroKey
  rw [hstate] at hrun
  refine ⟨_, s', _, again, hrun, readManifest_eq_ok hlocked.manifest_file hlocked.fits, hindex, ?_,
    hcommit, hagain, ?_⟩
  · intro hdiscovered
    have hle := (mem_discoverSegments.mp hdiscovered).1
    change _ ≤ 0 at hle
    omega
  · rw [himage]
    exact hepoch.symm

end PriorityFabric.Selection
