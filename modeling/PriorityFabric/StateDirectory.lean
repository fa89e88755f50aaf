import PriorityFabric.Lib.KeyedTable
import PriorityFabric.Replaying

/-!
What a state directory holds.

A ledger is the content of a directory as replay sees it: the manifest, the image
it starts from, and the records of each segment the manifest refers to.
-/

namespace PriorityFabric.StateDirectory

open PriorityFabric.Lib.LittleEndian
open PriorityFabric.Lib.KeyedTable (getElem?_insert_of_ne)
open PriorityFabric.Basics
open PriorityFabric.Model
open PriorityFabric.State
open PriorityFabric.StateCodec
open PriorityFabric.Durability
open PriorityFabric.JournalScan
open PriorityFabric.Store
open PriorityFabric.StoreFiles
open PriorityFabric.Replaying

/-- The names that claim a segment from `first` on are those of `count`
consecutive segments. -/
structure SegmentNames (dir : Directory) (first count : Nat) : Prop where
  bound : first + count ≤ 2 ^ 32
  present : ∀ i < count, journalSegmentName (first + i) ∈ dir
  only : ∀ name ∈ dir, ∀ index, parseJournalSegmentName name = some index →
    first ≤ index → name = journalSegmentName index ∧ index < first + count

theorem mem_segmentIndices {dir : Directory} {index : Nat} :
    index ∈ segmentIndices dir ↔ ∃ name ∈ dir, parseJournalSegmentName name = some index := by
  simp only [segmentIndices, List.mem_filterMap, Std.ExtTreeMap.mem_keys]

theorem discoverSegments_eq {dir : Directory} {first count : Nat}
    (h : SegmentNames dir first count) :
    discoverSegments dir first = List.range' first count := by
  have hmem (index : Nat) : index ∈ (segmentIndices dir).filter (first ≤ ·) ↔
      index ∈ List.range' first count := by
    simp only [List.mem_filter, mem_segmentIndices, decide_eq_true_eq, List.mem_range'_1]
    constructor
    · rintro ⟨⟨name, hname, hparse⟩, hle⟩
      exact ⟨hle, (h.only name hname index hparse hle).2⟩
    · rintro ⟨hle, hlt⟩
      have hbound := h.bound
      obtain ⟨i, rfl⟩ := Nat.exists_eq_add_of_le hle
      exact ⟨⟨_, h.present i (by omega),
        parseJournalSegmentName_journalSegmentName (by omega)⟩, hle⟩
  have hnodup : ((segmentIndices dir).filter (first ≤ ·)).Nodup := by
    rw [List.Nodup, List.pairwise_filter, segmentIndices, List.pairwise_filterMap]
    refine List.Pairwise.imp_of_mem ?_ (Std.ExtTreeMap.nodup_keys (t := dir))
    intro a b ha hb hne i hi j hj hfi hfj hij
    subst hij
    simp only [decide_eq_true_eq] at hfi
    rw [Std.ExtTreeMap.mem_keys] at ha hb
    apply hne
    rw [(h.only a ha i hi hfi).1, (h.only b hb i hj hfi).1]
  have hperm : (discoverSegments dir first).Perm (List.range' first count) := by
    refine (List.mergeSort_perm _ _).trans ?_
    rw [List.perm_ext_iff_of_nodup hnodup List.nodup_range']
    exact hmem
  refine hperm.eq_of_pairwise' (List.pairwise_mergeSort' (· ≤ ·) _) ?_
  exact List.pairwise_le_range'

theorem foldl_max_eq {indices : List Nat} {start highest : Nat}
    (hle : ∀ index ∈ indices, index ≤ highest) (hstart : start ≤ highest)
    (hmem : start = highest ∨ highest ∈ indices) :
    indices.foldl max start = highest := by
  induction indices generalizing start with
  | nil => simpa using hmem
  | cons index indices ih =>
      have hindex := hle index (by simp)
      refine ih (fun i hi => hle i (by simp [hi])) (by omega) ?_
      rcases hmem with rfl | hmem
      · exact .inl (by omega)
      · rcases List.mem_cons.mp hmem with rfl | hmem
        · exact .inl (by omega)
        · exact .inr hmem

theorem highest_segment_eq {dir : Directory} {first count : Nat}
    (h : SegmentNames dir first (count + 1)) :
    (segmentIndices dir).foldl max 0 = first + count := by
  have hbound := h.bound
  have hlast : first + count ∈ segmentIndices dir :=
    mem_segmentIndices.mpr ⟨_, h.present count (by omega),
      parseJournalSegmentName_journalSegmentName (by omega)⟩
  have hle : ∀ index ∈ segmentIndices dir, index ≤ first + count := by
    intro index hindex
    obtain ⟨name, hname, hparse⟩ := mem_segmentIndices.mp hindex
    by_cases hfirst : first ≤ index
    · have := (h.only name hname index hparse hfirst).2
      omega
    · omega
  exact foldl_max_eq hle (Nat.zero_le _) (.inr hlast)

theorem SegmentNames.congr {dir dir' : Directory} {first count : Nat}
    (h : SegmentNames dir first count)
    (hmem : ∀ name index, parseJournalSegmentName name = some index →
      (name ∈ dir' ↔ name ∈ dir)) : SegmentNames dir' first count where
  bound := h.bound
  present i hi := by
    have hbound := h.bound
    exact (hmem _ (first + i)
      (parseJournalSegmentName_journalSegmentName (by omega))).mpr (h.present i hi)
  only name hname index hparse := h.only name ((hmem name index hparse).mp hname) index hparse

/-- The content of a state directory. -/
structure Ledger where
  manifest : Manifest
  base : StateImage
  segments : List (List JournalRecord)

def Ledger.records (ledger : Ledger) : List JournalRecord := ledger.segments.flatten

def Ledger.start (ledger : Ledger) : Replay where
  image := ledger.base
  report := { recordsApplied := ledger.manifest.snapshotPresent.toNat }
  expectedSequence := ledger.manifest.lastSequence + 1

/-- The directory holds the ledger, complete and within the limits. -/
structure Holds (dir : Directory) (limits : Limits) (key : Bytes) (ledger : Ledger) :
    Prop where
  key_file : readStoreKey dir = .ok key
  manifest_file : dir[manifestName]? = some (encodeManifest key ledger.manifest)
  manifest_fits : Manifest.Fits ledger.manifest
  start : replayStart dir limits key ledger.manifest = .ok ledger.start
  names : SegmentNames dir ledger.manifest.firstSegment ledger.segments.length
  files : SegmentFiles dir key ledger.manifest.firstSegment ledger.segments
  fits : ∀ records ∈ ledger.segments, SegmentFits limits key records 0
  count : ledger.segments.length ≤ limits.maxJournalSegments

/-- What replay returns once it has gone through the records. -/
def concluded (dir : Directory) (finished : Replay) : Replayed where
  report := finished.conclude.1
  image := finished.conclude.2
  dir := dir

theorem health_concluded (dir : Directory) (finished : Replay) :
    (concluded dir finished).report.health = finished.report.health := by
  unfold concluded Replay.conclude
  dsimp only
  split <;> split <;> rfl

theorem contains_of_getElem? {dir : Directory} {name content : Bytes}
    (h : dir[name]? = some content) : dir.contains name = true := by
  rw [Std.ExtTreeMap.contains_eq_isSome_getElem?, h]
  rfl

theorem replay_eq {dir : Directory} {options : Options} {key : Bytes} {ledger : Ledger}
    {count : Nat} {dir' : Directory} {finished : Replay}
    (hmanifest : dir[manifestName]? = some (encodeManifest key ledger.manifest))
    (hfits : Manifest.Fits ledger.manifest)
    (hstart : replayStart dir options.limits key ledger.manifest = .ok ledger.start)
    (hnames : SegmentNames dir ledger.manifest.firstSegment count)
    (hcount : count ≤ options.limits.maxJournalSegments)
    (hsegments : replaySegments options.limits key
      (List.range' ledger.manifest.firstSegment count) dir ledger.start =
        .ok (dir', finished)) :
    replay dir options key = .ok (concluded dir' finished) := by
  have hroom : ¬ (List.range' ledger.manifest.firstSegment count).length >
      options.limits.maxJournalSegments := by
    rw [List.length_range']
    omega
  unfold replay
  rw [if_neg (by simp [contains_of_getElem? hmanifest])]
  simp only [readManifest_eq_ok hmanifest hfits, hstart, discoverSegments_eq hnames, bind,
    Except.bind, failIf, hroom, if_false, hsegments]
  rfl

theorem replay_of_holds {dir : Directory} {options : Options} {key : Bytes}
    {ledger : Ledger} {last : Replay} (h : Holds dir options.limits key ledger)
    (hrun : Runs options.limits ledger.start ledger.records last) :
    replay dir options key =
      .ok (concluded dir (Replay.seen last ledger.records.length)) := by
  have hkey := key_ne_nil (length_of_readStoreKey h.key_file)
  have hsegments := replaySegments_files hkey h.files h.fits rfl hrun []
  rw [List.append_nil] at hsegments
  exact replay_eq h.manifest_file h.manifest_fits h.start h.names h.count hsegments

theorem replay_of_holds_stops {dir : Directory} {options : Options} {key : Bytes}
    {ledger : Ledger} {stopped : Replay} (h : Holds dir options.limits key ledger)
    (hstops : Stops options.limits ledger.start ledger.records stopped) :
    ∃ replayed, replay dir options key = .ok replayed ∧
      replayed.report.health = .degraded := by
  have hkey := key_ne_nil (length_of_readStoreKey h.key_file)
  obtain ⟨count, hsegments⟩ := replaySegments_stops hkey h.files h.fits rfl hstops []
  rw [List.append_nil] at hsegments
  refine ⟨_, replay_eq h.manifest_file h.manifest_fits h.start h.names h.count hsegments, ?_⟩
  rw [health_concluded]
  exact hstops.degraded

theorem replayStart_congr {dir dir' : Directory} (h : dir'[snapshotName]? = dir[snapshotName]?)
    (limits : Limits) (key : Bytes) (manifest : Manifest) :
    replayStart dir' limits key manifest = replayStart dir limits key manifest := by
  simp only [replayStart, startingImage, readSnapshot, readFile, h]

theorem insert_of_getElem? {dir : Directory} {name content : Bytes}
    (h : dir[name]? = some content) : dir.insert name content = dir := by
  apply Std.ExtTreeMap.ext_getElem?
  intro other
  rw [Std.ExtTreeMap.getElem?_insert]
  split
  · rename_i heq
    rw [← Std.LawfulEqOrd.eq_of_compare heq, h]
  · rfl

theorem insert_insert {dir : Directory} (name a b : Bytes) :
    (dir.insert name a).insert name b = dir.insert name b := by
  apply Std.ExtTreeMap.ext_getElem?
  intro other
  simp only [Std.ExtTreeMap.getElem?_insert]
  split <;> rfl

theorem openAppend_of_mem {dir : Directory} {name : Bytes} (h : name ∈ dir) :
    openAppend dir name = dir := by
  apply Std.ExtTreeMap.ext_getElem?
  intro other
  rw [openAppend, Std.ExtTreeMap.getElem?_insertIfNew, if_neg]
  rintro ⟨heq, hnot⟩
  rw [Std.LawfulEqOrd.compare_eq_iff_eq] at heq
  subst heq
  exact hnot h

theorem openAppend_of_not_mem {dir : Directory} {name : Bytes} (h : name ∉ dir) :
    openAppend dir name = dir.insert name [] := by
  apply Std.ExtTreeMap.ext_getElem?
  intro other
  rw [openAppend, Std.ExtTreeMap.getElem?_insertIfNew, Std.ExtTreeMap.getElem?_insert]
  by_cases heq : compare name other = .eq
  · rw [if_pos heq, if_pos ⟨heq, h⟩]
  · rw [if_neg heq, if_neg fun hboth => heq hboth.1]

theorem segmentFits_nil (limits : Limits) (key : Bytes) : SegmentFits limits key [] 0 where
  payloads := by
    intro record hrecord
    cases hrecord
  bytes := Nat.zero_le _
  count := by decide

theorem SegmentNames.snoc {dir : Directory} {first count : Nat}
    (h : SegmentNames dir first count) (hbound : first + count < 2 ^ 32)
    (content : Bytes) :
    SegmentNames (dir.insert (journalSegmentName (first + count)) content) first
      (count + 1) where
  bound := hbound
  present i hi := by
    rw [Std.ExtTreeMap.mem_insert]
    by_cases hlast : i = count
    · subst hlast
      exact .inl Std.ReflOrd.compare_self
    · exact .inr (h.present i (by omega))
  only name hname index hparse hle := by
    rw [Std.ExtTreeMap.mem_insert, Std.LawfulEqOrd.compare_eq_iff_eq] at hname
    rcases hname with rfl | hname
    · rw [parseJournalSegmentName_journalSegmentName hbound, Option.some.injEq] at hparse
      subst hparse
      exact ⟨rfl, by omega⟩
    · obtain ⟨heq, hlt⟩ := h.only name hname index hparse hle
      exact ⟨heq, by omega⟩

theorem SegmentNames.insert {dir : Directory} {first count : Nat}
    (h : SegmentNames dir first count) {name : Bytes} (hname : name ∈ dir)
    (content : Bytes) : SegmentNames (dir.insert name content) first count := by
  refine h.congr fun other index _ => ?_
  rw [Std.ExtTreeMap.mem_insert, Std.LawfulEqOrd.compare_eq_iff_eq]
  constructor
  · rintro (rfl | hother)
    · exact hname
    · exact hother
  · exact .inr

section LastSegment

variable {dir : Directory} {limits : Limits} {key : Bytes} {ledger : Ledger}
  {front : List (List JournalRecord)} {records : List JournalRecord}

def lastName (ledger : Ledger) (front : List (List JournalRecord)) : Bytes :=
  journalSegmentName (ledger.manifest.firstSegment + front.length)

theorem Holds.last_file (h : Holds dir limits key ledger)
    (hlast : ledger.segments = front ++ [records]) :
    dir[lastName ledger front]? = some (journalBytes key records) := by
  refine h.files front.length records ?_
  rw [hlast, List.getElem?_append_right (le_refl _)]
  simp

theorem Holds.last_bound (h : Holds dir limits key ledger)
    (hlast : ledger.segments = front ++ [records]) :
    ledger.manifest.firstSegment + front.length < 2 ^ 32 := by
  have hbound := h.names.bound
  rw [hlast, List.length_append, List.length_singleton] at hbound
  omega

theorem Holds.lastName_ne (h : Holds dir limits key ledger)
    (hlast : ledger.segments = front ++ [records]) {name : Bytes}
    (hname : parseJournalSegmentName name = none) : lastName ledger front ≠ name :=
  journalSegmentName_ne (h.last_bound hlast) hname

theorem Holds.front_files (h : Holds dir limits key ledger)
    (hlast : ledger.segments = front ++ [records]) (content : Bytes) :
    SegmentFiles (dir.insert (lastName ledger front) content) key
      ledger.manifest.firstSegment front := by
  intro i found hfound
  have hi : i < front.length := (List.getElem?_eq_some_iff.mp hfound).1
  have hbound := h.last_bound hlast
  have hne : lastName ledger front ≠
      journalSegmentName (ledger.manifest.firstSegment + i) := by
    intro heq
    have := journalSegmentName_injective hbound (by omega) heq
    omega
  rw [getElem?_insert_of_ne content hne]
  refine h.files i found ?_
  rw [hlast, List.getElem?_append_left hi, hfound]

/-- A torn record at the end of the journal is cut off by replay, which goes back
to the directory without it. -/
theorem replay_of_holds_torn {options : Options} {tail : Bytes} {last : Replay}
    (h : Holds dir options.limits key ledger)
    (hlast : ledger.segments = front ++ [records])
    (hfits : SegmentFits options.limits key records tail.length)
    (htail : TornTail key options.limits tail) (hne : tail ≠ [])
    (hrun : Runs options.limits ledger.start ledger.records last) :
    replay (dir.insert (lastName ledger front) (journalBytes key records ++ tail)) options
        key =
      .ok (concluded dir
        (Replay.cut (Replay.seen last ledger.records.length) tail.length)) := by
  have hkey := key_ne_nil (length_of_readStoreKey h.key_file)
  have hfile := h.last_file hlast
  have hrecords : ledger.records = front.flatten ++ records := by
    rw [Ledger.records, hlast]
    simp
  rw [hrecords] at hrun
  obtain ⟨middle, hfront, hback⟩ := hrun.split
  have hmanifest : (dir.insert (lastName ledger front)
      (journalBytes key records ++ tail))[manifestName]? = dir[manifestName]? :=
    getElem?_insert_of_ne _ (h.lastName_ne hlast parse_manifestName)
  have hsnapshot : (dir.insert (lastName ledger front)
      (journalBytes key records ++ tail))[snapshotName]? = dir[snapshotName]? :=
    getElem?_insert_of_ne _ (h.lastName_ne hlast parse_snapshotName)
  have hnames : SegmentNames
      (dir.insert (lastName ledger front) (journalBytes key records ++ tail))
      ledger.manifest.firstSegment (front.length + 1) := by
    have hinsert := h.names.insert
      (Std.ExtTreeMap.mem_iff_contains.mpr (contains_of_getElem? hfile))
      (journalBytes key records ++ tail)
    rwa [hlast, List.length_append, List.length_singleton] at hinsert
  have hcount : front.length + 1 ≤ options.limits.maxJournalSegments := by
    have hcount := h.count
    rwa [hlast, List.length_append, List.length_singleton] at hcount
  have hfrontFits : ∀ segment ∈ front, SegmentFits options.limits key segment 0 := by
    intro segment hsegment
    exact h.fits segment (by rw [hlast]; simp [hsegment])
  have hmiddle : (Replay.seen middle front.flatten.length).report.health = .healthy :=
    hfront.health
  have hpassed := replaySegments_files hkey
    (h.front_files hlast (journalBytes key records ++ tail)) hfrontFits rfl hfront
    [ledger.manifest.firstSegment + front.length]
  have htorn : (dir.insert (lastName ledger front) (journalBytes key records ++ tail))[
      journalSegmentName (ledger.manifest.firstSegment + front.length)]? =
        some (journalBytes key records ++ tail) := by
    simp [lastName]
  have hcut := replaySegments_torn hkey htorn hfits htail hne hmiddle
    (hback.seen front.flatten.length)
  refine replay_eq (hmanifest.trans h.manifest_file) h.manifest_fits
    ((replayStart_congr hsnapshot _ _ _).trans h.start) hnames hcount ?_
  rw [List.range'_concat, Nat.one_mul, hpassed, hcut, Replay.seen_seen, hrecords,
    List.length_append]
  congr 2
  change (dir.insert (lastName ledger front) _).insert (lastName ledger front) _ = _
  rw [insert_insert, insert_of_getElem? hfile]

theorem Holds.rewrite (h : Holds dir limits key ledger)
    (hlast : ledger.segments = front ++ [records]) {records' : List JournalRecord}
    (hfits : SegmentFits limits key records' 0) :
    Holds (dir.insert (lastName ledger front) (journalBytes key records')) limits key
      { ledger with segments := front ++ [records'] } := by
  have hlength : (front ++ [records']).length = ledger.segments.length := by
    rw [hlast]
    simp
  refine
    { key_file := ?_
      manifest_file := ?_
      manifest_fits := h.manifest_fits
      start := ?_
      names := ?_
      files := ?_
      fits := ?_
      count := ?_ }
  · rw [readStoreKey_congr (getElem?_insert_of_ne _ (h.lastName_ne hlast parse_keyName))]
    exact h.key_file
  · rw [getElem?_insert_of_ne _ (h.lastName_ne hlast parse_manifestName)]
    exact h.manifest_file
  · rw [replayStart_congr
      (getElem?_insert_of_ne _ (h.lastName_ne hlast parse_snapshotName))]
    exact h.start
  · rw [hlength]
    exact h.names.insert
      (Std.ExtTreeMap.mem_iff_contains.mpr (contains_of_getElem? (h.last_file hlast))) _
  · intro i found hfound
    by_cases hi : i < front.length
    · rw [List.getElem?_append_left hi] at hfound
      exact h.front_files hlast _ i found hfound
    · have hi' : i = front.length := by
        have hlt := (List.getElem?_eq_some_iff.mp hfound).1
        simp only [List.length_append, List.length_singleton] at hlt
        omega
      subst hi'
      rw [List.getElem?_append_right (le_refl _)] at hfound
      simp only [Nat.sub_self, List.getElem?_cons_zero, Option.some.injEq] at hfound
      subst hfound
      simp [lastName]
  · intro segment hsegment
    rcases List.mem_append.mp hsegment with hfront | hnew
    · exact h.fits segment (by rw [hlast]; simp [hfront])
    · rw [List.mem_singleton] at hnew
      subst hnew
      exact hfits
  · rw [hlength]
    exact h.count

end LastSegment

theorem Holds.roll {dir : Directory} {limits : Limits} {key : Bytes} {ledger : Ledger}
    (h : Holds dir limits key ledger)
    (hbound : ledger.manifest.firstSegment + ledger.segments.length < 2 ^ 32)
    (hcount : ledger.segments.length < limits.maxJournalSegments) :
    dir[journalSegmentName
        (ledger.manifest.firstSegment + ledger.segments.length)]? = none ∧
      Holds (openAppend dir (journalSegmentName
          (ledger.manifest.firstSegment + ledger.segments.length))) limits key
        { ledger with segments := ledger.segments ++ [[]] } := by
  have hparse := parseJournalSegmentName_journalSegmentName hbound
  have hfresh : journalSegmentName
      (ledger.manifest.firstSegment + ledger.segments.length) ∉ dir := by
    intro hmem
    have := (h.names.only _ hmem _ hparse (by omega)).2
    omega
  have hopen : openAppend dir (journalSegmentName
      (ledger.manifest.firstSegment + ledger.segments.length)) =
        dir.insert (journalSegmentName
          (ledger.manifest.firstSegment + ledger.segments.length)) [] :=
    openAppend_of_not_mem hfresh
  have hother {name : Bytes} (hname : parseJournalSegmentName name = none) :
      (dir.insert (journalSegmentName
        (ledger.manifest.firstSegment + ledger.segments.length)) [])[name]? = dir[name]? :=
    getElem?_insert_of_ne _ (journalSegmentName_ne hbound hname)
  refine ⟨Std.ExtTreeMap.getElem?_eq_none hfresh, ?_⟩
  rw [hopen]
  refine
    { key_file := ?_
      manifest_file := ?_
      manifest_fits := h.manifest_fits
      start := ?_
      names := ?_
      files := ?_
      fits := ?_
      count := ?_ }
  · rw [readStoreKey_congr (hother parse_keyName)]
    exact h.key_file
  · rw [hother parse_manifestName]
    exact h.manifest_file
  · rw [replayStart_congr (hother parse_snapshotName)]
    exact h.start
  · rw [List.length_append, List.length_singleton]
    exact h.names.snoc hbound []
  · intro i found hfound
    by_cases hi : i < ledger.segments.length
    · rw [List.getElem?_append_left hi] at hfound
      have hne : journalSegmentName
          (ledger.manifest.firstSegment + ledger.segments.length) ≠
            journalSegmentName (ledger.manifest.firstSegment + i) := by
        intro heq
        have := journalSegmentName_injective hbound (by omega) heq
        omega
      exact (getElem?_insert_of_ne _ hne).trans (h.files i found hfound)
    · have hi' : i = ledger.segments.length := by
        have hlt := (List.getElem?_eq_some_iff.mp hfound).1
        simp only [List.length_append, List.length_singleton] at hlt
        omega
      subst hi'
      rw [List.getElem?_append_right (le_refl _)] at hfound
      simp only [Nat.sub_self, List.getElem?_cons_zero, Option.some.injEq] at hfound
      subst hfound
      simp [journalBytes]
  · intro segment hsegment
    rcases List.mem_append.mp hsegment with hold | hnew
    · exact h.fits segment hold
    · rw [List.mem_singleton] at hnew
      subst hnew
      exact segmentFits_nil limits key
  · rw [List.length_append, List.length_singleton]
    exact hcount

end PriorityFabric.StateDirectory
