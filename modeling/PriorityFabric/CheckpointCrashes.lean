import PriorityFabric.Selection

/-!
What the next opening finds after a crash inside a checkpoint.

The snapshot and the manifest are two files, each replaced in one step.  Until the
manifest is replaced the old one stands beside the new snapshot; from then on the new
snapshot is all there is.
-/

namespace PriorityFabric.CheckpointCrashes

open PriorityFabric.Lib.LittleEndian
open PriorityFabric.Lib.KeyedTable (getElem?_insert_of_ne)
open PriorityFabric.Basics
open PriorityFabric.Hashing
open PriorityFabric.Model
open PriorityFabric.Codec
open PriorityFabric.ModelCodec
open PriorityFabric.State
open PriorityFabric.StateCodec
open PriorityFabric.StateRoundTrip
open PriorityFabric.StateEncoding (SameState NoCollision)
open PriorityFabric.Durability
open PriorityFabric.Bounds
open PriorityFabric.Store
open PriorityFabric.StoreFiles
open PriorityFabric.Replaying
open PriorityFabric.StateDirectory
open PriorityFabric.Committing
open PriorityFabric.CommitRuns
open PriorityFabric.Readable (RecordFits opIds)
open PriorityFabric.Serving
open PriorityFabric.Ident
open PriorityFabric.Reopening
open PriorityFabric.Calls
open PriorityFabric.Checkpoints
open PriorityFabric.Snapshots
open PriorityFabric.Selection

theorem encodeDigest_digestOfBytes {bytes : Bytes} (h : bytes.length = 32) :
    encodeDigest (digestOfBytes bytes) = bytes := by
  apply List.ext_getElem
  · rw [length_encodeDigest, h]
  · intro i hi hi'
    simp only [encodeDigest, digestOfBytes, List.Vector.toList_ofFn, List.getElem_ofFn,
      List.getD_eq_getElem?_getD, List.getElem?_eq_getElem hi', Option.getD_some]

theorem encodeSnapshot_of_read {dir : Directory} {limits : Limits} {key : Bytes}
    {manifest : Manifest} {image : StateImage}
    (h : readSnapshot dir limits key manifest = .ok image) :
    ∃ payload, dir[snapshotName]? = some (encodeSnapshot key payload) ∧
      (manifest.snapshotPresent = true → manifest.snapshotDigest = Sha256.hash payload) := by
  simp only [readSnapshot, bind_eq_ok, failIf_eq_ok, exists_const, readFile_eq_ok_iff, not_lt,
    not_not, ne_eq, gt_iff_lt, not_and] at h
  obtain ⟨data, ⟨hfile, -⟩, hlong, hmagic, hversion, hlength, -, hdigest, hmac, hrecorded, -⟩ := h
  simp only [snapshotHeaderBytes, recordMacBytes] at hlong hlength hdigest hmac
  generalize hcount : fieldAt data 6 4 = count at *
  generalize hpayload : (data.drop 42).take count = payload at *
  have hpayloadLength : payload.length = count := by
    rw [← hpayload, List.length_take, List.length_drop]
    omega
  have hfield {offset width value : Nat} (hin : offset + width ≤ 42)
      (hvalue : fieldAt data offset width = value) :
      appendLe width value = (data.drop offset).take width := by
    have hwidth : ((data.drop offset).take width).length = width := by
      rw [List.length_take, List.length_drop]
      omega
    have hread := appendLe_readLe ((data.drop offset).take width)
    rw [hwidth] at hread
    rw [← hvalue]
    exact hread
  have hdeclared : encodeDigest (Sha256.hash payload) = (data.drop 10).take 32 := by
    rw [hdigest]
    refine encodeDigest_digestOfBytes ?_
    rw [List.length_take, List.length_drop]
    omega
  have hheader : snapshotHeader payload = data.take 42 := by
    rw [snapshotHeader, hfield (by norm_num) hmagic, hfield (by norm_num) hversion,
      hpayloadLength, hfield (by norm_num) hcount, hdeclared, List.drop_zero]
    rw [show 42 = 4 + (2 + (4 + 32)) by norm_num, List.take_add, List.take_add, List.take_add,
      List.drop_drop, List.drop_drop]
  refine ⟨payload, ?_, fun hpresent => ?_⟩
  · have hend : ((data.drop 42).drop count).length ≤ 16 := by
      rw [List.length_drop, List.length_drop]
      omega
    rw [hfile, encodeSnapshot, hheader, ← hmac, ← List.drop_drop, List.take_of_length_le hend,
      ← hpayload, List.take_append_drop, List.take_append_drop]
  · rw [hrecorded hpresent, ← hdigest]

/-- The next opening is healthy and serves the image. -/
def Recovers (dir : Directory) (options : Options) (image : StateImage) : Prop :=
  ∀ entropy, ∃ opened, openStore dir options entropy = .ok opened ∧
    opened.report.health = .healthy ∧ SameState opened.image image

section Openings

variable {dir : Directory} {options : Options} {key : Bytes} {image served : StateImage}

theorem recovers_iff_of_opened
    (h : ∀ entropy, ∃ opened, openStore dir options entropy = .ok opened ∧
      opened.report.health = .healthy ∧ opened.image = served) :
    Recovers dir options image ↔ SameState served image := by
  constructor
  · intro hrecovers
    obtain ⟨opened, hopen, -, himage⟩ := h zeroKey
    obtain ⟨opened', hopen', -, hsame⟩ := hrecovers zeroKey
    rw [hopen] at hopen'
    cases hopen'
    rwa [himage] at hsame
  · intro hsame entropy
    obtain ⟨opened, hopen, hhealth, himage⟩ := h entropy
    exact ⟨opened, hopen, hhealth, by rwa [himage]⟩

theorem recovers_iff_of_holds {ledger : Ledger} {last : Replay}
    (hlimits : limitsWithinCompiledCeiling options.limits = true)
    (h : Holds dir options.limits key ledger) (hsegments : ledger.segments ≠ [])
    (hrun : Runs options.limits ledger.start ledger.records last)
    (hhealth : last.image.health = .healthy) :
    Recovers dir options image ↔ SameState last.image image := by
  have hlocked := Holds.withLock h options
  obtain ⟨count, hcount⟩ : ∃ count, ledger.segments.length = count + 1 :=
    Nat.exists_eq_succ_of_ne_zero (mt List.length_eq_zero_iff.mp hsegments)
  have hnames := hlocked.names
  rw [hcount] at hnames
  refine recovers_iff_of_opened fun entropy => ?_
  obtain ⟨opened, hopen, hreport, hopened⟩ := openStore_resumed entropy hlimits
    (contains_of_getElem? hlocked.manifest_file) hlocked.key_file (replay_of_holds hlocked hrun)
    (recovered_concluded _ hrun.health) hhealth hnames
  exact ⟨opened, hopen, hreport, congrArg StoreState.live hopened⟩

theorem recovers_iff_of_overtaken {manifest : Manifest}
    (hlimits : limitsWithinCompiledCeiling options.limits = true)
    (h : Overtaken dir options.limits key manifest served) (hhealth : served.health = .healthy) :
    Recovers dir options image ↔ SameState served image := by
  refine recovers_iff_of_opened fun entropy => ?_
  obtain ⟨opened, index, hopen, hreport, -, hopened⟩ := h.reopen hlimits hhealth entropy
  exact ⟨opened, hopen, hreport, congrArg StoreState.live hopened⟩

theorem not_recovers_of_start {manifest : Manifest} {e : Status}
    (hkey : readStoreKey dir = .ok key)
    (hmanifest : dir[manifestName]? = some (encodeManifest key manifest))
    (hfits : Manifest.Fits manifest)
    (hstart : replayStart dir options.limits key manifest = .error e) :
    ¬ Recovers dir options image := by
  intro hrecovers
  obtain ⟨opened, hopen, -⟩ := hrecovers zeroKey
  have hother {name : Bytes} (hname : lockName ≠ name) :
      (withLock dir options)[name]? = dir[name]? := getElem?_withLock_of_ne options hname
  have hmanifest' := (hother (by decide)).trans hmanifest
  have hkey' : readStoreKey (withLock dir options) = .ok key := by
    rw [readStoreKey_congr (hother (by decide))]
    exact hkey
  have hstart' : replayStart (withLock dir options) options.limits key manifest = .error e := by
    rw [replayStart_congr (hother (by decide))]
    exact hstart
  simp only [openStore, contains_of_getElem? hmanifest', Bool.true_eq_false, if_false,
    bind_eq_ok, resumeStore, hkey', Except.ok.injEq, exists_eq_left', replay,
    readManifest_eq_ok hmanifest' hfits, hstart', reduceCtorEq, false_and, exists_false,
    and_false] at hopen

end Openings

/-- A store whose directory holds a complete journal that replays to a healthy image. -/
structure Durable (s : StoreState) (ledger : Ledger) (durable : StateImage) : Prop where
  admissible : limitsWithinCompiledCeiling s.store.options.limits = true
  within : Within s.store.options.limits s.live
  holds : Holds s.dir s.store.options.limits s.store.key ledger
  segments : ledger.segments ≠ []
  index : s.store.segmentIndex + 1 = ledger.manifest.firstSegment + ledger.segments.length
  index_lt : s.store.segmentIndex < 1024
  runs : ∃ last, Runs s.store.options.limits ledger.start ledger.records last ∧
    last.image = durable
  healthy : durable.health = .healthy

section Durable

variable {s : StoreState} {ledger : Ledger} {durable image : StateImage}

theorem Durable.recovers_iff (h : Durable s ledger durable) :
    Recovers s.dir s.store.options image ↔ SameState durable image := by
  obtain ⟨last, hrun, rfl⟩ := h.runs
  exact recovers_iff_of_holds h.admissible h.holds h.segments hrun h.healthy

theorem Durable.highest (h : Durable s ledger durable) :
    ∀ name ∈ s.dir, ∀ i, parseJournalSegmentName name = some i → i ≤ s.store.segmentIndex := by
  intro name hname i hparse
  have hindex := h.index
  have hlength := List.length_pos_iff.mpr h.segments
  by_cases hfirst : ledger.manifest.firstSegment ≤ i
  · have := (h.holds.names.only name hname i hparse hfirst).2
    omega
  · omega

theorem Durable.linked (h : Durable s ledger durable) : LinkedStore [] s := by
  have hindex := h.index
  have hlt := h.index_lt
  have hlength := List.length_pos_iff.mpr h.segments
  have hsegment := h.holds.names.present (ledger.segments.length - 1) (by omega)
  rw [show ledger.manifest.firstSegment + (ledger.segments.length - 1) = s.store.segmentIndex by
    omega] at hsegment
  exact ⟨h.admissible, ledger.manifest,
    { key_file := h.holds.key_file
      manifest_file := h.holds.manifest_file
      fits := h.holds.manifest_fits
      selected := by omega
      segment := hsegment
      index_lt := hlt
      bound := fun name hname i hparse => (h.highest name hname i hparse).trans_lt hlt
      held := fun i hi => absurd hi List.not_mem_nil }⟩

theorem holds_snapshotDir (h : Holds s.dir s.store.options.limits s.store.key ledger)
    (hstart : replayStart (snapshotDir s) s.store.options.limits s.store.key ledger.manifest =
      .ok ledger.start) :
    Holds (snapshotDir s) s.store.options.limits s.store.key ledger := by
  have hsame : SameLinks s.dir (snapshotDir s) :=
    sameLinks_insert parse_snapshotName (by decide) (by decide) _
  have hsegment {name : Bytes} {i : Nat} (hparse : parseJournalSegmentName name = some i) :
      (snapshotDir s)[name]? = s.dir[name]? := by
    refine getElem?_insert_of_ne _ ?_
    rintro rfl
    rw [parse_snapshotName] at hparse
    cases hparse
  refine { h with key_file := ?_, manifest_file := ?_, start := hstart, names := ?_,
                        files := ?_ }
  · rw [readStoreKey_congr hsame.key]
    exact h.key_file
  · exact hsame.manifest.trans h.manifest_file
  · refine h.names.congr fun name index hparse => ?_
    rw [Std.ExtTreeMap.mem_iff_isSome_getElem?, Std.ExtTreeMap.mem_iff_isSome_getElem?,
      hsegment hparse]
  · intro i records hrecords
    have hi : i < ledger.segments.length := (List.getElem?_eq_some_iff.mp hrecords).1
    have hbound := h.names.bound
    rw [hsegment (parseJournalSegmentName_journalSegmentName (by omega))]
    exact h.files i records hrecords

/-- The last manifest does not miss the snapshot that is replaced. -/
def KeepsSnapshot (s : StoreState) (ledger : Ledger) : Prop :=
  ledger.manifest.snapshotPresent = true →
    s.dir[snapshotName]? = some (encodeSnapshot s.store.key (encodeState s.live))

theorem recovers_snapshotDir (h : Durable s ledger durable) (hkeeps : KeepsSnapshot s ledger) :
    Recovers (snapshotDir s) s.store.options s.live ↔ SameState durable s.live := by
  cases hpresent : ledger.manifest.snapshotPresent with
  | false =>
      have hstart := h.holds.start
      have hsame : replayStart (snapshotDir s) s.store.options.limits s.store.key
          ledger.manifest = .ok ledger.start := by
        rw [← hstart]
        simp only [replayStart, startingImage, hpresent, Bool.false_eq_true, if_false]
      obtain ⟨last, hrun, rfl⟩ := h.runs
      exact recovers_iff_of_holds h.admissible (holds_snapshotDir h.holds hsame) h.segments hrun
        h.healthy
  | true =>
      have hdir : snapshotDir s = s.dir := insert_of_getElem? (hkeeps hpresent)
      rw [hdir]
      exact h.recovers_iff

/-- Where the last manifest names another snapshot, the directory is not opened. -/
theorem keepsSnapshot_of_recovers (h : Durable s ledger durable) (hfolds : Folds s)
    (hcollision : ∀ payload, s.dir[snapshotName]? = some (encodeSnapshot s.store.key payload) →
      NoCollision payload (encodeState s.live))
    (hrecovers : Recovers (snapshotDir s) s.store.options s.live) : KeepsSnapshot s ledger := by
  intro hpresent
  have hsame : SameLinks s.dir (snapshotDir s) :=
    sameLinks_insert parse_snapshotName (by decide) (by decide) _
  have hold : ∃ image, readSnapshot s.dir s.store.options.limits s.store.key ledger.manifest =
      .ok image := by
    have hstart := h.holds.start
    simp only [replayStart, startingImage, hpresent, if_true, bind_eq_ok] at hstart
    obtain ⟨image, hread, -⟩ := hstart
    exact ⟨image, hread⟩
  obtain ⟨image, hread⟩ := hold
  obtain ⟨payload, hfile, hrecorded⟩ := encodeSnapshot_of_read hread
  have hnew : (snapshotDir s)[snapshotName]? =
      some (encodeSnapshot s.store.key (encodeState s.live)) :=
    Std.ExtTreeMap.getElem?_insert_self
  by_contra hother
  have hdigest : ledger.manifest.snapshotDigest ≠ Sha256.hash (encodeState s.live) := by
    intro heq
    rw [hrecorded hpresent] at heq
    rw [hcollision payload hfile heq] at hfile
    exact hother hfile
  have hlength := length_snapshot_lt h.admissible hfolds.size
  cases hstart : replayStart (snapshotDir s) s.store.options.limits s.store.key
      ledger.manifest with
  | error e =>
      refine not_recovers_of_start ?_ (hsame.manifest.trans h.holds.manifest_file)
        h.holds.manifest_fits hstart hrecovers
      rw [readStoreKey_congr hsame.key]
      exact h.holds.key_file
  | ok start =>
      simp only [replayStart, startingImage, hpresent, if_true, bind_eq_ok,
        readSnapshot_eq_ok_iff hnew hlength] at hstart
      obtain ⟨image, ⟨-, hsame, -⟩, -⟩ := hstart
      exact hdigest (hsame trivial)

theorem segmentDir_eq (h : Durable s ledger durable) :
    segmentDir s =
      (manifestDir s).insert (journalSegmentName (s.store.segmentIndex + 1)) [] := by
  have hlt := h.index_lt
  have hnext : (s.store.segmentIndex + 1) % 2 ^ 32 = s.store.segmentIndex + 1 := by omega
  have hparse : parseJournalSegmentName (journalSegmentName (s.store.segmentIndex + 1)) =
      some (s.store.segmentIndex + 1) :=
    parseJournalSegmentName_journalSegmentName (by omega)
  have hnew : journalSegmentName (s.store.segmentIndex + 1) ∉ manifestDir s := by
    intro hmem
    have hle := h.highest _ ((mem_manifestDir hparse).mp hmem) _ hparse
    omega
  rw [segmentDir, hnext, openAppend_of_not_mem hnew]

theorem holds_segmentDir (h : Durable s ledger durable) (hfolds : Folds s)
    (hroom : ¬ CounterSpent s) {count : Nat} (hcount : count ≤ retiredSegments s)
    (hsize : (encodeState s.live).length + 58 ≤ s.live.limits.maxStateBytes)
    (hstate : StateReadable s.live) :
    Holds (removeSegments (segmentDir s) count) s.store.options.limits s.store.key
      ⟨checkpointManifest (snapshotDir s) s, rebuildIndexes (storedImage s.live), [[]]⟩ := by
  have hlinked := linked_segmentDir h.linked hfolds hroom hcount
  have hlt := h.index_lt
  have hnext : (s.store.segmentIndex + 1) % 2 ^ 32 = s.store.segmentIndex + 1 := by omega
  have hfirst : (checkpointManifest (snapshotDir s) s).firstSegment =
      s.store.segmentIndex + 1 := hnext
  have hretired : retiredSegments s ≤ s.store.segmentIndex + 1 := Nat.min_le_left _ _
  have hparse : parseJournalSegmentName (journalSegmentName (s.store.segmentIndex + 1)) =
      some (s.store.segmentIndex + 1) :=
    parseJournalSegmentName_journalSegmentName (by omega)
  have hopened := segmentDir_eq h
  rw [hnext] at hlinked
  constructor
  · exact hlinked.key_file
  · exact hlinked.manifest_file
  · exact hlinked.fits
  · refine replayStart_checkpoint h.admissible h.within hfolds hsize hstate ?_
    rw [getElem?_segmentDir (hcount.trans (retiredSegments_le s)) parse_snapshotName]
    exact snapshot_manifestDir
  · constructor
    · change (checkpointManifest (snapshotDir s) s).firstSegment + 1 ≤ 2 ^ 32
      omega
    · intro i hi
      obtain rfl : i = 0 := by simpa using hi
      rw [Nat.add_zero, hfirst]
      exact hlinked.segment
    · intro name hname i hclaims hle
      rw [hfirst] at hle ⊢
      have hmem := mem_of_mem_removeSegments hname
      rw [hopened, Std.ExtTreeMap.mem_insert, Std.LawfulEqOrd.compare_eq_iff_eq] at hmem
      rcases hmem with rfl | hmem
      · rw [hparse] at hclaims
        cases hclaims
        exact ⟨rfl, Nat.lt_succ_self _⟩
      · have hbelow := h.highest name ((mem_manifestDir hclaims).mp hmem) i hclaims
        omega
  · intro i records hrecords
    obtain ⟨rfl, rfl⟩ : i = 0 ∧ [] = records := by
      have hi : i < 1 := (List.getElem?_eq_some_iff.mp hrecords).1
      obtain rfl : i = 0 := by omega
      exact ⟨rfl, Option.some.inj hrecords⟩
    rw [Nat.add_zero, hfirst, getElem?_removeSegments, hopened,
      Std.ExtTreeMap.getElem?_insert_self]
    · rfl
    · intro index hindex heq
      have := journalSegmentName_injective (by omega) (by omega) heq
      omega
  · intro records hrecords
    rw [List.mem_singleton.mp hrecords]
    exact segmentFits_nil _ _
  · unfold CounterSpent at hroom
    change 1 ≤ s.store.options.limits.maxJournalSegments
    omega

theorem replayStart_refuses {dir : Directory} (h : Durable s ledger durable) (hfolds : Folds s)
    (hreads : ¬ ((encodeState s.live).length + 58 ≤ s.live.limits.maxStateBytes ∧
      StateReadable s.live))
    (hfile : dir[snapshotName]? = some (encodeSnapshot s.store.key (encodeState s.live))) :
    ∃ e, replayStart dir s.store.options.limits s.store.key
      (checkpointManifest (snapshotDir s) s) = .error e := by
  obtain ⟨hbounded, hlimits⟩ := h.within
  have hadmissible := h.admissible
  have hlength := length_snapshot_lt hadmissible hfolds.size
  rw [← hlimits] at hadmissible ⊢
  cases hstart : replayStart dir s.live.limits s.store.key
      (checkpointManifest (snapshotDir s) s) with
  | error e => exact ⟨e, rfl⟩
  | ok start =>
      simp only [replayStart, startingImage, checkpointManifest, if_true, bind_eq_ok,
        readSnapshot_eq_ok_iff hfile hlength] at hstart
      obtain ⟨image, ⟨hsize, -, hdecode⟩, -⟩ := hstart
      have hstate : ¬ StateReadable s.live := fun hstate => hreads ⟨hsize, hstate⟩
      obtain ⟨e, herror⟩ := decodeState_refuses hbounded hadmissible hlength hstate
      rw [herror] at hdecode
      cases hdecode

theorem stageDir_files (h : Durable s ledger durable) {stage : Stage}
    (hstage : stage ≠ .snapshotReplaced) :
    readStoreKey (stageDir s stage) = .ok s.store.key ∧
      (stageDir s stage)[manifestName]? =
        some (encodeManifest s.store.key (checkpointManifest (snapshotDir s) s)) ∧
      (stageDir s stage)[snapshotName]? =
        some (encodeSnapshot s.store.key (encodeState s.live)) := by
  have hstopped : readStoreKey (manifestDir s) = .ok s.store.key := by
    rw [readStoreKey_manifestDir]
    exact h.holds.key_file
  cases stage with
  | snapshotReplaced => exact absurd rfl hstage
  | manifestReplaced => exact ⟨hstopped, manifest_manifestDir, snapshot_manifestDir⟩
  | segmentOpened removed =>
      by_cases hspent : CounterSpent s
      · rw [stageDir, if_pos hspent]
        exact ⟨hstopped, manifest_manifestDir, snapshot_manifestDir⟩
      · rw [stageDir, if_neg hspent]
        have hcount : min removed (retiredSegments s) ≤ 2 ^ 32 :=
          (Nat.min_le_right _ _).trans (retiredSegments_le s)
        refine ⟨?_, (getElem?_segmentDir hcount parse_manifestName).trans manifest_manifestDir,
          (getElem?_segmentDir hcount parse_snapshotName).trans snapshot_manifestDir⟩
        rw [readStoreKey_congr (getElem?_segmentDir hcount parse_keyName)]
        exact hstopped

/-- Once the manifest is replaced, the next opening reads the snapshot and nothing else. -/
theorem recovers_after_manifest (h : Durable s ledger durable) (hfolds : Folds s) {stage : Stage}
    (hstage : stage ≠ .snapshotReplaced) :
    Recovers (stageDir s stage) s.store.options s.live ↔ SnapshotReadable s.live := by
  by_cases hreads : (encodeState s.live).length + 58 ≤ s.live.limits.maxStateBytes ∧
      StateReadable s.live
  · obtain ⟨hsize, hstate⟩ := hreads
    have hserved : (rebuildIndexes (storedImage s.live)).health = .healthy := hfolds.healthy
    have hstopped : Recovers (manifestDir s) s.store.options s.live ↔
        SameState (rebuildIndexes (storedImage s.live)) s.live :=
      recovers_iff_of_overtaken h.admissible
        (overtaken_manifestDir h.linked hfolds h.within hsize hstate h.highest) hserved
    have hrecovers : Recovers (stageDir s stage) s.store.options s.live ↔
        SameState (rebuildIndexes (storedImage s.live)) s.live := by
      cases stage with
      | snapshotReplaced => exact absurd rfl hstage
      | manifestReplaced => exact hstopped
      | segmentOpened removed =>
          by_cases hspent : CounterSpent s
          · rw [stageDir, if_pos hspent]
            exact hstopped
          · rw [stageDir, if_neg hspent]
            exact recovers_iff_of_holds h.admissible
              (holds_segmentDir h hfolds hspent (Nat.min_le_right _ _) hsize hstate) (by simp)
              (.nil _) hserved
    rw [hrecovers, sameState_stored_iff h.within.1]
    exact ⟨fun hshort => ⟨hsize, hstate, hshort.1, hshort.2⟩,
      fun hreadable => ⟨hreadable.healthDetail, hreadable.details⟩⟩
  · refine iff_of_false ?_ fun hreadable => hreads ⟨hreadable.size, hreadable.state⟩
    obtain ⟨hkey, hmanifest, hfile⟩ := stageDir_files h hstage
    obtain ⟨e, hstart⟩ := replayStart_refuses h hfolds hreads hfile
    exact not_recovers_of_start hkey hmanifest (fits_checkpointManifest h.admissible hfolds.size)
      hstart

end Durable

/-- A point inside a checkpoint: before it wrote anything, or after a stage. -/
def crashDir (s : StoreState) : Option Stage → Directory
  | none => s.dir
  | some stage => stageDir s stage

/-- What a crash at the point leaves is the live image. -/
def SafeAt (s : StoreState) (ledger : Ledger) (durable : StateImage) : Option Stage → Prop
  | none => SameState durable s.live
  | some .snapshotReplaced => SameState durable s.live ∧ KeepsSnapshot s ledger
  | some _ => SnapshotReadable s.live

/-- The next opening after a crash in a checkpoint serves the live image exactly when the
point is safe; that another snapshot is told apart rests on its digest. -/
theorem crash_in_checkpoint_iff {s : StoreState} {ledger : Ledger} {durable : StateImage}
    (h : Durable s ledger durable) (hfolds : Folds s) (point : Option Stage) :
    (SafeAt s ledger durable point → Recovers (crashDir s point) s.store.options s.live) ∧
      ((∀ payload, s.dir[snapshotName]? = some (encodeSnapshot s.store.key payload) →
          NoCollision payload (encodeState s.live)) →
        Recovers (crashDir s point) s.store.options s.live → SafeAt s ledger durable point) := by
  rcases point with _ | stage
  · exact ⟨h.recovers_iff.mpr, fun _ => h.recovers_iff.mp⟩
  · by_cases hstage : stage = .snapshotReplaced
    · subst hstage
      refine ⟨fun hsafe => (recovers_snapshotDir h hsafe.2).mpr hsafe.1,
        fun hcollision hrecovers => ?_⟩
      have hkeeps := keepsSnapshot_of_recovers h hfolds hcollision hrecovers
      exact ⟨(recovers_snapshotDir h hkeeps).mp hrecovers, hkeeps⟩
    · have hiff := recovers_after_manifest h hfolds hstage
      cases stage with
      | snapshotReplaced => exact absurd rfl hstage
      | manifestReplaced => exact ⟨hiff.mpr, fun _ => hiff.mp⟩
      | segmentOpened removed => exact ⟨hiff.mpr, fun _ => hiff.mp⟩

section Serving

variable {s : StoreState} {ledger : Ledger} {mutations : List Mutation}

theorem durable_beside {image : StateImage}
    (h : Serves { s with live := image } ledger mutations)
    (hwithin : Within s.store.options.limits s.live) (hroom : ¬ CounterSpent s) :
    ∃ replayed, Durable s ledger replayed ∧ playback ledger.base mutations = .ok replayed ∧
      DerivedIndex.SameState image replayed := by
  obtain ⟨replayed, hplay, hsame⟩ := h.image
  obtain ⟨front, records, hcursor⟩ := h.journal.cursor
  obtain ⟨-, -, -, -, -, hmax⟩ := limits_bounds_of_within hcursor.admissible
  have hindex := hcursor.index
  have hle := hcursor.index_le
  refine ⟨replayed, ⟨hcursor.admissible, hwithin, hcursor.holds, ?_, ?_, ?_,
    ⟨_, h.journal.runs hplay, rfl⟩, ?_⟩, hplay, hsame⟩
  · rw [hcursor.last]
    simp
  · rw [hcursor.last, List.length_append, List.length_singleton]
    change s.store.segmentIndex = _ at hindex
    omega
  · unfold CounterSpent at hroom
    change s.store.segmentIndex ≤ 1024 at hle
    change s.store.options.limits.maxJournalSegments ≤ _ at hmax
    omega
  · exact (congrArg StateImage.health hsame).symm.trans h.healthy

theorem Serves.durable (h : Serves s ledger mutations)
    (hwithin : Within s.store.options.limits s.live) (hroom : ¬ CounterSpent s) :
    ∃ image, Durable s ledger image ∧ playback ledger.base mutations = .ok image ∧
      DerivedIndex.SameState s.live image :=
  @durable_beside s ledger mutations s.live h hwithin hroom

end Serving

def plainClass : Mutation where
  op := .defineClass { id := ⟨[97], wellFormed_a⟩, precedence := .make 7 }
  publisher := somePublisher
  system := true

theorem recordFits_plainClass : RecordFits ({} : Limits) plainClass := by
  refine ⟨?_, Nat.zero_le _⟩
  intro id hid
  have hname : id = [112] ∨ id = [97] := by
    simpa [plainClass, somePublisher, opIds] using hid
  rcases hname with rfl | rfl <;> decide

/-- Whether the class is accepted, and a checkpoint then writes a readable snapshot. -/
def foldsPlainClass (s : StoreState) : Bool :=
  let defined := (commit s plainClass).2
  (commit s plainClass).1.isOk && decide (defined.live.classes.size = 1) &&
    defined.store.isOpen && decide (defined.live.health = .healthy) &&
    decide ((encodeState defined.live).length ≤ defined.store.options.limits.maxStateBytes) &&
    decide (¬ CounterSpent defined) && decide (SnapshotReadable defined.live)

theorem crash_in_checkpoint_iff_class :
    ∃ s, s.live.classes.size = 1 ∧ Folds s ∧
      Recovers (crashDir s (some .manifestReplaced)) s.store.options s.live := by
  obtain ⟨opened, hopen⟩ := openStore_empty
  have hfacts : (openStore ∅ creating zeroKey).toOption.any (fun opened =>
      foldsPlainClass (openedState opened)) = true := by decide +kernel
  rw [hopen] at hfacts
  simp only [Except.toOption, Option.any_some, foldsPlainClass, Bool.and_eq_true,
    decide_eq_true_eq] at hfacts
  obtain ⟨⟨⟨⟨⟨⟨hok, hsize⟩, hisOpen⟩, hhealth⟩, hbytes⟩, hroom⟩, hreadable⟩ := hfacts
  have hcreating : (openedState opened).store.options = creating :=
    options_of_openStore_empty hopen
  obtain ⟨segments, hserves⟩ := faithful_openStore (by simp) hopen (by decide)
  have hwithin : Within (openedState opened).store.options.limits (openedState opened).live := by
    rw [hcreating]
    exact within_openStore hopen
  have hlater := within_commitWriting hwithin plainClass .complete .complete
  have hkept := commit_options (openedState opened) plainClass
  change Within _ (commit (openedState opened) plainClass).2.live at hlater
  rw [← hkept] at hlater
  generalize hcommit : commit (openedState opened) plainClass = result at *
  obtain ⟨status, s⟩ := result
  cases status with
  | error e => cases hok
  | ok u =>
      obtain ⟨segments', hnext⟩ := hserves.accepted hcommit
        (by rw [hcreating]; exact recordFits_plainClass)
      obtain ⟨image, hdurable, -⟩ :=
        Serves.durable hnext hlater hroom
      exact ⟨s, hsize, ⟨hisOpen, hhealth, hbytes⟩,
        (crash_in_checkpoint_iff hdurable ⟨hisOpen, hhealth, hbytes⟩ _).1 hreadable⟩

theorem exists_durable {maxStateBytes : Nat} (hbytes : 79 ≤ maxStateBytes)
    (hopens : (openStore ∅ (creatingWithin maxStateBytes).store zeroKey).isOk = true)
    (hlength : (encodeState { limits := { maxStateBytes } }).length = 79) :
    ∃ s, Durable s (freshLedger { maxStateBytes } [[]]) { limits := { maxStateBytes } } ∧
      Folds s ∧ s.live = { limits := { maxStateBytes } } := by
  cases hopen : openStore ∅ (creatingWithin maxStateBytes).store zeroKey with
  | error e =>
      rw [hopen] at hopens
      cases hopens
  | ok opened =>
      obtain ⟨hlimits, -⟩ := openStore_options hopen
      obtain ⟨hoptions, hlive, hisOpen, hindex, hholds⟩ :=
        holds_created hopen (show 1 ≤ 1024 by norm_num)
      refine ⟨openedState opened, ⟨?_, ?_, ?_, by simp [freshLedger], ?_, by omega,
        ⟨_, .nil _, rfl⟩, rfl⟩, ⟨hisOpen, ?_, ?_⟩, hlive⟩
      · rw [hoptions]
        exact hlimits
      · rw [hoptions, hlive]
        exact within_empty _
      · rw [hoptions]
        exact hholds
      · rw [hindex]
        rfl
      · rw [hlive]
      · rw [hlive, hoptions]
        exact hlength.le.trans hbytes

/-- A crash after the manifest of a checkpoint whose snapshot is too large to be read. -/
theorem crashed_checkpoint_not_recovered :
    ∃ s ledger durable, Durable s ledger durable ∧ Folds s ∧ SameState durable s.live ∧
      ¬ Recovers (crashDir s (some .manifestReplaced)) s.store.options s.live := by
  have hlength : (encodeState { limits := { maxStateBytes := 100 } }).length = 79 := by
    decide
  obtain ⟨s, hdurable, hfolds, hlive⟩ := exists_durable (by norm_num) (by decide) hlength
  refine ⟨s, _, _, hdurable, hfolds, by rw [hlive]; rfl, fun hrecovers => ?_⟩
  have hsize := ((recovers_after_manifest hdurable hfolds (by simp)).mp hrecovers).size
  rw [hlive, hlength] at hsize
  norm_num at hsize

end PriorityFabric.CheckpointCrashes
