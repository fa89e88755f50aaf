import PriorityFabric.Authority
import PriorityFabric.Checkpoints
import PriorityFabric.StateEncoding

/-!
What a successful checkpoint leaves behind.

The writer of a snapshot bounds the encoded image, the reader the whole file; and the
decoder asks for more than validation does.  The snapshot of a checkpoint reads back
exactly when the image meets the reader's conditions.
-/

namespace PriorityFabric.Snapshots

open PriorityFabric.Lib.LittleEndian
open PriorityFabric.Lib.KeyedTable (getElem?_insert_of_ne mem_values values)
open PriorityFabric.Basics
open PriorityFabric.Ident
open PriorityFabric.Hashing
open PriorityFabric.Model
open PriorityFabric.Codec
open PriorityFabric.ModelCodec
open PriorityFabric.State
open PriorityFabric.StateCodec
open PriorityFabric.StateRoundTrip
open PriorityFabric.Readable (opIds IdsFit)
open PriorityFabric.StateEncoding (Short SameState)
open PriorityFabric.Durability
open PriorityFabric.Bounds
open PriorityFabric.Store
open PriorityFabric.StoreFiles
open PriorityFabric.StateDirectory
open PriorityFabric.Committing (createStore_of_openStore)
open PriorityFabric.CommitRuns (zeroKey)
open PriorityFabric.Runtime
open PriorityFabric.Runtime.FabricRuntime
open PriorityFabric.Calls
open PriorityFabric.Lifetimes (Fresh SameRecord)
open PriorityFabric.Authority (fresh_startRuntime)
open PriorityFabric.Checkpoints

theorem removeSegments_succ (dir : Directory) (count : Nat) :
    removeSegments dir (count + 1) =
      (removeSegments dir count).erase (journalSegmentName count) := by
  rw [removeSegments, List.range_succ, List.foldl_append]
  rfl

theorem getElem?_removeSegments {dir : Directory} {count : Nat} {name : Bytes}
    (hname : ∀ index < count, journalSegmentName index ≠ name) :
    (removeSegments dir count)[name]? = dir[name]? := by
  induction count with
  | zero => rfl
  | succ count ih =>
      have hne : compare (journalSegmentName count) name ≠ .eq := fun heq =>
        hname count (by omega) (Std.LawfulEqOrd.eq_of_compare heq)
      rw [removeSegments_succ, Std.ExtTreeMap.getElem?_erase, if_neg hne,
        ih fun index hindex => hname index (by omega)]

/-- The directory once the snapshot is in place. -/
def snapshotDir (s : StoreState) : Directory :=
  s.dir.insert snapshotName (encodeSnapshot s.store.key (encodeState s.live))

/-- The directory once the manifest is in place. -/
def manifestDir (s : StoreState) : Directory := withManifest s (snapshotDir s)

/-- The directory once the new segment is there. -/
def segmentDir (s : StoreState) : Directory :=
  openAppend (manifestDir s) (journalSegmentName ((s.store.segmentIndex + 1) % 2 ^ 32))

section Files

variable {s : StoreState}

theorem manifest_manifestDir : (manifestDir s)[manifestName]? =
    some (encodeManifest s.store.key (checkpointManifest (snapshotDir s) s)) :=
  Std.ExtTreeMap.getElem?_insert_self

theorem snapshot_manifestDir : (manifestDir s)[snapshotName]? =
    some (encodeSnapshot s.store.key (encodeState s.live)) := by
  have hne : manifestName ≠ snapshotName := by decide
  rw [manifestDir, withManifest, writeManifest, getElem?_insert_of_ne _ hne, snapshotDir,
    Std.ExtTreeMap.getElem?_insert_self]

theorem getElem?_segmentDir {count : Nat} (hcount : count ≤ 2 ^ 32) {name : Bytes}
    (hname : parseJournalSegmentName name = none) :
    (removeSegments (segmentDir s) count)[name]? = (manifestDir s)[name]? := by
  have hother (index : Nat) (hindex : index < 2 ^ 32) : journalSegmentName index ≠ name :=
    journalSegmentName_ne hindex hname
  rw [getElem?_removeSegments fun index hindex => hother index (by omega), segmentDir,
    openAppend, Std.ExtTreeMap.getElem?_insertIfNew, if_neg]
  rintro ⟨heq, -⟩
  exact hother _ (Nat.mod_lt _ (by norm_num)) (Std.LawfulEqOrd.eq_of_compare heq)

theorem retiredSegments_le (s : StoreState) : retiredSegments s ≤ 2 ^ 32 :=
  (Nat.min_le_right _ _).trans (Nat.mod_lt _ (by norm_num)).le

theorem checkpoint_eq_ok {generation : Generation} {s' : StoreState}
    (h : checkpoint s = (.ok generation, s')) :
    s.store.isOpen = true ∧ s.live.health = .healthy ∧
      (encodeState s.live).length ≤ s.store.options.limits.maxStateBytes ∧
      s'.dir = removeSegments (segmentDir s) (retiredSegments s) := by
  unfold checkpoint at h
  split at h
  · cases h
  · rename_i dir hsnapshot
    obtain ⟨hopen, hhealth, hbytes, rfl⟩ := withSnapshot_eq_ok.mp hsnapshot
    refine ⟨hopen, hhealth, hbytes, ?_⟩
    dsimp only at h
    split at h
    · cases h
    · cases h
      rfl

theorem length_snapshot_lt
    (hlimits : limitsWithinCompiledCeiling s.store.options.limits = true)
    (hbytes : (encodeState s.live).length ≤ s.store.options.limits.maxStateBytes) :
    (encodeState s.live).length < 2 ^ 32 := by
  obtain ⟨-, -, -, -, hmax, -⟩ := limits_bounds_of_within hlimits
  omega

theorem fits_checkpointManifest
    (hlimits : limitsWithinCompiledCeiling s.store.options.limits = true)
    (hbytes : (encodeState s.live).length ≤ s.store.options.limits.maxStateBytes) :
    Manifest.Fits (checkpointManifest (snapshotDir s) s) := by
  have hlength := length_snapshot_lt hlimits hbytes
  refine ⟨Nat.mod_lt _ (by norm_num), ?_⟩
  change fileSize (snapshotDir s) snapshotName < 2 ^ 64
  rw [fileSize, snapshotDir, Std.ExtTreeMap.getD_insert_self, length_encodeSnapshot]
  omega

end Files

/-- What the reader of a snapshot asks of the image in it. -/
structure SnapshotReadable (image : StateImage) : Prop where
  size : (encodeState image).length + 58 ≤ image.limits.maxStateBytes
  state : StateReadable image
  healthDetail : Short image.healthDetail
  details : ∀ entry ∈ image.audit, Short entry.detail

/-! The conditions can be evaluated. -/

instance (limits : Limits) (provenance : Provenance) :
    Decidable (ProvenanceBlobReadable limits provenance) :=
  decidable_of_iff ((encodeProvenance provenance).length ≤ limits.maxRecordPayload ∧
      provenance.publisher.value.length ≤ limits.maxIdLength)
    ⟨fun h => ⟨h.1, h.2⟩, fun h => ⟨h.1, h.2⟩⟩

instance (limits : Limits) (ids : List Bytes) : Decidable (IdsFit limits ids) :=
  inferInstanceAs (Decidable (∀ id ∈ ids, id ≠ [] ∧ id.length ≤ limits.maxIdLength))

instance (limits : Limits) (bytes : Bytes) (ids : List Bytes) (provenance : Provenance) :
    Decidable (EntryReadable limits bytes ids provenance) :=
  decidable_of_iff (bytes.length ≤ limits.maxRecordPayload ∧ IdsFit limits ids ∧
      ProvenanceBlobReadable limits provenance)
    ⟨fun h => ⟨h.1, h.2.1, h.2.2⟩, fun h => ⟨h.1, h.2, h.3⟩⟩

instance (limits : Limits) (entry : AssignmentEntry) :
    Decidable (AssignmentEntryReadable limits entry) :=
  decidable_of_iff (EntryReadable limits (encodeAssignment entry.assignment)
      (opIds (.assign entry.assignment)) entry.provenance ∧
      ProvenanceBlobReadable limits entry.retiredBy)
    ⟨fun h => ⟨h.1, h.2⟩, fun h => ⟨h.1, h.2⟩⟩

instance (limits : Limits) (entry : AuthorityEntry) :
    Decidable (AuthorityReadable limits entry) :=
  decidable_of_iff ((entry.publisher.value ≠ [] ∧
      entry.publisher.value.length ≤ limits.maxIdLength) ∧
      ProvenanceBlobReadable limits entry.provenance)
    ⟨fun h => ⟨h.1, h.2⟩, fun h => ⟨h.1, h.2⟩⟩

instance (entry : AuditEntry) : Decidable (AuditReadable entry) :=
  inferInstanceAs (Decidable (_ ≤ _ ∧ _ ≤ _ ∧ _ ≤ _ ∧ _ ≤ _ ∧ _ ≤ _))

instance (image : StateImage) : Decidable (TablesReadable image) :=
  decidable_of_iff
    ((∀ entry ∈ values image.classes, EntryReadable image.limits
        (encodeClassDefinition entry.definition) (opIds (.defineClass entry.definition))
        entry.provenance) ∧
      (∀ entry ∈ values image.scopes, EntryReadable image.limits
        (encodeScopeDefinition entry.definition) (opIds (.defineScope entry.definition))
        entry.provenance) ∧
      (∀ entry ∈ values image.policies, EntryReadable image.limits
        (encodePolicyDefinition entry.definition) (opIds (.definePolicy entry.definition))
        entry.provenance) ∧
      (∀ entry ∈ values image.subjects, EntryReadable image.limits
        (encodeSubjectDefinition entry.definition) (opIds (.defineSubject entry.definition))
        entry.provenance) ∧
      (∀ entry ∈ values image.assignments, AssignmentEntryReadable image.limits entry) ∧
      image.authority.size ≤ image.limits.maxPublishers ∧
      image.authority.size ≤ authorityRoom image.limits ∧
      (∀ entry ∈ values image.authority, AuthorityReadable image.limits entry) ∧
      ∀ entry ∈ image.audit, (encodeAuditEntry entry).length ≤ image.limits.maxRecordPayload ∧
        AuditReadable (storedAudit entry))
    ⟨fun ⟨h, h', h'', h₃, h₄, h₅, h₆, h₇, h₈⟩ => ⟨h, h', h'', h₃, h₄, h₅, h₆, h₇, h₈⟩,
      fun ⟨h, h', h'', h₃, h₄, h₅, h₆, h₇, h₈⟩ => ⟨h, h', h'', h₃, h₄, h₅, h₆, h₇, h₈⟩⟩

instance (image : StateImage) : Decidable (SnapshotReadable image) :=
  decidable_of_iff ((encodeState image).length + 58 ≤ image.limits.maxStateBytes ∧
      ((storedText image.healthDetail).length ≤ maxHealthDetail ∧ TablesReadable image) ∧
      image.healthDetail.length < 2 ^ 32 ∧
      ∀ entry ∈ image.audit, entry.detail.length < 2 ^ 32)
    ⟨fun ⟨h, ⟨h', h''⟩, h₃, h₄⟩ => ⟨h, ⟨h', h''⟩, h₃, h₄⟩,
      fun ⟨h, ⟨h', h''⟩, h₃, h₄⟩ => ⟨h, ⟨h', h''⟩, h₃, h₄⟩⟩

theorem storedText_eq_iff {bytes : Bytes} : storedText bytes = bytes ↔ Short bytes := by
  constructor
  · intro h
    rw [← h]
    exact length_storedText_lt bytes
  · exact storedText_of_lt

theorem storedAudit_eq_iff {entry : AuditEntry} (h : AuditFits entry) :
    storedAudit entry = entry ↔ Short entry.detail := by
  have hop : storedText entry.op = entry.op :=
    storedText_of_lt (lt_of_le_of_lt h.op (by norm_num [maxOpLength]))
  have hprovenance : storedText entry.provenance.op = entry.provenance.op :=
    storedText_of_lt (lt_of_le_of_lt h.provenance (by norm_num [maxOpLength]))
  constructor
  · intro heq
    exact storedText_eq_iff.mp (congrArg AuditEntry.detail heq)
  · intro hdetail
    simp only [storedAudit, storedProvenance, hop, hprovenance, storedText_eq_iff.mpr hdetail]

/-- The decoded image is the encoded one exactly when no text was too long to be written. -/
theorem sameState_stored_iff {image : StateImage} (h : Bounded image) :
    SameState (rebuildIndexes (storedImage image)) image ↔
      Short image.healthDetail ∧ ∀ entry ∈ image.audit, Short entry.detail := by
  have hring : image.audit.map storedAudit = image.audit ↔
      ∀ entry ∈ image.audit, Short entry.detail := by
    conv_lhs => rhs; rw [← List.map_id image.audit]
    rw [List.map_inj_left]
    exact forall₂_congr fun entry hentry => storedAudit_eq_iff (h.audit entry hentry)
  rw [← hring, ← storedText_eq_iff]
  constructor
  · intro heq
    exact ⟨congrArg StateImage.healthDetail heq, congrArg StateImage.audit heq⟩
  · rintro ⟨hdetail, haudit⟩
    simp only [SameState, rebuildIndexes, storedImage, hdetail, haudit]

theorem readSnapshot_iff {dir : Directory} {key : Bytes} {manifest : Manifest}
    {image : StateImage} (hbounded : Bounded image)
    (hlimits : limitsWithinCompiledCeiling image.limits = true)
    (hlength : (encodeState image).length < 2 ^ 32)
    (hfile : dir[snapshotName]? = some (encodeSnapshot key (encodeState image)))
    (hdigest : manifest.snapshotDigest = Sha256.hash (encodeState image)) :
    (∃ read, readSnapshot dir image.limits key manifest = .ok read ∧ SameState read image) ↔
      SnapshotReadable image := by
  simp only [readSnapshot_eq_ok_iff hfile hlength, hdigest, implies_true, true_and]
  constructor
  · rintro ⟨read, ⟨hsize, hdecode⟩, hsame⟩
    have hstate : StateReadable image := by
      by_contra hnot
      obtain ⟨e, he⟩ := decodeState_refuses hbounded hlimits hlength hnot
      rw [he] at hdecode
      cases hdecode
    rw [decodeState_encodeState hbounded hlimits hlength hstate] at hdecode
    cases hdecode
    obtain ⟨hdetail, haudit⟩ := (sameState_stored_iff hbounded).mp hsame
    exact ⟨hsize, hstate, hdetail, haudit⟩
  · intro h
    exact ⟨_, ⟨h.size, decodeState_encodeState hbounded hlimits hlength h.state⟩,
      (sameState_stored_iff hbounded).mpr ⟨h.healthDetail, h.details⟩⟩

/-- The files of a directory read back, by this store's manifest, as its image. -/
def ReadsBack (dir : Directory) (s : StoreState) : Prop :=
  ∃ manifest image, readManifest dir s.store.key = .ok manifest ∧
    readSnapshot dir s.store.options.limits s.store.key manifest = .ok image ∧
    SameState image s.live

/-- After a successful checkpoint the manifest is the new one, and the snapshot beside it
reads back under the conditions of the reader. -/
theorem readsBack_iff {s s' : StoreState} {generation : Generation} (h : Reached s)
    (hcheckpoint : checkpoint s = (.ok generation, s')) :
    ReadsBack s'.dir s ↔ SnapshotReadable s.live := by
  obtain ⟨-, -, hbytes, hdir⟩ := checkpoint_eq_ok hcheckpoint
  obtain ⟨hbounded, hsame⟩ := within_of_reached h
  have hfile {name : Bytes} (hname : parseJournalSegmentName name = none) :
      s'.dir[name]? = (manifestDir s)[name]? := by
    rw [hdir]
    exact getElem?_segmentDir (retiredSegments_le s) hname
  have hmanifest := readManifest_eq_ok ((hfile parse_manifestName).trans manifest_manifestDir)
    (fits_checkpointManifest h.configured.admissible hbytes)
  have hsnapshot := (hfile parse_snapshotName).trans snapshot_manifestDir
  have hlimits : limitsWithinCompiledCeiling s.live.limits = true := by
    rw [hsame]
    exact h.configured.admissible
  rw [← @readSnapshot_iff _ _ (checkpointManifest (snapshotDir s) s) _ hbounded hlimits
    (length_snapshot_lt h.configured.admissible hbytes) hsnapshot rfl, hsame]
  constructor
  · rintro ⟨manifest, image, hread, himage⟩
    rw [hmanifest] at hread
    cases hread
    exact ⟨image, himage⟩
  · rintro ⟨image, himage⟩
    exact ⟨_, image, hmanifest, himage⟩

theorem checkpointRuntime_eq_ok {r r' : FabricRuntime} {generation : Generation}
    (h : r.checkpointRuntime = (.ok generation, r')) :
    r.closed = false ∧ checkpoint r.state = (.ok generation, r'.state) := by
  unfold FabricRuntime.checkpointRuntime at h
  split at h
  · cases h
  · rename_i hopen
    generalize checkpoint r.state = result at h
    obtain ⟨status, state⟩ := result
    cases h
    exact ⟨Bool.eq_false_of_not_eq_true hopen, rfl⟩

theorem limits_image {r : FabricRuntime} (h : Reachable r) : r.image.limits = r.limits := by
  obtain ⟨hreached, hsame⟩ := h.reached
  exact hreached.configured.limits.trans hsame.symm

/-- The snapshot of a successful checkpoint reads back as the image exactly when the image
meets the conditions of the reader. -/
theorem checkpoint_readable_iff {r r' : FabricRuntime} {generation : Generation}
    (h : Reachable r) (hcheckpoint : r.checkpointRuntime = (.ok generation, r')) :
    ReadsBack r'.state.dir r.state ↔ SnapshotReadable r.image := by
  obtain ⟨-, hstore⟩ := checkpointRuntime_eq_ok hcheckpoint
  exact readsBack_iff h.reached.1 hstore

/-- Options under which an empty directory becomes a runtime with this bound. -/
def creatingWithin (maxStateBytes : Nat) : RuntimeOptions :=
  { createIfMissing := true, limits := { maxStateBytes } }

def foldsAtOnce (maxStateBytes : Nat) : Bool :=
  match (openRuntime ∅ (creatingWithin maxStateBytes) zeroKey 0).1 with
  | .error _ => false
  | .ok r => r.checkpointRuntime.1.isOk && decide (r.limits = { maxStateBytes }) &&
      decide ((encodeState r.image).length = 79)

theorem blank_startRuntime {dir : Directory} {options : RuntimeOptions}
    {entropy : List.Vector UInt8 storeKeyBytes} {opened : Opened}
    (hfresh : dir.contains manifestName = false)
    (h : openStore dir options.store entropy = .ok opened) :
    (startRuntime options opened).image.audit = [] ∧
      (startRuntime options opened).image.healthDetail = [] := by
  obtain ⟨-, hcreate⟩ := createStore_of_openStore hfresh h
  simp only [createStore, bind_eq_ok, failIf_eq_ok, exists_const, pure, Except.pure,
    Except.ok.injEq] at hcreate
  obtain ⟨-, -, found, -, rfl⟩ := hcreate
  exact ⟨rfl, rfl⟩

theorem exists_folded {maxStateBytes : Nat} (h : foldsAtOnce maxStateBytes = true) :
    ∃ r r' generation, Reachable r ∧ Fresh r ∧ r.image.audit = [] ∧ r.image.healthDetail = [] ∧
      r.limits = { maxStateBytes } ∧ (encodeState r.image).length = 79 ∧
      r.checkpointRuntime = (.ok generation, r') := by
  unfold foldsAtOnce at h
  generalize hopen : openRuntime ∅ (creatingWithin maxStateBytes) zeroKey 0 = result at h
  obtain ⟨status, dir⟩ := result
  cases status with
  | error e => cases h
  | ok r =>
      simp only [Bool.and_eq_true, decide_eq_true_eq] at h
      obtain ⟨⟨hok, hlimits⟩, hlength⟩ := h
      generalize hcheckpoint : r.checkpointRuntime = result at hok
      obtain ⟨status, r'⟩ := result
      cases status with
      | error e => cases hok
      | ok generation =>
          have hreach := Reachable.opened hopen
          unfold openRuntime at hopen
          split at hopen
          · cases hopen
          · split at hopen
            · cases hopen
            · rename_i opened hstore
              have hstart : startRuntime (creatingWithin maxStateBytes) opened = r := by
                simpa [creatingWithin] using (congrArg Prod.fst hopen)
              obtain ⟨haudit, hdetail⟩ := blank_startRuntime (by simp) hstore
              rw [hstart] at haudit hdetail
              exact ⟨r, r', generation, hreach, hstart ▸ fresh_startRuntime (by simp) hstore,
                haudit, hdetail, hlimits, hlength, hcheckpoint⟩

theorem snapshotReadable_fresh {image : StateImage} (hfresh : SameRecord image {})
    (haudit : image.audit = []) (hdetail : image.healthDetail = [])
    (hsize : (encodeState image).length + 58 ≤ image.limits.maxStateBytes) :
    SnapshotReadable image := by
  have hshort : Short image.healthDetail := by
    rw [hdetail]
    exact Nat.two_pow_pos 32
  refine ⟨hsize, ⟨?_, ?_⟩, hshort, by simp [haudit]⟩
  · rw [storedText_of_lt hshort, hdetail]
    exact Nat.zero_le _
  · constructor
    · simp [hfresh.classes, mem_values]
    · simp [hfresh.scopes, mem_values]
    · simp [hfresh.policies, mem_values]
    · simp [hfresh.subjects, mem_values]
    · simp [hfresh.assignments, mem_values]
    · simp [hfresh.authority]
    · simp [hfresh.authority]
    · simp [hfresh.authority, mem_values]
    · simp [haudit]

/-- Whether a runtime with one class folds, and whether its image is readable. -/
def foldsClass (r : FabricRuntime) : Bool × Bool × Nat :=
  let r := performAll r classCalls
  (r.checkpointRuntime.1.isOk, decide (SnapshotReadable r.image), r.image.classes.size)

theorem checkpoint_readable_class :
    ∃ r r' generation, Reachable r ∧ r.image.classes.size = 1 ∧
      r.checkpointRuntime = (.ok generation, r') ∧ ReadsBack r'.state.dir r.state := by
  have hrun : (openRuntime ∅ (creatingWithin 268435456) zeroKey 0).1.toOption.map foldsClass =
      some (true, true, 1) := by decide +kernel
  generalize hopen : openRuntime ∅ (creatingWithin 268435456) zeroKey 0 = result at hrun
  obtain ⟨status, dir⟩ := result
  cases status with
  | error e => cases hrun
  | ok start =>
      simp only [Except.toOption, Option.map_some, Option.some.injEq, foldsClass,
        Prod.mk.injEq, decide_eq_true_eq] at hrun
      obtain ⟨hok, hreadable, hclass⟩ := hrun
      have hreach := reachable_performAll (.opened hopen) classCalls
      generalize performAll start classCalls = r at hok hreadable hclass hreach
      generalize hcheckpoint : r.checkpointRuntime = result at hok
      obtain ⟨status, r'⟩ := result
      cases status with
      | error e => cases hok
      | ok generation =>
          exact ⟨r, r', generation, hreach, hclass, hcheckpoint,
            (checkpoint_readable_iff hreach hcheckpoint).mpr hreadable⟩

/-- A payload within the bound whose file is not: the checkpoint succeeds, and its snapshot
is refused. -/
theorem unreadable_snapshot_written :
    ∃ r r' generation, Reachable r ∧ r.checkpointRuntime = (.ok generation, r') ∧
      ¬ ReadsBack r'.state.dir r.state := by
  obtain ⟨r, r', generation, hreach, -, -, -, hlimits, hlength, hcheckpoint⟩ :=
    exists_folded (by decide : foldsAtOnce 100 = true)
  have hbound : r.image.limits.maxStateBytes = 100 := by
    rw [limits_image hreach, hlimits]
  refine ⟨r, r', generation, hreach, hcheckpoint, fun hreads => ?_⟩
  obtain ⟨-, hstore⟩ := checkpointRuntime_eq_ok hcheckpoint
  have hsize : (encodeState r.image).length + 58 ≤ r.image.limits.maxStateBytes :=
    ((readsBack_iff hreach.reached.1 hstore).mp hreads).size
  omega

end PriorityFabric.Snapshots
