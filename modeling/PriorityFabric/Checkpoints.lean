import PriorityFabric.Calls
import PriorityFabric.Decoded
import PriorityFabric.StateDirectory
import PriorityFabric.CommitRuns

/-!
What a reachable runtime's image is, and when the snapshot of a checkpoint reads back.
-/

namespace PriorityFabric.Checkpoints

open PriorityFabric.Lib.LittleEndian
open PriorityFabric.Lib.KeyedTable
open PriorityFabric.Basics
open PriorityFabric.Ident
open PriorityFabric.Hashing
open PriorityFabric.Model
open PriorityFabric.Codec
open PriorityFabric.ModelCodec
open PriorityFabric.State
open PriorityFabric.StateCodec
open PriorityFabric.StateRoundTrip
open PriorityFabric.Durability
open PriorityFabric.Apply
open PriorityFabric.ApplyFacts
open PriorityFabric.Bounds
open PriorityFabric.Decoded
open PriorityFabric.Store
open PriorityFabric.StoreFiles
open PriorityFabric.StateDirectory
open PriorityFabric.CommitRuns (zeroKey)
open PriorityFabric.Runtime
open PriorityFabric.Runtime.FabricRuntime
open PriorityFabric.Calls

/-- The image is within its bounds, under these limits. -/
def Within (limits : Limits) (image : StateImage) : Prop :=
  Bounded image ∧ image.limits = limits

section Within

variable {limits : Limits} {image : StateImage}

theorem within_applyMutation (h : Within limits image) (mutation : Mutation) (replay : Bool) :
    Within limits (applyMutation image mutation replay).2 :=
  ⟨bounded_applyMutation h.1 mutation replay, by rw [applyMutation_limits, h.2]⟩

theorem Within.elsewhere (h : Within limits image) {image' : StateImage}
    (hlimits : image'.limits = image.limits) (hclasses : image'.classes = image.classes)
    (hscopes : image'.scopes = image.scopes) (hpolicies : image'.policies = image.policies)
    (hsubjects : image'.subjects = image.subjects)
    (hassignments : image'.assignments = image.assignments)
    (hauthority : image'.authority = image.authority) (haudit : image'.audit = image.audit) :
    Within limits image' := by
  obtain ⟨⟨htables, hsizes, hentries⟩, hsame⟩ := h
  refine ⟨⟨?_, ?_, ?_⟩, by rw [hlimits, hsame]⟩
  · constructor
    · rw [hlimits, hclasses]
      exact htables.classes
    · rw [hlimits, hscopes]
      exact htables.scopes
    · rw [hlimits, hpolicies]
      exact htables.policies
    · rw [hlimits, hsubjects]
      exact htables.subjects
    · rw [hlimits, hassignments]
      exact htables.assignments
    · rw [hauthority]
      exact htables.authority
  · constructor
    · rw [hlimits, hclasses]
      exact hsizes.classes
    · rw [hlimits, hscopes]
      exact hsizes.scopes
    · rw [hlimits, hpolicies]
      exact hsizes.policies
    · rw [hlimits, hsubjects]
      exact hsizes.subjects
    · rw [hlimits, hassignments]
      exact hsizes.assignments
    · rw [hlimits, haudit]
      exact hsizes.audit
  · rw [haudit]
    exact hentries

theorem within_replayApply {replay next : Replay} {sequence : UInt64} {mutation : Mutation}
    (h : Within limits replay.image)
    (hnext : replayApply replay sequence mutation = .ok next ∨
      replayApply replay sequence mutation = .error next) : Within limits next.image := by
  have happly := within_applyMutation h mutation true
  unfold replayApply at hnext
  cases hresult : applyMutation replay.image mutation true with
  | mk result image' =>
      rw [hresult] at hnext happly
      cases result with
      | error e =>
          rcases hnext with hnext | hnext
          · cases hnext
          · cases hnext
            exact happly
      | ok u =>
          rcases hnext with hnext | hnext
          · cases hnext
            exact happly.elsewhere rfl rfl rfl rfl rfl rfl rfl rfl
          · cases hnext

theorem within_replayRecord {replay next : Replay} {record : JournalRecord}
    (h : Within limits replay.image)
    (hnext : replayRecord limits replay record = .ok next ∨
      replayRecord limits replay record = .error next) : Within limits next.image := by
  have hkept {x : Except Replay Replay} (hx : x = .error next) {detail : Bytes}
      (heq : x = .error (replay.reject detail)) : Within limits next.image := by
    rw [heq] at hx
    cases hx
    exact h
  unfold replayRecord at hnext
  cases hkind : record.kind with
  | pending =>
      simp only [hkind, replayPending] at hnext
      split at hnext
      · rcases hnext with hnext | hnext
        · cases hnext
        · exact hkept hnext rfl
      · split at hnext
        · rcases hnext with hnext | hnext
          · cases hnext
          · exact hkept hnext rfl
        · rcases hnext with hnext | hnext
          · cases hnext
            exact h
          · cases hnext
  | commit =>
      simp only [hkind, replayCommit] at hnext
      repeat' split at hnext
      all_goals
        first
          | exact within_replayApply h hnext
          | rcases hnext with hnext | hnext
            · cases hnext
            · exact hkept hnext rfl

theorem within_replayRecords {replay : Replay} (h : Within limits replay.image)
    (records : List JournalRecord) : Within limits (replayRecords limits replay records).image := by
  induction records generalizing replay with
  | nil => exact h
  | cons record records ih =>
      unfold replayRecords
      cases hrecord : replayRecord limits replay record with
      | error stopped => exact within_replayRecord h (.inr hrecord)
      | ok next => exact ih (within_replayRecord h (.inl hrecord))

theorem within_account {replay : Replay} (h : Within limits replay.image)
    (scan : JournalScanResult) : Within limits (replay.account scan).image := by
  unfold Replay.account
  simp only
  split <;> exact h

theorem within_replaySegments {key : Bytes} {segments : List Nat} {dir dir' : Directory}
    {replay finished : Replay} (h : Within limits replay.image)
    (hreplay : replaySegments limits key segments dir replay = .ok (dir', finished)) :
    Within limits finished.image := by
  induction segments generalizing dir replay with
  | nil =>
      cases hreplay
      exact h
  | cons index segments ih =>
      simp only [replaySegments, bind_eq_ok] at hreplay
      obtain ⟨scan, -, hrest⟩ := hreplay
      have hrecords := within_replayRecords (within_account h scan) scan.records
      split at hrest
      · cases hrest
        exact hrecords
      · split at hrest
        · split at hrest
          · cases hrest
            exact hrecords
          · cases hrest
            exact hrecords
        · exact ih hrecords hrest

theorem within_empty (limits : Limits) : Within limits { limits } := ⟨bounded_empty limits, rfl⟩

theorem within_readSnapshot {dir : Directory} {key : Bytes} {manifest : Manifest}
    (h : readSnapshot dir limits key manifest = .ok image) : Within limits image := by
  simp only [readSnapshot, bind_eq_ok] at h
  obtain ⟨data, -, -, -, -, -, -, -, -, -, -, -, -, -, -, -, -, -, hdecode⟩ := h
  exact bounded_of_decodeState hdecode

theorem within_startingImage {dir : Directory} {key : Bytes} {manifest : Manifest}
    (h : startingImage dir limits key manifest = .ok image) : Within limits image := by
  unfold startingImage at h
  split at h
  · exact within_readSnapshot h
  · cases h
    exact within_empty limits

theorem within_replayStart {dir : Directory} {key : Bytes} {manifest : Manifest}
    {start : Replay} (h : replayStart dir limits key manifest = .ok start) :
    Within limits start.image := by
  simp only [replayStart, bind_eq_ok, pure, Except.pure, Except.ok.injEq] at h
  obtain ⟨first, hfirst, rfl⟩ := h
  exact (within_startingImage hfirst).elsewhere rfl rfl rfl rfl rfl rfl rfl rfl

theorem within_conclude {finished : Replay} (h : Within limits finished.image) :
    Within limits finished.conclude.2 := by
  have hdegraded (detail : Bytes) : Within limits
      { finished.image with health := .degraded, healthDetail := detail } :=
    h.elsewhere rfl rfl rfl rfl rfl rfl rfl rfl
  unfold Replay.conclude
  simp only
  split <;> split
  · exact h
  · exact hdegraded _
  · exact h
  · exact hdegraded _

theorem within_replay {dir : Directory} {options : Options} {key : Bytes} {replayed : Replayed}
    (h : replay dir options key = .ok replayed) : Within options.limits replayed.image := by
  unfold replay at h
  simp only at h
  split at h
  · cases h
    exact within_empty options.limits
  · simp only [bind_eq_ok, pure, Except.pure, Except.ok.injEq] at h
    obtain ⟨manifest, -, start, hstart, -, -, ⟨dir', finished⟩, hfinished, rfl⟩ := h
    exact within_conclude (within_replaySegments (within_replayStart hstart) hfinished)

/-- Whatever a directory holds, the image an open store recovers is within bounds. -/
theorem within_openStore {dir : Directory} {options : Options}
    {entropy : List.Vector UInt8 storeKeyBytes} {opened : Opened}
    (h : openStore dir options entropy = .ok opened) : Within options.limits opened.image := by
  simp only [openStore, bind_eq_ok] at h
  obtain ⟨-, -, hopened⟩ := h
  split at hopened
  · simp only [createStore, bind_eq_ok, pure, Except.pure, Except.ok.injEq] at hopened
    obtain ⟨-, -, -, -, found, -, rfl⟩ := hopened
    exact within_empty options.limits
  · simp only [resumeStore, bind_eq_ok, pure, Except.pure, Except.ok.injEq] at hopened
    obtain ⟨key, -, replayed, hreplayed, rfl⟩ := hopened
    exact within_replay hreplayed

theorem within_normalizeImage (h : Within limits image) : Within limits (normalizeImage image) := by
  refine ⟨⟨{ h.1.tables with authority := h.1.tables.authority.map ?_ ?_ }, { h.1.sizes with },
    h.1.audit⟩, h.2⟩
  · intro key entry
    unfold normalizeEntry
    split <;> rfl
  · intro key entry hentry
    unfold normalizeEntry
    split <;> exact hentry

theorem within_recordRejection (h : Within limits image) {op : Bytes} (hop : op.length ≤ 64)
    (status : Status) (actor : Session) (now : UInt64) :
    Within limits (recordRejection image limits op status actor now) := by
  obtain ⟨hbounded, rfl⟩ := h
  have hcounted : Within image.limits
      { image with nextAuditSequence := image.nextAuditSequence + 1 } :=
    Within.elsewhere ⟨hbounded, rfl⟩ rfl rfl rfl rfl rfl rfl rfl rfl
  exact ⟨hcounted.1.appendAudit ⟨hop, hop⟩, rfl⟩

theorem within_journalCommit {s : StoreState} (h : Within limits s.live) (planned : Mutation)
    (pendingWrite commitWrite : WriteOutcome) :
    Within limits (journalCommit s planned pendingWrite commitWrite).2.live := by
  have happly := within_applyMutation h planned false
  simp only [journalCommit]
  generalize applyMutation s.live planned false = applied at happly ⊢
  obtain ⟨applyStatus, live⟩ := applied
  split
  · exact h
  · cases applyStatus with
    | error e => exact happly
    | ok u =>
        simp only
        split
        · exact happly
        · split
          · exact happly
          · exact happly.elsewhere rfl rfl rfl rfl rfl rfl rfl rfl

theorem within_commitWriting {s : StoreState} (h : Within limits s.live) (mutation : Mutation)
    (pendingWrite commitWrite : WriteOutcome) :
    Within limits (commitWriting s mutation pendingWrite commitWrite).2.live := by
  unfold commitWriting
  cases planCommit s.store s.live mutation with
  | error e => exact h
  | ok planned =>
      cases rollSegmentIfNeeded s.dir s.store with
      | error e => exact h
      | ok rolled =>
          obtain ⟨dir, store⟩ := rolled
          exact @within_journalCommit limits { s with dir, store } h planned _ _

end Within

theorem within_step {s s' : StoreState} (h : Within s.store.options.limits s.live)
    (hstep : StoreStep s s') : Within s'.store.options.limits s'.live := by
  rw [hstep.options]
  cases hstep with
  | commit mutation => exact within_commitWriting h mutation _ _
  | reject op status actor now hop => exact within_recordRejection h hop status actor now
  | checkpoint =>
      rw [checkpoint_live]
      exact h
  | verify report dir hverify => exact h
  | close => exact h

theorem within_of_reached {s : StoreState} (h : Reached s) :
    Within s.store.options.limits s.live := by
  induction h with
  | @opened dir options entropy opened hopen =>
      obtain ⟨-, hoptions⟩ := openStore_options hopen
      have hwithin := within_openStore hopen
      have hsame : { opened.image with limits := options.limits } = opened.image := by
        rw [show options.limits = opened.image.limits from hwithin.2.symm]
      simp only [startRuntime, hoptions, hsame]
      exact within_normalizeImage hwithin
  | step h hstep ih => exact within_step ih hstep

theorem withSnapshot_eq_ok {s : StoreState} {dir : Directory} :
    withSnapshot s = .ok dir ↔ s.store.isOpen = true ∧ s.live.health = .healthy ∧
      (encodeState s.live).length ≤ s.store.options.limits.maxStateBytes ∧
      dir = s.dir.insert snapshotName (encodeSnapshot s.store.key (encodeState s.live)) := by
  simp only [withSnapshot, writeSnapshot, bind_eq_ok, failIf_eq_ok, exists_const,
    Bool.not_eq_false, ne_eq, not_not, gt_iff_lt, not_lt, pure, Except.pure, Except.ok.injEq]
  constructor
  · rintro ⟨hopen, hhealth, hbytes, rfl⟩
    exact ⟨hopen, hhealth, hbytes, rfl⟩
  · rintro ⟨hopen, hhealth, hbytes, rfl⟩
    exact ⟨hopen, hhealth, hbytes, rfl⟩

end PriorityFabric.Checkpoints
