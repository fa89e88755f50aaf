import PriorityFabric.Takeovers
import PriorityFabric.Refusals
import PriorityFabric.Populations

/-!
Refused grants.

A grant that has to advance the epoch first makes two commits.  Each has checks of its
own, and a refusal of the second one leaves the first in place.
-/

namespace PriorityFabric.Granting

open PriorityFabric.Lib.LittleEndian
open PriorityFabric.Basics
open PriorityFabric.Ident
open PriorityFabric.Model
open PriorityFabric.State
open PriorityFabric.StateCodec
open PriorityFabric.Validate
open PriorityFabric.Apply hiding perform
open PriorityFabric.ApplyFacts
open PriorityFabric.Durability
open PriorityFabric.Store
open PriorityFabric.Runtime
open PriorityFabric.Runtime.FabricRuntime
open PriorityFabric.Readable
open PriorityFabric.Committing
open PriorityFabric.Serving
open PriorityFabric.CommitRuns
open PriorityFabric.Calls
open PriorityFabric.Lifetimes
open PriorityFabric.Authority
open PriorityFabric.Takeovers
open PriorityFabric.Refusals
open PriorityFabric.Populations (tight)

/-- The store once a commit has rolled its segment. -/
def rolledStore (dir : Directory) (store : DurableStore) : DurableStore :=
  if store.segmentBytes < segmentRollBytes then store
  else { store with
    segmentIndex := (store.segmentIndex + 1) % 2 ^ 32
    segmentBytes := fileSize (openAppend dir
        (journalSegmentName ((store.segmentIndex + 1) % 2 ^ 32)))
      (journalSegmentName ((store.segmentIndex + 1) % 2 ^ 32))
    segmentOpen := true }

/-- The store takes the two records of a commit whose payload has this size. -/
structure HasRoom (store : DurableStore) (payload : Nat) : Prop where
  isOpen : store.isOpen = true
  segmentOpen : store.segmentBytes < segmentRollBytes → store.segmentOpen = true
  segments : store.segmentBytes < segmentRollBytes ∨
    (store.segmentIndex + 1) % 2 ^ 32 < store.options.limits.maxJournalSegments
  payload_le : payload ≤ store.options.limits.maxRecordPayload
  growth_le : store.durableBytes + journalRecordBytes payload + journalRecordBytes 40 ≤
    store.options.limits.maxStateBytes

theorem rollSegmentIfNeeded_eq_ok_iff {dir dir' : Directory} {store store' : DurableStore} :
    rollSegmentIfNeeded dir store = .ok (dir', store') ↔
      (store.segmentBytes < segmentRollBytes ∨
        (store.segmentIndex + 1) % 2 ^ 32 < store.options.limits.maxJournalSegments) ∧
      store' = rolledStore dir store ∧
      dir' = if store.segmentBytes < segmentRollBytes then dir
        else openAppend dir (journalSegmentName ((store.segmentIndex + 1) % 2 ^ 32)) := by
  unfold rollSegmentIfNeeded rolledStore
  by_cases hsmall : store.segmentBytes < segmentRollBytes
  · simp [hsmall, eq_comm, and_comm]
  · simp only [hsmall, if_false, bind_eq_ok, failIf_eq_ok, exists_const, ge_iff_le, not_le, pure,
      Except.pure, Except.ok.injEq, Prod.mk.injEq, false_or]
    grind

/-- A mutation of the fabric itself that changes the state passes every check of a
commit. -/
structure Goes (s : StoreState) (mutation : Mutation) : Prop where
  room : HasRoom s.store (encodeMutation (planOf s.live mutation)).length
  healthy : s.live.health = .healthy
  valid : validateMutation s.live mutation = .ok ()
  generation : s.live.generation.next ≠ none
  left : ¬ Exhausted s.live mutation.op

section Commits

variable {s s' : StoreState} {mutation : Mutation}

theorem generation_set_iff (hfresh : isIdempotent s.live mutation = false) :
    (plannedGeneration s.live mutation).isSet = true ↔ s.live.generation.next ≠ none := by
  rw [plannedGeneration, if_neg (by simp [hfresh]), ne_eq, ← isSet_getD_next_iff,
    Bool.not_eq_false]

theorem applyMutation_planOf_iff (hsystem : mutation.system = true)
    (hfresh : isIdempotent s.live mutation = false)
    (hvalid : validateMutation s.live mutation = .ok ())
    (hgeneration : s.live.generation.next ≠ none) :
    (∃ live, applyMutation s.live (planOf s.live mutation) false = (.ok (), live)) ↔
      ¬ Exhausted s.live mutation.op := by
  have hperform := @perform_error_iff s.live (planOf s.live mutation)
    (provenanceOf s.live (planOf s.live mutation) (plannedGeneration s.live mutation))
    (plannedGeneration s.live mutation) hfresh hvalid
  constructor
  · rintro ⟨live, happly⟩ hspent
    obtain ⟨expected, hadmissible, happlied⟩ := applyMutation_eq_ok_iff.mp happly
    obtain ⟨e, he⟩ := hperform.mpr hspent
    cases happlied with
    | repeated hrepeated =>
        have hagain : isIdempotent s.live mutation = true := hrepeated
        rw [hfresh] at hagain
        cases hagain
    | performed _ hok =>
        rw [hadmissible.expected_eq] at hok
        have hplanned : plannedGeneration s.live (planOf s.live mutation) =
            plannedGeneration s.live mutation := rfl
        rw [hplanned, he] at hok
        cases hok
  · intro hleft
    cases hresult : Apply.perform (recordAccepted s.live (planOf s.live mutation)
        (plannedGeneration s.live mutation)) (planOf s.live mutation)
        (provenanceOf s.live (planOf s.live mutation) (plannedGeneration s.live mutation)) with
    | error e => exact absurd (hperform.mp ⟨e, hresult⟩) hleft
    | ok result =>
        have hadmissible : Admissible s.live (planOf s.live mutation) false
            (plannedGeneration s.live mutation) := by
          refine ⟨hvalid, fun _ hcaller => ?_, rfl, fun _ => hgeneration, fun _ => rfl⟩
          have hmark : (planOf s.live mutation).system = true := hsystem
          rw [hmark] at hcaller
          cases hcaller
        exact ⟨_, applyMutation_eq_ok_iff.mpr ⟨_, hadmissible, .performed hfresh hresult⟩⟩

theorem segmentOpen_rolledStore {store : DurableStore} (dir : Directory)
    (h : store.segmentBytes < segmentRollBytes → store.segmentOpen = true) :
    (rolledStore dir store).segmentOpen = true := by
  unfold rolledStore
  split
  · rename_i hsmall
    exact h hsmall
  · rfl

/-- A planned mutation that applies is accepted, if a full segment has a successor. -/
theorem commit_of_planned {live : StateImage}
    (hplanned : Planned s.store s.live mutation (planOf s.live mutation))
    (hsegments : s.store.segmentBytes < segmentRollBytes ∨
      (s.store.segmentIndex + 1) % 2 ^ 32 < s.store.options.limits.maxJournalSegments)
    (hopen : s.store.segmentBytes < segmentRollBytes → s.store.segmentOpen = true)
    (happly : applyMutation s.live (planOf s.live mutation) false = (.ok (), live)) :
    ∃ dir, commit s mutation = (.ok (), accepted ⟨dir, rolledStore s.dir s.store, s.live⟩
      (planOf s.live mutation) live) := by
  obtain ⟨dir, hroll⟩ : ∃ dir,
      rollSegmentIfNeeded s.dir s.store = .ok (dir, rolledStore s.dir s.store) :=
    ⟨_, rollSegmentIfNeeded_eq_ok_iff.mpr ⟨hsegments, rfl, rfl⟩⟩
  refine ⟨dir, ?_⟩
  unfold commit commitWriting
  simp only [planCommit_eq_ok_iff.mpr hplanned, hroll]
  exact @journalCommit_accepted ⟨dir, rolledStore s.dir s.store, s.live⟩ _ _
    (segmentOpen_rolledStore s.dir hopen) happly (generation_of_planned hplanned happly)

theorem commit_eq_ok (h : commit s mutation = (.ok (), s')) :
    Planned s.store s.live mutation (planOf s.live mutation) ∧
      (s.store.segmentBytes < segmentRollBytes ∨
        (s.store.segmentIndex + 1) % 2 ^ 32 < s.store.options.limits.maxJournalSegments) ∧
      (rolledStore s.dir s.store).segmentOpen = true ∧
      ∃ dir live, applyMutation s.live (planOf s.live mutation) false = (.ok (), live) ∧
        s' = accepted ⟨dir, rolledStore s.dir s.store, s.live⟩ (planOf s.live mutation) live := by
  unfold commit commitWriting at h
  cases hplan : planCommit s.store s.live mutation with
  | error e =>
      rw [hplan] at h
      cases h
  | ok planned =>
      have hplanned := planCommit_eq_ok_iff.mp hplan
      obtain rfl : planned = planOf s.live mutation := hplanned.planned_eq
      cases hroll : rollSegmentIfNeeded s.dir s.store with
      | error e =>
          simp only [hplan, hroll] at h
          cases h
      | ok rolled =>
          obtain ⟨dir, store⟩ := rolled
          simp only [hplan, hroll] at h
          obtain ⟨hsegments, rfl, -⟩ := rollSegmentIfNeeded_eq_ok_iff.mp hroll
          have hopen : (rolledStore s.dir s.store).segmentOpen = true := by
            by_contra hclosed
            rw [Bool.not_eq_true] at hclosed
            simp only [journalCommit, appendRecord, hclosed, if_true] at h
            cases h
          refine ⟨hplanned, hsegments, hopen, ?_⟩
          cases happly : applyMutation s.live (planOf s.live mutation) false with
          | mk status live =>
              cases status with
              | error e =>
                  simp only [journalCommit, appendRecord_complete hopen, happly] at h
                  cases h
              | ok u =>
                  have hresult := @journalCommit_accepted ⟨dir, rolledStore s.dir s.store, s.live⟩
                    _ _ hopen happly (generation_of_planned hplanned happly)
                  rw [hresult] at h
                  exact ⟨dir, live, rfl, (Prod.mk.inj h).2.symm⟩

theorem commit_of_goes (hsystem : mutation.system = true)
    (hfresh : isIdempotent s.live mutation = false) (h : Goes s mutation) :
    ∃ dir live, applyMutation s.live (planOf s.live mutation) false = (.ok (), live) ∧
      commit s mutation = (.ok (), accepted ⟨dir, rolledStore s.dir s.store, s.live⟩
        (planOf s.live mutation) live) := by
  have hplanned : Planned s.store s.live mutation (planOf s.live mutation) :=
    ⟨h.room.isOpen, h.healthy, h.valid, rfl, (generation_set_iff hfresh).mpr h.generation,
      h.room.payload_le, h.room.growth_le⟩
  obtain ⟨live, happly⟩ :=
    (applyMutation_planOf_iff hsystem hfresh h.valid h.generation).mpr h.left
  obtain ⟨dir, hcommit⟩ :=
    commit_of_planned hplanned h.room.segments h.room.segmentOpen happly
  exact ⟨dir, live, happly, hcommit⟩

theorem goes_of_commit (hsystem : mutation.system = true)
    (hfresh : isIdempotent s.live mutation = false)
    (h : commit s mutation = (.ok (), s')) : Goes s mutation := by
  obtain ⟨hplanned, hsegments, hopen, dir, live, happly, -⟩ := commit_eq_ok h
  have hgeneration := (generation_set_iff hfresh).mp hplanned.generation_set
  refine ⟨⟨hplanned.opened, ?_, hsegments, hplanned.payload_le, hplanned.growth_le⟩,
    hplanned.healthy, hplanned.valid, hgeneration, ?_⟩
  · intro hsmall
    rwa [rolledStore, if_pos hsmall] at hopen
  · rw [← applyMutation_planOf_iff hsystem hfresh hplanned.valid hgeneration]
    exact ⟨live, happly⟩

end Commits

section Call

variable {r : FabricRuntime} {publisher : PublisherId} {boot : BootId} {now : UInt64}

/-- The call passes its own checks and has a grant to make. -/
structure Reaches (r : FabricRuntime) (publisher : PublisherId) (boot : BootId) : Prop where
  publisher_valid : publisher.valid = true
  boot_valid : boot.valid = true
  opened : r.closed = false
  healthy : r.image.health = .healthy
  entry : ∀ entry, r.image.authority[Incarnation.mk publisher boot]? = some entry →
    entry.state ≠ .fenced ∧ ¬ (entry.state = .granted ∧ entry.epoch = r.image.epoch)
  known : r.image.authority[Incarnation.mk publisher boot]? = none →
    knownPublisher r.image publisher = true ∨ r.allowNewPublishers = true

theorem grantAuthority_of_reaches (h : Reaches r publisher boot) :
    r.grantAuthority now publisher boot = r.takeOver publisher boot now := by
  unfold FabricRuntime.grantAuthority
  simp only [h.publisher_valid, h.boot_valid, h.opened, h.healthy, Bool.true_eq_false, if_false,
    Bool.false_eq_true, ne_eq, not_true_eq_false]
  cases hfound : r.image.authority[Incarnation.mk publisher boot]? with
  | some entry =>
      obtain ⟨hfenced, hlive⟩ := h.entry entry hfound
      simp only [if_neg hfenced, if_neg hlive]
  | none =>
      rw [if_neg]
      rintro ⟨hunknown, hclosed⟩
      rcases h.known hfound with hknown | hallowed
      · rw [hknown] at hunknown
        cases hunknown
      · rw [hallowed] at hclosed
        cases hclosed

theorem grantAuthority_of_not_reaches (time : UInt64) (h : ¬ Reaches r publisher boot) :
    (r.grantAuthority time publisher boot).2 = r := by
  unfold FabricRuntime.grantAuthority
  split
  · rfl
  · rename_i hpublisher
    split
    · rfl
    · rename_i hboot
      split
      · rfl
      · rename_i hopened
        split
        · rfl
        · rename_i hhealth
          rw [Bool.not_eq_false] at hpublisher hboot
          rw [Bool.not_eq_true] at hopened
          rw [ne_eq, not_not] at hhealth
          split
          · rename_i entry hentry
            split
            · rfl
            · split
              · rfl
              · rename_i hfenced hlive
                refine absurd ⟨hpublisher, hboot, hopened, hhealth, fun found hfound => ?_,
                  fun hnone => ?_⟩ h
                · rw [hentry, Option.some.injEq] at hfound
                  subst hfound
                  exact ⟨hfenced, hlive⟩
                · rw [hentry] at hnone
                  cases hnone
          · rename_i hentry
            split
            · rfl
            · rename_i hknown
              refine absurd ⟨hpublisher, hboot, hopened, hhealth, fun found hfound => ?_,
                fun _ => ?_⟩ h
              · rw [hentry] at hfound
                cases hfound
              · by_contra hnot
                rw [not_or, Bool.not_eq_true, Bool.not_eq_true] at hnot
                exact hknown hnot

/-- The state has what the advance of the epoch needs. -/
structure AdvanceFits (r : FabricRuntime) (publisher : PublisherId) (boot : BootId)
    (now : UInt64) : Prop where
  epoch : r.image.epoch.next ≠ none
  generation : r.image.generation.next ≠ none
  room : HasRoom r.state.store
    (encodeMutation (epochMutation r.image publisher boot now)).length

/-- The state has what the grant needs behind an advance of the epoch. -/
structure GrantFits (r : FabricRuntime) (publisher : PublisherId) (boot : BootId)
    (now : UInt64) : Prop where
  boots : (incarnations r.image publisher).length < r.image.limits.maxBootsPerPublisher
  generation : ∀ g, r.image.generation.next = some g → g.next ≠ none
  token : ¬ (r.image.nextFencingToken = 0 ∨
    r.image.nextFencingToken = UInt64.ofNat (2 ^ 64 - 1))
  room : HasRoom
    (grown (rolledStore r.state.dir r.state.store)
      ((encodeMutation (epochMutation r.image publisher boot now)).length + 40 + 80))
    (encodeMutation (grantMutation r.image publisher boot now)).length

theorem length_encodeMutation_congr {a b : Mutation} (hop : a.op = b.op)
    (hpublisher : a.publisher = b.publisher) (hreason : a.reason = b.reason) :
    (encodeMutation a).length = (encodeMutation b).length := by
  simp [encodeMutation, ModelCodec.encodeBoot, hop, hpublisher, hreason]

theorem goes_epochMutation_iff (h : Reaches r publisher boot) :
    Goes r.state (epochMutation r.image publisher boot now) ↔
      AdvanceFits r publisher boot now := by
  have hlength : (encodeMutation (planOf r.state.live
      (epochMutation r.image publisher boot now))).length =
      (encodeMutation (epochMutation r.image publisher boot now)).length :=
    length_encodeMutation_congr rfl rfl rfl
  constructor
  · rintro ⟨hroom, -, hvalid, hgeneration, -⟩
    rw [hlength] at hroom
    exact ⟨failIf_eq_ok.mp hvalid, hgeneration, hroom⟩
  · rintro ⟨hepoch, hgeneration, hroom⟩
    rw [← hlength] at hroom
    exact ⟨hroom, h.healthy, failIf_eq_ok.mpr hepoch, hgeneration, fun h => h⟩

theorem length_incarnations_map {a b : StateImage}
    {f : Incarnation → AuthorityEntry → AuthorityEntry} (h : b.authority = a.authority.map f)
    (publisher : PublisherId) :
    (incarnations b publisher).length = (incarnations a publisher).length := by
  rw [incarnations, incarnations, h, Std.ExtTreeMap.toList_map, List.filter_map, List.length_map]
  rfl

/-- The image an advance of the epoch leaves, as far as the grant looks at it. -/
structure Advanced (a b : StateImage) (epoch : FabricEpoch) : Prop where
  next : a.epoch.next = some epoch
  epoch_eq : b.epoch = epoch
  generation : a.generation.next = some b.generation
  token : b.nextFencingToken = a.nextFencingToken
  authority : b.authority = a.authority.map fun _ entry => expireStale epoch entry
  limits : b.limits = a.limits
  health : b.health = a.health

theorem advanced_of_apply {a b : StateImage} {mutation : Mutation}
    (hop : mutation.op = .advanceEpoch) (hgeneration : a.generation.next ≠ none)
    (h : applyMutation a (planOf a mutation) false = (.ok (), b)) :
    ∃ epoch, Advanced a b epoch := by
  have hplan : (planOf a mutation).op = .advanceEpoch := hop
  have hframe := applyMutation_frame h
  obtain ⟨g, hnext⟩ := Option.ne_none_iff_exists'.mp hgeneration
  have hset : b.generation = g := by
    rw [applyMutation_generation h, plannedGeneration, isIdempotent, hplan, hnext]
    rfl
  cases applyMutation_governed h with
  | kept hkept =>
      rw [hplan] at hkept
      cases hkept
  | granted provenance hgrant =>
      rw [hplan] at hgrant
      cases hgrant
  | fenced publisher boot provenance hfence =>
      rw [hplan] at hfence
      cases hfence
  | advanced epoch _ hepochs hepoch htoken hauthority =>
      exact ⟨epoch, hepochs, hepoch, by rw [hset, hnext], htoken, hauthority, hframe.limits,
        hframe.health⟩

/-- Behind an advance, a boot that held no live grant is admitted by the number of boots
alone. -/
theorem validateGrant_advanced_iff {a b : StateImage} {epoch : FabricEpoch} (time : UInt64)
    (h : Advanced a b epoch) (hpublisher : publisher.valid = true) (hboot : boot.valid = true)
    (hentry : ∀ entry, a.authority[Incarnation.mk publisher boot]? = some entry →
      entry.state ≠ .fenced ∧ entry.state ≠ .granted) :
    validateGrant b (grantMutation b publisher boot time) = .ok () ↔
      (incarnations a publisher).length < a.limits.maxBootsPerPublisher := by
  have hstate (state : AuthorityState) (hstate : state = .fenced ∨ state = .granted) :
      (b.authority[Incarnation.mk publisher boot]?).map (·.state) ≠ some state := by
    rw [h.authority, Std.ExtTreeMap.getElem?_map]
    cases hfound : a.authority[Incarnation.mk publisher boot]? with
    | none => simp
    | some entry =>
        obtain ⟨hfenced, hgranted⟩ := hentry entry hfound
        have hkept : expireStale epoch entry = entry := by
          rw [expireStale, if_neg fun hlive => hgranted hlive.1]
        simp only [Option.map_some, hkept, ne_eq, Option.some.injEq]
        rcases hstate with rfl | rfl
        · exact hfenced
        · exact hgranted
  have hfenced := hstate .fenced (.inl rfl)
  have hgranted := hstate .granted (.inr rfl)
  have hzero : boot.isZero = false := by
    rw [BootId.valid, Bool.not_eq_true'] at hboot
    exact hboot
  have hmutation : (grantMutation b publisher boot time).publisher = publisher ∧
      (grantMutation b publisher boot time).boot = boot := ⟨rfl, rfl⟩
  simp only [validateGrant, bind_eq_ok, failIf_eq_ok, exists_const, hmutation.1, hmutation.2,
    hpublisher, hzero, hfenced, hgranted, Bool.true_eq_false, Bool.false_eq_true, if_false,
    not_false_eq_true, true_and, ge_iff_le, not_le, length_incarnations_map h.authority, h.limits]

/-- The grant behind an advance goes through exactly when the state before both has what
it needs. -/
theorem goes_grantMutation_iff {dir : Directory} {live : StateImage} {epoch : FabricEpoch}
    (h : Reaches r publisher boot) (hsound : Sound r.image)
    (hadvanced : Advanced r.image live epoch) {s : StoreState}
    (hs : s = accepted ⟨dir, rolledStore r.state.dir r.state.store, r.image⟩
      (planOf r.image (epochMutation r.image publisher boot now)) live) :
    Goes s (grantMutation s.live publisher boot now) ↔ GrantFits r publisher boot now := by
  have hepochLength : (encodeMutation (planOf r.image
      (epochMutation r.image publisher boot now))).length =
      (encodeMutation (epochMutation r.image publisher boot now)).length :=
    length_encodeMutation_congr rfl rfl rfl
  have hlength : (encodeMutation (planOf s.live (grantMutation s.live publisher boot now))).length
      = (encodeMutation (grantMutation r.image publisher boot now)).length :=
    length_encodeMutation_congr rfl rfl rfl
  have hentry (entry : AuthorityEntry)
      (hfound : r.image.authority[Incarnation.mk publisher boot]? = some entry) :
      entry.state ≠ .fenced ∧ entry.state ≠ .granted := by
    obtain ⟨hfenced, hlive⟩ := h.entry entry hfound
    exact ⟨hfenced, fun hgranted =>
      hlive ⟨hgranted, (hsound.current _ _ hfound hgranted).1⟩⟩
  have hlive : Advanced r.image s.live epoch := by
    rw [hs]
    exact { hadvanced with }
  have hvalid := validateGrant_advanced_iff now hlive h.publisher_valid h.boot_valid hentry
  have hroom : HasRoom s.store (encodeMutation (grantMutation r.image publisher boot now)).length ↔
      HasRoom (grown (rolledStore r.state.dir r.state.store)
        ((encodeMutation (epochMutation r.image publisher boot now)).length + 40 + 80))
        (encodeMutation (grantMutation r.image publisher boot now)).length := by
    rw [hs, ← hepochLength]
    constructor
    · rintro ⟨h1, h2, h3, h4, h5⟩
      exact ⟨h1, h2, h3, h4, h5⟩
    · rintro ⟨h1, h2, h3, h4, h5⟩
      exact ⟨h1, h2, h3, h4, h5⟩
  constructor
  · rintro ⟨hspace, -, hadmitted, hgeneration, hleft⟩
    refine ⟨hvalid.mp hadmitted, ?_, ?_, hroom.mp (hlength ▸ hspace)⟩
    · intro g hg
      rw [hlive.generation, Option.some.injEq] at hg
      rwa [← hg]
    · rw [← hlive.token]
      exact hleft
  · rintro ⟨hboots, hgeneration, htoken, hspace⟩
    refine ⟨hlength ▸ hroom.mpr hspace, hlive.health.trans h.healthy, hvalid.mpr hboots,
      hgeneration _ hlive.generation, ?_⟩
    rw [← hlive.token] at htoken
    exact htoken

theorem commitMutation_eq_ok {s s' : StoreState} {mutation : Mutation} :
    (∃ outcome, commitMutation s mutation = (.ok outcome, s')) ↔
      commit s mutation = (.ok (), s') := by
  unfold commitMutation
  generalize commit s mutation = result
  obtain ⟨status, state⟩ := result
  cases status with
  | error e => simp
  | ok u => simp

theorem grant_error (h : ∃ e, (r.grant publisher boot now).1 = .error e) :
    SameRecord (r.grant publisher boot now).2.image r.image := by
  obtain ⟨e, h⟩ := h
  rcases commitMutation_effect r.state (grantMutation r.image publisher boot now) with
    ⟨e', s', heq, hsame⟩ | ⟨outcome, s', image, heq, happly, hsame⟩
  · rw [grant_refused heq]
    exact hsame
  · obtain ⟨session, -, hgrant, -⟩ := grant_committed heq happly hsame
    rw [hgrant] at h
    cases h

theorem grant_ok_iff : (∃ session, (r.grant publisher boot now).1 = .ok session) ↔
    Goes r.state (grantMutation r.image publisher boot now) := by
  rcases commitMutation_effect r.state (grantMutation r.image publisher boot now) with
    ⟨e', s', heq, hsame⟩ | ⟨outcome, s', image, heq, happly, hsame⟩
  · rw [grant_refused heq]
    refine ⟨fun ⟨_, h⟩ => (by cases h), fun h => ?_⟩
    obtain ⟨dir, live, -, hcommit⟩ := commit_of_goes rfl rfl h
    obtain ⟨outcome, hok⟩ := commitMutation_eq_ok.mpr hcommit
    rw [heq] at hok
    cases hok
  · obtain ⟨session, -, hgrant, -⟩ := grant_committed heq happly hsame
    rw [hgrant]
    exact ⟨fun _ => goes_of_commit rfl rfl (commitMutation_eq_ok.mp ⟨outcome, heq⟩),
      fun _ => ⟨session, rfl⟩⟩

end Call

/-- The epoch, the state generation, the token counter and the authority table are as
they were. -/
structure AuthorityKept (a b : StateImage) : Prop where
  epoch : b.epoch = a.epoch
  generation : b.generation = a.generation
  nextFencingToken : b.nextFencingToken = a.nextFencingToken
  authority : b.authority = a.authority

theorem authorityKept_of_sameRecord {a b : StateImage} (h : SameRecord b a) :
    AuthorityKept a b :=
  ⟨h.epoch, h.generation, h.nextFencingToken, h.authority⟩

theorem takeOver_keeps_iff {r : FabricRuntime} {publisher : PublisherId} {boot : BootId}
    {now : UInt64} (hsound : Sound r.image) (hreaches : Reaches r publisher boot)
    (hneeds : NeedsEpoch r.image publisher boot) :
    (∀ e r', r.takeOver publisher boot now = (.error e, r') →
        AuthorityKept r.image r'.image) ↔
      (AdvanceFits r publisher boot now → GrantFits r publisher boot now) := by
  by_cases hfits : AdvanceFits r publisher boot now
  · -- The advance is committed, and the grant is tried on the state it leaves.
    obtain ⟨dir, live, happly, hcommit⟩ :=
      commit_of_goes rfl rfl ((goes_epochMutation_iff hreaches).mpr hfits)
    obtain ⟨epoch, hadvanced⟩ := advanced_of_apply rfl hfits.generation happly
    obtain ⟨s, hs, outcome, hok⟩ : ∃ s, s = accepted
          ⟨dir, rolledStore r.state.dir r.state.store, r.image⟩
          (planOf r.image (epochMutation r.image publisher boot now)) live ∧
        ∃ outcome, commitMutation r.state (epochMutation r.image publisher boot now) =
          (.ok outcome, s) :=
      ⟨_, rfl, commitMutation_eq_ok.mpr hcommit⟩
    have hgrant : (∃ session, ((r.withState s).grant publisher boot now).1 = .ok session) ↔
        GrantFits r publisher boot now :=
      grant_ok_iff.trans (goes_grantMutation_iff hreaches hsound hadvanced hs)
    have herror := @grant_error (r.withState s) publisher boot now
    rw [takeOver_advanced hneeds hok]
    simp only [hfits, true_imp_iff, ← hgrant]
    generalize (r.withState s).grant publisher boot now = result at herror
    obtain ⟨status, r'⟩ := result
    cases status with
    | ok session => exact ⟨fun _ => ⟨session, rfl⟩, fun _ e r'' h => (by cases h)⟩
    | error e =>
        refine ⟨fun h => ?_, fun ⟨_, h⟩ => (by cases h)⟩
        have hkept := (h e r' rfl).epoch
        have hepoch : r'.image.epoch = epoch := by
          rw [(herror ⟨e, rfl⟩).epoch, ← hadvanced.epoch_eq, hs]
          rfl
        have hgrown := epoch_next_value hadvanced.next
        rw [← hepoch, hkept] at hgrown
        omega
  · refine ⟨fun _ h => absurd h hfits, fun _ e r' h => ?_⟩
    rcases commitMutation_effect r.state (epochMutation r.image publisher boot now) with
      ⟨e', s', heq, hsame⟩ | ⟨outcome, s', image, heq, -, -⟩
    · rw [takeOver_refused hneeds heq] at h
      cases h
      exact authorityKept_of_sameRecord hsame
    · have hgoes := goes_of_commit rfl rfl (commitMutation_eq_ok.mp ⟨outcome, heq⟩)
      exact absurd ((goes_epochMutation_iff hreaches).mp hgoes) hfits

/-- A refused grant leaves the authority as it was exactly when the grant itself cannot be
what is refused behind an advance of the epoch. -/
theorem refused_grant_keeps_authority_iff {start r : FabricRuntime} (hfresh : Fresh start)
    (hrun : Run start r) (now : UInt64) (publisher : PublisherId) (boot : BootId) :
    (∀ e r', r.grantAuthority now publisher boot = (.error e, r') →
        AuthorityKept r.image r'.image) ↔
      (Reaches r publisher boot → NeedsEpoch r.image publisher boot →
        AdvanceFits r publisher boot now → GrantFits r publisher boot now) := by
  have hsound := run_sound hrun (sound_fresh.of_sameRecord hfresh)
  by_cases hreaches : Reaches r publisher boot
  · rw [grantAuthority_of_reaches hreaches]
    by_cases hneeds : NeedsEpoch r.image publisher boot
    · simp only [hreaches, hneeds, true_imp_iff]
      exact takeOver_keeps_iff hsound hreaches hneeds
    · refine ⟨fun _ _ h => absurd h hneeds, fun _ e r' h => ?_⟩
      rw [takeOver_of_not_needsEpoch hneeds] at h
      have hsame := grant_error ⟨e, congrArg Prod.fst h⟩
      rw [h] at hsame
      exact authorityKept_of_sameRecord hsame
  · refine ⟨fun _ h => absurd h hreaches, fun _ e r' h => ?_⟩
    have hsame := grantAuthority_of_not_reaches now hreaches
    rw [h] at hsame
    cases hsame
    exact authorityKept_of_sameRecord (.refl _)

/-- The epoch before and after the second boot of a publisher asks for authority where
each publisher may have one boot. -/
def crowded (opened : Opened) : Bool × FabricEpoch × FabricEpoch :=
  let r := ((startRuntime tight opened).grantAuthority 0 somePublisher someBoot).2
  let result := r.grantAuthority 0 somePublisher otherBoot
  (result.1.isOk, r.image.epoch, result.2.image.epoch)

theorem exists_crowded :
    ∃ start r e r', Fresh start ∧ Run start r ∧
      r.grantAuthority 0 somePublisher otherBoot = (.error e, r') ∧
      r.image.epoch = ⟨1⟩ ∧ r'.image.epoch = ⟨2⟩ := by
  have hepochs : (openStore ∅ tight.store zeroKey).toOption.map crowded =
      some (false, ⟨1⟩, ⟨2⟩) := by decide +kernel
  cases hopen : openStore ∅ tight.store zeroKey with
  | error e =>
      rw [hopen] at hepochs
      cases hepochs
  | ok opened =>
      rw [hopen] at hepochs
      simp only [Except.toOption, Option.map_some, Option.some.injEq, crowded,
        Prod.mk.injEq] at hepochs
      obtain ⟨hrefused, hbefore, hafter⟩ := hepochs
      have hcall := step_grantAuthority (startRuntime tight opened) 0 somePublisher someBoot
      generalize ((startRuntime tight opened).grantAuthority 0 somePublisher someBoot).2 = r
        at hrefused hbefore hafter hcall
      generalize hgrant : r.grantAuthority 0 somePublisher otherBoot = result
        at hrefused hafter
      obtain ⟨status, r'⟩ := result
      cases status with
      | ok session => cases hrefused
      | error e =>
          exact ⟨_, r, e, r', fresh_startRuntime (by simp) hopen, .single hcall, hgrant,
            hbefore, hafter⟩

theorem refused_grant_keeps_authority_iff_first :
    ∃ start, Fresh start ∧
      ((∀ e r', start.grantAuthority 0 somePublisher someBoot = (.error e, r') →
          AuthorityKept start.image r'.image) ↔
        (Reaches start somePublisher someBoot → NeedsEpoch start.image somePublisher someBoot →
          AdvanceFits start somePublisher someBoot 0 →
          GrantFits start somePublisher someBoot 0)) := by
  obtain ⟨opened, -, hfresh, -⟩ := startRuntime_empty
  exact ⟨_, hfresh, refused_grant_keeps_authority_iff hfresh .refl 0 somePublisher someBoot⟩

/-- The second boot is refused, and the epoch has moved. -/
theorem refused_boot_moves_epoch :
    ∃ start r e r', Fresh start ∧ Run start r ∧
      r.grantAuthority 0 somePublisher otherBoot = (.error e, r') ∧
      ¬ AuthorityKept r.image r'.image := by
  obtain ⟨start, r, e, r', hfresh, hrun, hgrant, hbefore, hafter⟩ := exists_crowded
  refine ⟨start, r, e, r', hfresh, hrun, hgrant, fun hkept => ?_⟩
  have hepoch := hkept.epoch
  rw [hbefore, hafter] at hepoch
  cases hepoch

end PriorityFabric.Granting
