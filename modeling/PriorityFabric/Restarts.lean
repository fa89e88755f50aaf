import PriorityFabric.IntegrityReports
import PriorityFabric.Lib.RelatedTables

/-!
Restarts inside one journal.

A restart expires the grants of the previous process in the served image alone.  The
image that a replay of the whole journal rebuilds keeps them, and what is journaled
later acts on both.
-/

namespace PriorityFabric.Restarts

open PriorityFabric.Lib.LittleEndian
open PriorityFabric.Lib.RelatedTables
open PriorityFabric.Basics
open PriorityFabric.Ident
open PriorityFabric.Model
open PriorityFabric.State
open PriorityFabric.StateCodec
open PriorityFabric.Validate
open PriorityFabric.Apply
open PriorityFabric.ApplyFacts
open PriorityFabric.DerivedIndex
open PriorityFabric.Durability
open PriorityFabric.Store
open PriorityFabric.StoreFiles
open PriorityFabric.Readable
open PriorityFabric.Replaying
open PriorityFabric.StateDirectory
open PriorityFabric.Committing
open PriorityFabric.Serving
open PriorityFabric.CommitRuns
open PriorityFabric.Reopening
open PriorityFabric.Runtime (RuntimeOptions FabricRuntime)
open PriorityFabric.Runtime.FabricRuntime (startRuntime)
open PriorityFabric.Calls (openStore_options)
open PriorityFabric.Lifetimes (governs)
open PriorityFabric.Calls (someBoot otherBoot)
open PriorityFabric.Authority (creatingRuntime)

/-! ## Tables of authority -/

abbrev AuthorityTable := Std.ExtTreeMap Incarnation AuthorityEntry

def withAuthority (image : StateImage) (table : AuthorityTable) : StateImage :=
  { image with authority := table }

/-- The entries differ in their state at most, and then the first is no live grant and
neither is fenced. -/
structure AlikeEntry (entry old : AuthorityEntry) : Prop where
  rest : entry = { old with state := entry.state }
  state : entry.state = old.state ∨
    entry.state ≠ .granted ∧ entry.state ≠ .fenced ∧ old.state ≠ .fenced

/-- The entry is the other one, or that one, granted, after it expired. -/
def FadedEntry (entry other : AuthorityEntry) : Prop :=
  entry = other ∨ other.state = .granted ∧ entry = { other with state := .expired }

/-- The tables have the same keys, and some grants of the second are expired in the first. -/
abbrev Faded : AuthorityTable → AuthorityTable → Prop := Related FadedEntry

/-- What is granted is granted under the current epoch. -/
def GrantedNow (image : StateImage) : Prop :=
  ∀ (k : Incarnation) (entry : AuthorityEntry), image.authority[k]? = some entry →
    entry.state = .granted → entry.epoch = image.epoch

/-- The mutation grants authority beside another boot of the publisher that a restart
expired under the current epoch. -/
def OvertakesExpired (live : StateImage) (mutation : Mutation) : Prop :=
  mutation.op = .grantAuthority ∧ ∃ (k : Incarnation) (entry : AuthorityEntry),
    live.authority[k]? = some entry ∧ k.publisher = mutation.publisher ∧
      k.boot ≠ mutation.boot ∧ entry.state = .expired ∧ entry.epoch = live.epoch

theorem alikeEntry_of_faded {entry old : AuthorityEntry} (h : FadedEntry entry old) :
    AlikeEntry entry old := by
  rcases h with rfl | ⟨hgranted, rfl⟩
  · exact ⟨rfl, .inl rfl⟩
  · refine ⟨rfl, .inr ⟨by simp, by simp, ?_⟩⟩
    rw [hgranted]
    simp

theorem fadedEntry_normalize {entry old : AuthorityEntry} (h : FadedEntry entry old) :
    normalizeEntry entry = normalizeEntry old := by
  rcases h with rfl | ⟨hgranted, rfl⟩
  · rfl
  · simp [normalizeEntry, hgranted]

theorem fadedEntry_normalizeEntry (entry : AuthorityEntry) :
    FadedEntry (normalizeEntry entry) entry := by
  unfold normalizeEntry
  split
  · rename_i hgranted
    exact .inr ⟨hgranted, rfl⟩
  · exact .inl rfl

theorem map_normalize_of_faded {table other : AuthorityTable} (h : Faded table other) :
    (table.map fun _ entry => normalizeEntry entry) =
      other.map fun _ entry => normalizeEntry entry :=
  h.map_eq fun _ _ _ => fadedEntry_normalize

theorem length_incarnations_of_related {R : AuthorityEntry → AuthorityEntry → Prop}
    {image : StateImage} {table : AuthorityTable} (h : Related R table image.authority)
    (publisher : PublisherId) :
    (incarnations (withAuthority image table) publisher).length =
      (incarnations image publisher).length := by
  have hlength (t : AuthorityTable) : (t.toList.filter (·.1.publisher = publisher)).length =
      (t.keys.filter (·.publisher = publisher)).length := by
    rw [← Std.ExtTreeMap.map_fst_toList_eq_keys, List.filter_map, List.length_map]
    rfl
  change (table.toList.filter _).length = (image.authority.toList.filter _).length
  rw [hlength, hlength, h.keys_eq]

/-! ## Applying to both images -/

section Apply

variable {image : StateImage} {table : AuthorityTable} {mutation : Mutation}

theorem validateGrant_alike (halike : Related AlikeEntry table image.authority)
    (h : validateGrant (withAuthority image table) mutation = .ok ()) :
    validateGrant image mutation = .ok () := by
  have hlength := length_incarnations_of_related halike mutation.publisher
  have hlimits : (withAuthority image table).limits = image.limits := rfl
  have htable : (withAuthority image table).authority = table := rfl
  simp only [validateGrant, hlength, hlimits, htable] at h ⊢
  cases hentry : table[Incarnation.mk mutation.publisher mutation.boot]? with
  | none =>
      rw [halike.none_iff.mp hentry]
      rw [hentry] at h
      exact h
  | some entry =>
      obtain ⟨old, hold, hpair⟩ := halike.exists_of_some hentry
      rw [hold]
      rw [hentry] at h
      simp only [Option.map_some, Option.some.injEq] at h ⊢
      rcases hpair.state with hstate | ⟨hgranted, hfenced, hother⟩
      · rw [← hstate]
        exact h
      · -- A grant that is live in the second image alone needs no room.
        simp only [bind_eq_ok, failIf_eq_ok, exists_const, hgranted, if_false] at h ⊢
        refine ⟨h.1, h.2.1, hother, ?_⟩
        split
        · rfl
        · exact failIf_eq_ok.mpr h.2.2.2

theorem validateMutation_alike (halike : Related AlikeEntry table image.authority)
    (h : validateMutation (withAuthority image table) mutation = .ok ()) :
    validateMutation image mutation = .ok () := by
  unfold validateMutation at h ⊢
  cases hop : mutation.op with
  | defineClass d =>
      rw [hop] at h
      exact (validateClass_reframe image (withAuthority image table) d).symm.trans h
  | defineScope d =>
      rw [hop] at h
      exact (validateScope_reframe image (withAuthority image table) d).symm.trans h
  | definePolicy d =>
      rw [hop] at h
      exact (validatePolicy_reframe image (withAuthority image table) d).symm.trans h
  | defineSubject d =>
      rw [hop] at h
      exact h
  | assign a =>
      rw [hop] at h
      exact (validateAssignment_reframe image (withAuthority image table) rfl a).symm.trans h
  | retireAssignment target =>
      rw [hop] at h
      exact h
  | grantAuthority =>
      rw [hop] at h
      exact validateGrant_alike halike h
  | fenceAuthority publisher boot =>
      rw [hop] at h
      exact h
  | advanceEpoch =>
      rw [hop] at h
      exact h

/-- A relation that the transitions of a mutation keep is kept by its application. -/
theorem applyMutation_along {Q : StateImage → StateImage → Prop} {live : StateImage}
    (halike : Related AlikeEntry table image.authority)
    (hgeneration : ∀ {a b : StateImage} (g : Generation), Q a b →
      Q { a with generation := g } { b with generation := g })
    (hrecorded : ∀ expected, Q (withAuthority (recordAccepted image mutation expected) table)
      (recordAccepted image mutation expected))
    (hperform : ∀ expected provenance result,
      perform (withAuthority (recordAccepted image mutation expected) table) mutation
        provenance = .ok result →
      ∃ result', perform (recordAccepted image mutation expected) mutation provenance =
        .ok result' ∧ Q result result')
    (happly : applyMutation (withAuthority image table) mutation true = (.ok (), live)) :
    ∃ image', applyMutation image mutation true = (.ok (), image') ∧ Q live image' := by
  obtain ⟨expected, hadmissible, happlied⟩ := applyMutation_eq_ok_iff.mp happly
  have hadmitted : Admissible image mutation true expected :=
    { valid := validateMutation_alike halike hadmissible.valid
      authorized := fun h => Bool.noConfusion h
      expected_eq := hadmissible.expected_eq
      next_exists := hadmissible.next_exists
      resulting := hadmissible.resulting }
  cases happlied with
  | repeated hrepeated =>
      exact ⟨_, applyMutation_eq_ok_iff.mpr ⟨expected, hadmitted, .repeated hrepeated⟩,
        hrecorded expected⟩
  | performed hfresh hperformed =>
      obtain ⟨result', hperformed', hrelated⟩ := hperform expected _ _ hperformed
      exact ⟨_, applyMutation_eq_ok_iff.mpr ⟨expected, hadmitted,
        .performed hfresh hperformed'⟩, hgeneration expected hrelated⟩

/-- A table of definitions, of which authority is no part. -/
structure AuthorityFree {tag : IdTag} {Def : Type} (kind : EntityKind tag Def) : Prop where
  table : ∀ image authority, kind.table (withAuthority image authority) = kind.table image
  setTable : ∀ image authority table,
    kind.setTable (withAuthority image authority) table =
      withAuthority (kind.setTable image table) authority

theorem accept_withAuthority {tag : IdTag} {Def : Type} {kind : EntityKind tag Def}
    (hkind : AuthorityFree kind) (image : StateImage) (table : AuthorityTable) (d : Def)
    (provenance : Provenance) :
    kind.accept (withAuthority image table) d provenance =
      (kind.accept image d provenance).map (withAuthority · table) := by
  have hstore : kind.store (withAuthority image table) d provenance =
      (kind.store image d provenance).map (withAuthority · table) := by
    have hbump : kind.bump (withAuthority image table) d = kind.bump image d := by
      rw [EntityKind.bump, EntityKind.bump, hkind.table]
    rw [EntityKind.store, hbump, hkind.table, hkind.setTable]
    symm
    apply map_failIf_pure
  simp only [EntityKind.accept, hkind.table, hkind.setTable, hstore]
  split
  · split <;> rfl
  · rfl

theorem admitAssignment_withAuthority (a : PriorityAssignment) (provenance : Provenance) :
    admitAssignment (withAuthority image table) a provenance =
      (admitAssignment image a provenance).map (withAuthority · table) := by
  have hstore : storeAssignment (withAuthority image table) a provenance =
      (storeAssignment image a provenance).map (withAuthority · table) := by
    have hbump : bumpAssignment (withAuthority image table) a.id = bumpAssignment image a.id :=
      rfl
    rw [storeAssignment, hbump]
    symm
    apply map_failIf_pure
  have hfind : (withAuthority image table).assignments[a.id]? = image.assignments[a.id]? := rfl
  simp only [admitAssignment, hfind, hstore]
  split
  · split <;> rfl
  · rfl

theorem perform_withAuthority (hop : governs mutation.op = false) (provenance : Provenance) :
    perform (withAuthority image table) mutation provenance =
      (perform image mutation provenance).map (withAuthority · table) := by
  unfold perform
  cases hm : mutation.op with
  | defineClass d => exact accept_withAuthority ⟨fun _ _ => rfl, fun _ _ _ => rfl⟩ _ _ _ _
  | defineScope d => exact accept_withAuthority ⟨fun _ _ => rfl, fun _ _ _ => rfl⟩ _ _ _ _
  | definePolicy d => exact accept_withAuthority ⟨fun _ _ => rfl, fun _ _ _ => rfl⟩ _ _ _ _
  | defineSubject d => exact accept_withAuthority ⟨fun _ _ => rfl, fun _ _ _ => rfl⟩ _ _ _ _
  | assign a => exact admitAssignment_withAuthority a provenance
  | retireAssignment target =>
      have hfind : (withAuthority image table).assignments[target]? =
          image.assignments[target]? := rfl
      simp only [Apply.retireAssignment, hfind]
      split
      · rfl
      · split <;> rfl
  | grantAuthority =>
      rw [hm] at hop
      cases hop
  | fenceAuthority publisher boot =>
      rw [hm] at hop
      cases hop
  | advanceEpoch =>
      rw [hm] at hop
      cases hop

theorem perform_keeps (hop : governs mutation.op = false) {provenance : Provenance}
    {result : StateImage} (h : perform image mutation provenance = .ok result) :
    result.authority = image.authority ∧ result.epoch = image.epoch := by
  cases perform_eq_ok h with
  | «class» d entry hm hentry => exact ⟨rfl, rfl⟩
  | scope d entry hm hentry => exact ⟨rfl, rfl⟩
  | policy d entry hm hentry => exact ⟨rfl, rfl⟩
  | subject d entry hm hentry => exact ⟨rfl, rfl⟩
  | assign a result hm hadmitted => cases hadmitted <;> exact ⟨rfl, rfl⟩
  | retire target entry generation hm hentry hnext => exact ⟨rfl, rfl⟩
  | grant hm hpositive hroom =>
      rw [hm] at hop
      cases hop
  | fence publisher boot hm =>
      rw [hm] at hop
      cases hop
  | advance epoch hm hnext =>
      rw [hm] at hop
      cases hop

/-- The first image is the second one, some of whose grants have expired. -/
structure Beside (live image : StateImage) : Prop where
  rest : live = withAuthority image live.authority
  faded : Faded live.authority image.authority
  now : GrantedNow image

theorem faded_supersede (hfaded : Faded table image.authority) (hnow : GrantedNow image)
    (hop : mutation.op = .grantAuthority)
    (hclear : ¬ OvertakesExpired (withAuthority image table) mutation) :
    Faded (table.map (supersede mutation.publisher mutation.boot))
      (image.authority.map (supersede mutation.publisher mutation.boot)) := by
  refine hfaded.map fun k entry old hentry hold hpair => ?_
  rcases hpair with rfl | ⟨hgranted, rfl⟩
  · exact .inl rfl
  · have hkept : supersede mutation.publisher mutation.boot k { old with state := .expired } =
        { old with state := .expired } := by
      simp [supersede]
    rw [hkept]
    by_cases hother : k.publisher = mutation.publisher ∧ k.boot ≠ mutation.boot
    · exact absurd ⟨hop, k, _, hentry, hother.1, hother.2, rfl, hnow k old hold hgranted⟩ hclear
    · have hsame : supersede mutation.publisher mutation.boot k old = old := by
        rw [supersede, if_neg fun h => hother ⟨h.1, h.2.1⟩]
      rw [hsame]
      exact .inr ⟨hgranted, rfl⟩

theorem grantedNow_of_keeps {result : StateImage} (hnow : GrantedNow image)
    (hkeeps : result.authority = image.authority ∧ result.epoch = image.epoch) :
    GrantedNow result := by
  unfold GrantedNow
  rw [hkeeps.1, hkeeps.2]
  exact hnow

theorem perform_fenceAuthority {publisher : PublisherId} {boot : BootId}
    {provenance : Provenance} (hfaded : Faded table image.authority) (hnow : GrantedNow image) :
    Beside (Apply.fenceAuthority (withAuthority image table) publisher boot provenance)
      (Apply.fenceAuthority image publisher boot provenance) := by
  refine ⟨rfl, ?_, ?_⟩
  · have htable : (withAuthority image table).authority = table := rfl
    unfold Apply.fenceAuthority
    refine hfaded.insert _ (.inl ?_)
    simp only [htable]
    cases hentry : table[Incarnation.mk publisher boot]? with
    | none => rw [hfaded.none_iff.mp hentry]
    | some entry =>
        obtain ⟨old, hold, hpair⟩ := hfaded.exists_of_some hentry
        rw [hold]
        rcases hpair with rfl | ⟨-, rfl⟩ <;> rfl
  · intro k entry hentry hgranted
    change entry.epoch = image.epoch
    unfold Apply.fenceAuthority at hentry
    rw [Std.ExtTreeMap.getElem?_insert] at hentry
    split at hentry
    · cases hentry
      split at hgranted <;> cases hgranted
    · exact hnow k entry hentry hgranted

/-- An authority transition keeps the images together, unless it grants beside an entry
that only the served image has expired. -/
theorem perform_beside {provenance : Provenance} {result : StateImage}
    (hfaded : Faded table image.authority) (hnow : GrantedNow image)
    (hclear : ¬ OvertakesExpired (withAuthority image table) mutation)
    (h : perform (withAuthority image table) mutation provenance = .ok result) :
    ∃ result', perform image mutation provenance = .ok result' ∧ Beside result result' := by
  cases hop : governs mutation.op with
  | false =>
      rw [perform_withAuthority hop] at h
      cases hperform : perform image mutation provenance with
      | error e =>
          rw [hperform] at h
          cases h
      | ok result' =>
          rw [hperform] at h
          cases h
          have hkeeps := perform_keeps hop hperform
          refine ⟨result', rfl, rfl, ?_, grantedNow_of_keeps hnow hkeeps⟩
          rw [hkeeps.1]
          exact hfaded
  | true =>
      cases perform_eq_ok h with
      | «class» d entry hm hentry =>
          rw [hm] at hop
          cases hop
      | scope d entry hm hentry =>
          rw [hm] at hop
          cases hop
      | policy d entry hm hentry =>
          rw [hm] at hop
          cases hop
      | subject d entry hm hentry =>
          rw [hm] at hop
          cases hop
      | assign a result hm hadmitted =>
          rw [hm] at hop
          cases hop
      | retire target entry generation hm hentry hnext =>
          rw [hm] at hop
          cases hop
      | grant hm hpositive hroom =>
          have hcounter : ¬ (image.nextFencingToken = 0 ∨
              image.nextFencingToken = UInt64.ofNat (2 ^ 64 - 1)) := by
            rintro (hzero | hmax)
            · exact hpositive hzero
            · exact hroom hmax
          have hperform : perform image mutation provenance = .ok { image with
              authority := (image.authority.map
                  (supersede mutation.publisher mutation.boot)).insert
                ⟨mutation.publisher, mutation.boot⟩
                { publisher := mutation.publisher, boot := mutation.boot,
                  epoch := image.epoch, token := ⟨image.nextFencingToken⟩, state := .granted,
                  provenance }
              nextFencingToken := image.nextFencingToken + 1 } := by
            simp only [perform, hm, Apply.grantAuthority, failIf, hcounter, if_false, bind,
              Except.bind, pure, Except.pure]
          refine ⟨_, hperform, rfl, ?_, ?_⟩
          · exact (faded_supersede hfaded hnow hm hclear).insert _ (.inl rfl)
          · intro k entry hentry hgranted
            change entry.epoch = image.epoch
            rw [Std.ExtTreeMap.getElem?_insert] at hentry
            split at hentry
            · cases hentry
              rfl
            · rw [Std.ExtTreeMap.getElem?_map, Option.map_eq_some_iff] at hentry
              obtain ⟨old, hold, rfl⟩ := hentry
              unfold supersede at hgranted ⊢
              split at hgranted
              · cases hgranted
              · rename_i hkept
                rw [if_neg hkept]
                exact hnow k old hold hgranted
      | fence publisher boot hm =>
          refine ⟨_, by simp only [perform, hm], perform_fenceAuthority hfaded hnow⟩
      | advance epoch hm hnext =>
          have hnext' : image.epoch.next = some epoch := hnext
          have hperform : perform image mutation provenance = .ok { image with
              epoch
              authority := image.authority.map fun _ entry => expireStale epoch entry } := by
            simp only [perform, hm, Apply.advanceEpoch, hnext']
          refine ⟨_, hperform, rfl, ?_, ?_⟩
          · refine hfaded.map fun k entry old hentry hold hpair => ?_
            rcases hpair with rfl | ⟨hgranted, rfl⟩
            · exact .inl rfl
            · have hexpired : expireStale epoch { old with state := .expired } =
                  { old with state := .expired } := by
                simp [expireStale]
              rw [hexpired]
              unfold expireStale
              split
              · exact .inl rfl
              · exact .inr ⟨hgranted, rfl⟩
          · intro k entry hentry hgranted
            change entry.epoch = epoch
            rw [Std.ExtTreeMap.getElem?_map, Option.map_eq_some_iff] at hentry
            obtain ⟨old, hold, rfl⟩ := hentry
            unfold expireStale at hgranted ⊢
            split at hgranted
            · cases hgranted
            · rename_i hkept
              rw [if_neg hkept]
              by_contra hstale
              exact hkept ⟨hgranted, hstale⟩

/-- What the served image accepts, the image of the whole journal accepts beside it. -/
theorem applyMutation_beside {live live' : StateImage} (h : Beside live image)
    (hclear : ¬ OvertakesExpired live mutation)
    (happly : applyMutation live mutation true = (.ok (), live')) :
    ∃ image', applyMutation image mutation true = (.ok (), image') ∧ Beside live' image' := by
  obtain ⟨hrest, hfaded, hnow⟩ := h
  generalize live.authority = table at hrest hfaded
  subst hrest
  refine applyMutation_along (hfaded.imp fun _ _ => alikeEntry_of_faded)
    (fun g hbeside => ⟨?_, hbeside.faded, hbeside.now⟩) (fun expected => ⟨rfl, hfaded, hnow⟩)
    (fun expected provenance result hperform => ?_) happly
  · exact congrArg (fun found : StateImage => { found with generation := g }) hbeside.rest
  · exact @perform_beside (recordAccepted image mutation expected) table mutation _ result
      hfaded hnow hclear hperform

end Apply

/-! ## Stores -/

/-- The journal leads to the image, and the store serves one that goes with it. -/
structure FollowsBy (Q : StateImage → StateImage → Prop) (s : StoreState) (ledger : Ledger)
    (mutations : List Mutation) (image : StateImage) : Prop where
  journal : Journal s ledger mutations
  played : playback ledger.base mutations = .ok image
  beside : ∃ index, Q (withIndex s.live index) image
  counted : Counted image
  limits : image.limits = s.store.options.limits
  healthy : image.health = .healthy

abbrev Follows := FollowsBy Beside

section Stores

variable {Q : StateImage → StateImage → Prop} {s next : StoreState} {ledger : Ledger}
  {mutations : List Mutation} {image : StateImage} {mutation : Mutation}

/-- An accepted mutation that both images apply leads on to images that go together. -/
theorem FollowsBy.accepted (h : FollowsBy Q s ledger mutations image)
    (hcommit : commit s mutation = (.ok (), next))
    (hfits : RecordFits s.store.options.limits mutation)
    (hlive : s.live.limits = image.limits)
    (hnumbered : ∀ {a b : StateImage} (sequence : UInt64), Q a b →
      Q { a with lastSequence := sequence } { b with lastSequence := sequence })
    (hstep : ∀ index live, Q (withIndex s.live index) image →
      applyMutation (withIndex s.live index) (planOf s.live mutation) true = (.ok (), live) →
      ∃ image', applyMutation image (planOf s.live mutation) true = (.ok (), image') ∧
        Q live image') :
    ∃ segments image', FollowsBy Q next { ledger with segments }
        (mutations ++ [planOf s.live mutation]) image' ∧
      ∃ live, applyMutation s.live (planOf s.live mutation) true = (.ok (), live) ∧
        next.live = { live with lastSequence := image.lastSequence + 1 } := by
  obtain ⟨front, records, hcursor⟩ := h.journal.cursor
  obtain ⟨index, hbeside⟩ := h.beside
  have hcommitted := commit_committed hcursor.opened mutation
  rw [hcommit] at hcommitted
  cases hcommitted with
  | @accepted planned rolled live hjournaled happly =>
      have hplanned : planned = planOf s.live mutation := hjournaled.plan.planned_eq
      have hcarried := carried_of_fits hcursor.admissible (hlive.trans h.limits)
        hjournaled.plan hfits
      obtain ⟨segments, hnext⟩ := h.journal.accepted hjournaled hcarried live
      obtain ⟨hoptions, -, -, hsequence, -, -⟩ := rollSegmentIfNeeded_same hjournaled.roll
      subst hplanned
      have hreplay := applyMutation_replay_self happly
      -- The index may differ as well, so the mutation is applied to three images.
      obtain ⟨hstatus, hindexed⟩ := applyMutation_sameState
        (sameState_withIndex s.live index).symm (planOf s.live mutation) true
      rw [hreplay] at hstatus hindexed
      generalize happlied : applyMutation (withIndex s.live index) (planOf s.live mutation)
        true = applied at hstatus hindexed
      obtain ⟨status, live'⟩ := applied
      simp only at hstatus hindexed
      subst hstatus
      obtain ⟨image', hreplayed, hbeside'⟩ := hstep index live' hbeside happlied
      have hframe := applyMutation_frame hreplayed
      have hlast : rolled.store.nextSequence = image.lastSequence + 1 := by
        rw [hsequence, h.journal.next_eq h.played]
      refine ⟨segments, { image' with lastSequence := image.lastSequence + 1 },
        { journal := hnext
          played := by rw [playback_snoc h.played, playOne_eq_ok hreplayed]
          beside := ⟨live'.assignmentsBySubject, ?_⟩
          counted := { applyMutation_counted hreplayed h.counted with }
          limits := ?_
          healthy := hframe.health.trans h.healthy }, live, hreplay, ?_⟩
      · have hserved : withIndex live live'.assignmentsBySubject = live' :=
          hindexed.symm.eq_withIndex.symm
        have hstate : withIndex { live with lastSequence := rolled.store.nextSequence }
            live'.assignmentsBySubject =
              { live' with lastSequence := image.lastSequence + 1 } := by
          rw [← hlast]
          exact congrArg (fun found : StateImage =>
            { found with lastSequence := rolled.store.nextSequence }) hserved
        change Q (withIndex { live with lastSequence := rolled.store.nextSequence }
          live'.assignmentsBySubject) _
        rw [hstate]
        exact hnumbered _ hbeside'
      · change image'.limits = rolled.store.options.limits
        rw [hframe.limits, hoptions]
        exact h.limits
      · change { live with lastSequence := rolled.store.nextSequence } = _
        rw [hlast]

theorem Follows.accepted (h : Follows s ledger mutations image)
    (hcommit : commit s mutation = (.ok (), next))
    (hfits : RecordFits s.store.options.limits mutation)
    (hclear : ¬ OvertakesExpired s.live mutation) :
    ∃ segments image', Follows next { ledger with segments }
      (mutations ++ [planOf s.live mutation]) image' := by
  obtain ⟨index, hbeside⟩ := h.beside
  have hlimits : s.live.limits = image.limits := by
    have hrest := congrArg StateImage.limits hbeside.rest
    exact hrest
  obtain ⟨segments, image', hnext, -⟩ := FollowsBy.accepted h hcommit hfits hlimits
    (fun sequence hpair => ⟨congrArg (fun found : StateImage =>
      { found with lastSequence := sequence }) hpair.rest, hpair.faded, hpair.now⟩)
    (fun index live hpair happly => applyMutation_beside hpair hclear happly)
  exact ⟨segments, image', hnext⟩

theorem FollowsBy.serves (h : FollowsBy Q s ledger mutations image) :
    Serves { s with live := image } ledger mutations := by
  obtain ⟨front, records, hcursor⟩ := h.journal.cursor
  exact
    { journal := { h.journal with cursor := ⟨front, records, { hcursor with }⟩ }
      image := ⟨image, h.played, DerivedIndex.SameState.refl image⟩
      counted := h.counted
      limits := h.limits
      healthy := h.healthy }

theorem beside_normalize (hnow : GrantedNow image) : Beside (normalizeImage image) image := by
  refine ⟨rfl, fun k => ?_, hnow⟩
  change Option.Rel FadedEntry (image.authority.map fun _ entry => normalizeEntry entry)[k]? _
  rw [Std.ExtTreeMap.getElem?_map]
  cases image.authority[k]? with
  | none => exact .none
  | some entry => exact .some (fadedEntry_normalizeEntry entry)

/-- The next process starts from the image of the whole journal, every grant expired. -/
theorem Follows.reopened {options : RuntimeOptions} {opened : Opened}
    {entropy : List.Vector UInt8 storeKeyBytes} (h : Follows s ledger mutations image)
    (hoptions : s.store.options = options.store)
    (hopen : openStore s.dir options.store entropy = .ok opened)
    (hmeasurable : Measurable (withLock s.dir options.store) options.limits) :
    Follows (startRuntime options opened).state ledger mutations image := by
  obtain ⟨opened', hopen', -, hstore, -, hplayed, hserves⟩ :=
    Serves.reopen (FollowsBy.serves h) entropy
  have hsame : openStore s.dir options.store entropy = .ok opened' := by
    rw [← hoptions]
    exact hopen'
  rw [hopen] at hsame
  cases hsame
  have himage : opened.image = image := by
    rw [h.played] at hplayed
    exact (Except.ok.inj hplayed).symm
  have hlimits : image.limits = options.limits := by
    rw [h.limits, hoptions]
    rfl
  have hserved := hserves (by
    change Measurable (withLock s.dir s.store.options) s.store.options.limits
    rw [hoptions]
    exact hmeasurable)
  obtain ⟨front, records, hcursor⟩ := hserved.journal.cursor
  have hlive : (startRuntime options opened).state.live = normalizeImage image := by
    change normalizeImage { opened.image with limits := options.limits } = _
    rw [himage, ← hlimits]
  obtain ⟨index, hbeside⟩ := h.beside
  exact
    { journal := { hserved.journal with cursor := ⟨front, records, { hcursor with }⟩ }
      played := h.played
      beside := by
        refine ⟨image.assignmentsBySubject, ?_⟩
        rw [hlive]
        exact beside_normalize hbeside.now
      counted := h.counted
      limits := h.limits.trans (congrArg Options.limits hstore).symm
      healthy := h.healthy }

theorem Follows.normalized (h : Follows s ledger mutations image) :
    ∃ replayed, replay s.dir s.store.options s.store.key = .ok replayed ∧
      replayed.report.health = .healthy ∧
      DerivedIndex.SameState (normalizeImage s.live) (normalizeImage replayed.image) := by
  obtain ⟨replayed, hreplay, hrecovered⟩ := h.journal.replay h.played
  obtain ⟨index, hbeside⟩ := h.beside
  refine ⟨replayed, hreplay, hrecovered.health, ?_⟩
  have htables := map_normalize_of_faded hbeside.faded
  have hnormal : withIndex (normalizeImage s.live) index = normalizeImage image := by
    calc withIndex (normalizeImage s.live) index
        = normalizeImage (withIndex s.live index) := rfl
      _ = normalizeImage (withAuthority image (withIndex s.live index).authority) :=
          congrArg normalizeImage hbeside.rest
      _ = normalizeImage image := by
          rw [normalizeImage, normalizeImage]
          exact congrArg (withAuthority image) htables
  rw [hrecovered.image, ← hnormal]
  exact (sameState_withIndex _ index).symm

end Stores

/-! ## Lifetimes -/

/-- A store over several lifetimes, opened with the same options.  What is accepted reads
back and grants beside no entry that a restart expired under the current epoch. -/
inductive History (options : RuntimeOptions) : StoreState → Prop
  | created {dir : Directory} {entropy : List.Vector UInt8 storeKeyBytes} {opened : Opened}
      (hfresh : dir.contains manifestName = false)
      (hopen : openStore dir options.store entropy = .ok opened) :
      History options (startRuntime options opened).state
  | accepted {s next : StoreState} {mutation : Mutation} (h : History options s)
      (hcommit : commit s mutation = (.ok (), next))
      (hfits : RecordFits s.store.options.limits mutation)
      (hclear : ¬ OvertakesExpired s.live mutation) : History options next
  | reopened {s : StoreState} {entropy : List.Vector UInt8 storeKeyBytes} {opened : Opened}
      (h : History options s) (hopen : openStore s.dir options.store entropy = .ok opened)
      (hmeasurable : Measurable (withLock s.dir options.store) options.limits) :
      History options (startRuntime options opened).state

theorem follows_created {dir : Directory} {options : RuntimeOptions} {opened : Opened}
    {entropy : List.Vector UInt8 storeKeyBytes}
    (hsegments : 1 ≤ options.limits.maxJournalSegments)
    (hfresh : dir.contains manifestName = false)
    (hopen : openStore dir options.store entropy = .ok opened) :
    ∃ ledger, Follows (startRuntime options opened).state ledger []
      { limits := options.limits } := by
  obtain ⟨hlimits, hcreate⟩ := createStore_of_openStore hfresh hopen
  obtain ⟨hoptions, himage, hjournal⟩ := journal_createStore hlimits hsegments hcreate
  obtain ⟨front, records, hcursor⟩ := hjournal.cursor
  have hlive : (startRuntime options opened).state.live = { limits := options.limits } := by
    simp only [startRuntime, himage]
    exact IntegrityReports.normalizeImage_empty options.limits
  have hnow : GrantedNow { limits := options.limits } := by
    intro k entry hentry
    simp at hentry
  refine ⟨freshLedger options.limits [[]], ?_⟩
  exact
    { journal := { hjournal with cursor := ⟨front, records, { hcursor with }⟩ }
      played := rfl
      beside := ⟨∅, by
        rw [hlive]
        exact ⟨rfl, .refl (fun _ => .inl rfl) _, hnow⟩⟩
      counted := counted_empty options.limits
      limits := (congrArg Options.limits hoptions).symm
      healthy := rfl }

theorem History.follows {options : RuntimeOptions} {s : StoreState}
    (hsegments : 1 ≤ options.limits.maxJournalSegments) (h : History options s) :
    s.store.options = options.store ∧
      ∃ ledger mutations image, Follows s ledger mutations image := by
  induction h with
  | created hfresh hopen =>
      obtain ⟨ledger, hfollows⟩ := follows_created hsegments hfresh hopen
      exact ⟨(openStore_options hopen).2, ledger, _, _, hfollows⟩
  | @accepted s next mutation _ hcommit hfits hclear ih =>
      obtain ⟨hoptions, ledger, mutations, image, hfollows⟩ := ih
      obtain ⟨segments, image', hnext⟩ := hfollows.accepted hcommit hfits hclear
      refine ⟨?_, _, _, _, hnext⟩
      have hkept := commit_options s mutation
      rw [hcommit] at hkept
      exact hkept.trans hoptions
  | reopened _ hopen hmeasurable ih =>
      obtain ⟨hoptions, ledger, mutations, image, hfollows⟩ := ih
      exact ⟨(openStore_options hopen).2, ledger, mutations, image,
        hfollows.reopened hoptions hopen hmeasurable⟩

/-- Over any number of lifetimes the normalized served image is that of one replay of the
whole journal. -/
theorem restarts_commute {options : RuntimeOptions} {s : StoreState}
    (hsegments : 1 ≤ options.limits.maxJournalSegments) (h : History options s) :
    ∃ replayed, replay s.dir s.store.options s.store.key = .ok replayed ∧
      replayed.report.health = .healthy ∧
      DerivedIndex.SameState (normalizeImage s.live) (normalizeImage replayed.image) := by
  obtain ⟨-, ledger, mutations, image, hfollows⟩ := h.follows hsegments
  exact hfollows.normalized

def grantTo (boot : BootId) : Mutation :=
  { op := .grantAuthority, publisher := somePublisher, boot, system := true }

theorem recordFits_grantTo (boot : BootId) : RecordFits ({} : Limits) (grantTo boot) := by
  refine ⟨?_, Nat.zero_le _⟩
  intro id hid
  have hname : id = [112] := by simpa [grantTo, somePublisher, opIds] using hid
  subst hname
  decide

def noneExpired (image : StateImage) : Bool :=
  image.authority.toList.all fun entry => entry.2.state ≠ .expired

theorem not_overtakesExpired {image : StateImage} (h : noneExpired image = true)
    (mutation : Mutation) : ¬ OvertakesExpired image mutation := by
  rintro ⟨-, k, entry, hentry, -, -, hexpired, -⟩
  have hstate := List.all_eq_true.mp h (k, entry)
    (Std.ExtTreeMap.mem_toList_iff_getElem?_eq_some.mpr hentry)
  exact of_decide_eq_true hstate hexpired

/-- Whether both grants are accepted, the second beside a first that did not expire. -/
def takesOver (s : StoreState) : Bool :=
  let granted := (commit s (grantTo someBoot)).2
  (commit s (grantTo someBoot)).1.isOk && noneExpired s.live && noneExpired granted.live &&
    (commit granted (grantTo otherBoot)).1.isOk

theorem commit_of_isOk {s : StoreState} {mutation : Mutation}
    (h : (commit s mutation).1.isOk = true) :
    commit s mutation = (.ok (), (commit s mutation).2) := by
  refine Prod.ext ?_ rfl
  cases hstatus : (commit s mutation).1 with
  | error e =>
      rw [hstatus] at h
      cases h
  | ok u => rfl

theorem restarts_commute_takeover :
    ∃ opened s t again, openStore ∅ creating zeroKey = .ok opened ∧
      commit (startRuntime creatingRuntime opened).state (grantTo someBoot) = (.ok (), s) ∧
      commit s (grantTo otherBoot) = (.ok (), t) ∧
      openStore t.dir creating zeroKey = .ok again ∧
      ∃ replayed, replay (startRuntime creatingRuntime again).state.dir creating
          (startRuntime creatingRuntime again).state.store.key = .ok replayed ∧
        replayed.report.health = .healthy ∧
        DerivedIndex.SameState (normalizeImage (startRuntime creatingRuntime again).state.live)
          (normalizeImage replayed.image) := by
  obtain ⟨opened, hopen⟩ := openStore_empty
  have hcreated : History creatingRuntime (startRuntime creatingRuntime opened).state :=
    .created (by simp) hopen
  have htakes : (openStore ∅ creating zeroKey).toOption.any (fun opened =>
      takesOver (startRuntime creatingRuntime opened).state) = true := by
    decide
  have hcreating : (startRuntime creatingRuntime opened).state.store.options = creating :=
    options_of_openStore_empty hopen
  rw [hopen] at htakes
  simp only [Except.toOption, Option.any_some, takesOver, Bool.and_eq_true] at htakes
  obtain ⟨⟨⟨hfirst, hblank⟩, hlive⟩, hsecond⟩ := htakes
  have hgranted := hcreated.accepted (commit_of_isOk hfirst)
    (by rw [hcreating]; exact recordFits_grantTo someBoot) (not_overtakesExpired hblank _)
  obtain ⟨hkept, -⟩ := hgranted.follows (by decide)
  have htaken := hgranted.accepted (commit_of_isOk hsecond)
    (by rw [hkept]; exact recordFits_grantTo otherBoot) (not_overtakesExpired hlive _)
  obtain ⟨hoptions, ledger, mutations, image, hfollows⟩ := htaken.follows (by decide)
  obtain ⟨again, hagain, -, hstore, -⟩ := Serves.reopen (FollowsBy.serves hfollows) zeroKey
  have hreopen : openStore (commit (commit (startRuntime creatingRuntime opened).state
      (grantTo someBoot)).2 (grantTo otherBoot)).2.dir creatingRuntime.store zeroKey =
        .ok again := by
    rw [← hoptions]
    exact hagain
  have hagainOptions : again.store.options = creating := hstore.trans hoptions
  obtain ⟨replayed, hreplay, hhealth, hsame⟩ := restarts_commute (by decide)
    (htaken.reopened hreopen (.inr (by decide)))
  refine ⟨opened, _, _, again, hopen, commit_of_isOk hfirst, commit_of_isOk hsecond, hreopen,
    replayed, ?_, hhealth, hsame⟩
  rw [← hagainOptions]
  exact hreplay

def grantOf (image : StateImage) (boot : BootId) : Mutation :=
  planOf image (grantTo boot)

/-- The image after a further mutation of its journal. -/
def played (image : StateImage) (mutation : Mutation) : StateImage :=
  { (applyMutation image mutation true).2 with lastSequence := image.lastSequence + 1 }

theorem playback_played {image next : StateImage} {mutations : List Mutation}
    {mutation : Mutation} (h : playback image mutations = .ok next)
    (hok : (applyMutation next mutation true).1.isOk = true) :
    playback image (mutations ++ [mutation]) = .ok (played next mutation) := by
  rw [playback_snoc h]
  cases happly : applyMutation next mutation true with
  | mk status applied =>
      rw [happly] at hok
      cases status with
      | error e => cases hok
      | ok u =>
          rw [playOne_eq_ok happly, played, happly]

def established : StateImage := played {} (planOf {} systemAdvance)

def grantedOnce : StateImage := played established (grantOf established someBoot)

/-- Granting to another boot after a restart: what is served has the former boot expired,
what a replay of the whole journal rebuilds has it superseded. -/
theorem takeover_after_restart :
    ∃ mutations image live replayed, playback {} mutations = .ok image ∧
      applyMutation (normalizeImage image) (grantOf image otherBoot) false = (.ok (), live) ∧
      playback {} (mutations ++ [grantOf image otherBoot]) = .ok replayed ∧
      (normalizeImage live).authority ≠ (normalizeImage replayed).authority := by
  have hfirst : playback {} [planOf {} systemAdvance] = .ok established :=
    playback_played (playback_nil {}) (by decide)
  have hsecond : playback {} ([planOf {} systemAdvance] ++ [grantOf established someBoot]) =
      .ok grantedOnce :=
    playback_played hfirst (by decide)
  have hthird : playback {} ([planOf {} systemAdvance] ++ [grantOf established someBoot] ++
      [grantOf grantedOnce otherBoot]) =
      .ok (played grantedOnce (grantOf grantedOnce otherBoot)) :=
    playback_played hsecond (by decide)
  have hserved : (applyMutation (normalizeImage grantedOnce) (grantOf grantedOnce otherBoot)
      false).1.isOk = true := by
    decide
  have hstates : ((normalizeImage (applyMutation (normalizeImage grantedOnce)
        (grantOf grantedOnce otherBoot) false).2).authority[
          Incarnation.mk somePublisher someBoot]?).map (·.state) = some .expired ∧
      ((normalizeImage (played grantedOnce (grantOf grantedOnce otherBoot))).authority[
          Incarnation.mk somePublisher someBoot]?).map (·.state) = some .superseded := by
    decide
  generalize happly : applyMutation (normalizeImage grantedOnce) (grantOf grantedOnce otherBoot)
    false = result at hserved hstates
  obtain ⟨status, live⟩ := result
  cases status with
  | error e => cases hserved
  | ok u =>
      refine ⟨_, grantedOnce, live, _, hsecond, happly, hthird, fun hsame => ?_⟩
      have hexpired := hstates.1
      simp only at hexpired
      rw [hsame, hstates.2] at hexpired
      cases hexpired

end PriorityFabric.Restarts
