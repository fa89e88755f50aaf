import PriorityFabric.Committing

/-!
A store that serves the image its journal leads to.

The served image and the replayed one agree on everything but the subject index,
which replay may have rebuilt.
-/

namespace PriorityFabric.Serving

open PriorityFabric.Lib.LittleEndian
open PriorityFabric.Basics
open PriorityFabric.Ident
open PriorityFabric.Model
open PriorityFabric.State
open PriorityFabric.StateCodec
open PriorityFabric.Validate
open PriorityFabric.Apply
open PriorityFabric.Durability
open PriorityFabric.JournalScan
open PriorityFabric.Store
open PriorityFabric.Readable
open PriorityFabric.DerivedIndex
open PriorityFabric.ApplyFacts
open PriorityFabric.StoreFiles
open PriorityFabric.Replaying
open PriorityFabric.StateDirectory
open PriorityFabric.Committing

def planOf (live : StateImage) (mutation : Mutation) : Mutation :=
  { mutation with resultingGeneration := plannedGeneration live mutation }

/-- A mutation that gets past the checks made before the first write also passes
the authority check, and its record can be read back. -/
structure Settles (s : StoreState) (mutation : Mutation) : Prop where
  authorized : ∀ planned rolled, Journaled s mutation planned rolled →
    mutation.system = false → checkAuthority s.live mutation = .ok ()
  fits : ∀ planned rolled, Journaled s mutation planned rolled →
    RecordFits s.store.options.limits mutation

theorem recordFits_planned {limits : Limits} {mutation : Mutation} (live : StateImage)
    (h : RecordFits limits mutation) : RecordFits limits (planOf live mutation) :=
  ⟨h.ids, h.reason⟩

theorem carried_of_fits {store : DurableStore} {live : StateImage}
    {mutation planned : Mutation}
    (hlimits : limitsWithinCompiledCeiling store.options.limits = true)
    (hlive : live.limits = store.options.limits)
    (hplanned : Planned store live mutation planned)
    (hfits : RecordFits store.options.limits mutation) :
    Carried store.options.limits planned := by
  refine (decodeMutation_planned_iff hlimits hlive hplanned).mpr ?_
  rw [hplanned.planned_eq]
  exact recordFits_planned live hfits

/-- What is planned and authorized applies, unless the fencing tokens run out. -/
theorem applyMutation_planned {store : DurableStore} {live : StateImage}
    {mutation planned : Mutation} (hplanned : Planned store live mutation planned)
    (hauthorized : mutation.system = false → checkAuthority live mutation = .ok ())
    (hcounted : Counted live) (htoken : TokenLeft live mutation) :
    ∃ live', applyMutation live planned false = (.ok (), live') := by
  rw [hplanned.planned_eq]
  exact @applyMutation_succeeds live (planOf live mutation) false hplanned.valid
    (fun _ => hauthorized) hplanned.generation_set rfl hcounted htoken

theorem plannedGeneration_le (live : StateImage) (mutation : Mutation) :
    (plannedGeneration live mutation).value.toNat ≤ live.generation.value.toNat + 1 := by
  unfold plannedGeneration
  split
  · omega
  · cases hnext : live.generation.next with
    | none => exact Nat.zero_le _
    | some next =>
        have hvalue := next_value hnext
        simp only [Option.getD_some]
        omega

/-- The store is open on the journal of the given mutations and serves the image
they lead to. -/
structure Serves (s : StoreState) (ledger : Ledger) (mutations : List Mutation) :
    Prop where
  journal : Journal s ledger mutations
  image : ∃ replayed, playback ledger.base mutations = .ok replayed ∧
    SameState s.live replayed
  counted : Counted s.live
  limits : s.live.limits = s.store.options.limits
  healthy : s.live.health = .healthy

theorem playOne_sameState {live live' replayed : StateImage} {mutation : Mutation}
    {replay : Bool} (hsame : SameState live replayed)
    (happly : applyMutation live mutation replay = (.ok (), live')) :
    ∃ replayed', playOne replayed mutation = .ok replayed' ∧
      SameState { live' with lastSequence := replayed.lastSequence + 1 } replayed' := by
  obtain ⟨hstatus, himage⟩ := applyMutation_sameState hsame mutation true
  rw [applyMutation_replay_self happly] at hstatus himage
  cases hreplay : applyMutation replayed mutation true with
  | mk status next =>
      rw [hreplay] at hstatus himage
      simp only at hstatus himage
      subst hstatus
      refine ⟨_, playOne_eq_ok hreplay, ?_⟩
      rw [himage.eq_withIndex]
      rfl

theorem Serves.accepted {s next : StoreState} {ledger : Ledger} {mutations : List Mutation}
    {mutation : Mutation} (h : Serves s ledger mutations)
    (hcommit : commit s mutation = (.ok (), next))
    (hfits : RecordFits s.store.options.limits mutation) :
    ∃ segments, Serves next { ledger with segments }
      (mutations ++ [planOf s.live mutation]) := by
  obtain ⟨front, records, hcursor⟩ := h.journal.cursor
  have hcommitted := commit_committed hcursor.opened mutation
  rw [hcommit] at hcommitted
  cases hcommitted with
  | @accepted planned rolled live hjournaled happly =>
      have hplanned : planned = planOf s.live mutation := hjournaled.plan.planned_eq
      have hcarried := carried_of_fits hcursor.admissible h.limits hjournaled.plan hfits
      obtain ⟨segments, hnext⟩ := h.journal.accepted hjournaled hcarried live
      obtain ⟨hoptions, -, -, hsequence, -, -⟩ := rollSegmentIfNeeded_same hjournaled.roll
      obtain ⟨replayed, hplay, hsame⟩ := h.image
      obtain ⟨replayed', hone, hsame'⟩ := playOne_sameState hsame happly
      have hframe := applyMutation_frame happly
      refine ⟨segments, ?_⟩
      rw [← hplanned]
      refine
        { journal := hnext
          image := ⟨replayed', by rw [playback_snoc hplay, hone], ?_⟩
          counted := { applyMutation_counted happly h.counted with }
          limits := ?_
          healthy := hframe.health.trans h.healthy }
      · change SameState { live with lastSequence := rolled.store.nextSequence } replayed'
        rw [hsequence, h.journal.next_eq hplay]
        exact hsame'
      · change live.limits = rolled.store.options.limits
        rw [hframe.limits, hoptions]
        exact h.limits

theorem Serves.commit {s : StoreState} {ledger : Ledger} {mutations : List Mutation}
    {mutation : Mutation} (h : Serves s ledger mutations) (hsettles : Settles s mutation)
    (htoken : ∀ planned rolled, Journaled s mutation planned rolled →
      TokenLeft s.live mutation) :
    (∃ e, commit s mutation = (.error e, s)) ∨
      ∃ next segments, commit s mutation = (.ok (), next) ∧
        Serves next { ledger with segments } (mutations ++ [planOf s.live mutation]) := by
  obtain ⟨front, records, hcursor⟩ := h.journal.cursor
  generalize hresult : Store.commit s mutation = result
  have hcommitted := commit_committed hcursor.opened mutation
  rw [hresult] at hcommitted
  cases hcommitted with
  | refused e hnot => exact .inl ⟨e, rfl⟩
  | stranded e hjournaled happly =>
      obtain ⟨live, hlive⟩ := applyMutation_planned hjournaled.plan
        (hsettles.authorized _ _ hjournaled) h.counted (htoken _ _ hjournaled)
      rw [hlive] at happly
      cases happly
  | accepted hjournaled happly =>
      obtain ⟨segments, hnext⟩ := h.accepted hresult (hsettles.fits _ _ hjournaled)
      exact .inr ⟨_, segments, rfl, hnext⟩

theorem Serves.replay {s : StoreState} {ledger : Ledger} {mutations : List Mutation}
    (h : Serves s ledger mutations) :
    ∃ replayed, replay s.dir s.store.options s.store.key = .ok replayed ∧
      replayed.report.health = .healthy ∧
      replayed.report.recordsApplied =
        ledger.manifest.snapshotPresent.toNat + mutations.length ∧
      playback ledger.base mutations = .ok replayed.image ∧
      SameState s.live replayed.image := by
  obtain ⟨image, hplay, hsame⟩ := h.image
  obtain ⟨replayed, hreplay, hrecovered⟩ := h.journal.replay hplay
  refine ⟨replayed, hreplay, hrecovered.health, hrecovered.applied, ?_, ?_⟩
  · rw [hrecovered.image]
    exact hplay
  · rw [hrecovered.image]
    exact hsame

theorem playback_generation_le {image image' : StateImage} {mutations : List Mutation}
    (h : playback image mutations = .ok image') :
    image'.generation.value.toNat ≤ image.generation.value.toNat + mutations.length := by
  induction mutations generalizing image with
  | nil =>
      cases h
      simp
  | cons mutation mutations ih =>
      rw [playback_cons] at h
      cases hone : playOne image mutation with
      | error e =>
          rw [hone] at h
          cases h
      | ok next =>
          rw [hone] at h
          obtain ⟨applied, happly, rfl⟩ := playOne_eq_ok_iff.mp hone
          have hrest := ih h
          have hstep := plannedGeneration_le image mutation
          rw [← applyMutation_generation happly] at hstep
          rw [List.length_cons]
          change _ ≤ applied.generation.value.toNat + _ at hrest
          omega

theorem Journal.length_le {s : StoreState} {ledger : Ledger} {mutations : List Mutation}
    (h : Journal s ledger mutations) : mutations.length ≤ 2 ^ 40 := by
  obtain ⟨front, records, hcursor⟩ := h.cursor
  obtain ⟨-, -, -, -, hbytes, hmax⟩ := limits_bounds_of_within hcursor.admissible
  have hsegment : ∀ segment ∈ ledger.segments, segment.length ≤ 2 ^ 30 := by
    intro segment hsegment
    have hfits := (hcursor.holds.fits segment hsegment).bytes
    have hforty := length_records_le s.store.key segment
    omega
  have htotal : ledger.records.length ≤ ledger.segments.length * 2 ^ 30 := by
    rw [Ledger.records, List.length_flatten]
    have hsum := List.sum_le_card_nsmul (ledger.segments.map List.length) (2 ^ 30)
      (by simpa using hsegment)
    simpa using hsum
  have hrecords : mutations.length ≤ ledger.records.length := by
    rw [h.records]
    exact length_le_length_commitRecords _ mutations
  have hcount := hcursor.holds.count
  calc mutations.length ≤ ledger.segments.length * 2 ^ 30 := hrecords.trans htotal
    _ ≤ 1024 * 2 ^ 30 := Nat.mul_le_mul_right _ (hcount.trans hmax)
    _ = 2 ^ 40 := by norm_num

end PriorityFabric.Serving
