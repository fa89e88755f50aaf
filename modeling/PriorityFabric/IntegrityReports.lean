import PriorityFabric.CheckpointCrashes
import PriorityFabric.Granting
import PriorityFabric.PolicyBinding

/-!
What the integrity report says of a store nobody tampered with.

The report compares the served image with a fresh replay of the files.  Accepted
commits and checkpoints keep the two together; a recorded refusal is in the served
image alone.
-/

namespace PriorityFabric.IntegrityReports

open PriorityFabric.Lib.LittleEndian
open PriorityFabric.Basics
open PriorityFabric.Ident
open PriorityFabric.Hashing
open PriorityFabric.Model
open PriorityFabric.Codec
open PriorityFabric.State
open PriorityFabric.StateCodec
open PriorityFabric.StateRoundTrip
open PriorityFabric.Validate
open PriorityFabric.Apply hiding perform
open PriorityFabric.ApplyFacts
open PriorityFabric.DerivedIndex
open PriorityFabric.Durability
open PriorityFabric.Store
open PriorityFabric.StoreFiles
open PriorityFabric.Readable
open PriorityFabric.Replaying
open PriorityFabric.StateDirectory
open PriorityFabric.Committing
open PriorityFabric.Serving
open PriorityFabric.Unfinished (commit_unjournaled journaled_of_accepted)
open PriorityFabric.CommitRuns
open PriorityFabric.Crashes (commit_eq_accepted)
open PriorityFabric.Runtime
open PriorityFabric.Runtime.FabricRuntime
open PriorityFabric.Calls
open PriorityFabric.Lifetimes
open PriorityFabric.Authority (actorOf)
open PriorityFabric.Takeovers
open PriorityFabric.Granting
open PriorityFabric.Guarding
open PriorityFabric.Checkpoints
open PriorityFabric.Snapshots
open PriorityFabric.Selection
open PriorityFabric.CheckpointCrashes
open PriorityFabric.PolicyBinding (onlyPolicy)

/-! ## Verification -/

section Serving

variable {s s' : StoreState} {ledger : Ledger} {mutations : List Mutation}

theorem Serves.replays (h : Serves s ledger mutations) :
    ∃ replayed index, replay s.dir s.store.options s.store.key = .ok replayed ∧
      replayed.report.health = .healthy ∧ replayed.dir = s.dir ∧
      replayed.image = withIndex s.live index := by
  obtain ⟨image, hplay, hsame⟩ := h.image
  obtain ⟨replayed, hreplay, hrecovered⟩ := h.journal.replay hplay
  refine ⟨replayed, image.assignmentsBySubject, hreplay, hrecovered.health, hrecovered.dir, ?_⟩
  rw [hrecovered.image]
  exact hsame.symm.eq_withIndex

theorem stateDigest_normalize_withIndex (image : StateImage) (index : Index) :
    stateDigest (normalizeImage (withIndex image index)) =
      stateDigest (normalizeImage image) := rfl

theorem Serves.verify (h : Serves s ledger mutations) :
    ∃ report, verify s = .ok (report, s.dir) ∧ report.ok = true := by
  obtain ⟨replayed, index, hreplay, hhealth, hdir, himage⟩ := Serves.replays h
  have hdigest := stateDigest_normalize_withIndex s.live index
  have hgeneration : (normalizeImage (withIndex s.live index)).generation =
      (normalizeImage s.live).generation := rfl
  have hepoch : (normalizeImage (withIndex s.live index)).epoch =
      (normalizeImage s.live).epoch := rfl
  unfold Store.verify
  simp only [hreplay, bind, Except.bind, hhealth, if_true, himage, hdigest, hgeneration, hepoch,
    ne_eq, not_true_eq_false, or_self, if_false, hdir, pure, Except.pure]
  exact ⟨_, rfl, rfl⟩

theorem Serves.verify_differs (h : Serves s ledger mutations) {live : StateImage}
    (hdigest : stateDigest (normalizeImage s.live) ≠ stateDigest (normalizeImage live)) :
    ∃ report, Store.verify { s with live } = .ok (report, s.dir) ∧ report.ok = false := by
  obtain ⟨replayed, index, hreplay, hhealth, hdir, himage⟩ := Serves.replays h
  have hindex := stateDigest_normalize_withIndex s.live index
  unfold Store.verify
  simp only [hreplay, bind, Except.bind, hhealth, if_true, himage, hindex, hdigest, ne_eq,
    not_false_eq_true, hdir, pure, Except.pure]
  exact ⟨_, rfl, rfl⟩

theorem nextAuditSequence_of_encodeState {first second : StateImage}
    (hepoch : first.epoch = second.epoch) (hgeneration : first.generation = second.generation)
    (hlast : first.lastSequence = second.lastSequence)
    (htoken : first.nextFencingToken = second.nextFencingToken)
    (h : encodeState first = encodeState second) :
    first.nextAuditSequence = second.nextAuditSequence := by
  unfold encodeState at h
  rw [hepoch, hgeneration, hlast, htoken] at h
  simp only [List.append_cancel_left_eq] at h
  have hfield := (List.append_inj h (by simp only [Encoder.u64, length_appendLe])).1
  have hread := congrArg readLe hfield
  simp only [Encoder.u64] at hread
  rw [readLe_appendLe (UInt64.toNat_lt _), readLe_appendLe (UInt64.toNat_lt _)] at hread
  exact UInt64.toNat_inj.mp hread

theorem Serves.verify_refused (h : Serves s ledger mutations) (limits : Limits) (op : Bytes)
    (status : Status) (actor : Session) (now : UInt64)
    (hcollision : StateEncoding.NoCollision (encodeState (normalizeImage s.live))
      (encodeState (normalizeImage (recordRejection s.live limits op status actor now)))) :
    ∃ report, Store.verify
        { s with live := recordRejection s.live limits op status actor now } =
          .ok (report, s.dir) ∧ report.ok = false := by
  refine Serves.verify_differs h fun hdigest => ?_
  have hcounter := @nextAuditSequence_of_encodeState (normalizeImage s.live)
    (normalizeImage (recordRejection s.live limits op status actor now)) rfl rfl rfl rfl
    (hcollision hdigest)
  have hnext : s.live.nextAuditSequence = s.live.nextAuditSequence + 1 := hcounter
  have hzero : (1 : UInt64) = 0 := by
    rw [← UInt64.add_right_inj s.live.nextAuditSequence, UInt64.add_zero, ← hnext]
  exact absurd hzero (by decide)

/-! ## Checkpoints -/

/-- The store that has moved on to a new segment and removed some of the old ones. -/
def movedOn (s : StoreState) (count : Nat) : StoreState :=
  { s with
    dir := removeSegments (segmentDir s) count
    store := { s.store with
      segmentIndex := (s.store.segmentIndex + 1) % 2 ^ 32
      segmentOpen := true
      segmentBytes := fileSize (segmentDir s)
        (journalSegmentName ((s.store.segmentIndex + 1) % 2 ^ 32))
      durableBytes := measureDurableBytes (removeSegments (segmentDir s) count) } }

theorem checkpoint_folded {generation : Generation}
    (h : Store.checkpoint s = (.ok generation, s')) :
    Folds s ∧ ¬ CounterSpent s ∧ s' = movedOn s (retiredSegments s) := by
  unfold Store.checkpoint at h
  split at h
  · cases h
  · rename_i dir hsnapshot
    obtain ⟨hopen, hhealth, hbytes, rfl⟩ := withSnapshot_eq_ok.mp hsnapshot
    refine ⟨⟨hopen, hhealth, hbytes⟩, ?_⟩
    dsimp only at h
    split at h
    · cases h
    · rename_i hroom
      cases h
      exact ⟨hroom, rfl⟩

theorem stored_eq (h : Bounds.Bounded s.live) (hreadable : SnapshotReadable s.live) :
    SameState s.live (rebuildIndexes (storedImage s.live)) := by
  have hsame := (sameState_stored_iff h).mpr ⟨hreadable.healthDetail, hreadable.details⟩
  have hlimits : (rebuildIndexes (storedImage s.live)).limits = s.live.limits := rfl
  unfold StateEncoding.SameState at hsame
  rw [← hlimits] at hsame
  exact (congrArg (withIndex · ∅) hsame).symm

theorem serves_movedOn {durable : StateImage} (h : Durable s ledger durable)
    (hfolds : Folds s) (hroom : ¬ CounterSpent s) (hreadable : SnapshotReadable s.live)
    (hcounted : Counted s.live) (hnumbered : s.store.nextSequence = s.live.lastSequence + 1)
    {count : Nat} (hcount : count ≤ retiredSegments s) :
    Serves (movedOn s count)
      ⟨checkpointManifest (snapshotDir s) s, rebuildIndexes (storedImage s.live), [[]]⟩ [] := by
  have hlt := h.index_lt
  have hnext : (s.store.segmentIndex + 1) % 2 ^ 32 = s.store.segmentIndex + 1 := by omega
  have hempty : fileSize (segmentDir s)
      (journalSegmentName ((s.store.segmentIndex + 1) % 2 ^ 32)) = 0 := by
    rw [hnext, segmentDir_eq h, fileSize, Std.ExtTreeMap.getD_insert_self]
    rfl
  refine
    { journal :=
        { cursor := ⟨[], [],
            { admissible := h.admissible
              holds := holds_segmentDir h hfolds hroom hcount hreadable.size hreadable.state
              last := rfl
              index := rfl
              index_le := ?_
              bytes := hempty
              measured := .inl (hempty.le.trans (Nat.zero_le _))
              opened := rfl }⟩
          opened := hfolds.isOpen
          records := rfl
          carried := fun mutation hmutation => by cases hmutation
          next := ?_ }
      image := ⟨_, rfl, stored_eq h.within.1 hreadable⟩
      counted := hcounted
      limits := h.within.2
      healthy := hfolds.healthy }
  · change (s.store.segmentIndex + 1) % 2 ^ 32 ≤ 1024
    omega
  · change s.store.nextSequence = s.live.lastSequence + 1 + 0
    rw [hnumbered, UInt64.add_zero]

theorem Serves.checkpoint {generation : Generation} (h : Serves s ledger mutations)
    (hwithin : Within s.store.options.limits s.live)
    (hcheckpoint : Store.checkpoint s = (.ok generation, s'))
    (hreadable : SnapshotReadable s.live) : ∃ ledger', Serves s' ledger' [] := by
  obtain ⟨hfolds, hroom, rfl⟩ := checkpoint_folded hcheckpoint
  obtain ⟨image, hdurable, hplay, hsame⟩ := Serves.durable h hwithin hroom
  have hlast : s.live.lastSequence = image.lastSequence := by
    rw [hsame.eq_withIndex]
    rfl
  exact ⟨_, serves_movedOn hdurable hfolds hroom hreadable h.counted
    (by rw [h.journal.next_eq hplay, hlast]) (le_refl _)⟩

end Serving

/-- The served image is bounded and is what the files lead to. -/
structure InStep (s : StoreState) : Prop where
  within : Within s.store.options.limits s.live
  serves : ∃ ledger mutations, Serves s ledger mutations

/-- The mutation passes every check of a commit, and its record can be read back. -/
structure Admitted (s : StoreState) (mutation : Mutation) : Prop where
  journaled : ∃ planned rolled, Journaled s mutation planned rolled
  authorized : mutation.system = false → checkAuthority s.live mutation = .ok ()
  token : TokenLeft s.live mutation
  fits : RecordFits s.store.options.limits mutation

theorem InStep.commit {s : StoreState} {mutation : Mutation} (h : InStep s)
    (hsettles : Settles s mutation) (htoken : TokenLeft s.live mutation) :
    InStep (Store.commit s mutation).2 := by
  refine ⟨within_step h.within (.commit s mutation), ?_⟩
  obtain ⟨ledger, mutations, hserves⟩ := h.serves
  rcases hserves.commit hsettles fun _ _ _ => htoken with
    ⟨e, hcommit⟩ | ⟨next, segments, hcommit, hnext⟩
  · rw [hcommit]
    exact ⟨_, _, hserves⟩
  · rw [hcommit]
    exact ⟨_, _, hnext⟩

theorem Admitted.settles {s : StoreState} {mutation : Mutation} (h : Admitted s mutation) :
    Settles s mutation :=
  ⟨fun _ _ _ => h.authorized, fun _ _ _ => h.fits⟩

theorem Admitted.accepted {s : StoreState} {mutation : Mutation} (h : Admitted s mutation)
    (hstep : InStep s) : ∃ s', Store.commit s mutation = (.ok (), s') := by
  obtain ⟨ledger, mutations, hserves⟩ := hstep.serves
  obtain ⟨front, records, hcursor⟩ := hserves.journal.cursor
  rcases hserves.commit h.settles fun _ _ _ => h.token with
    ⟨e, hcommit⟩ | ⟨next, segments, hcommit, -⟩
  · -- A refusal that leaves the store as it is came before the first write.
    obtain ⟨planned, rolled, hjournaled⟩ := h.journaled
    have hcommitted := commit_committed hcursor.opened mutation
    obtain ⟨live, happly⟩ := applyMutation_planned hjournaled.plan h.authorized
      hserves.counted h.token
    rw [commit_eq_accepted hcursor.opened hjournaled happly] at hcommit
    cases hcommit
  · exact ⟨next, hcommit⟩

/-- What the call is asked to write is refused at sight. -/
def Malformed : Call → Prop
  | .fence _ publisher boot _ => publisher.valid = false ∨ boot.valid = false
  | .assign _ a => a.kind = .default
  | _ => False

/-- The call is turned away before it looks at the image. -/
def Dismissed (r : FabricRuntime) (call : Call) : Prop :=
  ∃ actor, actorOf call = some actor ∧
    (sessionShapeValid actor = false ∨ r.closed = true ∨ Malformed call)

/-- The records of a grant, and of the epoch advance before it, can be read back, and there
is a token. -/
structure GrantFits (r : FabricRuntime) (now : UInt64) (publisher : PublisherId)
    (boot : BootId) : Prop where
  token : TokenLeft r.image (grantMutation r.image publisher boot now)
  grant : RecordFits r.state.store.options.limits (grantMutation r.image publisher boot now)
  epoch : NeedsEpoch r.image publisher boot →
    RecordFits r.state.store.options.limits (epochMutation r.image publisher boot now)

/-- The call will not be a recorded refusal, and what it writes can be read back. -/
def Faultless (r : FabricRuntime) (now : UInt64) : Call → Prop
  | .grantAuthority publisher boot =>
      Reaches r publisher boot → GrantFits r now publisher boot
  | .checkpoint => r.closed = false → Folds r.state →
      ¬ CounterSpent r.state ∧ SnapshotReadable r.state.live
  | .integrityReport | .close => True
  | call => Dismissed r call ∨ ∃ mutation ∈ publishes r now call, Admitted r.state mutation

/-- The runs of faultless calls. -/
inductive FaultlessRun (first : FabricRuntime) : FabricRuntime → Prop
  | start : FaultlessRun first first
  | called {r : FabricRuntime} (h : FaultlessRun first r) (now : UInt64) (call : Call)
      (hcall : Faultless r now call) : FaultlessRun first (perform r now call).2

section Calls

variable {r : FabricRuntime} {now : UInt64} {call : Call} {actor : Session} {α : Type}

/-- What a call under a session does: nothing, a recorded refusal, or one commit. -/
inductive Effect (r : FabricRuntime) (now : UInt64) (call : Call) (actor : Session) :
    Option Mutation → FabricRuntime → Prop
  | dismissed (h : Dismissed r call) : Effect r now call actor none r
  | recorded (h : ¬ Dismissed r call) (op : Bytes) (e : Status) :
      Effect r now call actor none (r.rejectCall (α := Unit) op e actor now).2
  | published (h : ¬ Dismissed r call) (op : Bytes) (mutation : Mutation) :
      Effect r now call actor (some mutation)
        (r.publish now actor op mutation fun _ _ => ()).2

theorem snd_publish (op : Bytes) (mutation : Mutation) (value : CommitOutcome → StateImage → α) :
    (r.publish now actor op mutation value).2 =
      (r.publish now actor op mutation fun _ _ => ()).2 := by
  unfold publish
  generalize commitMutation r.state mutation = result
  obtain ⟨status, state⟩ := result
  cases status <;> rfl

theorem not_dismissed (hactor : actorOf call = some actor)
    (hshape : ¬ sessionShapeValid actor = false) (hopen : ¬ r.closed = true)
    (hformed : ¬ Malformed call) : ¬ Dismissed r call := by
  rintro ⟨other, hother, h⟩
  rw [hactor] at hother
  cases hother
  rcases h with h | h | h
  · exact hshape h
  · exact hopen h
  · exact hformed h

theorem effect_underSession {found : Option Mutation} {body : Result α × FabricRuntime}
    (hactor : actorOf call = some actor)
    (h : ¬ sessionShapeValid actor = false → ¬ r.closed = true →
      Effect r now call actor found body.2) :
    Effect r now call actor (held r actor found) (r.underSession actor body).2 := by
  unfold held underSession
  split
  · rename_i hshape
    exact .dismissed ⟨actor, hactor, .inl hshape⟩
  · rename_i hshape
    split
    · rename_i hclosed
      exact .dismissed ⟨actor, hactor, .inr (.inl hclosed)⟩
    · rename_i hopen
      exact h hshape hopen

theorem effect_publish (hactor : actorOf call = some actor) (hformed : ¬ Malformed call)
    (op : Bytes) (mutation : Mutation) (value : CommitOutcome → StateImage → α) :
    Effect r now call actor (held r actor (some mutation))
      (r.underSession actor (r.publish now actor op mutation value)).2 := by
  refine effect_underSession hactor fun hshape hopen => ?_
  rw [snd_publish]
  exact .published (not_dismissed hactor hshape hopen hformed) op mutation

theorem effect_fence (publisher : PublisherId) (boot : BootId) (reason : Bytes) :
    Effect r now (.fence actor publisher boot reason) actor
      (publishes r now (.fence actor publisher boot reason))
      (r.fence now actor publisher boot reason).2 := by
  have hactor : actorOf (.fence actor publisher boot reason) = some actor := rfl
  by_cases hnames : publisher.valid = false ∨ boot.valid = false
  · have hresult : (r.fence now actor publisher boot reason).2 = r := by
      unfold fence
      rw [if_pos hnames]
      split <;> rfl
    rw [publishes, if_pos hnames, hresult]
    exact .dismissed ⟨actor, hactor, .inr (.inr hnames)⟩
  · have hresult : (r.fence now actor publisher boot reason).2 =
        (r.underSession actor (r.publish now actor (text "fence") (baseMutation actor
          (.fenceAuthority publisher boot) (if reason.isEmpty then text "fenced" else reason)
          now) fun _ _ => ())).2 := by
      unfold fence underSession
      rw [if_neg hnames]
    rw [publishes, if_neg hnames, hresult]
    exact effect_publish hactor hnames _ _ _

theorem effect_assign (a : PriorityAssignment) :
    Effect r now (.assign actor a) actor (publishes r now (.assign actor a))
      (r.assign now actor a).2 := by
  refine effect_underSession rfl fun hshape hopen => ?_
  unfold stamped
  by_cases hkind : a.kind = .default
  · rw [if_pos hkind, if_pos hkind]
    exact .dismissed ⟨actor, rfl, .inr (.inr hkind)⟩
  · have hnot : ¬ Dismissed r (.assign actor a) := not_dismissed rfl hshape hopen hkind
    rw [if_neg hkind, if_neg hkind]
    cases hsubject : r.image.subjects[a.subject]? with
    | none => exact .recorded hnot _ _
    | some subject =>
        cases hscope : r.image.scopes[a.scope]? with
        | none => exact .recorded hnot _ _
        | some scope =>
            cases hcls : r.image.classes[a.cls]? with
            | none => exact .recorded hnot _ _
            | some cls =>
                obtain ⟨_, _, _, _, _, _, _, _, _, _, policy, _, _⟩ := a
                cases policy with
                | none =>
                    simp only [snd_publish]
                    exact .published hnot _ _
                | some policy =>
                    cases hpolicy : r.image.policies[policy]? with
                    | none =>
                        simp only [policyGenerationOf, hpolicy]
                        exact .recorded hnot _ _
                    | some entry =>
                        simp only [policyGenerationOf, hpolicy, snd_publish]
                        exact .published hnot _ _

theorem perform_effect (hactor : actorOf call = some actor) :
    Effect r now call actor (publishes r now call) (perform r now call).2 := by
  cases call with
  | grantAuthority publisher boot => cases hactor
  | integrityReport => cases hactor
  | checkpoint => cases hactor
  | close => cases hactor
  | fence actor publisher boot reason =>
      cases hactor
      rw [perform, snd_outcome]
      exact effect_fence publisher boot reason
  | assign actor a =>
      cases hactor
      rw [perform, snd_outcome]
      exact effect_assign a
  | definePolicy actor d =>
      cases hactor
      rw [perform, snd_outcome]
      refine effect_underSession rfl fun hshape hopen => ?_
      have hnot : ¬ Dismissed r (.definePolicy actor d) := not_dismissed rfl hshape hopen not_false
      cases hscope : r.image.scopes[d.scope]? with
      | none => exact .recorded hnot _ _
      | some scope =>
          simp only [snd_publish]
          exact .published hnot _ _
  | advanceEpoch actor reason =>
      cases hactor
      rw [perform, snd_outcome]
      exact effect_publish rfl (by exact not_false) _ _ _
  | defineClass actor d =>
      cases hactor
      rw [perform, snd_outcome]
      exact effect_publish rfl (by exact not_false) _ _ _
  | defineScope actor d =>
      cases hactor
      rw [perform, snd_outcome]
      exact effect_publish rfl (by exact not_false) _ _ _
  | defineSubject actor d =>
      cases hactor
      rw [perform, snd_outcome]
      exact effect_publish rfl (by exact not_false) _ _ _
  | retireAssignment actor id reason =>
      cases hactor
      rw [perform, snd_outcome]
      exact effect_publish rfl (by exact not_false) _ _ _

theorem perform_dismissed (h : Dismissed r call) : (perform r now call).2 = r := by
  have ⟨actor, hactor, _⟩ := h
  have heffect : Effect r now call actor (publishes r now call) (perform r now call).2 :=
    perform_effect hactor
  generalize publishes r now call = found at heffect
  generalize (perform r now call).2 = r' at heffect ⊢
  cases heffect with
  | dismissed _ => rfl
  | recorded hnot => exact absurd h hnot
  | published hnot => exact absurd h hnot

theorem perform_published {mutation : Mutation} {s' : StoreState}
    (h : publishes r now call = some mutation)
    (hcommit : Store.commit r.state mutation = (.ok (), s')) :
    (perform r now call).2 = r.withState s' := by
  obtain ⟨actor, hactor⟩ : ∃ actor, actorOf call = some actor := by
    cases call <;> first | exact ⟨_, rfl⟩ | cases h
  have heffect : Effect r now call actor (publishes r now call) (perform r now call).2 :=
    perform_effect hactor
  rw [h] at heffect
  generalize (perform r now call).2 = r' at heffect ⊢
  cases heffect with
  | published hnot op =>
      unfold publish commitMutation
      simp only [hcommit]

/-- A call that is not turned away and commits nothing is a recorded refusal. -/
theorem perform_recorded (hactor : actorOf call = some actor) (hnot : ¬ Dismissed r call)
    (hrefused : ∀ mutation ∈ publishes r now call,
      ∃ e, Store.commit r.state mutation = (.error e, r.state)) :
    ∃ op e, (perform r now call).2 = (r.rejectCall (α := Unit) op e actor now).2 := by
  have heffect : Effect r now call actor (publishes r now call) (perform r now call).2 :=
    perform_effect hactor
  generalize publishes r now call = found at heffect hrefused
  generalize (perform r now call).2 = r' at heffect ⊢
  cases heffect with
  | dismissed h => exact absurd h hnot
  | recorded _ op e => exact ⟨op, e, rfl⟩
  | published _ op mutation =>
      obtain ⟨e, hcommit⟩ := hrefused mutation rfl
      refine ⟨op, e, ?_⟩
      unfold publish commitMutation
      simp only [hcommit]
      rfl

theorem state_grant (publisher : PublisherId) (boot : BootId) :
    (r.grant publisher boot now).2.state =
      (Store.commit r.state (grantMutation r.image publisher boot now)).2 := by
  rw [← commitMutation_state, FabricRuntime.grant, grantMutation]
  simp only
  split
  · rename_i h
    rw [h]
    rfl
  · rename_i h
    rw [h]
    split <;> rfl

theorem InStep.grant (h : InStep r.state) {publisher : PublisherId} {boot : BootId}
    (htoken : TokenLeft r.image (grantMutation r.image publisher boot now))
    (hfits : RecordFits r.state.store.options.limits
      (grantMutation r.image publisher boot now)) :
    InStep (r.grant publisher boot now).2.state := by
  rw [state_grant]
  exact h.commit ⟨fun _ _ _ hsystem => Bool.noConfusion hsystem, fun _ _ _ => hfits⟩ htoken

theorem nextFencingToken_epochMutation {image image' : StateImage} {publisher : PublisherId}
    {boot : BootId}
    (h : applyMutation image (planOf image (epochMutation image publisher boot now)) false =
      (.ok (), image')) : image'.nextFencingToken = image.nextFencingToken := by
  obtain ⟨expected, -, happlied⟩ := applyMutation_eq_ok_iff.mp h
  cases happlied with
  | repeated hrepeated => rfl
  | performed hfresh hperform =>
      cases perform_eq_ok hperform with
      | grant hop => cases hop
      | assign a result hop => cases hop
      | fence publisher boot hop => cases hop
      | _ => rfl

theorem InStep.takeOver (h : InStep r.state) {publisher : PublisherId} {boot : BootId}
    (hfits : GrantFits r now publisher boot) :
    InStep (r.takeOver publisher boot now).2.state := by
  by_cases hneeds : NeedsEpoch r.image publisher boot
  · have hnext := h.commit
      (⟨fun _ _ _ hsystem => Bool.noConfusion hsystem, fun _ _ _ => hfits.epoch hneeds⟩ :
        Settles r.state (epochMutation r.image publisher boot now))
      fun hop => by cases hop
    have hoptions := commit_options r.state (epochMutation r.image publisher boot now)
    have hstate := commitMutation_state r.state (epochMutation r.image publisher boot now)
    rcases commitMutation_effect r.state (epochMutation r.image publisher boot now) with
      ⟨e, s', heq, -⟩ | ⟨outcome, s', image, heq, happly, hsame⟩
    · rw [heq] at hstate
      rw [takeOver_refused hneeds heq]
      rw [← hstate] at hnext
      exact hnext
    · rw [heq] at hstate
      rw [takeOver_advanced hneeds heq]
      rw [← hstate] at hnext hoptions
      refine InStep.grant (r := r.withState s') hnext ?_ ?_
      · intro hop
        change s'.live.nextFencingToken ≠ _
        rw [hsame.nextFencingToken, nextFencingToken_epochMutation happly]
        exact hfits.token hop
      · change RecordFits s'.store.options.limits _
        rw [hoptions]
        exact ⟨hfits.grant.ids, hfits.grant.reason⟩
  · rw [takeOver_of_not_needsEpoch hneeds]
    exact h.grant hfits.token hfits.grant

theorem InStep.checkpoint {s : StoreState} (h : InStep s)
    (hfolds : Folds s → ¬ CounterSpent s ∧ SnapshotReadable s.live) :
    InStep (Store.checkpoint s).2 := by
  refine ⟨within_step h.within (.checkpoint s), ?_⟩
  obtain ⟨ledger, mutations, hserves⟩ := h.serves
  generalize hcheckpoint : Store.checkpoint s = result
  obtain ⟨status, s'⟩ := result
  cases status with
  | ok generation =>
      obtain ⟨hfolded, -, -⟩ := checkpoint_folded hcheckpoint
      obtain ⟨ledger', hnext⟩ :=
        Serves.checkpoint hserves h.within hcheckpoint (hfolds hfolded).2
      exact ⟨ledger', [], hnext⟩
  | error e =>
      -- With room for a segment a checkpoint fails before it writes anything.
      unfold Store.checkpoint at hcheckpoint
      split at hcheckpoint
      · cases hcheckpoint
        exact ⟨_, _, hserves⟩
      · rename_i dir hsnapshot
        obtain ⟨hfolded, -⟩ := withSnapshot_iff.mp hsnapshot
        simp only at hcheckpoint
        split at hcheckpoint
        · rename_i hspent
          exact absurd hspent (hfolds hfolded).1
        · cases hcheckpoint

theorem InStep.integrityReport (h : InStep r.state) : r.integrityReport.2.state = r.state := by
  obtain ⟨ledger, mutations, hserves⟩ := h.serves
  obtain ⟨report, hverify, -⟩ := Serves.verify hserves
  unfold FabricRuntime.integrityReport
  split
  · rfl
  · rw [hverify]
    rfl

theorem InStep.published (h : InStep r.state)
    (hcall : Dismissed r call ∨ ∃ mutation ∈ publishes r now call, Admitted r.state mutation) :
    InStep (perform r now call).2.state := by
  rcases hcall with hdismissed | ⟨mutation, hmutation, hadmitted⟩
  · rw [perform_dismissed hdismissed]
    exact h
  · obtain ⟨s', hcommit⟩ := hadmitted.accepted h
    rw [perform_published hmutation hcommit]
    have hnext := h.commit hadmitted.settles hadmitted.token
    rw [hcommit] at hnext
    exact hnext

/-- A faultless call keeps the image in step with the files, unless it closes the store. -/
theorem InStep.performed (h : InStep r.state) (hcall : Faultless r now call) :
    (perform r now call).2.closed = true ∨ InStep (perform r now call).2.state := by
  cases call with
  | grantAuthority publisher boot =>
      refine .inr ?_
      rw [perform, snd_outcome]
      by_cases hreaches : Reaches r publisher boot
      · rw [grantAuthority_of_reaches hreaches]
        exact h.takeOver (hcall hreaches)
      · rw [grantAuthority_of_not_reaches now hreaches]
        exact h
  | checkpoint =>
      refine .inr ?_
      rw [perform, snd_outcome, checkpointRuntime]
      split
      · exact h
      · rename_i hopen
        exact h.checkpoint (hcall (by simpa using hopen))
  | integrityReport =>
      refine .inr ?_
      change InStep r.integrityReport.2.state
      rw [h.integrityReport]
      exact h
  | close =>
      refine .inl ?_
      rw [perform, close]
      split
      · assumption
      · rfl
  | advanceEpoch actor reason => exact .inr (h.published hcall)
  | fence actor publisher boot reason => exact .inr (h.published hcall)
  | defineClass actor d => exact .inr (h.published hcall)
  | defineScope actor d => exact .inr (h.published hcall)
  | definePolicy actor d => exact .inr (h.published hcall)
  | defineSubject actor d => exact .inr (h.published hcall)
  | assign actor a => exact .inr (h.published hcall)
  | retireAssignment actor id reason => exact .inr (h.published hcall)

theorem perform_closed (hclosed : r.closed = true) : (perform r now call).2 = r := by
  cases call with
  | grantAuthority publisher boot =>
      rw [perform, snd_outcome]
      refine grantAuthority_of_not_reaches now fun hreaches => ?_
      rw [hreaches.opened] at hclosed
      cases hclosed
  | integrityReport => rw [perform, FabricRuntime.integrityReport, if_pos hclosed]
  | checkpoint => rw [perform, snd_outcome, checkpointRuntime, if_pos hclosed]
  | close => rw [perform, close, if_pos hclosed]
  | advanceEpoch actor reason => exact perform_dismissed ⟨actor, rfl, .inr (.inl hclosed)⟩
  | fence actor publisher boot reason =>
      exact perform_dismissed ⟨actor, rfl, .inr (.inl hclosed)⟩
  | defineClass actor d => exact perform_dismissed ⟨actor, rfl, .inr (.inl hclosed)⟩
  | defineScope actor d => exact perform_dismissed ⟨actor, rfl, .inr (.inl hclosed)⟩
  | definePolicy actor d => exact perform_dismissed ⟨actor, rfl, .inr (.inl hclosed)⟩
  | defineSubject actor d => exact perform_dismissed ⟨actor, rfl, .inr (.inl hclosed)⟩
  | assign actor a => exact perform_dismissed ⟨actor, rfl, .inr (.inl hclosed)⟩
  | retireAssignment actor id reason =>
      exact perform_dismissed ⟨actor, rfl, .inr (.inl hclosed)⟩

theorem InStep.run {first : FabricRuntime} (h : InStep first.state)
    (hrun : FaultlessRun first r) : r.closed = true ∨ InStep r.state := by
  induction hrun with
  | start => exact .inr h
  | called _ now call hcall ih =>
      rcases ih with hclosed | hstep
      · rw [perform_closed hclosed]
        exact .inl hclosed
      · exact hstep.performed hcall

theorem InStep.report (h : InStep r.state) (hclosed : r.closed = false) :
    r.integrityReport.1.ok = true := by
  obtain ⟨ledger, mutations, hserves⟩ := h.serves
  obtain ⟨report, hverify, hok⟩ := Serves.verify hserves
  simp only [FabricRuntime.integrityReport, hclosed, Bool.false_eq_true, if_false, hverify]
  exact hok

/-- The report after a recorded refusal is not in order, unless two encodings share their
digest. -/
theorem recorded_refusal_reported (h : InStep r.state) (hopen : r.closed = false)
    (hactor : actorOf call = some actor) (hnot : ¬ Dismissed r call)
    (hrefused : ∀ mutation ∈ publishes r now call, ∀ planned rolled,
      ¬ Journaled r.state mutation planned rolled)
    (hcollision : StateEncoding.NoCollision (encodeState (normalizeImage r.image))
      (encodeState (normalizeImage (perform r now call).2.image))) :
    (perform r now call).2.integrityReport.1.ok = false := by
  obtain ⟨ledger, mutations, hserves⟩ := h.serves
  obtain ⟨front, records, hcursor⟩ := hserves.journal.cursor
  obtain ⟨op, e, hrecorded⟩ := perform_recorded hactor hnot fun mutation hmutation =>
    commit_unjournaled hcursor.opened (hrefused mutation hmutation)
  rw [hrecorded] at hcollision ⊢
  obtain ⟨report, hverify, hok⟩ :=
    Serves.verify_refused hserves r.limits op e actor now hcollision
  simp only [FabricRuntime.integrityReport, rejectCall, withState, hopen, Bool.false_eq_true,
    if_false, hverify]
  exact hok

end Calls

/-! ## A new store -/

theorem normalizeImage_empty (limits : Limits) : normalizeImage { limits } = { limits } := by
  rfl

theorem openRuntime_created {dir dir' : Directory} {options : RuntimeOptions}
    {entropy : List.Vector UInt8 storeKeyBytes} {now : UInt64} {r : FabricRuntime}
    (hfresh : dir.contains manifestName = false)
    (hsegments : 1 ≤ options.limits.maxJournalSegments)
    (h : openRuntime dir options entropy now = (.ok r, dir')) :
    r.limits = options.limits ∧ r.closed = false ∧ r.state.live = { limits := options.limits } ∧
      r.state.store.options.limits = options.limits ∧ Faithful r.state [] := by
  unfold openRuntime at h
  split at h
  · cases h
  · split at h
    · cases h
    · rename_i opened hstore
      split at h
      · cases h
      · obtain ⟨hlimits, hcreate⟩ := createStore_of_openStore hfresh hstore
        obtain ⟨hoptions, himage, -⟩ := journal_createStore hlimits hsegments hcreate
        have hlive : (startRuntime options opened).state.live = { limits := options.limits } := by
          simp only [startRuntime, himage]
          exact normalizeImage_empty options.limits
        have hstate : (startRuntime options opened).state = openedState opened := by
          rw [openedState, himage]
          exact congrArg (StoreState.mk opened.dir opened.store) hlive
        have hepoch : (startRuntime options opened).image.epoch.isEstablished = false := by
          rw [FabricRuntime.image, hlive]
          rfl
        simp only [hepoch, Bool.and_false, Bool.false_and, Bool.false_eq_true, if_false] at h
        cases h
        refine ⟨rfl, rfl, hlive, ?_, ?_⟩
        · exact congrArg Options.limits hoptions
        · rw [hstate]
          exact faithful_openStore hfresh hstore hsegments

/-- In a run of faultless calls on a new store every integrity report is in order. -/
theorem integrity_report_ok {dir dir' : Directory} {options : RuntimeOptions}
    {entropy : List.Vector UInt8 storeKeyBytes} {now : UInt64} {first r : FabricRuntime}
    (hfresh : dir.contains manifestName = false)
    (hsegments : 1 ≤ options.limits.maxJournalSegments)
    (hopen : openRuntime dir options entropy now = (.ok first, dir'))
    (hrun : FaultlessRun first r) (hclosed : r.closed = false) :
    r.integrityReport.1.ok = true := by
  obtain ⟨-, -, -, -, segments, hserves⟩ := openRuntime_created hfresh hsegments hopen
  have hwithin := within_of_reached (openRuntime_reached hopen).1
  rcases InStep.run ⟨hwithin, _, _, hserves⟩ hrun with h | h
  · rw [h] at hclosed
    cases hclosed
  · exact h.report hclosed

theorem exists_opened {maxStateBytes : Nat} (h : foldsAtOnce maxStateBytes = true) :
    ∃ r dir', openRuntime ∅ (Snapshots.creatingWithin maxStateBytes) zeroKey 0 = (.ok r, dir') ∧
      r.checkpointRuntime.1.isOk = true ∧ (encodeState r.image).length = 79 := by
  unfold foldsAtOnce at h
  generalize hopen : openRuntime ∅ (Snapshots.creatingWithin maxStateBytes) zeroKey 0 = result
    at h
  obtain ⟨status, dir⟩ := result
  cases status with
  | error e => cases h
  | ok r =>
      simp only [Bool.and_eq_true, decide_eq_true_eq] at h
      exact ⟨r, dir, rfl, h.1.1, h.2⟩

theorem closed_checkpoint (r : FabricRuntime) (now : UInt64) :
    (perform r now .checkpoint).2.closed = r.closed := by
  rw [perform, snd_outcome, checkpointRuntime]
  split <;> rfl

instance (limits : Limits) (mutation : Mutation) : Decidable (RecordFits limits mutation) :=
  decidable_of_iff (IdsFit limits (mutation.publisher.value :: opIds mutation.op) ∧
      mutation.reason.length ≤ limits.maxNoteLength)
    ⟨fun h => ⟨h.1, h.2⟩, fun h => ⟨h.1, h.2⟩⟩

/-- The mutation of the class that `classCalls` defines. -/
def classMutation : Mutation :=
  baseMutation firstSession (.defineClass { id := ⟨[97], wellFormed_a⟩, precedence := .make 7 })
    (text "define class") 0

/-- What the condition asks of a grant, a class and a checkpoint on a new store. -/
def classFolded (first : FabricRuntime) : List Bool :=
  let grantee := performAll first (classCalls.take 1)
  let r := performAll first classCalls
  [decide (first.image.nextFencingToken ≠ UInt64.ofNat (2 ^ 64 - 1)),
    decide (RecordFits first.state.store.options.limits
      (grantMutation first.image somePublisher someBoot 0)),
    decide (RecordFits first.state.store.options.limits
      (epochMutation first.image somePublisher someBoot 0)),
    decide (grantee.closed = false),
    (Store.commit grantee.state classMutation).1.isOk,
    (checkAuthority grantee.state.live classMutation).isOk,
    decide (RecordFits grantee.state.store.options.limits classMutation),
    !decide (CounterSpent r.state), decide (SnapshotReadable r.state.live),
    !r.closed, decide (r.image.classes.size = 1)]

theorem eq_ok_of_isOk {result : Result Unit} (h : result.isOk = true) : result = .ok () := by
  cases result with
  | error e => cases h
  | ok u => rfl

theorem integrity_report_ok_class :
    ∃ first dir', openRuntime ∅ (Snapshots.creatingWithin 268435456) zeroKey 0 =
        (.ok first, dir') ∧
      (performAll first classCalls).image.classes.size = 1 ∧
      (performAll first (classCalls ++ [(0, .checkpoint)])).integrityReport.1.ok = true := by
  have hrun : (openRuntime ∅ (Snapshots.creatingWithin 268435456) zeroKey 0).1.toOption.map
      (fun first => (classFolded first).all id) = some true := by decide +kernel
  generalize hopen : openRuntime ∅ (Snapshots.creatingWithin 268435456) zeroKey 0 = result
    at hrun
  obtain ⟨status, dir'⟩ := result
  cases status with
  | error e => cases hrun
  | ok first =>
      simp only [Except.toOption, Option.map_some, Option.some.injEq, classFolded, List.all_cons,
        List.all_nil, id, Bool.and_true, Bool.and_eq_true, decide_eq_true_eq,
        Bool.not_eq_true', decide_eq_false_iff_not] at hrun
      obtain ⟨htoken, hgrant, hepoch, hgrantee, hcommit, hauthority, hfits, hroom, hreadable,
        hclosed, hclass⟩ := hrun
      refine ⟨first, dir', rfl, hclass, ?_⟩
      have hgranted : FaultlessRun first (performAll first (classCalls.take 1)) :=
        .called .start 0 _ fun _ => ⟨fun _ => htoken, hgrant, fun _ => hepoch⟩
      obtain ⟨-, -, -, -, segments, hserves⟩ := openRuntime_created (by simp) (by decide) hopen
      have hstart : InStep first.state :=
        ⟨within_of_reached (openRuntime_reached hopen).1, _, _, hserves⟩
      have hgrantee' : InStep (performAll first (classCalls.take 1)).state := by
        refine (hstart.run hgranted).resolve_left fun hclosed => ?_
        rw [hgrantee] at hclosed
        cases hclosed
      obtain ⟨ledger, mutations, hserves⟩ := hgrantee'.serves
      obtain ⟨front, records, hcursor⟩ := hserves.journal.cursor
      have hclassed : FaultlessRun first (performAll first classCalls) := by
        refine .called hgranted 0 _ (.inr ⟨classMutation, ?_, ?_, ?_, ?_, hfits⟩)
        · change held _ firstSession _ = _
          rw [held, if_neg (by decide), if_neg (by simp [hgrantee])]
          rfl
        · exact journaled_of_accepted hcursor.opened (eq_ok_of_isOk hcommit)
        · exact fun _ => eq_ok_of_isOk hauthority
        · intro hop
          cases hop
      rw [performAll, List.foldl_append]
      exact integrity_report_ok (by simp) (by decide) hopen
        (.called hclassed 0 .checkpoint fun _ _ => ⟨hroom, hreadable⟩)
        ((closed_checkpoint _ 0).trans hclosed)

/-- The image of a new store once a policy for an unknown scope is refused. -/
def refusedOnce : StateImage :=
  recordRejection {} {} (text "define_policy")
    (makeError .notFound (text "policy names scope '" ++ onlyPolicy.scope.value ++
      text "' which is not defined")) firstSession 0

/-- A call that is refused and recorded. -/
theorem integrity_report_after_refusal :
    ∃ first dir' r, openRuntime ∅ (Snapshots.creatingWithin 268435456) zeroKey 0 =
        (.ok first, dir') ∧
      r = (perform first 0 (.definePolicy firstSession onlyPolicy)).2 ∧
      r.closed = false ∧ r.integrityReport.1.ok = false := by
  obtain ⟨first, dir', hopen, -, -⟩ :=
    exists_opened (by decide : foldsAtOnce 268435456 = true)
  obtain ⟨hlimits, hclosed, hlive, -, segments, hserves⟩ :=
    openRuntime_created (by simp) (by decide) hopen
  have hlimits' : first.limits = {} := hlimits
  have hlive' : first.state.live = {} := hlive
  have hscope : first.image.scopes[onlyPolicy.scope]? = none := by
    rw [FabricRuntime.image, hlive']
    rfl
  have hrefused : (perform first 0 (.definePolicy firstSession onlyPolicy)).2 =
      first.withState { first.state with live := refusedOnce } := by
    rw [perform, snd_outcome, definePolicy, underSession, if_neg (by decide),
      if_neg (by simp [hclosed])]
    simp only [hscope]
    rw [rejectCall, hlive', hlimits']
    rfl
  refine ⟨first, dir', _, hopen, rfl, ?_, ?_⟩
  · rw [hrefused]
    exact hclosed
  · have hdigest : stateDigest (normalizeImage first.state.live) ≠
        stateDigest (normalizeImage refusedOnce) := by
      rw [hlive']
      decide +kernel
    obtain ⟨report, hverify, hok⟩ := Serves.verify_differs hserves hdigest
    have hopened : (first.withState { first.state with live := refusedOnce }).closed = false :=
      hclosed
    rw [hrefused, FabricRuntime.integrityReport, hopened]
    simp only [Bool.false_eq_true, if_false, FabricRuntime.withState, hverify]
    exact hok

end PriorityFabric.IntegrityReports
