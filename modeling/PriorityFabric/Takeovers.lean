import PriorityFabric.Authority

/-!
The two commits of a grant.

A boot that takes over from another one advances the epoch and then receives its grant.
The advance has already expired the former grant when the grant comes to mark it, and it
stays when the grant is refused.
-/

namespace PriorityFabric.Takeovers

open PriorityFabric.Lib.LittleEndian
open PriorityFabric.Basics
open PriorityFabric.Ident
open PriorityFabric.Model
open PriorityFabric.State
open PriorityFabric.Validate
open PriorityFabric.Apply hiding perform
open PriorityFabric.Durability
open PriorityFabric.Store
open PriorityFabric.Runtime
open PriorityFabric.Runtime.FabricRuntime
open PriorityFabric.Serving
open PriorityFabric.CommitRuns
open PriorityFabric.Calls
open PriorityFabric.Lifetimes
open PriorityFabric.Authority

def epochMutation (image : StateImage) (publisher : PublisherId) (boot : BootId)
    (now : UInt64) : Mutation :=
  { baseMutation (bootstrapSession image publisher boot) .advanceEpoch
      (if liveOtherIncarnation image publisher boot then text "publisher incarnation replaced"
        else text "fabric epoch established") now with system := true }

def grantMutation (image : StateImage) (publisher : PublisherId) (boot : BootId)
    (now : UInt64) : Mutation :=
  { baseMutation (bootstrapSession image publisher boot) .grantAuthority
      (text "authority granted") now with system := true }

/-- The call has to move the epoch before it grants. -/
def NeedsEpoch (image : StateImage) (publisher : PublisherId) (boot : BootId) : Prop :=
  image.epoch.isEstablished = false ∨ liveOtherIncarnation image publisher boot = true

theorem step_grantAuthority (r : FabricRuntime) (now : UInt64) (publisher : PublisherId)
    (boot : BootId) : Step r (r.grantAuthority now publisher boot).2 := by
  have hcall := Step.call r now (.grantAuthority publisher boot)
  rwa [perform, snd_outcome] at hcall

section Commits

variable {r : FabricRuntime} {publisher : PublisherId} {boot : BootId} {now : UInt64}
  {s' : StoreState} {e : Status} {outcome : CommitOutcome}

theorem takeOver_of_not_needsEpoch (hneeds : ¬ NeedsEpoch r.image publisher boot) :
    r.takeOver publisher boot now = r.grant publisher boot now := by
  rw [NeedsEpoch] at hneeds
  rw [FabricRuntime.takeOver, if_neg hneeds]

theorem takeOver_refused (hneeds : NeedsEpoch r.image publisher boot)
    (h : commitMutation r.state (epochMutation r.image publisher boot now) = (.error e, s')) :
    r.takeOver publisher boot now = (.error e, r.withState s') := by
  rw [NeedsEpoch] at hneeds
  rw [epochMutation] at h
  simp only [FabricRuntime.takeOver, if_pos hneeds, h]

theorem takeOver_advanced (hneeds : NeedsEpoch r.image publisher boot)
    (h : commitMutation r.state (epochMutation r.image publisher boot now) =
      (.ok outcome, s')) :
    r.takeOver publisher boot now = (r.withState s').grant publisher boot now := by
  rw [NeedsEpoch] at hneeds
  rw [epochMutation] at h
  simp only [FabricRuntime.takeOver, if_pos hneeds, h]

theorem grant_refused
    (h : commitMutation r.state (grantMutation r.image publisher boot now) = (.error e, s')) :
    r.grant publisher boot now = (.error e, r.withState s') := by
  rw [grantMutation] at h
  simp only [FabricRuntime.grant, h]

end Commits

theorem liveOtherIncarnation_of_granted {image : StateImage} {publisher : PublisherId}
    {boot boot' : BootId} {entry : AuthorityEntry} (hboot : boot' ≠ boot)
    (hentry : image.authority[Incarnation.mk publisher boot]? = some entry)
    (hgranted : entry.state = .granted) :
    liveOtherIncarnation image publisher boot' = true := by
  rw [liveOtherIncarnation, List.any_eq_true]
  refine ⟨⟨⟨publisher, boot⟩, entry⟩, ?_, ?_⟩
  · rw [Std.ExtTreeMap.mem_toList_iff_getElem?_eq_some]
    exact hentry
  · simp [hboot.symm, hgranted]

/-- A successful call for a boot without a live grant goes through a takeover. -/
theorem takeOver_of_grantAuthority {r r' : FabricRuntime} {now : UInt64}
    {publisher : PublisherId} {boot : BootId} {session : Session}
    (h : r.grantAuthority now publisher boot = (.ok session, r'))
    (hlive : ∀ entry, r.image.authority[Incarnation.mk publisher boot]? = some entry →
      entry.state ≠ .granted) :
    Granted r publisher boot session r' ∧
      r.takeOver publisher boot now = (.ok session, r') := by
  unfold FabricRuntime.grantAuthority at h
  split at h
  · cases h
  · split at h
    · cases h
    · split at h
      · cases h
      · split at h
        · cases h
        · split at h
          · rename_i entry hentry
            split at h
            · cases h
            · rw [if_neg fun hgranted => hlive entry hentry hgranted.1] at h
              exact ⟨granted_of_takeOver h, h⟩
          · split at h
            · cases h
            · exact ⟨granted_of_takeOver h, h⟩

/-- The authority table once the epoch is advanced and the new boot has its grant. -/
def takenOver (authority : Std.ExtTreeMap Incarnation AuthorityEntry) (epoch : FabricEpoch)
    (new : AuthorityEntry) : Std.ExtTreeMap Incarnation AuthorityEntry :=
  ((authority.map fun _ entry => expireStale epoch entry).map
    (supersede new.publisher new.boot)).insert ⟨new.publisher, new.boot⟩ new

section Committed

variable {r : FabricRuntime} {publisher : PublisherId} {boot : BootId} {now : UInt64}

theorem grant_committed {s' : StoreState} {image : StateImage} {outcome : CommitOutcome}
    (heq : commitMutation r.state (grantMutation r.image publisher boot now) =
      (.ok outcome, s'))
    (happly : applyMutation r.state.live (planOf r.state.live
      (grantMutation r.image publisher boot now)) false = (.ok (), image))
    (hsame : SameRecord s'.live image) :
    ∃ session provenance, r.grant publisher boot now = (.ok session, r.withState s') ∧
      s'.live.epoch = r.image.epoch ∧
      s'.live.authority = (r.image.authority.map (supersede publisher boot)).insert
        ⟨publisher, boot⟩
        { publisher, boot, epoch := r.image.epoch, token := ⟨r.image.nextFencingToken⟩,
          state := .granted, provenance } := by
  cases applyMutation_governed happly with
  | kept hop => cases hop
  | fenced publisher' boot' provenance hop => cases hop
  | advanced epoch hop => cases hop
  | granted provenance hop hvalid hepoch hpositive hroom htoken hauthority =>
      have htable := hsame.authority.trans hauthority
      have hentry : (r.withState s').image.authority[Incarnation.mk publisher boot]? =
          some { publisher, boot, epoch := r.image.epoch,
                 token := ⟨r.image.nextFencingToken⟩, state := .granted, provenance } := by
        change s'.live.authority[Incarnation.mk publisher boot]? = _
        rw [htable]
        exact Std.ExtTreeMap.getElem?_insert_self
      rw [grantMutation] at heq
      simp only [FabricRuntime.grant, heq, hentry]
      exact ⟨_, provenance, rfl, hsame.epoch.trans hepoch, htable⟩

theorem image_of_grant {r' : FabricRuntime} {session : Session}
    (h : r.grant publisher boot now = (.ok session, r')) :
    ∃ provenance, r'.image.epoch = r.image.epoch ∧
      r'.image.authority = (r.image.authority.map (supersede publisher boot)).insert
        ⟨publisher, boot⟩
        { publisher, boot, epoch := r.image.epoch, token := ⟨r.image.nextFencingToken⟩,
          state := .granted, provenance } := by
  have hcommit := commitMutation_effect r.state (grantMutation r.image publisher boot now)
  rcases hcommit with ⟨e, s', heq, -⟩ | ⟨outcome, s', image, heq, happly, hsame⟩
  · rw [grant_refused heq] at h
    cases h
  · obtain ⟨granted, provenance, hgrant, hepoch, hauthority⟩ :=
      grant_committed heq happly hsame
    rw [hgrant] at h
    cases h
    exact ⟨provenance, hepoch, hauthority⟩

end Committed

/-- A takeover moves the epoch by one and expires every live grant before it makes its
own. -/
theorem image_of_takeOver {r r' : FabricRuntime} {publisher : PublisherId} {boot : BootId}
    {now : UInt64} {session : Session} (hneeds : NeedsEpoch r.image publisher boot)
    (h : r.takeOver publisher boot now = (.ok session, r')) :
    ∃ epoch new, r.image.epoch.next = some epoch ∧ r'.image.epoch = epoch ∧
      new.publisher = publisher ∧ new.boot = boot ∧
      r'.image.authority = takenOver r.image.authority epoch new := by
  have hcommit := commitMutation_effect r.state (epochMutation r.image publisher boot now)
  rcases hcommit with ⟨e, s', heq, -⟩ | ⟨outcome, s', image, heq, happly, hsame⟩
  · rw [takeOver_refused hneeds heq] at h
    cases h
  · rw [takeOver_advanced hneeds heq] at h
    obtain ⟨provenance, hgrantEpoch, hgrantTable⟩ := image_of_grant h
    cases applyMutation_governed happly with
    | kept hop => cases hop
    | fenced publisher' boot' provenance hop => cases hop
    | granted provenance hop => cases hop
    | advanced epoch hop hnext hepoch htoken hauthority =>
        have hmiddle : (r.withState s').image.epoch = epoch := hsame.epoch.trans hepoch
        refine ⟨epoch, { publisher, boot, epoch := (r.withState s').image.epoch
                         token := ⟨(r.withState s').image.nextFencingToken⟩
                         state := .granted, provenance }, hnext,
          hgrantEpoch.trans hmiddle, rfl, rfl, ?_⟩
        have htable : (r.withState s').image.authority =
            r.image.authority.map fun _ entry => expireStale epoch entry :=
          hsame.authority.trans hauthority
        rw [hgrantTable, htable]
        rfl

theorem getElem?_takenOver {authority : Std.ExtTreeMap Incarnation AuthorityEntry}
    {epoch : FabricEpoch} {new entry : AuthorityEntry} {k : Incarnation}
    (hk : k ≠ ⟨new.publisher, new.boot⟩) (hentry : authority[k]? = some entry)
    (hgranted : entry.state = .granted) (hepoch : entry.epoch ≠ epoch) :
    (takenOver authority epoch new)[k]? = some { entry with state := .expired } := by
  have hcompare : ¬ compare (Incarnation.mk new.publisher new.boot) k = .eq :=
    fun h => hk (Std.LawfulEqOrd.eq_of_compare h).symm
  rw [takenOver, Std.ExtTreeMap.getElem?_insert, if_neg hcompare,
    Std.ExtTreeMap.getElem?_map, Std.ExtTreeMap.getElem?_map, hentry]
  simp [expireStale, supersede, hgranted, hepoch]

def stateOf (image : StateImage) (publisher : PublisherId) (boot : BootId) :
    Option AuthorityState :=
  (image.authority[Incarnation.mk publisher boot]?).map (·.state)

/-- What a takeover does: the epoch grows by one, the token is larger than every token
issued before, and the new boot alone holds a grant, with the returned epoch and token. -/
structure TakenOver (start r : FabricRuntime) (publisher : PublisherId) (boot : BootId)
    (session : Session) (r' : FabricRuntime) : Prop where
  epoch : r'.image.epoch.value.toNat = r.image.epoch.value.toNat + 1
  recorded : ∀ (k : Incarnation) (entry : AuthorityEntry),
    r.image.authority[k]? = some entry → entry.token.value < session.token.value
  issued : ∀ (granting granted : FabricRuntime) (now : UInt64) (publisher' : PublisherId)
    (boot' : BootId) (session' : Session), Run start granting →
    granting.grantAuthority now publisher' boot' = (.ok session', granted) → Run granted r →
    session'.token.value < session.token.value
  only : ∀ (k : Incarnation) (entry : AuthorityEntry), r'.image.authority[k]? = some entry →
    k.publisher = publisher → entry.state = .granted → k.boot = boot
  carried : ∃ entry, r'.image.authority[Incarnation.mk publisher boot]? = some entry ∧
    entry.state = .granted ∧ entry.epoch = session.epoch ∧ entry.token = session.token

/-- The documented contract: besides, the former boot is marked superseded. -/
def Contract (start r : FabricRuntime) (publisher : PublisherId) (former boot : BootId)
    (session : Session) (r' : FabricRuntime) : Prop :=
  TakenOver start r publisher boot session r' ∧
    stateOf r'.image publisher former = some .superseded

theorem token_lt_of_issued {start granting granted r : FabricRuntime} {now : UInt64}
    {publisher : PublisherId} {boot : BootId} {session : Session}
    (hsound : Sound start.image) (hrun : Run start granting)
    (hgrant : granting.grantAuthority now publisher boot = (.ok session, granted))
    (hlater : Run granted r) : session.token.value.toNat < r.image.nextFencingToken.toNat := by
  have hahead := (run_ahead hlater).token
  rcases grantAuthority_ok hgrant with ⟨entry, hentry, -, -, rfl, rfl⟩ | hnew
  · have hbelow := UInt64.lt_iff_toNat_lt.mp ((run_sound hrun hsound).below _ _ hentry)
    exact lt_of_lt_of_le hbelow hahead
  · have hnext := hnew.next_eq
    rw [hnew.token_eq]
    omega

/-- A takeover does what its contract says up to the mark of the former boot: the advance
of the epoch has expired the former grant, and an expired grant is not marked. -/
theorem takeover_expires_former {start r r' : FabricRuntime} {now : UInt64}
    {publisher : PublisherId} {former boot : BootId} {session : Session}
    (hfresh : Fresh start) (hrun : Run start r)
    (hformer : stateOf r.image publisher former = some .granted) (hboot : boot ≠ former)
    (hgrant : r.grantAuthority now publisher boot = (.ok session, r')) :
    TakenOver start r publisher boot session r' ∧
      stateOf r'.image publisher former = some .expired ∧
      ¬ Contract start r publisher former boot session r' := by
  have hsound := run_sound hrun (sound_fresh.of_sameRecord hfresh)
  obtain ⟨old, hold, hgranted⟩ := Option.map_eq_some_iff.mp hformer
  obtain ⟨hcurrent, -⟩ := hsound.current _ _ hold hgranted
  -- The new boot has no live grant, so the call is a takeover and needs an epoch.
  obtain ⟨hnew, htakeOver⟩ := takeOver_of_grantAuthority hgrant (by
    intro entry hentry hlive
    exact hboot (congrArg Incarnation.boot
      (hsound.one _ _ _ _ hentry hold rfl hlive hgranted)))
  obtain ⟨epoch, new, hnext, hepoch, rfl, rfl, htable⟩ := image_of_takeOver
    (.inr (liveOtherIncarnation_of_granted hboot hold hgranted)) htakeOver
  have hgrown := epoch_next_value hnext
  have hsound' : Sound r'.image := by
    have hcall := step_grantAuthority r now new.publisher new.boot
    rw [hgrant] at hcall
    exact run_sound (.single hcall) hsound
  have hexpired : stateOf r'.image new.publisher former = some .expired := by
    have hstale : old.epoch ≠ epoch := by
      rintro rfl
      rw [hcurrent] at hgrown
      omega
    have hother : Incarnation.mk new.publisher former ≠ ⟨new.publisher, new.boot⟩ :=
      fun heq => hboot (congrArg Incarnation.boot heq).symm
    rw [stateOf, htable, getElem?_takenOver hother hold hgranted hstale]
    rfl
  obtain ⟨hsession, entry, hentry, hlive, hentryEpoch, htoken⟩ := hnew.current
  rw [hnew.publisher_eq, hnew.boot_eq] at hentry
  refine ⟨⟨?_, ?_, ?_, ?_, entry, hentry, hlive, hentryEpoch, htoken⟩, hexpired, ?_⟩
  · rw [hepoch, hgrown]
  · intro k recorded hrecorded
    rw [hnew.token_eq]
    exact hsound.below k recorded hrecorded
  · intro granting granted time publisher' boot' session' hearlier hissued hlater
    rw [UInt64.lt_iff_toNat_lt, hnew.token_eq]
    exact token_lt_of_issued (sound_fresh.of_sameRecord hfresh) hearlier hissued hlater
  · intro k other hother hpublisher hotherLive
    exact congrArg Incarnation.boot
      (hsound'.one _ _ _ _ hother hentry hpublisher hotherLive hlive)
  · rintro ⟨-, hsuperseded⟩
    rw [hexpired] at hsuperseded
    cases hsuperseded

/-- A new runtime, one boot granted, and a second boot asking. -/
def secondBoot (opened : Opened) : Bool × Option AuthorityState × Option AuthorityState :=
  let r := ((startRuntime creatingRuntime opened).grantAuthority 0 somePublisher someBoot).2
  let result := r.grantAuthority 0 somePublisher otherBoot
  (result.1.isOk, stateOf r.image somePublisher someBoot,
    stateOf result.2.image somePublisher someBoot)

theorem exists_secondBoot :
    ∃ start r session r', Fresh start ∧ Run start r ∧
      stateOf r.image somePublisher someBoot = some .granted ∧
      r.grantAuthority 0 somePublisher otherBoot = (.ok session, r') ∧
      stateOf r'.image somePublisher someBoot = some .expired := by
  obtain ⟨opened, hopen⟩ := openStore_empty
  have hstates : (openStore ∅ creating zeroKey).toOption.map secondBoot =
      some (true, some .granted, some .expired) := by decide +kernel
  rw [hopen] at hstates
  simp only [Except.toOption, Option.map_some, Option.some.injEq, secondBoot,
    Prod.mk.injEq] at hstates
  obtain ⟨hok, hbefore, hafter⟩ := hstates
  have hcall := step_grantAuthority (startRuntime creatingRuntime opened) 0 somePublisher someBoot
  generalize ((startRuntime creatingRuntime opened).grantAuthority 0 somePublisher
    someBoot).2 = r at hok hbefore hafter hcall
  generalize hgrant : r.grantAuthority 0 somePublisher otherBoot = result at hok hafter
  obtain ⟨status, r'⟩ := result
  cases status with
  | error e => cases hok
  | ok session =>
      exact ⟨_, r, session, r', fresh_startRuntime (by simp) hopen, .single hcall, hbefore,
        hgrant, hafter⟩

theorem takeover_expires_former_second :
    ∃ start r session r', Fresh start ∧ Run start r ∧
      r.grantAuthority 0 somePublisher otherBoot = (.ok session, r') ∧
      TakenOver start r somePublisher otherBoot session r' := by
  obtain ⟨start, r, session, r', hfresh, hrun, hbefore, hgrant, -⟩ := exists_secondBoot
  exact ⟨start, r, session, r', hfresh, hrun, hgrant,
    (takeover_expires_former hfresh hrun hbefore (by decide) hgrant).1⟩

/-- The former boot is not recorded as superseded. -/
theorem former_boot_not_superseded :
    ∃ start r session r', Fresh start ∧ Run start r ∧
      stateOf r.image somePublisher someBoot = some .granted ∧
      r.grantAuthority 0 somePublisher otherBoot = (.ok session, r') ∧
      ¬ Contract start r somePublisher someBoot otherBoot session r' := by
  obtain ⟨start, r, session, r', hfresh, hrun, hbefore, hgrant, hafter⟩ := exists_secondBoot
  refine ⟨start, r, session, r', hfresh, hrun, hbefore, hgrant, ?_⟩
  rintro ⟨-, hsuperseded⟩
  rw [hafter] at hsuperseded
  cases hsuperseded

end PriorityFabric.Takeovers
