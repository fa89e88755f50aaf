import PriorityFabric.Lifetimes
import PriorityFabric.Decisions

/-!
The authority table over a run.

One boot of a publisher holds a live grant, under the current epoch and with a token
of its own.  Tokens only grow, so a session that is no longer current never becomes
current again, and a fenced incarnation stays fenced.
-/

namespace PriorityFabric.Authority

open PriorityFabric.Lib.LittleEndian
open PriorityFabric.Basics
open PriorityFabric.Ident
open PriorityFabric.Model
open PriorityFabric.State
open PriorityFabric.Validate
open PriorityFabric.Apply hiding perform
open PriorityFabric.Durability
open PriorityFabric.Store
open PriorityFabric.Runtime
open PriorityFabric.Runtime.FabricRuntime
open PriorityFabric.Committing (createStore_of_openStore)
open PriorityFabric.Serving
open PriorityFabric.CommitRuns
open PriorityFabric.Calls
open PriorityFabric.Lifetimes
open PriorityFabric.Decisions (evidenceBehind reaches_of_evidenceBehind)

/-! ## What the transitions do to one entry -/

/-- An entry that lost its grant, or is as it was. -/
def Lowered (old entry : AuthorityEntry) : Prop :=
  entry = old ∨ ∃ state, state ≠ .granted ∧ old.state = .granted ∧ entry = { old with state }

theorem lowered_supersede (publisher : PublisherId) (boot : BootId) (key : Incarnation)
    (entry : AuthorityEntry) : Lowered entry (supersede publisher boot key entry) := by
  unfold supersede
  split
  · rename_i h
    exact .inr ⟨.superseded, by decide, h.2.2, rfl⟩
  · exact .inl rfl

theorem lowered_expireStale (epoch : FabricEpoch) (entry : AuthorityEntry) :
    Lowered entry (expireStale epoch entry) := by
  unfold expireStale
  split
  · rename_i h
    exact .inr ⟨.expired, by decide, h.1, rfl⟩
  · exact .inl rfl

theorem lowered_normalizeEntry (entry : AuthorityEntry) :
    Lowered entry (normalizeEntry entry) := by
  unfold normalizeEntry
  split
  · rename_i h
    exact .inr ⟨.expired, by decide, h, rfl⟩
  · exact .inl rfl

theorem Lowered.token {old entry : AuthorityEntry} (h : Lowered old entry) :
    entry.token = old.token := by
  rcases h with rfl | ⟨state, -, -, rfl⟩ <;> rfl

theorem Lowered.eq_of_granted {old entry : AuthorityEntry} (h : Lowered old entry)
    (hgranted : entry.state = .granted) : entry = old := by
  rcases h with rfl | ⟨state, hstate, -, rfl⟩
  · rfl
  · exact absurd hgranted hstate

theorem Lowered.fenced_iff {old entry : AuthorityEntry} (h : Lowered old entry)
    (hfenced : old.state = .fenced) : entry.state = .fenced := by
  rcases h with rfl | ⟨state, -, hgranted, rfl⟩
  · exact hfenced
  · rw [hfenced] at hgranted
    cases hgranted

/-! ## The invariant -/

/-- One boot of a publisher is granted, under the current epoch; tokens are unique and
below the counter. -/
structure Sound (image : StateImage) : Prop where
  positive : image.nextFencingToken ≠ 0
  one : ∀ (k k' : Incarnation) (entry entry' : AuthorityEntry),
    image.authority[k]? = some entry → image.authority[k']? = some entry' →
    k.publisher = k'.publisher → entry.state = .granted → entry'.state = .granted → k = k'
  current : ∀ (k : Incarnation) (entry : AuthorityEntry), image.authority[k]? = some entry →
    entry.state = .granted → entry.epoch = image.epoch ∧ image.epoch.isEstablished = true
  distinct : ∀ (k k' : Incarnation) (entry entry' : AuthorityEntry),
    image.authority[k]? = some entry → image.authority[k']? = some entry' →
    entry.token.isValid = true → entry.token = entry'.token → k = k'
  below : ∀ (k : Incarnation) (entry : AuthorityEntry), image.authority[k]? = some entry →
    entry.token.value < image.nextFencingToken

theorem Sound.of_sameRecord {a b : StateImage} (h : Sound a) (hsame : SameRecord b a) :
    Sound b := by
  refine ⟨?_, ?_, ?_, ?_, ?_⟩
  · rw [hsame.nextFencingToken]
    exact h.positive
  · rw [hsame.authority]
    exact h.one
  · rw [hsame.authority, hsame.epoch]
    exact h.current
  · rw [hsame.authority]
    exact h.distinct
  · rw [hsame.authority, hsame.nextFencingToken]
    exact h.below

theorem sound_fresh : Sound {} := by
  refine ⟨by decide, ?_, ?_, ?_, ?_⟩
  · intro k k' entry entry' hentry
    simp at hentry
  · intro k entry hentry
    simp at hentry
  · intro k k' entry entry' hentry
    simp at hentry
  · intro k entry hentry
    simp at hentry

/-- Every entry of one table is a lowered entry of the other. -/
def TableLowered (a b : StateImage) : Prop :=
  ∀ (k : Incarnation) (entry : AuthorityEntry), b.authority[k]? = some entry →
    ∃ old, a.authority[k]? = some old ∧ Lowered old entry

theorem tableLowered_map {a b : StateImage} {f : Incarnation → AuthorityEntry → AuthorityEntry}
    (hf : ∀ k entry, Lowered entry (f k entry)) (h : b.authority = a.authority.map f) :
    TableLowered a b := by
  intro k entry hentry
  rw [h, Std.ExtTreeMap.getElem?_map, Option.map_eq_some_iff] at hentry
  obtain ⟨old, hold, rfl⟩ := hentry
  exact ⟨old, hold, hf k old⟩

/-- Lowering entries keeps the table sound as long as what is still granted is granted
under the new epoch. -/
theorem Sound.lower {a b : StateImage} (h : Sound a) (hlowered : TableLowered a b)
    (htoken : b.nextFencingToken = a.nextFencingToken)
    (hcurrent : ∀ (k : Incarnation) (entry : AuthorityEntry), b.authority[k]? = some entry →
      entry.state = .granted → entry.epoch = b.epoch ∧ b.epoch.isEstablished = true) :
    Sound b := by
  refine ⟨?_, ?_, hcurrent, ?_, ?_⟩
  · rw [htoken]
    exact h.positive
  · intro k k' entry entry' hentry hentry' hpublisher hgranted hgranted'
    obtain ⟨old, hold, hlow⟩ := hlowered k entry hentry
    obtain ⟨old', hold', hlow'⟩ := hlowered k' entry' hentry'
    obtain rfl := hlow.eq_of_granted hgranted
    obtain rfl := hlow'.eq_of_granted hgranted'
    exact h.one k k' _ _ hold hold' hpublisher hgranted hgranted'
  · intro k k' entry entry' hentry hentry' hvalid htokens
    obtain ⟨old, hold, hlow⟩ := hlowered k entry hentry
    obtain ⟨old', hold', hlow'⟩ := hlowered k' entry' hentry'
    rw [hlow.token, hlow'.token] at htokens
    rw [hlow.token] at hvalid
    exact h.distinct k k' _ _ hold hold' hvalid htokens
  · intro k entry hentry
    obtain ⟨old, hold, hlow⟩ := hlowered k entry hentry
    rw [hlow.token, htoken]
    exact h.below k old hold

theorem Sound.normalize {a b : StateImage} (h : Sound a)
    (hsame : SameRecord b (normalizeImage a)) : Sound b := by
  have hlowered : TableLowered a (normalizeImage a) :=
    tableLowered_map (fun _ => lowered_normalizeEntry) rfl
  refine (h.lower (b := normalizeImage a) hlowered rfl ?_).of_sameRecord hsame
  intro k entry hentry hgranted
  simp only [normalizeImage, Std.ExtTreeMap.getElem?_map, Option.map_eq_some_iff] at hentry
  obtain ⟨old, -, rfl⟩ := hentry
  unfold normalizeEntry at hgranted
  split at hgranted
  · cases hgranted
  · exact absurd hgranted ‹_›

theorem toNat_succ_token {next : UInt64} (hroom : next ≠ UInt64.ofNat (2 ^ 64 - 1)) :
    (next + 1).toNat = next.toNat + 1 := by
  have hlt := next.toNat_lt
  have hne : next.toNat ≠ 2 ^ 64 - 1 := by
    intro heq
    apply hroom
    rw [← UInt64.toNat_inj, heq]
    rfl
  rw [UInt64.toNat_add]
  simp only [UInt64.reduceToNat]
  omega

/-- An entry after a grant is the new one, or a lowered old one that is not another
boot's live grant of the same publisher. -/
theorem getElem?_granted {authority : Std.ExtTreeMap Incarnation AuthorityEntry}
    {publisher : PublisherId} {boot : BootId} {new entry : AuthorityEntry} {k : Incarnation}
    (h : ((authority.map (supersede publisher boot)).insert ⟨publisher, boot⟩ new)[k]? =
      some entry) :
    (k = ⟨publisher, boot⟩ ∧ entry = new) ∨
      (k ≠ ⟨publisher, boot⟩ ∧ ∃ old, authority[k]? = some old ∧ Lowered old entry ∧
        (entry.state = .granted → k.publisher ≠ publisher)) := by
  rw [Std.ExtTreeMap.getElem?_insert] at h
  split at h
  · rename_i heq
    cases h
    exact .inl ⟨(Std.LawfulEqOrd.eq_of_compare heq).symm, rfl⟩
  · rename_i hne
    have hkey : k ≠ ⟨publisher, boot⟩ := by
      rintro rfl
      exact hne Std.ReflOrd.compare_self
    rw [Std.ExtTreeMap.getElem?_map, Option.map_eq_some_iff] at h
    obtain ⟨old, hold, rfl⟩ := h
    refine .inr ⟨hkey, old, hold, lowered_supersede publisher boot k old, ?_⟩
    intro hgranted hpublisher
    have hold := (lowered_supersede publisher boot k old).eq_of_granted hgranted
    have hboot : k.boot ≠ boot := by
      intro hboot
      apply hkey
      cases k
      simp_all
    rw [hold] at hgranted
    simp [supersede, hpublisher, hboot, hgranted] at hold
    have := congrArg AuthorityEntry.state hold
    rw [hgranted] at this
    cases this

theorem Sound.grant {a b : StateImage} (h : Sound a) {publisher : PublisherId} {boot : BootId}
    {provenance : Provenance} (hestablished : a.epoch.isEstablished = true)
    (hepoch : b.epoch = a.epoch) (hroom : a.nextFencingToken ≠ UInt64.ofNat (2 ^ 64 - 1))
    (htoken : b.nextFencingToken = a.nextFencingToken + 1)
    (hauthority : b.authority = (a.authority.map (supersede publisher boot)).insert
      ⟨publisher, boot⟩ { publisher, boot, epoch := a.epoch,
                          token := ⟨a.nextFencingToken⟩, state := .granted, provenance }) :
    Sound b := by
  have hsucc := toNat_succ_token hroom
  have hbelow (k : Incarnation) (old : AuthorityEntry) (hold : a.authority[k]? = some old) :
      old.token.value.toNat < a.nextFencingToken.toNat :=
    UInt64.lt_iff_toNat_lt.mp (h.below k old hold)
  have hnew (k : Incarnation) (old : AuthorityEntry) (hold : a.authority[k]? = some old) :
      old.token ≠ ⟨a.nextFencingToken⟩ := by
    intro heq
    have := hbelow k old hold
    rw [heq] at this
    exact absurd this (Nat.lt_irrefl _)
  refine ⟨?_, ?_, ?_, ?_, ?_⟩
  · intro hzero
    rw [htoken] at hzero
    rw [hzero] at hsucc
    simp at hsucc
  · intro k k' entry entry' hentry hentry' hpublisher hgranted hgranted'
    rw [hauthority] at hentry hentry'
    rcases getElem?_granted hentry with ⟨rfl, rfl⟩ | ⟨hk, old, hold, hlow, hother⟩
    · rcases getElem?_granted hentry' with ⟨rfl, rfl⟩ | ⟨hk', old', hold', hlow', hother'⟩
      · rfl
      · exact absurd hpublisher.symm (hother' hgranted')
    · rcases getElem?_granted hentry' with ⟨rfl, rfl⟩ | ⟨hk', old', hold', hlow', hother'⟩
      · exact absurd hpublisher (hother hgranted)
      · obtain rfl := hlow.eq_of_granted hgranted
        obtain rfl := hlow'.eq_of_granted hgranted'
        exact h.one k k' _ _ hold hold' hpublisher hgranted hgranted'
  · intro k entry hentry hgranted
    rw [hauthority] at hentry
    rw [hepoch]
    rcases getElem?_granted hentry with ⟨rfl, rfl⟩ | ⟨hk, old, hold, hlow, -⟩
    · exact ⟨rfl, hestablished⟩
    · obtain rfl := hlow.eq_of_granted hgranted
      exact h.current k _ hold hgranted
  · intro k k' entry entry' hentry hentry' hvalid htokens
    rw [hauthority] at hentry hentry'
    rcases getElem?_granted hentry with ⟨rfl, rfl⟩ | ⟨hk, old, hold, hlow, -⟩
    · rcases getElem?_granted hentry' with ⟨rfl, rfl⟩ | ⟨hk', old', hold', hlow', -⟩
      · rfl
      · rw [hlow'.token] at htokens
        exact absurd htokens.symm (hnew k' old' hold')
    · rcases getElem?_granted hentry' with ⟨rfl, rfl⟩ | ⟨hk', old', hold', hlow', -⟩
      · rw [hlow.token] at htokens
        exact absurd htokens (hnew k old hold)
      · rw [hlow.token, hlow'.token] at htokens
        rw [hlow.token] at hvalid
        exact h.distinct k k' _ _ hold hold' hvalid htokens
  · intro k entry hentry
    rw [hauthority] at hentry
    rw [htoken, UInt64.lt_iff_toNat_lt, hsucc]
    rcases getElem?_granted hentry with ⟨rfl, rfl⟩ | ⟨hk, old, hold, hlow, -⟩
    · exact Nat.lt_succ_self _
    · rw [hlow.token]
      exact Nat.lt_succ_of_lt (hbelow k old hold)

/-- An entry after a fence is a fenced one with the old token or none, or an old one. -/
theorem getElem?_fenced {a : StateImage} {publisher : PublisherId} {boot : BootId}
    {provenance : Provenance} {k : Incarnation} {entry : AuthorityEntry}
    (h : (Apply.fenceAuthority a publisher boot provenance).authority[k]? = some entry) :
    a.authority[k]? = some entry ∨
      (k = ⟨publisher, boot⟩ ∧ entry.state = .fenced ∧
        (entry.token = .none ∨
          ∃ old, a.authority[k]? = some old ∧ entry.token = old.token)) := by
  simp only [Apply.fenceAuthority, Std.ExtTreeMap.getElem?_insert] at h
  split at h
  · rename_i heq
    obtain rfl := Std.LawfulEqOrd.eq_of_compare heq
    cases hfound : a.authority[Incarnation.mk publisher boot]? with
    | none =>
        simp only [hfound, Option.some.injEq] at h
        subst h
        exact .inr ⟨rfl, rfl, .inl rfl⟩
    | some old =>
        simp only [hfound, Option.some.injEq] at h
        subst h
        exact .inr ⟨rfl, rfl, .inr ⟨old, rfl, rfl⟩⟩
  · exact .inl h

theorem Sound.fence {a b : StateImage} (h : Sound a) {publisher : PublisherId} {boot : BootId}
    {provenance : Provenance} (hepoch : b.epoch = a.epoch)
    (htoken : b.nextFencingToken = a.nextFencingToken)
    (hauthority : b.authority = (Apply.fenceAuthority a publisher boot provenance).authority) :
    Sound b := by
  -- A live grant is an old one, and so is the holder of a valid token.
  have hgrantedOld (k : Incarnation) (entry : AuthorityEntry)
      (hentry : b.authority[k]? = some entry) (hgranted : entry.state = .granted) :
      a.authority[k]? = some entry := by
    rw [hauthority] at hentry
    rcases getElem?_fenced hentry with hold | ⟨-, hfenced, -⟩
    · exact hold
    · rw [hfenced] at hgranted
      cases hgranted
  have htokenOld (k : Incarnation) (entry : AuthorityEntry)
      (hentry : b.authority[k]? = some entry) :
      entry.token = .none ∨ ∃ old, a.authority[k]? = some old ∧ entry.token = old.token := by
    rw [hauthority] at hentry
    rcases getElem?_fenced hentry with hold | ⟨-, -, hnone⟩
    · exact .inr ⟨entry, hold, rfl⟩
    · exact hnone
  refine ⟨?_, ?_, ?_, ?_, ?_⟩
  · rw [htoken]
    exact h.positive
  · intro k k' entry entry' hentry hentry' hpublisher hgranted hgranted'
    exact h.one k k' entry entry' (hgrantedOld k entry hentry hgranted)
      (hgrantedOld k' entry' hentry' hgranted') hpublisher hgranted hgranted'
  · intro k entry hentry hgranted
    rw [hepoch]
    exact h.current k entry (hgrantedOld k entry hentry hgranted) hgranted
  · intro k k' entry entry' hentry hentry' hvalid htokens
    have hnone : entry.token ≠ .none := by
      intro hnone
      rw [hnone] at hvalid
      cases hvalid
    have hnone' : entry'.token ≠ .none := by
      rw [← htokens]
      exact hnone
    obtain ⟨old, hold, hsame⟩ := (htokenOld k entry hentry).resolve_left hnone
    obtain ⟨old', hold', hsame'⟩ := (htokenOld k' entry' hentry').resolve_left hnone'
    rw [hsame] at hvalid
    rw [hsame, hsame'] at htokens
    exact h.distinct k k' old old' hold hold' hvalid htokens
  · intro k entry hentry
    rw [htoken]
    rcases htokenOld k entry hentry with hnone | ⟨old, hold, hsame⟩
    · rw [hnone]
      exact UInt64.pos_iff_ne_zero.mpr h.positive
    · rw [hsame]
      exact h.below k old hold

theorem Sound.governed {a b : StateImage} {mutation : Mutation} (h : Sound a)
    (hgoverned : Governed a mutation b)
    (hestablished : mutation.op = .grantAuthority → a.epoch.isEstablished = true) :
    Sound b := by
  cases hgoverned with
  | kept hop hepoch htoken hauthority =>
      refine h.lower ?_ htoken ?_
      · intro k entry hentry
        rw [hauthority] at hentry
        exact ⟨entry, hentry, .inl rfl⟩
      · intro k entry hentry hgranted
        rw [hauthority] at hentry
        rw [hepoch]
        exact h.current k entry hentry hgranted
  | granted provenance hop hvalid hepoch hpositive hroom htoken hauthority =>
      exact h.grant (hestablished hop) hepoch hroom htoken hauthority
  | fenced publisher boot provenance hop hepoch htoken hauthority =>
      exact h.fence hepoch htoken hauthority
  | advanced epoch hop hnext hepoch htoken hauthority =>
      refine h.lower (tableLowered_map (fun _ => lowered_expireStale epoch) hauthority) htoken ?_
      intro k entry hentry hgranted
      rw [hauthority, Std.ExtTreeMap.getElem?_map, Option.map_eq_some_iff] at hentry
      obtain ⟨old, -, rfl⟩ := hentry
      rw [hepoch]
      refine ⟨?_, isEstablished_of_next hnext⟩
      unfold expireStale at hgranted ⊢
      split at hgranted
      · cases hgranted
      · rename_i hkeep
        rw [if_neg hkeep]
        by_contra hne
        exact hkeep ⟨hgranted, hne⟩

theorem Sound.move {a b : StateImage} (h : Sound a) (hmove : Move a b) : Sound b := by
  cases hmove with
  | idle hsame => exact h.of_sameRecord hsame
  | mutated mutation image hop happly hsame =>
      exact (h.governed (applyMutation_governed happly)
        fun hgrant => absurd hgrant hop).of_sameRecord hsame
  | granted mutation image hop hepoch happly hsame =>
      exact (h.governed (applyMutation_governed happly) fun _ => hepoch).of_sameRecord hsame

/-! ## Progress -/

/-- The epoch and the token counter do not fall. -/
structure Ahead (a b : StateImage) : Prop where
  epoch : a.epoch.value.toNat ≤ b.epoch.value.toNat
  token : a.nextFencingToken.toNat ≤ b.nextFencingToken.toNat

theorem ahead_of_sameRecord {a b : StateImage} (h : SameRecord b a) : Ahead a b :=
  ⟨by rw [h.epoch], by rw [h.nextFencingToken]⟩

theorem Ahead.trans {a b c : StateImage} (h : Ahead a b) (h' : Ahead b c) : Ahead a c :=
  ⟨h.epoch.trans h'.epoch, h.token.trans h'.token⟩

theorem ahead_of_governed {a b : StateImage} {mutation : Mutation}
    (h : Governed a mutation b) : Ahead a b := by
  cases h with
  | kept hop hepoch htoken hauthority => exact ⟨by rw [hepoch], by rw [htoken]⟩
  | granted provenance hop hvalid hepoch hpositive hroom htoken hauthority =>
      refine ⟨by rw [hepoch], ?_⟩
      rw [htoken, toNat_succ_token hroom]
      exact Nat.le_succ _
  | fenced publisher boot provenance hop hepoch htoken hauthority =>
      exact ⟨by rw [hepoch], by rw [htoken]⟩
  | advanced epoch hop hnext hepoch htoken hauthority =>
      refine ⟨?_, by rw [htoken]⟩
      rw [hepoch, epoch_next_value hnext]
      exact Nat.le_succ _

theorem ahead_of_move {a b : StateImage} (h : Move a b) : Ahead a b := by
  cases h with
  | idle hsame => exact ahead_of_sameRecord hsame
  | mutated mutation image hop happly hsame =>
      exact (ahead_of_governed (applyMutation_governed happly)).trans (ahead_of_sameRecord hsame)
  | granted mutation image hop hepoch happly hsame =>
      exact (ahead_of_governed (applyMutation_governed happly)).trans (ahead_of_sameRecord hsame)

theorem run_sound {r r' : FabricRuntime} (hrun : Run r r') (h : Sound r.image) :
    Sound r'.image :=
  hrun.invariant (fun _ _ hmove ha => ha.move hmove) (fun _ _ hsame ha => ha.normalize hsame) h

theorem run_ahead {r r' : FabricRuntime} (hrun : Run r r') : Ahead r.image r'.image :=
  hrun.invariant (fun _ _ hmove ha => ha.trans (ahead_of_move hmove))
    (fun _ _ hsame ha => ha.trans ⟨by rw [hsame.epoch]; rfl, by rw [hsame.nextFencingToken]; rfl⟩)
    ⟨Nat.le_refl _, Nat.le_refl _⟩

/-! ## Grants -/

/-- The session is the live grant of its incarnation. -/
def Current (image : StateImage) (session : Session) : Prop :=
  image.epoch = session.epoch ∧
    ∃ entry, image.authority[Incarnation.mk session.publisher session.boot]? = some entry ∧
      entry.state = .granted ∧ entry.epoch = session.epoch ∧ entry.token = session.token

/-- What a successful grant hands out and leaves behind. -/
structure Granted (r : FabricRuntime) (publisher : PublisherId) (boot : BootId)
    (session : Session) (r' : FabricRuntime) : Prop where
  publisher_eq : session.publisher = publisher
  boot_eq : session.boot = boot
  token_eq : session.token.value = r.image.nextFencingToken
  next_eq : r'.image.nextFencingToken.toNat = r.image.nextFencingToken.toNat + 1
  current : Current r'.image session

theorem granted_of_grant {r r' : FabricRuntime} {publisher : PublisherId} {boot : BootId}
    {now : UInt64} {session : Session}
    (h : r.grant publisher boot now = (.ok session, r')) :
    Granted r publisher boot session r' := by
  have hcommit := commitMutation_effect r.state { baseMutation
    (bootstrapSession r.image publisher boot) .grantAuthority
    (text "authority granted") now with system := true }
  unfold FabricRuntime.grant at h
  simp only at h
  rcases hcommit with ⟨e, s', heq, hsame⟩ | ⟨outcome, s', image, heq, happly, hsame⟩
  · rw [heq] at h
    cases h
  · rw [heq] at h
    simp only at h
    cases applyMutation_governed happly with
    | kept hop =>
        cases hop
    | fenced publisher' boot' provenance hop =>
        cases hop
    | advanced epoch hop =>
        cases hop
    | granted provenance hop hvalid hepoch hpositive hroom htoken hauthority =>
        have hentry : (r.withState s').image.authority[Incarnation.mk publisher boot]? =
            some { publisher, boot, epoch := r.image.epoch,
                   token := ⟨r.image.nextFencingToken⟩, state := .granted, provenance } := by
          change s'.live.authority[Incarnation.mk publisher boot]? = _
          rw [hsame.authority, hauthority]
          exact Std.ExtTreeMap.getElem?_insert_self
        rw [hentry] at h
        cases h
        refine ⟨rfl, rfl, rfl, ?_, ?_, _, hentry, rfl, rfl, rfl⟩
        · change s'.live.nextFencingToken.toNat = _
          rw [hsame.nextFencingToken, htoken]
          exact toNat_succ_token hroom
        · change s'.live.epoch = _
          rw [hsame.epoch, hepoch]
          rfl

theorem granted_of_takeOver {r r' : FabricRuntime} {publisher : PublisherId} {boot : BootId}
    {now : UInt64} {session : Session}
    (h : r.takeOver publisher boot now = (.ok session, r')) :
    Granted r publisher boot session r' := by
  unfold FabricRuntime.takeOver at h
  simp only at h
  split at h
  · generalize hmutation : ({ baseMutation (bootstrapSession r.image publisher boot)
      .advanceEpoch (if liveOtherIncarnation r.image publisher boot = true then
        text "publisher incarnation replaced" else text "fabric epoch established") now with
      system := true } : Mutation) = mutation at h
    have hop : (planOf r.state.live mutation).op = .advanceEpoch := by
      rw [← hmutation]
      rfl
    rcases commitMutation_effect r.state mutation with ⟨e, s', heq, hsame⟩ | ⟨outcome, s',
      image, heq, happly, hsame⟩
    · rw [heq] at h
      cases h
    · rw [heq] at h
      have hgrant := granted_of_grant h
      have hnext : (r.withState s').image.nextFencingToken = r.image.nextFencingToken := by
        change s'.live.nextFencingToken = _
        rw [hsame.nextFencingToken]
        cases applyMutation_governed happly with
        | kept hkept =>
            rw [hop] at hkept
            cases hkept
        | granted provenance hgrantOp =>
            rw [hop] at hgrantOp
            cases hgrantOp
        | fenced publisher' boot' provenance hfenceOp =>
            rw [hop] at hfenceOp
            cases hfenceOp
        | advanced epoch hadvance hnext hepoch htoken => exact htoken
      exact { hgrant with
        token_eq := by rw [hgrant.token_eq, hnext]
        next_eq := by rw [hgrant.next_eq, hnext] }
  · exact granted_of_grant h

theorem grantAuthority_ok {r r' : FabricRuntime} {now : UInt64} {publisher : PublisherId}
    {boot : BootId} {session : Session}
    (h : r.grantAuthority now publisher boot = (.ok session, r')) :
    (∃ entry, r.image.authority[Incarnation.mk publisher boot]? = some entry ∧
        entry.state = .granted ∧ entry.epoch = r.image.epoch ∧
        session = ⟨publisher, boot, entry.epoch, entry.token⟩ ∧ r' = r) ∨
      Granted r publisher boot session r' := by
  unfold FabricRuntime.grantAuthority at h
  split at h
  · cases h
  · split at h
    · cases h
    · split at h
      · cases h
      · split at h
        · cases h
        · split at h
          · rename_i entry hentry
            split at h
            · cases h
            · split at h
              · rename_i hlive
                cases h
                exact .inl ⟨entry, hentry, hlive.1, hlive.2, rfl, rfl⟩
              · exact .inr (granted_of_takeOver h)
          · split at h
            · cases h
            · exact .inr (granted_of_takeOver h)

theorem current_of_grantAuthority {r r' : FabricRuntime} {now : UInt64}
    {publisher : PublisherId} {boot : BootId} {session : Session}
    (h : r.grantAuthority now publisher boot = (.ok session, r')) :
    Current r'.image session := by
  rcases grantAuthority_ok h with ⟨entry, hentry, hgranted, hepoch, rfl, rfl⟩ | hgranted
  · exact ⟨hepoch.symm, entry, hentry, hgranted, rfl, rfl⟩
  · exact hgranted.current

/-- A call that hands out a token of its own, not the one a live grant already holds. -/
structure NewGrant (r : FabricRuntime) (now : UInt64) (session : Session)
    (r' : FabricRuntime) : Prop where
  granted : r.grantAuthority now session.publisher session.boot = (.ok session, r')
  new : ∀ entry,
    r.image.authority[Incarnation.mk session.publisher session.boot]? = some entry →
    ¬ (entry.state = .granted ∧ entry.epoch = r.image.epoch)

theorem NewGrant.granted_new {r r' : FabricRuntime} {now : UInt64} {session : Session}
    (h : NewGrant r now session r') :
    Granted r session.publisher session.boot session r' := by
  rcases grantAuthority_ok h.granted with ⟨entry, hentry, hgranted, hepoch, -⟩ | hgranted
  · exact absurd ⟨hgranted, hepoch⟩ (h.new entry hentry)
  · exact hgranted

/-- From a fresh directory on, over calls and restarts in any order: one boot of a
publisher holds a live grant, under the established current epoch; valid tokens are
unique and below the counter; the epoch never falls; and a later new grant has a larger
token than an earlier one. -/
theorem authority_table_sound {r r' : FabricRuntime} (hfresh : Fresh r) (hrun : Run r r') :
    Sound r'.image ∧
      ∀ r'', Run r' r'' →
        r'.image.epoch.value ≤ r''.image.epoch.value ∧
        ∀ now session next, NewGrant r' now session next → Run next r'' →
          ∀ now' session' next', NewGrant r'' now' session' next' →
            session.token.value < session'.token.value := by
  have hsound := sound_fresh.of_sameRecord hfresh
  refine ⟨run_sound hrun hsound, fun r'' hlater => ⟨?_, ?_⟩⟩
  · exact UInt64.le_iff_toNat_le.mpr (run_ahead hlater).epoch
  · intro now session next hnew hbetween now' session' next' hnew'
    have hahead := (run_ahead hbetween).token
    have hnext := hnew.granted_new.next_eq
    rw [UInt64.lt_iff_toNat_lt, hnew.granted_new.token_eq, hnew'.granted_new.token_eq]
    omega

theorem fresh_startRuntime {dir : Directory} {options : RuntimeOptions}
    {entropy : List.Vector UInt8 storeKeyBytes} {opened : Opened}
    (hfresh : dir.contains manifestName = false)
    (h : openStore dir options.store entropy = .ok opened) :
    Fresh (startRuntime options opened) := by
  obtain ⟨-, hcreate⟩ := createStore_of_openStore hfresh h
  simp only [createStore, bind_eq_ok, failIf_eq_ok, exists_const, pure, Except.pure,
    Except.ok.injEq] at hcreate
  obtain ⟨-, -, found, -, rfl⟩ := hcreate
  refine ⟨rfl, rfl, rfl, rfl, rfl, rfl, rfl, rfl, ?_⟩
  apply Std.ExtTreeMap.ext_getElem?
  intro k
  simp [FabricRuntime.image, startRuntime, normalizeImage, freshReplay]

/-- Options under which an empty directory becomes a runtime. -/
def creatingRuntime : RuntimeOptions := { createIfMissing := true }

theorem startRuntime_empty :
    ∃ opened, openStore ∅ creatingRuntime.store zeroKey = .ok opened ∧
      Fresh (startRuntime creatingRuntime opened) ∧
      ∃ session r', (startRuntime creatingRuntime opened).grantAuthority 0 somePublisher
        someBoot = (.ok session, r') := by
  obtain ⟨opened, hopen⟩ := openStore_empty
  have hgranted : (match openStore ∅ creating zeroKey with
      | .ok opened => ((startRuntime creatingRuntime opened).grantAuthority 0 somePublisher
          someBoot).1.isOk
      | .error _ => false) = true := by decide +kernel
  rw [hopen] at hgranted
  refine ⟨opened, hopen, fresh_startRuntime (by simp) hopen, ?_⟩
  simp only at hgranted
  cases hgrant : (startRuntime creatingRuntime opened).grantAuthority 0 somePublisher
      someBoot with
  | mk result r' =>
      cases result with
      | ok session => exact ⟨session, r', rfl⟩
      | error e =>
          rw [hgrant] at hgranted
          cases hgranted

theorem authority_table_sound_first_grant :
    ∃ r session r', Fresh r ∧ r.grantAuthority 0 somePublisher someBoot = (.ok session, r') ∧
      Sound r'.image := by
  obtain ⟨opened, -, hfresh, session, r', hgrant⟩ := startRuntime_empty
  refine ⟨_, session, r', hfresh, hgrant, ?_⟩
  have hstep : Step (startRuntime creatingRuntime opened) r' := by
    have hcall := Step.call (startRuntime creatingRuntime opened) 0
      (.grantAuthority somePublisher someBoot)
    rwa [perform, snd_outcome, hgrant] at hcall
  exact (authority_table_sound hfresh (.single hstep)).1

/-! ## Lost sessions -/

/-- The token was handed out, and a live grant that holds it was made in the session's
epoch. -/
structure Tied (session : Session) (image : StateImage) : Prop where
  issued : session.token.value.toNat < image.nextFencingToken.toNat
  epoch : ∀ entry,
    image.authority[Incarnation.mk session.publisher session.boot]? = some entry →
    entry.state = .granted → entry.token = session.token → entry.epoch = session.epoch

/-- No live grant of the incarnation holds the session's token. -/
structure Lost (session : Session) (image : StateImage) : Prop where
  issued : session.token.value.toNat < image.nextFencingToken.toNat
  gone : ∀ entry,
    image.authority[Incarnation.mk session.publisher session.boot]? = some entry →
    entry.state = .granted → entry.token ≠ session.token

/-- An entry after a move comes from an old one with its token and epoch, holds a token
that was not issued before, or holds none. -/
theorem origin_of_governed {a b : StateImage} {mutation : Mutation}
    (h : Governed a mutation b) {k : Incarnation} {entry : AuthorityEntry}
    (hentry : b.authority[k]? = some entry) :
    (∃ old, a.authority[k]? = some old ∧ entry.token = old.token ∧ entry.epoch = old.epoch ∧
        (entry.state = .granted → old.state = .granted)) ∨
      entry.token = ⟨a.nextFencingToken⟩ ∨ (entry.token = .none ∧ entry.state = .fenced) := by
  have hlowered (old : AuthorityEntry) (hold : a.authority[k]? = some old)
      (hlow : Lowered old entry) : ∃ old, a.authority[k]? = some old ∧
        entry.token = old.token ∧ entry.epoch = old.epoch ∧
        (entry.state = .granted → old.state = .granted) := by
    rcases hlow with rfl | ⟨state, hstate, hgranted, rfl⟩
    · exact ⟨entry, hold, rfl, rfl, fun h => h⟩
    · exact ⟨old, hold, rfl, rfl, fun _ => hgranted⟩
  cases h with
  | kept hop hepoch htoken hauthority =>
      rw [hauthority] at hentry
      exact .inl ⟨entry, hentry, rfl, rfl, fun h => h⟩
  | granted provenance hop hvalid hepoch hpositive hroom htoken hauthority =>
      rw [hauthority] at hentry
      rcases getElem?_granted hentry with ⟨-, rfl⟩ | ⟨-, old, hold, hlow, -⟩
      · exact .inr (.inl rfl)
      · exact .inl (hlowered old hold hlow)
  | fenced publisher boot provenance hop hepoch htoken hauthority =>
      rw [hauthority] at hentry
      simp only [Apply.fenceAuthority, Std.ExtTreeMap.getElem?_insert] at hentry
      split at hentry
      · rename_i heq
        obtain rfl := Std.LawfulEqOrd.eq_of_compare heq
        cases hfound : a.authority[Incarnation.mk publisher boot]? with
        | none =>
            simp only [hfound, Option.some.injEq] at hentry
            subst hentry
            exact .inr (.inr ⟨rfl, rfl⟩)
        | some old =>
            simp only [hfound, Option.some.injEq] at hentry
            subst hentry
            exact .inl ⟨old, rfl, rfl, rfl, fun h => by cases h⟩
      · exact .inl ⟨entry, hentry, rfl, rfl, fun h => h⟩
  | advanced epoch hop hnext hepoch htoken hauthority =>
      obtain ⟨old, hold, hlow⟩ :=
        tableLowered_map (fun _ => lowered_expireStale epoch) hauthority k entry hentry
      exact .inl (hlowered old hold hlow)

section Sessions

variable {session : Session} {a b : StateImage}

theorem Tied.of_sameRecord (h : Tied session a) (hsame : SameRecord b a) : Tied session b := by
  refine ⟨?_, ?_⟩
  · rw [hsame.nextFencingToken]
    exact h.issued
  · rw [hsame.authority]
    exact h.epoch

theorem Lost.of_sameRecord (h : Lost session a) (hsame : SameRecord b a) : Lost session b := by
  refine ⟨?_, ?_⟩
  · rw [hsame.nextFencingToken]
    exact h.issued
  · rw [hsame.authority]
    exact h.gone

theorem Tied.governed {mutation : Mutation} (h : Tied session a)
    (hgoverned : Governed a mutation b) : Tied session b := by
  refine ⟨h.issued.trans_le (ahead_of_governed hgoverned).token, ?_⟩
  intro entry hentry hgranted htoken
  rcases origin_of_governed hgoverned hentry with
    ⟨old, hold, hsame, hepoch, hstate⟩ | hnew | ⟨-, hfenced⟩
  · rw [hepoch]
    exact h.epoch old hold (hstate hgranted) (hsame ▸ htoken)
  · have hissued := h.issued
    rw [← htoken, hnew] at hissued
    exact absurd hissued (Nat.lt_irrefl _)
  · rw [hfenced] at hgranted
    cases hgranted

theorem Lost.governed {mutation : Mutation} (h : Lost session a)
    (hgoverned : Governed a mutation b) : Lost session b := by
  refine ⟨h.issued.trans_le (ahead_of_governed hgoverned).token, ?_⟩
  intro entry hentry hgranted htoken
  rcases origin_of_governed hgoverned hentry with
    ⟨old, hold, hsame, -, hstate⟩ | hnew | ⟨-, hfenced⟩
  · exact h.gone old hold (hstate hgranted) (hsame ▸ htoken)
  · have hissued := h.issued
    rw [← htoken, hnew] at hissued
    exact absurd hissued (Nat.lt_irrefl _)
  · rw [hfenced] at hgranted
    cases hgranted

theorem not_granted_normalizeImage {k : Incarnation} {entry : AuthorityEntry}
    (hentry : (normalizeImage a).authority[k]? = some entry) : entry.state ≠ .granted := by
  simp only [normalizeImage, Std.ExtTreeMap.getElem?_map, Option.map_eq_some_iff] at hentry
  obtain ⟨old, -, rfl⟩ := hentry
  unfold normalizeEntry
  split
  · exact fun h => by cases h
  · assumption

theorem Tied.normalize (h : Tied session a) (hsame : SameRecord b (normalizeImage a)) :
    Tied session b := by
  refine Tied.of_sameRecord (a := normalizeImage a) ⟨h.issued, ?_⟩ hsame
  intro entry hentry hgranted
  exact absurd hgranted (not_granted_normalizeImage hentry)

theorem Lost.normalize (h : Lost session a) (hsame : SameRecord b (normalizeImage a)) :
    Lost session b := by
  refine Lost.of_sameRecord (a := normalizeImage a) ⟨h.issued, ?_⟩ hsame
  intro entry hentry hgranted
  exact absurd hgranted (not_granted_normalizeImage hentry)

theorem run_invariant_of_governed {P : StateImage → Prop} {r r' : FabricRuntime}
    (hrun : Run r r') (hsame : ∀ a b, SameRecord b a → P a → P b)
    (hgoverned : ∀ a b mutation, Governed a mutation b → P a → P b)
    (hrestart : ∀ a b, SameRecord b (normalizeImage a) → P a → P b) (h : P r.image) :
    P r'.image := by
  refine hrun.invariant ?_ hrestart h
  intro a b hmove ha
  cases hmove with
  | idle hidle => exact hsame a b hidle ha
  | mutated mutation image hop happly hafter =>
      exact hsame image b hafter (hgoverned a image mutation (applyMutation_governed happly) ha)
  | granted mutation image hop hepoch happly hafter =>
      exact hsame image b hafter (hgoverned a image mutation (applyMutation_governed happly) ha)

theorem run_tied {r r' : FabricRuntime} (hrun : Run r r') (h : Tied session r.image) :
    Tied session r'.image :=
  run_invariant_of_governed hrun (fun _ _ hsame h => h.of_sameRecord hsame)
    (fun _ _ _ hgoverned h => h.governed hgoverned)
    (fun _ _ hsame h => h.normalize hsame) h

theorem run_lost {r r' : FabricRuntime} (hrun : Run r r') (h : Lost session r.image) :
    Lost session r'.image :=
  run_invariant_of_governed hrun (fun _ _ hsame h => h.of_sameRecord hsame)
    (fun _ _ _ hgoverned h => h.governed hgoverned)
    (fun _ _ hsame h => h.normalize hsame) h

theorem Tied.lost (h : Tied session a) (hsound : Sound a) (hcurrent : ¬ Current a session) :
    Lost session a := by
  refine ⟨h.issued, ?_⟩
  intro entry hentry hgranted htoken
  have hepoch := h.epoch entry hentry hgranted htoken
  obtain ⟨himage, -⟩ := hsound.current _ entry hentry hgranted
  exact hcurrent ⟨by rw [← himage, hepoch], entry, hentry, hgranted, hepoch, htoken⟩

theorem tied_of_current (hsound : Sound a) (h : Current a session) : Tied session a := by
  obtain ⟨-, entry, hentry, hgranted, hepoch, htoken⟩ := h
  refine ⟨?_, ?_⟩
  · rw [← htoken]
    exact UInt64.lt_iff_toNat_lt.mp (hsound.below _ entry hentry)
  · intro entry' hentry' hgranted' htoken'
    rw [hentry] at hentry'
    cases hentry'
    exact hepoch

theorem current_of_checkAuthority {mutation : Mutation}
    (h : checkAuthority a mutation = .ok ()) :
    Current a ⟨mutation.publisher, mutation.boot, mutation.epoch, mutation.token⟩ := by
  simp only [checkAuthority, bind_eq_ok, failIf_eq_ok, exists_const, ne_eq, not_not] at h
  obtain ⟨-, -, hepoch, hentry⟩ := h
  cases hfound : a.authority[Incarnation.mk mutation.publisher mutation.boot]? with
  | none => simp [hfound] at hentry
  | some entry =>
      simp only [hfound, bind_eq_ok, failIf_eq_ok, exists_const, not_not] at hentry
      obtain ⟨hgranted, hentryEpoch, htoken⟩ := hentry
      exact ⟨hepoch.symm, entry, hfound, hgranted, hentryEpoch.trans hepoch.symm, htoken⟩

theorem Lost.not_current (h : Lost session a) : ¬ Current a session := by
  rintro ⟨-, entry, hentry, hgranted, -, htoken⟩
  exact h.gone entry hentry hgranted htoken

end Sessions

/-! ## Calls under a session -/

def actorOf : Call → Option Session
  | .advanceEpoch actor _ => some actor
  | .fence actor _ _ _ => some actor
  | .defineClass actor _ => some actor
  | .defineScope actor _ => some actor
  | .definePolicy actor _ => some actor
  | .defineSubject actor _ => some actor
  | .assign actor _ => some actor
  | .retireAssignment actor _ _ => some actor
  | .grantAuthority _ _ | .integrityReport | .checkpoint | .close => none

/-- A call that is refused and leaves the recorded state as it was. -/
def Refused {α : Type} (r : FabricRuntime) (result : Result α × FabricRuntime) : Prop :=
  (∃ e, result.1 = .error e) ∧ SameRecord result.2.image r.image

section Refusals

variable {r : FabricRuntime} {α : Type} {actor : Session}

theorem refused_here (e : Status) : Refused (α := α) r (.error e, r) := ⟨⟨e, rfl⟩, .refl _⟩

theorem refused_rejectCall (op : Bytes) (status : Status) (now : UInt64) :
    Refused r (r.rejectCall (α := α) op status actor now) :=
  ⟨⟨status, rfl⟩, sameRecord_recordRejection r.image r.limits op status actor now⟩

theorem refused_underSession {body : Result α × FabricRuntime} (h : Refused r body) :
    Refused r (r.underSession actor body) := by
  unfold underSession
  split
  · exact refused_here _
  · split
    · exact refused_here _
    · exact h

theorem refused_publish (hcurrent : ¬ Current r.image actor) (now : UInt64) (op : Bytes)
    (mutationOp : MutationOp) (reason : Bytes) (value : CommitOutcome → StateImage → α) :
    Refused r (r.publish now actor op (baseMutation actor mutationOp reason now) value) := by
  unfold publish
  rcases commitMutation_effect r.state (baseMutation actor mutationOp reason now) with
    ⟨e, s', heq, h⟩ | ⟨outcome, s', image, heq, happly, h⟩
  · rw [heq]
    exact ⟨⟨e, rfl⟩, (sameRecord_recordRejection s'.live r.limits op e actor now).trans h⟩
  · obtain ⟨expected, hadmissible, -⟩ := ApplyFacts.applyMutation_eq_ok_iff.mp happly
    exact absurd (current_of_checkAuthority (hadmissible.authorized rfl rfl)) hcurrent

end Refusals

/-- A call under a session that is not current is refused and changes nothing that is
recorded. -/
theorem refused_of_not_current {r : FabricRuntime} {session : Session} {call : Call}
    (hactor : actorOf call = some session) (hcurrent : ¬ Current r.image session)
    (now : UInt64) :
    (∃ e, (perform r now call).1 = some e) ∧
      SameRecord (perform r now call).2.image r.image := by
  have hrefused {α : Type} {result : Result α × FabricRuntime} (h : Refused r result) :
      (∃ e, (outcome result).1 = some e) ∧ SameRecord (outcome result).2.image r.image := by
    obtain ⟨⟨e, he⟩, hsame⟩ := h
    obtain ⟨status, r'⟩ := result
    cases he
    exact ⟨⟨e, rfl⟩, hsame⟩
  cases call with
  | grantAuthority publisher boot => cases hactor
  | integrityReport => cases hactor
  | checkpoint => cases hactor
  | close => cases hactor
  | advanceEpoch actor reason =>
      cases hactor
      exact hrefused (refused_underSession (refused_publish hcurrent _ _ _ _ _))
  | fence actor publisher boot reason =>
      cases hactor
      refine hrefused ?_
      unfold FabricRuntime.fence
      split
      · exact refused_here _
      · split
        · exact refused_here _
        · split
          · exact refused_here _
          · exact refused_publish hcurrent _ _ _ _ _
  | defineClass actor d =>
      cases hactor
      exact hrefused (refused_underSession (refused_publish hcurrent _ _ _ _ _))
  | defineScope actor d =>
      cases hactor
      exact hrefused (refused_underSession (refused_publish hcurrent _ _ _ _ _))
  | definePolicy actor d =>
      cases hactor
      refine hrefused (refused_underSession ?_)
      split
      · exact refused_rejectCall _ _ _
      · exact refused_publish hcurrent _ _ _ _ _
  | defineSubject actor d =>
      cases hactor
      exact hrefused (refused_underSession (refused_publish hcurrent _ _ _ _ _))
  | assign actor a =>
      cases hactor
      refine hrefused (refused_underSession ?_)
      split
      · exact refused_here _
      · split
        · exact refused_rejectCall _ _ _
        · split
          · exact refused_rejectCall _ _ _
          · split
            · exact refused_rejectCall _ _ _
            · split
              · exact refused_publish hcurrent _ _ _ _ _
              · split
                · exact refused_rejectCall _ _ _
                · exact refused_publish hcurrent _ _ _ _ _
  | retireAssignment actor id reason =>
      cases hactor
      exact hrefused (refused_underSession (refused_publish hcurrent _ _ _ _ _))

/-- A session that was handed out and is no longer the live grant of its incarnation
never acts again: whatever happens in between, every later call that carries it is
refused and leaves the recorded state as it was. -/
theorem lost_session_stays_lost {r granting granted stopped later : FabricRuntime}
    {now : UInt64} {publisher : PublisherId} {boot : BootId} {session : Session}
    (hfresh : Fresh r) (hbefore : Run r granting)
    (hgrant : granting.grantAuthority now publisher boot = (.ok session, granted))
    (hrun : Run granted stopped) (hstopped : ¬ Current stopped.image session)
    (hlater : Run stopped later) {call : Call} (hactor : actorOf call = some session)
    (time : UInt64) :
    (∃ e, (perform later time call).1 = some e) ∧
      SameRecord (perform later time call).2.image later.image := by
  have hcall : Step granting granted := by
    have hstep := Step.call granting now (.grantAuthority publisher boot)
    rwa [perform, snd_outcome, hgrant] at hstep
  have hsound := run_sound (hbefore.tail hcall) (sound_fresh.of_sameRecord hfresh)
  have htied := run_tied hrun (tied_of_current hsound (current_of_grantAuthority hgrant))
  have hlost := run_lost hlater (htied.lost (run_sound hrun hsound) hstopped)
  exact refused_of_not_current hactor hlost.not_current time

theorem not_current_of_restart {r r' : FabricRuntime} (h : Recovered r r')
    (session : Session) : ¬ Current r'.image session := by
  rintro ⟨-, entry, hentry, hgranted, -⟩
  rw [h.authority] at hentry
  exact not_granted_normalizeImage hentry hgranted

theorem lost_session_stays_lost_restarted :
    ∃ (granting granted : FabricRuntime) (session : Session) (stopped : FabricRuntime),
      granting.grantAuthority 0 somePublisher someBoot = (.ok session, granted) ∧
      Current granted.image session ∧ Run granted stopped ∧ ¬ Current stopped.image session ∧
      (∃ e, (perform stopped 0 (.advanceEpoch session [])).1 = some e) ∧
      SameRecord (perform stopped 0 (.advanceEpoch session [])).2.image stopped.image := by
  obtain ⟨opened, -, hfresh, session, granted, hgrant⟩ := startRuntime_empty
  have hrecovered : Recovered granted { granted with
      state := { granted.state with live := normalizeImage granted.state.live } } := .refl _
  have hrestart := Step.restart hrecovered
  have hstopped := not_current_of_restart hrecovered session
  exact ⟨_, granted, session, _, hgrant, current_of_grantAuthority hgrant, .single hrestart,
    hstopped, lost_session_stays_lost hfresh .refl hgrant (.single hrestart) hstopped .refl rfl 0⟩

/-! ## Fenced incarnations -/

def Fenced (publisher : PublisherId) (boot : BootId) (image : StateImage) : Prop :=
  ∃ entry, image.authority[Incarnation.mk publisher boot]? = some entry ∧
    entry.state = .fenced

section Fences

variable {publisher : PublisherId} {boot : BootId} {a b : StateImage}

theorem not_current_of_fenced {session : Session}
    (h : Fenced session.publisher session.boot a) : ¬ Current a session := by
  rintro ⟨-, entry, hentry, hgranted, -⟩
  obtain ⟨entry', hentry', hfenced⟩ := h
  rw [hentry] at hentry'
  cases hentry'
  rw [hgranted] at hfenced
  cases hfenced

theorem Fenced.of_sameRecord (h : Fenced publisher boot a) (hsame : SameRecord b a) :
    Fenced publisher boot b := by
  obtain ⟨entry, hentry, hfenced⟩ := h
  exact ⟨entry, by rw [hsame.authority]; exact hentry, hfenced⟩

theorem Fenced.map (h : Fenced publisher boot a)
    {f : Incarnation → AuthorityEntry → AuthorityEntry}
    (hf : ∀ k entry, Lowered entry (f k entry)) (hb : b.authority = a.authority.map f) :
    Fenced publisher boot b := by
  obtain ⟨entry, hentry, hfenced⟩ := h
  refine ⟨f ⟨publisher, boot⟩ entry, ?_, (hf _ entry).fenced_iff hfenced⟩
  rw [hb, Std.ExtTreeMap.getElem?_map, hentry]
  rfl

theorem Fenced.normalize (h : Fenced publisher boot a)
    (hsame : SameRecord b (normalizeImage a)) : Fenced publisher boot b :=
  h.map (fun _ => lowered_normalizeEntry) hsame.authority

theorem Fenced.not_granted (h : Fenced publisher boot a) {mutation : Mutation}
    (hvalid : validateGrant a mutation = .ok ()) :
    Incarnation.mk mutation.publisher mutation.boot ≠ ⟨publisher, boot⟩ := by
  rintro heq
  obtain ⟨entry, hentry, hfenced⟩ := h
  rw [← heq] at hentry
  simp [validateGrant, bind_eq_ok, failIf_eq_ok, hentry, hfenced] at hvalid

theorem Fenced.governed {mutation : Mutation} (h : Fenced publisher boot a)
    (hgoverned : Governed a mutation b) : Fenced publisher boot b := by
  cases hgoverned with
  | kept hop hepoch htoken hauthority =>
      obtain ⟨entry, hentry, hfenced⟩ := h
      exact ⟨entry, by rw [hauthority]; exact hentry, hfenced⟩
  | granted provenance hop hvalid hepoch hpositive hroom htoken hauthority =>
      have hkey := h.not_granted hvalid
      obtain ⟨entry, hentry, hfenced⟩ := h
      refine ⟨supersede mutation.publisher mutation.boot ⟨publisher, boot⟩ entry, ?_,
        (lowered_supersede _ _ _ entry).fenced_iff hfenced⟩
      rw [hauthority, Std.ExtTreeMap.getElem?_insert, if_neg, Std.ExtTreeMap.getElem?_map,
        hentry]
      · rfl
      · rw [Std.LawfulEqOrd.compare_eq_iff_eq]
        exact hkey
  | fenced publisher' boot' provenance hop hepoch htoken hauthority =>
      obtain ⟨entry, hentry, hfenced⟩ := h
      by_cases hkey : Incarnation.mk publisher' boot' = ⟨publisher, boot⟩
      · cases hkey
        refine ⟨{ entry with state := .fenced, provenance }, ?_, rfl⟩
        rw [hauthority]
        simp only [Apply.fenceAuthority, hentry]
        exact Std.ExtTreeMap.getElem?_insert_self
      · refine ⟨entry, ?_, hfenced⟩
        rw [hauthority]
        simp only [Apply.fenceAuthority]
        rw [Std.ExtTreeMap.getElem?_insert, if_neg, hentry]
        rw [Std.LawfulEqOrd.compare_eq_iff_eq]
        exact hkey
  | advanced epoch hop hnext hepoch htoken hauthority =>
      exact h.map (fun _ => lowered_expireStale epoch) hauthority

theorem run_fenced {r r' : FabricRuntime} (hrun : Run r r')
    (h : Fenced publisher boot r.image) : Fenced publisher boot r'.image :=
  run_invariant_of_governed hrun (fun _ _ hsame h => h.of_sameRecord hsame)
    (fun _ _ _ hgoverned h => h.governed hgoverned)
    (fun _ _ hsame h => h.normalize hsame) h

theorem grantAuthority_fenced {r : FabricRuntime} (h : Fenced publisher boot r.image)
    (now : UInt64) : ∃ e, r.grantAuthority now publisher boot = (.error e, r) := by
  obtain ⟨entry, hentry, hfenced⟩ := h
  unfold FabricRuntime.grantAuthority
  split
  · exact ⟨_, rfl⟩
  · split
    · exact ⟨_, rfl⟩
    · split
      · exact ⟨_, rfl⟩
      · split
        · exact ⟨_, rfl⟩
        · simp only [hentry, hfenced, if_true]
          exact ⟨_, rfl⟩

theorem evidence_not_of_fenced {query : PriorityQuery} {winner : Evaluate.Candidate}
    (h : Fenced publisher boot a) (hwinner : evidenceBehind a query = some winner) :
    ¬ (winner.entry.provenance.publisher = publisher ∧
      winner.entry.provenance.boot = boot) := by
  rintro ⟨rfl, rfl⟩
  obtain ⟨chain, -, hreaches⟩ := reaches_of_evidenceBehind hwinner
  obtain ⟨authority, hauthority, hgranted⟩ := hreaches.bound.granted
  obtain ⟨entry, hentry, hfenced⟩ := h
  rw [hauthority] at hentry
  cases hentry
  rw [hgranted] at hfenced
  cases hfenced

end Fences

/-- Fencing is final.  Along every run from a state where an incarnation is fenced, it
stays fenced; it is never granted authority; no call under a session of it is accepted;
and nothing it published stands behind a decision. -/
theorem fenced_for_good {publisher : PublisherId} {boot : BootId} {r r' : FabricRuntime}
    (hfenced : Fenced publisher boot r.image) (hrun : Run r r') :
    Fenced publisher boot r'.image ∧
      (∀ now, ∃ e, r'.grantAuthority now publisher boot = (.error e, r')) ∧
      (∀ call session now, actorOf call = some session → session.publisher = publisher →
        session.boot = boot →
        (∃ e, (perform r' now call).1 = some e) ∧
          SameRecord (perform r' now call).2.image r'.image) ∧
      ∀ query winner, evidenceBehind r'.image query = some winner →
        ¬ (winner.entry.provenance.publisher = publisher ∧
          winner.entry.provenance.boot = boot) := by
  have hstays := run_fenced hrun hfenced
  refine ⟨hstays, grantAuthority_fenced hstays, ?_, ?_⟩
  · rintro call session now hactor rfl rfl
    exact refused_of_not_current hactor (not_current_of_fenced hstays) now
  · intro query winner hwinner
    exact evidence_not_of_fenced hstays hwinner

def fenceOther (r : FabricRuntime) : FabricRuntime :=
  match r.grantAuthority 0 somePublisher someBoot with
  | (.error _, r') => r'
  | (.ok session, r') => (perform r' 0 (.fence session somePublisher otherBoot [])).2

theorem fenced_for_good_other :
    ∃ r : FabricRuntime, Fenced somePublisher otherBoot r.image ∧
      (∃ e, r.grantAuthority 0 somePublisher otherBoot = (.error e, r)) := by
  obtain ⟨opened, hopen⟩ := openStore_empty
  have hstate : (match openStore ∅ creating zeroKey with
      | .ok opened => ((fenceOther (startRuntime creatingRuntime opened)).image.authority[
          Incarnation.mk somePublisher otherBoot]?).map (·.state)
      | .error _ => none) = some .fenced := by decide +kernel
  rw [hopen] at hstate
  obtain ⟨entry, hentry, hfenced⟩ := Option.map_eq_some_iff.mp hstate
  have h : Fenced somePublisher otherBoot
      (fenceOther (startRuntime creatingRuntime opened)).image := ⟨entry, hentry, hfenced⟩
  exact ⟨_, h, (fenced_for_good h .refl).2.1 0⟩

end PriorityFabric.Authority
