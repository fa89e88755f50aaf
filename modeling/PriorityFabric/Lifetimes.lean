import PriorityFabric.Calls

/-!
Runs over several process lifetimes.

A run is made of calls and restarts.  Recovery is taken as a relation: the new
process starts from what was committed, with every grant expired.  What a run does
to the recorded state is a sequence of small moves; invariants are shown for one
move at a time.
-/

namespace PriorityFabric.Lifetimes

open PriorityFabric.Lib.LittleEndian
open PriorityFabric.Basics
open PriorityFabric.Ident
open PriorityFabric.Model
open PriorityFabric.State
open PriorityFabric.Validate
open PriorityFabric.Apply hiding perform
open PriorityFabric.Durability
open PriorityFabric.Store
open PriorityFabric.Runtime
open PriorityFabric.Runtime.FabricRuntime
open PriorityFabric.Readable
open PriorityFabric.ApplyFacts
open PriorityFabric.Committing
open PriorityFabric.Serving
open PriorityFabric.Calls

/-- Two images that agree on what commits change and recovery reproduces.  The audit
ring, the index, the limits and the health are left out. -/
structure SameRecord (a b : StateImage) : Prop where
  epoch : a.epoch = b.epoch
  generation : a.generation = b.generation
  nextFencingToken : a.nextFencingToken = b.nextFencingToken
  classes : a.classes = b.classes
  scopes : a.scopes = b.scopes
  policies : a.policies = b.policies
  subjects : a.subjects = b.subjects
  assignments : a.assignments = b.assignments
  authority : a.authority = b.authority

theorem SameRecord.refl (a : StateImage) : SameRecord a a :=
  ⟨rfl, rfl, rfl, rfl, rfl, rfl, rfl, rfl, rfl⟩

theorem SameRecord.trans {a b c : StateImage} (h : SameRecord a b) (h' : SameRecord b c) :
    SameRecord a c :=
  ⟨h.epoch.trans h'.epoch, h.generation.trans h'.generation,
    h.nextFencingToken.trans h'.nextFencingToken, h.classes.trans h'.classes,
    h.scopes.trans h'.scopes, h.policies.trans h'.policies, h.subjects.trans h'.subjects,
    h.assignments.trans h'.assignments, h.authority.trans h'.authority⟩

theorem sameRecord_recordAccepted (image : StateImage) (mutation : Mutation)
    (expected : Generation) : SameRecord (recordAccepted image mutation expected) image :=
  ⟨rfl, rfl, rfl, rfl, rfl, rfl, rfl, rfl, rfl⟩

theorem sameRecord_recordRejection (image : StateImage) (limits : Limits) (op : Bytes)
    (status : Status) (actor : Session) (now : UInt64) :
    SameRecord (recordRejection image limits op status actor now) image :=
  ⟨rfl, rfl, rfl, rfl, rfl, rfl, rfl, rfl, rfl⟩

theorem sameRecord_applyMutation_error {image image' : StateImage} {mutation : Mutation}
    {replay : Bool} {e : Status}
    (h : applyMutation image mutation replay = (.error e, image')) :
    SameRecord image' image := by
  rcases applyMutation_eq_error h with rfl | ⟨expected, rfl⟩
  · exact .refl _
  · exact sameRecord_recordAccepted image mutation expected

/-- What a commit does to the recorded state: nothing when it fails, the planned
mutation when it succeeds. -/
inductive CommitEffect (live : StateImage) (mutation : Mutation) :
    Result Unit × StoreState → Prop
  | refused (e : Status) (s : StoreState) (h : SameRecord s.live live) :
      CommitEffect live mutation (.error e, s)
  | applied (s : StoreState) (image : StateImage)
      (happly : applyMutation live (planOf live mutation) false = (.ok (), image))
      (h : SameRecord s.live image) : CommitEffect live mutation (.ok (), s)

theorem planCommit_eq_planOf {store : DurableStore} {live : StateImage}
    {mutation planned : Mutation} (h : planCommit store live mutation = .ok planned) :
    planned = planOf live mutation :=
  (planCommit_eq_ok_iff.mp h).planned_eq

theorem journalCommit_effect {s : StoreState} {mutation : Mutation} {store : DurableStore}
    (hplanned : Planned store s.live mutation (planOf s.live mutation)) :
    CommitEffect s.live mutation
      (journalCommit s (planOf s.live mutation) .complete .complete) := by
  by_cases hopen : s.store.segmentOpen = true
  · cases happly : applyMutation s.live (planOf s.live mutation) false with
    | mk status image =>
        cases status with
        | error e =>
            rw [journalCommit_stranded hopen happly]
            exact .refused e _ (sameRecord_applyMutation_error happly)
        | ok u =>
            rw [journalCommit_accepted hopen happly (generation_of_planned hplanned happly)]
            exact .applied _ image happly
              ⟨rfl, rfl, rfl, rfl, rfl, rfl, rfl, rfl, rfl⟩
  · have hclosed : s.store.segmentOpen = false := by simpa using hopen
    have hfail : ∃ e, journalCommit s (planOf s.live mutation) .complete .complete =
        (.error e, s) := by
      simp only [journalCommit, appendRecord, hclosed, if_true]
      exact ⟨_, rfl⟩
    obtain ⟨e, he⟩ := hfail
    rw [he]
    exact .refused e s (.refl _)

theorem commit_effect (s : StoreState) (mutation : Mutation) :
    CommitEffect s.live mutation (Store.commit s mutation) := by
  unfold Store.commit commitWriting
  cases hplan : planCommit s.store s.live mutation with
  | error e => exact .refused e s (.refl _)
  | ok planned =>
      obtain rfl := planCommit_eq_planOf hplan
      have hplanned := planCommit_eq_ok_iff.mp hplan
      cases hroll : rollSegmentIfNeeded s.dir s.store with
      | error e => exact .refused e s (.refl _)
      | ok rolled =>
          obtain ⟨dir, store⟩ := rolled
          exact journalCommit_effect (s := { s with dir, store }) hplanned

theorem commitMutation_effect (s : StoreState) (mutation : Mutation) :
    (∃ e s', commitMutation s mutation = (.error e, s') ∧ SameRecord s'.live s.live) ∨
      ∃ outcome s' image, commitMutation s mutation = (.ok outcome, s') ∧
        applyMutation s.live (planOf s.live mutation) false = (.ok (), image) ∧
        SameRecord s'.live image := by
  have heffect := commit_effect s mutation
  unfold commitMutation
  generalize Store.commit s mutation = result at heffect ⊢
  cases heffect with
  | refused e s' h => exact .inl ⟨e, s', rfl, h⟩
  | applied s' image happly h => exact .inr ⟨_, s', image, rfl, happly, h⟩

/-- One change of the recorded state under a runtime: none at all, a mutation that is
not a grant, or a grant under an established epoch. -/
inductive Move (a b : StateImage) : Prop
  | idle (h : SameRecord b a)
  | mutated (mutation : Mutation) (image : StateImage)
      (hop : mutation.op ≠ .grantAuthority)
      (happly : applyMutation a mutation false = (.ok (), image)) (h : SameRecord b image)
  | granted (mutation : Mutation) (image : StateImage) (hop : mutation.op = .grantAuthority)
      (hepoch : a.epoch.isEstablished = true)
      (happly : applyMutation a mutation false = (.ok (), image)) (h : SameRecord b image)

abbrev Moves := Relation.ReflTransGen Move

section Moves

variable {r : FabricRuntime} {α : Type}

theorem moves_of_same {a b : StateImage} (h : SameRecord b a) : Moves a b :=
  .single (.idle h)

theorem moves_commitMutation (s : StoreState) (mutation : Mutation)
    (hop : mutation.op ≠ .grantAuthority) :
    Moves s.live (commitMutation s mutation).2.live := by
  rcases commitMutation_effect s mutation with ⟨e, s', heq, h⟩ | ⟨outcome, s', image, heq,
    happly, h⟩
  · rw [heq]
    exact moves_of_same h
  · rw [heq]
    exact .single (.mutated (planOf s.live mutation) image hop happly h)

theorem moves_rejectCall (op : Bytes) (status : Status) (actor : Session) (now : UInt64) :
    Moves r.image (r.rejectCall (α := α) op status actor now).2.image :=
  moves_of_same (sameRecord_recordRejection r.image r.limits op status actor now)

theorem moves_publish (now : UInt64) (actor : Session) (op : Bytes) {mutation : Mutation}
    (hop : mutation.op ≠ .grantAuthority) (value : CommitOutcome → StateImage → α) :
    Moves r.image (r.publish now actor op mutation value).2.image := by
  have hcommit := moves_commitMutation r.state mutation hop
  unfold publish
  generalize commitMutation r.state mutation = result at hcommit ⊢
  obtain ⟨status, state⟩ := result
  cases status with
  | error e =>
      have hreject : Moves state.live
          ((r.withState state).rejectCall (α := α) op e actor now).2.image :=
        moves_rejectCall (r := r.withState state) op e actor now
      exact hcommit.trans hreject
  | ok outcome => exact hcommit

theorem moves_underSession (actor : Session) {body : Result α × FabricRuntime}
    (hbody : Moves r.image body.2.image) :
    Moves r.image (r.underSession actor body).2.image := by
  unfold underSession
  split
  · exact .refl
  · split
    · exact .refl
    · exact hbody

theorem moves_grant (r : FabricRuntime) (publisher : PublisherId) (boot : BootId)
    (now : UInt64) (hepoch : r.image.epoch.isEstablished = true) :
    Moves r.image (r.grant publisher boot now).2.image := by
  have hcommit := commitMutation_effect r.state { baseMutation
    (bootstrapSession r.image publisher boot) .grantAuthority
    (text "authority granted") now with system := true }
  unfold grant
  simp only
  rcases hcommit with ⟨e, s', heq, h⟩ | ⟨outcome, s', image, heq, happly, h⟩
  · rw [heq]
    exact moves_of_same h
  · have hmove : Moves r.image s'.live :=
      .single (.granted _ image rfl hepoch happly h)
    rw [heq]
    simp only
    split <;> exact hmove

theorem epoch_next_value {epoch epoch' : FabricEpoch} (h : epoch.next = some epoch') :
    epoch'.value.toNat = epoch.value.toNat + 1 := by
  unfold FabricEpoch.next at h
  split at h
  · cases h
  · rename_i hmax
    cases h
    have hlt := epoch.value.toNat_lt
    have hne : epoch.value.toNat ≠ 2 ^ 64 - 1 := by
      intro heq
      apply hmax
      rw [← UInt64.toNat_inj, heq]
      rfl
    rw [UInt64.toNat_add]
    simp only [UInt64.reduceToNat]
    omega

theorem isEstablished_of_next {epoch epoch' : FabricEpoch} (h : epoch.next = some epoch') :
    epoch'.isEstablished = true := by
  have hvalue := epoch_next_value h
  simp only [FabricEpoch.isEstablished, bne_iff_ne, ne_eq]
  intro hzero
  rw [hzero] at hvalue
  simp at hvalue

/-- The operations that change the epoch, the token counter or the authority table. -/
def governs : MutationOp → Bool
  | .grantAuthority | .fenceAuthority _ _ | .advanceEpoch => true
  | _ => false

/-- The generation the image holds for the entity an operation names. -/
def generationOf (image : StateImage) : MutationOp → Option Generation
  | .defineClass d => (image.classes[d.id]?).map (·.definition.generation)
  | .defineScope d => (image.scopes[d.id]?).map (·.definition.generation)
  | .definePolicy d => (image.policies[d.id]?).map (·.definition.generation)
  | .defineSubject d => (image.subjects[d.id]?).map (·.definition.generation)
  | .assign a => (image.assignments[a.id]?).map (·.assignment.generation)
  | .retireAssignment target => (image.assignments[target]?).map (·.assignment.generation)
  | .grantAuthority | .fenceAuthority _ _ | .advanceEpoch => none

theorem generationOf_congr {a b : StateImage} (h : SameRecord a b) (op : MutationOp) :
    generationOf a op = generationOf b op := by
  cases op <;>
    simp only [generationOf, h.classes, h.scopes, h.policies, h.subjects, h.assignments]

/-- What an application does to the epoch, the token counter and the authority
table. -/
inductive Governed (a : StateImage) (mutation : Mutation) (b : StateImage) : Prop
  | kept (hop : governs mutation.op = false) (hepoch : b.epoch = a.epoch)
      (htoken : b.nextFencingToken = a.nextFencingToken)
      (hauthority : b.authority = a.authority)
  | granted (provenance : Provenance) (hop : mutation.op = .grantAuthority)
      (hvalid : validateGrant a mutation = .ok ()) (hepoch : b.epoch = a.epoch)
      (hpositive : a.nextFencingToken ≠ 0)
      (hroom : a.nextFencingToken ≠ UInt64.ofNat (2 ^ 64 - 1))
      (htoken : b.nextFencingToken = a.nextFencingToken + 1)
      (hauthority : b.authority =
        (a.authority.map (supersede mutation.publisher mutation.boot)).insert
          ⟨mutation.publisher, mutation.boot⟩
          { publisher := mutation.publisher, boot := mutation.boot, epoch := a.epoch,
            token := ⟨a.nextFencingToken⟩, state := .granted, provenance })
  | fenced (publisher : PublisherId) (boot : BootId) (provenance : Provenance)
      (hop : mutation.op = .fenceAuthority publisher boot) (hepoch : b.epoch = a.epoch)
      (htoken : b.nextFencingToken = a.nextFencingToken)
      (hauthority : b.authority = (Apply.fenceAuthority a publisher boot provenance).authority)
  | advanced (epoch : FabricEpoch) (hop : mutation.op = .advanceEpoch)
      (hnext : a.epoch.next = some epoch) (hepoch : b.epoch = epoch)
      (htoken : b.nextFencingToken = a.nextFencingToken)
      (hauthority : b.authority = a.authority.map fun _ entry => expireStale epoch entry)

theorem applyMutation_governed {a b : StateImage} {mutation : Mutation} {replay : Bool}
    (h : applyMutation a mutation replay = (.ok (), b)) : Governed a mutation b := by
  obtain ⟨expected, hadmissible, happlied⟩ := applyMutation_eq_ok_iff.mp h
  cases happlied with
  | repeated hrepeated =>
      refine .kept ?_ rfl rfl rfl
      cases hop : mutation.op with
      | grantAuthority => simp [isIdempotent, hop] at hrepeated
      | fenceAuthority publisher boot => simp [isIdempotent, hop] at hrepeated
      | advanceEpoch => simp [isIdempotent, hop] at hrepeated
      | _ => rfl
  | performed hfresh hperform =>
      cases perform_eq_ok hperform with
      | «class» d entry hop hentry =>
          exact .kept (by rw [hop]; rfl) rfl rfl rfl
      | scope d entry hop hentry =>
          exact .kept (by rw [hop]; rfl) rfl rfl rfl
      | policy d entry hop hentry =>
          exact .kept (by rw [hop]; rfl) rfl rfl rfl
      | subject d entry hop hentry =>
          exact .kept (by rw [hop]; rfl) rfl rfl rfl
      | assign a' result hop hadmitted =>
          cases hadmitted <;> exact .kept (by rw [hop]; rfl) rfl rfl rfl
      | retire target entry generation hop hentry hnext =>
          exact .kept (by rw [hop]; rfl) rfl rfl rfl
      | grant hop hpositive hroom =>
          have hvalid := hadmissible.valid
          simp only [validateMutation, hop] at hvalid
          exact .granted _ hop hvalid rfl hpositive hroom rfl rfl
      | fence publisher boot hop => exact .fenced publisher boot _ hop rfl rfl rfl
      | advance epoch hop hnext => exact .advanced epoch hop hnext rfl rfl rfl

theorem established_after_advance {a b : StateImage} {mutation : Mutation} {replay : Bool}
    (hop : mutation.op = .advanceEpoch)
    (h : applyMutation a mutation replay = (.ok (), b)) :
    b.epoch.isEstablished = true := by
  cases applyMutation_governed h with
  | kept hkept =>
      rw [hop] at hkept
      cases hkept
  | granted provenance hgrant => simp [hop] at hgrant
  | fenced publisher boot provenance hfence => simp [hop] at hfence
  | advanced epoch hadvance hnext hepoch =>
      rw [hepoch]
      exact isEstablished_of_next hnext

theorem moves_takeOver (r : FabricRuntime) (publisher : PublisherId) (boot : BootId)
    (now : UInt64) : Moves r.image (r.takeOver publisher boot now).2.image := by
  unfold takeOver
  simp only
  split
  · generalize hmutation : ({ baseMutation (bootstrapSession r.image publisher boot)
      .advanceEpoch (if liveOtherIncarnation r.image publisher boot = true then
        text "publisher incarnation replaced" else text "fabric epoch established") now with
      system := true } : Mutation) = mutation
    have hop : mutation.op = .advanceEpoch := by
      rw [← hmutation]
      rfl
    rcases commitMutation_effect r.state mutation with ⟨e, s', heq, h⟩ | ⟨outcome, s', image,
      heq, happly, h⟩
    · rw [heq]
      exact moves_of_same h
    · have hplan : (planOf r.state.live mutation).op = .advanceEpoch := hop
      have hmove : Moves r.image s'.live :=
        .single (.mutated _ image (by rw [hplan]; simp) happly h)
      have hepoch : (r.withState s').image.epoch.isEstablished = true := by
        change s'.live.epoch.isEstablished = true
        rw [h.epoch]
        exact established_after_advance hplan happly
      rw [heq]
      exact hmove.trans (moves_grant (r.withState s') publisher boot now hepoch)
  · rename_i hcond
    rw [not_or] at hcond
    have hepoch : r.image.epoch.isEstablished = true := by simpa using hcond.1
    exact moves_grant r publisher boot now hepoch

theorem moves_grantAuthority (r : FabricRuntime) (now : UInt64) (publisher : PublisherId)
    (boot : BootId) : Moves r.image (r.grantAuthority now publisher boot).2.image := by
  unfold FabricRuntime.grantAuthority
  split
  · exact .refl
  · split
    · exact .refl
    · split
      · exact .refl
      · split
        · exact .refl
        · split
          · split
            · exact .refl
            · split
              · exact .refl
              · exact moves_takeOver r publisher boot now
          · split
            · exact .refl
            · exact moves_takeOver r publisher boot now

end Moves

theorem moves_perform (r : FabricRuntime) (now : UInt64) (call : Call) :
    Moves r.image (perform r now call).2.image := by
  cases call with
  | grantAuthority publisher boot =>
      rw [perform, snd_outcome]
      exact moves_grantAuthority r now publisher boot
  | advanceEpoch actor reason =>
      rw [perform, snd_outcome]
      exact moves_underSession actor (moves_publish _ _ _ (by simp [baseMutation]) _)
  | fence actor publisher boot reason =>
      rw [perform, snd_outcome, fence]
      split
      · exact .refl
      · split
        · exact .refl
        · split
          · exact .refl
          · exact moves_publish _ _ _ (by simp [baseMutation]) _
  | defineClass actor d =>
      rw [perform, snd_outcome]
      exact moves_underSession actor (moves_publish _ _ _ (by simp [baseMutation]) _)
  | defineScope actor d =>
      rw [perform, snd_outcome]
      exact moves_underSession actor (moves_publish _ _ _ (by simp [baseMutation]) _)
  | definePolicy actor d =>
      rw [perform, snd_outcome]
      refine moves_underSession actor ?_
      split
      · exact moves_rejectCall _ _ _ _
      · exact moves_publish _ _ _ (by simp [baseMutation]) _
  | defineSubject actor d =>
      rw [perform, snd_outcome]
      exact moves_underSession actor (moves_publish _ _ _ (by simp [baseMutation]) _)
  | assign actor a =>
      rw [perform, snd_outcome]
      refine moves_underSession actor ?_
      split
      · exact .refl
      · split
        · exact moves_rejectCall _ _ _ _
        · split
          · exact moves_rejectCall _ _ _ _
          · split
            · exact moves_rejectCall _ _ _ _
            · split
              · exact moves_publish _ _ _ (by simp [baseMutation]) _
              · split
                · exact moves_rejectCall _ _ _ _
                · exact moves_publish _ _ _ (by simp [baseMutation]) _
  | retireAssignment actor id reason =>
      rw [perform, snd_outcome]
      exact moves_underSession actor (moves_publish _ _ _ (by simp [baseMutation]) _)
  | integrityReport =>
      rw [perform, integrityReport]
      split
      · exact .refl
      · split <;> exact .refl
  | checkpoint =>
      rw [perform, snd_outcome, checkpointRuntime]
      split
      · exact .refl
      · have hlive := checkpoint_live r.state
        generalize Store.checkpoint r.state = result at hlive ⊢
        obtain ⟨status, state⟩ := result
        refine moves_of_same ?_
        change SameRecord state.live r.state.live
        rw [show state.live = r.state.live from hlive]
        exact .refl _
  | close =>
      rw [perform, close]
      split <;> exact .refl

/-- The new process starts from what was committed, every grant expired.  Its store,
its options and its audit ring may be any. -/
def Recovered (r r' : FabricRuntime) : Prop := SameRecord r'.image (normalizeImage r.image)

/-- One call, or one restart, which may advance the epoch. -/
inductive Step : FabricRuntime → FabricRuntime → Prop
  | call (r : FabricRuntime) (now : UInt64) (call : Call) : Step r (perform r now call).2
  | restart {r r' : FabricRuntime} (h : Recovered r r') : Step r r'
  | restartAdvancing {r r' r'' : FabricRuntime} {now : UInt64} {dir : Directory}
      (h : Recovered r r') (hadvance : advanceOnOpen r' now = (.ok r'', dir)) : Step r r''

abbrev Run := Relation.ReflTransGen Step

/-- A runtime over a state directory nothing was committed to. -/
def Fresh (r : FabricRuntime) : Prop := SameRecord r.image {}

theorem moves_advanceOnOpen {r r' : FabricRuntime} {now : UInt64} {dir : Directory}
    (h : advanceOnOpen r now = (.ok r', dir)) : Moves r.image r'.image := by
  have hmoves := moves_commitMutation r.state (epochOnOpen r.image now)
    (by simp [epochOnOpen])
  unfold advanceOnOpen at h
  generalize commitMutation r.state (epochOnOpen r.image now) = result at h hmoves
  obtain ⟨status, state⟩ := result
  cases status with
  | error e => cases h
  | ok outcome =>
      cases h
      exact hmoves

theorem Run.invariant {P : StateImage → Prop} {r r' : FabricRuntime} (hrun : Run r r')
    (hmove : ∀ a b, Move a b → P a → P b)
    (hrestart : ∀ a b, SameRecord b (normalizeImage a) → P a → P b) (h : P r.image) :
    P r'.image := by
  have hmoves (a b : StateImage) (hab : Moves a b) (ha : P a) : P b := by
    induction hab with
    | refl => exact ha
    | tail _ hstep ih => exact hmove _ _ hstep ih
  induction hrun with
  | refl => exact h
  | tail _ hstep ih =>
      cases hstep with
      | call now call => exact hmoves _ _ (moves_perform _ now call) ih
      | restart hrecovered => exact hrestart _ _ hrecovered ih
      | restartAdvancing hrecovered hadvance =>
          exact hmoves _ _ (moves_advanceOnOpen hadvance) (hrestart _ _ hrecovered ih)

end PriorityFabric.Lifetimes
