import PriorityFabric.Runtime
import PriorityFabric.CommitRuns

/-!
The runtime as a state machine.

Every call goes through a few steps of the store: commits, recorded refusals, a
checkpoint, a verification, closing.  What each step preserves, every call
preserves.
-/

namespace PriorityFabric.Calls

open PriorityFabric.Lib.LittleEndian
open PriorityFabric.Basics
open PriorityFabric.Ident
open PriorityFabric.Model
open PriorityFabric.State
open PriorityFabric.StateCodec
open PriorityFabric.Validate
open PriorityFabric.Apply
open PriorityFabric.Durability
open PriorityFabric.Store
open PriorityFabric.Runtime
open PriorityFabric.Runtime.FabricRuntime
open PriorityFabric.Readable
open PriorityFabric.ApplyFacts
open PriorityFabric.Committing
open PriorityFabric.Serving
open PriorityFabric.CommitRuns

/-- The calls a process can make on an open runtime. -/
inductive Call where
  | grantAuthority (publisher : PublisherId) (boot : BootId)
  | advanceEpoch (actor : Session) (reason : Bytes)
  | fence (actor : Session) (publisher : PublisherId) (boot : BootId) (reason : Bytes)
  | defineClass (actor : Session) (definition : PriorityClassDef)
  | defineScope (actor : Session) (definition : PolicyScopeDef)
  | definePolicy (actor : Session) (definition : PolicyDef)
  | defineSubject (actor : Session) (definition : SubjectDef)
  | assign (actor : Session) (assignment : PriorityAssignment)
  | retireAssignment (actor : Session) (id : PriorityAssignmentId) (reason : Bytes)
  | integrityReport
  | checkpoint
  | close

/-- Whether a call was refused, and the runtime it leaves. -/
def outcome {α : Type} : Result α × FabricRuntime → Option Status × FabricRuntime
  | (.error e, r) => (some e, r)
  | (.ok _, r) => (none, r)

def perform (r : FabricRuntime) (now : UInt64) : Call → Option Status × FabricRuntime
  | .grantAuthority publisher boot => outcome (r.grantAuthority now publisher boot)
  | .advanceEpoch actor reason => outcome (r.advanceEpoch now actor reason)
  | .fence actor publisher boot reason => outcome (r.fence now actor publisher boot reason)
  | .defineClass actor d => outcome (r.defineClass now actor d)
  | .defineScope actor d => outcome (r.defineScope now actor d)
  | .definePolicy actor d => outcome (r.definePolicy now actor d)
  | .defineSubject actor d => outcome (r.defineSubject now actor d)
  | .assign actor a => outcome (r.assign now actor a)
  | .retireAssignment actor id reason => outcome (r.retireAssignment now actor id reason)
  | .integrityReport => (none, r.integrityReport.2)
  | .checkpoint => outcome r.checkpointRuntime
  | .close => (none, r.close)

def closedStore (store : DurableStore) : DurableStore :=
  { store with segmentOpen := false, isOpen := false, durableBytes := 0, journalRecords := 0 }

/-- One step of the store under a runtime. -/
inductive StoreStep : StoreState → StoreState → Prop
  | commit (s : StoreState) (mutation : Mutation) : StoreStep s (Store.commit s mutation).2
  | reject (s : StoreState) (op : Bytes) (status : Status) (actor : Session) (now : UInt64)
      (hop : op.length ≤ 64) :
      StoreStep s { s with
        live := recordRejection s.live s.store.options.limits op status actor now }
  | checkpoint (s : StoreState) : StoreStep s (Store.checkpoint s).2
  | verify (s : StoreState) (report : IntegrityReport) (dir : Directory)
      (h : Store.verify s = .ok (report, dir)) : StoreStep s { s with dir }
  | close (s : StoreState) : StoreStep s { s with store := closedStore s.store }

abbrev StoreSteps := Relation.ReflTransGen StoreStep

theorem checkpoint_options (s : StoreState) :
    (Store.checkpoint s).2.store.options = s.store.options := by
  unfold Store.checkpoint
  split
  · rfl
  · simp only
    split <;> rfl

theorem StoreStep.options {s s' : StoreState} (h : StoreStep s s') :
    s'.store.options = s.store.options := by
  cases h with
  | commit mutation => exact commitWriting_options s mutation _ _
  | reject op status actor now hop => rfl
  | checkpoint => exact checkpoint_options s
  | verify report dir hverify => rfl
  | close => rfl

theorem StoreSteps.options {s s' : StoreState} (h : StoreSteps s s') :
    s'.store.options = s.store.options := by
  induction h with
  | refl => rfl
  | tail _ hstep ih => rw [hstep.options, ih]

/-- A call leads from one runtime to another by steps of the store. -/
structure Leads (r r' : FabricRuntime) : Prop where
  steps : StoreSteps r.state r'.state
  limits : r'.limits = r.limits

theorem Leads.refl (r : FabricRuntime) : Leads r r := ⟨.refl, rfl⟩

theorem Leads.trans {r r' r'' : FabricRuntime} (h : Leads r r') (h' : Leads r' r'') :
    Leads r r'' :=
  ⟨h.steps.trans h'.steps, h'.limits.trans h.limits⟩

/-- The limits of the runtime are those of its store. -/
def SameLimits (r : FabricRuntime) : Prop := r.limits = r.state.store.options.limits

theorem SameLimits.of_leads {r r' : FabricRuntime} (h : SameLimits r) (hleads : Leads r r') :
    SameLimits r' := by
  unfold SameLimits
  rw [hleads.limits, StoreSteps.options hleads.steps]
  exact h

section Steps

variable {r : FabricRuntime} {α : Type}

theorem commitMutation_state (s : StoreState) (mutation : Mutation) :
    (commitMutation s mutation).2 = (Store.commit s mutation).2 := by
  unfold commitMutation
  simp only
  split
  · rename_i h
    rw [h]
  · rename_i h
    rw [h]

theorem leads_commit (r : FabricRuntime) (mutation : Mutation) :
    Leads r (r.withState (commitMutation r.state mutation).2) := by
  refine ⟨?_, rfl⟩
  change StoreSteps r.state (commitMutation r.state mutation).2
  rw [commitMutation_state]
  exact .single (.commit r.state mutation)

theorem leads_rejectCall (hlimits : SameLimits r) {op : Bytes} (hop : op.length ≤ 64)
    (status : Status) (actor : Session) (now : UInt64) :
    Leads r (r.rejectCall (α := α) op status actor now).2 := by
  refine ⟨?_, rfl⟩
  change StoreSteps r.state { r.state with
    live := recordRejection r.state.live r.limits op status actor now }
  rw [show r.limits = r.state.store.options.limits from hlimits]
  exact .single (.reject r.state op status actor now hop)

theorem leads_publish (hlimits : SameLimits r) {op : Bytes} (hop : op.length ≤ 64)
    (now : UInt64) (actor : Session) (mutation : Mutation)
    (value : CommitOutcome → StateImage → α) :
    Leads r (r.publish now actor op mutation value).2 := by
  have hcommit := leads_commit r mutation
  unfold publish
  generalize commitMutation r.state mutation = result at hcommit ⊢
  obtain ⟨status, state⟩ := result
  cases status with
  | error e =>
      exact hcommit.trans (leads_rejectCall (hlimits.of_leads hcommit) hop e actor now)
  | ok outcome => exact hcommit

theorem leads_underSession (actor : Session) {body : Result α × FabricRuntime}
    (hbody : Leads r body.2) : Leads r (r.underSession actor body).2 := by
  unfold underSession
  split
  · exact .refl r
  · split
    · exact .refl r
    · exact hbody

theorem leads_grant (r : FabricRuntime) (publisher : PublisherId) (boot : BootId)
    (now : UInt64) : Leads r (r.grant publisher boot now).2 := by
  have hcommit := leads_commit r { baseMutation
    (bootstrapSession r.image publisher boot) .grantAuthority
    (text "authority granted") now with system := true }
  unfold grant
  simp only
  generalize commitMutation r.state { baseMutation
    (bootstrapSession r.image publisher boot) .grantAuthority
    (text "authority granted") now with system := true } = result at hcommit ⊢
  obtain ⟨status, state⟩ := result
  cases status with
  | error e => exact hcommit
  | ok outcome =>
      simp only
      split <;> exact hcommit

theorem leads_takeOver (r : FabricRuntime) (publisher : PublisherId) (boot : BootId)
    (now : UInt64) : Leads r (r.takeOver publisher boot now).2 := by
  unfold takeOver
  simp only
  split
  · generalize hmutation : ({ baseMutation (bootstrapSession r.image publisher boot)
      .advanceEpoch (if liveOtherIncarnation r.image publisher boot = true then
        text "publisher incarnation replaced" else text "fabric epoch established") now with
      system := true } : Mutation) = mutation
    have hcommit := leads_commit r mutation
    generalize commitMutation r.state mutation = result at hcommit ⊢
    obtain ⟨status, state⟩ := result
    cases status with
    | error e => exact hcommit
    | ok outcome => exact hcommit.trans (leads_grant _ publisher boot now)
  · exact leads_grant r publisher boot now

theorem leads_grantAuthority (r : FabricRuntime) (now : UInt64) (publisher : PublisherId)
    (boot : BootId) : Leads r (r.grantAuthority now publisher boot).2 := by
  unfold FabricRuntime.grantAuthority
  split
  · exact .refl r
  · split
    · exact .refl r
    · split
      · exact .refl r
      · split
        · exact .refl r
        · split
          · split
            · exact .refl r
            · split
              · exact .refl r
              · exact leads_takeOver r publisher boot now
          · split
            · exact .refl r
            · exact leads_takeOver r publisher boot now

theorem leads_assign (hlimits : SameLimits r) (now : UInt64) (actor : Session)
    (a : PriorityAssignment) : Leads r (r.assign now actor a).2 := by
  have hop : (text "assign").length ≤ 64 := by decide
  refine leads_underSession actor ?_
  split
  · exact .refl r
  · split
    · exact leads_rejectCall hlimits hop _ _ _
    · split
      · exact leads_rejectCall hlimits hop _ _ _
      · split
        · exact leads_rejectCall hlimits hop _ _ _
        · split
          · exact leads_publish hlimits hop _ _ _ _
          · split
            · exact leads_rejectCall hlimits hop _ _ _
            · exact leads_publish hlimits hop _ _ _ _

end Steps

theorem snd_outcome {α : Type} (result : Result α × FabricRuntime) :
    (outcome result).2 = result.2 := by
  obtain ⟨status, r⟩ := result
  cases status <;> rfl

theorem leads_perform {r : FabricRuntime} (hlimits : SameLimits r) (now : UInt64)
    (call : Call) : Leads r (perform r now call).2 := by
  cases call with
  | grantAuthority publisher boot =>
      rw [perform, snd_outcome]
      exact leads_grantAuthority r now publisher boot
  | advanceEpoch actor reason =>
      rw [perform, snd_outcome]
      exact leads_underSession actor (leads_publish hlimits (by decide) _ _ _ _)
  | fence actor publisher boot reason =>
      rw [perform, snd_outcome, fence]
      split
      · exact .refl r
      · split
        · exact .refl r
        · split
          · exact .refl r
          · exact leads_publish hlimits (by decide) _ _ _ _
  | defineClass actor d =>
      rw [perform, snd_outcome]
      exact leads_underSession actor (leads_publish hlimits (by decide) _ _ _ _)
  | defineScope actor d =>
      rw [perform, snd_outcome]
      exact leads_underSession actor (leads_publish hlimits (by decide) _ _ _ _)
  | definePolicy actor d =>
      rw [perform, snd_outcome]
      refine leads_underSession actor ?_
      split
      · exact leads_rejectCall hlimits (by decide) _ _ _
      · exact leads_publish hlimits (by decide) _ _ _ _
  | defineSubject actor d =>
      rw [perform, snd_outcome]
      exact leads_underSession actor (leads_publish hlimits (by decide) _ _ _ _)
  | assign actor a =>
      rw [perform, snd_outcome]
      exact leads_assign hlimits now actor a
  | retireAssignment actor id reason =>
      rw [perform, snd_outcome]
      exact leads_underSession actor (leads_publish hlimits (by decide) _ _ _ _)
  | integrityReport =>
      rw [perform, integrityReport]
      split
      · exact .refl r
      · split
        · exact .refl r
        · rename_i report dir hverify
          exact ⟨.single (.verify r.state report dir hverify), rfl⟩
  | checkpoint =>
      rw [perform, snd_outcome, checkpointRuntime]
      split
      · exact .refl r
      · exact ⟨.single (.checkpoint r.state), rfl⟩
  | close =>
      rw [perform, close]
      split
      · exact .refl r
      · exact ⟨.single (.close r.state), rfl⟩

/-- The states a store goes through under a runtime: from any directory the
runtime opens, by any number of steps. -/
inductive Reached : StoreState → Prop
  | opened {dir : Directory} {options : RuntimeOptions}
      {entropy : List.Vector UInt8 storeKeyBytes} {opened : Opened}
      (h : openStore dir options.store entropy = .ok opened) :
      Reached (startRuntime options opened).state
  | step {s s' : StoreState} (h : Reached s) (hstep : StoreStep s s') : Reached s'

theorem Reached.steps {s s' : StoreState} (h : Reached s) (hsteps : StoreSteps s s') :
    Reached s' := by
  induction hsteps with
  | refl => exact h
  | tail _ hstep ih => exact .step ih hstep

theorem openStore_options {dir : Directory} {options : Options}
    {entropy : List.Vector UInt8 storeKeyBytes} {opened : Opened}
    (h : openStore dir options entropy = .ok opened) :
    limitsWithinCompiledCeiling options.limits = true ∧ opened.store.options = options := by
  simp only [openStore, bind_eq_ok, failIf_eq_ok, exists_const, Bool.not_eq_false] at h
  obtain ⟨hlimits, hopened⟩ := h
  refine ⟨hlimits, ?_⟩
  split at hopened
  · simp only [createStore, bind_eq_ok, failIf_eq_ok, exists_const, pure, Except.pure,
      Except.ok.injEq] at hopened
    obtain ⟨-, -, found, -, rfl⟩ := hopened
    rfl
  · simp only [resumeStore, bind_eq_ok, pure, Except.pure, Except.ok.injEq] at hopened
    obtain ⟨key, -, replayed, -, rfl⟩ := hopened
    rfl

/-- A runtime that was opened and called any number of times. -/
inductive Reachable : FabricRuntime → Prop
  | opened {dir dir' : Directory} {options : RuntimeOptions}
      {entropy : List.Vector UInt8 storeKeyBytes} {now : UInt64} {r : FabricRuntime}
      (h : openRuntime dir options entropy now = (.ok r, dir')) : Reachable r
  | called {r : FabricRuntime} (h : Reachable r) (now : UInt64) (call : Call) :
      Reachable (perform r now call).2

theorem openRuntime_reached {dir dir' : Directory} {options : RuntimeOptions}
    {entropy : List.Vector UInt8 storeKeyBytes} {now : UInt64} {r : FabricRuntime}
    (h : openRuntime dir options entropy now = (.ok r, dir')) :
    Reached r.state ∧ SameLimits r := by
  unfold openRuntime at h
  split at h
  · cases h
  · split at h
    · cases h
    · rename_i opened hopen
      split at h
      · cases h
      · have hstart : SameLimits (startRuntime options opened) := by
          obtain ⟨-, hoptions⟩ := openStore_options hopen
          change options.limits = opened.store.options.limits
          rw [hoptions]
          rfl
        simp only at h
        split at h
        · have hcommit := leads_commit (startRuntime options opened)
            (epochOnOpen (startRuntime options opened).image now)
          unfold advanceOnOpen at h
          generalize commitMutation (startRuntime options opened).state
            (epochOnOpen (startRuntime options opened).image now) = result at h hcommit
          obtain ⟨status, state⟩ := result
          cases status with
          | error e => cases h
          | ok committed =>
              cases h
              exact ⟨(Reached.opened hopen).steps hcommit.steps, hstart.of_leads hcommit⟩
        · cases h
          exact ⟨.opened hopen, hstart⟩

theorem Reachable.reached {r : FabricRuntime} (h : Reachable r) :
    Reached r.state ∧ SameLimits r := by
  induction h with
  | opened hopen => exact openRuntime_reached hopen
  | called h now call ih =>
      obtain ⟨hreached, hlimits⟩ := ih
      have hleads := leads_perform hlimits now call
      exact ⟨hreached.steps hleads.steps, hlimits.of_leads hleads⟩

/-- The limits are admissible, and the image is held to them. -/
structure Configured (s : StoreState) : Prop where
  admissible : limitsWithinCompiledCeiling s.store.options.limits = true
  limits : s.live.limits = s.store.options.limits

theorem applyMutation_limits (image : StateImage) (mutation : Mutation) (replay : Bool) :
    (applyMutation image mutation replay).2.limits = image.limits := by
  cases happly : applyMutation image mutation replay with
  | mk status image' =>
      cases status with
      | ok u => exact (applyMutation_frame happly).limits
      | error e =>
          rcases applyMutation_eq_error happly with rfl | ⟨expected, rfl⟩ <;> rfl

theorem journalCommit_limits (s : StoreState) (planned : Mutation)
    (pendingWrite commitWrite : WriteOutcome) :
    (journalCommit s planned pendingWrite commitWrite).2.live.limits = s.live.limits := by
  have happly := applyMutation_limits s.live planned false
  simp only [journalCommit]
  generalize applyMutation s.live planned false = applied at happly ⊢
  obtain ⟨applyStatus, live⟩ := applied
  split
  · rfl
  · cases applyStatus with
    | error e => exact happly
    | ok u =>
        simp only
        split
        · exact happly
        · split <;> exact happly

theorem commitWriting_limits (s : StoreState) (mutation : Mutation)
    (pendingWrite commitWrite : WriteOutcome) :
    (commitWriting s mutation pendingWrite commitWrite).2.live.limits = s.live.limits := by
  unfold commitWriting
  cases planCommit s.store s.live mutation with
  | error e => rfl
  | ok planned =>
      cases rollSegmentIfNeeded s.dir s.store with
      | error e => rfl
      | ok rolled =>
          obtain ⟨dir, store⟩ := rolled
          exact journalCommit_limits _ _ _ _

theorem checkpoint_live (s : StoreState) : (Store.checkpoint s).2.live = s.live := by
  unfold Store.checkpoint
  split
  · rfl
  · simp only
    split <;> rfl

theorem Configured.step {s s' : StoreState} (h : Configured s) (hstep : StoreStep s s') :
    Configured s' := by
  refine ⟨by rw [hstep.options]; exact h.admissible, ?_⟩
  rw [hstep.options, ← h.limits]
  cases hstep with
  | commit mutation => exact commitWriting_limits s mutation _ _
  | reject op status actor now hop => rfl
  | checkpoint => rw [checkpoint_live]
  | verify report dir hverify => rfl
  | close => rfl

theorem Reached.configured {s : StoreState} (h : Reached s) : Configured s := by
  induction h with
  | opened hopen =>
      obtain ⟨hlimits, hoptions⟩ := openStore_options hopen
      refine ⟨?_, ?_⟩
      · simp only [startRuntime, hoptions]
        exact hlimits
      · simp only [startRuntime, hoptions]
        rfl
  | step h hstep ih => exact ih.step hstep

def performAll (r : FabricRuntime) (calls : List (UInt64 × Call)) : FabricRuntime :=
  calls.foldl (fun r call => (perform r call.1 call.2).2) r

theorem reachable_performAll {r : FabricRuntime} (h : Reachable r)
    (calls : List (UInt64 × Call)) : Reachable (performAll r calls) := by
  induction calls generalizing r with
  | nil => exact h
  | cons call rest ih => exact ih (.called h call.1 call.2)

def someBoot : BootId := ⟨List.Vector.replicate 16 1⟩

def otherBoot : BootId := ⟨List.Vector.replicate 16 2⟩

def firstSession : Session := ⟨somePublisher, someBoot, ⟨1⟩, ⟨1⟩⟩

/-- The first grant, and a class defined under it. -/
def classCalls : List (UInt64 × Call) :=
  [(0, .grantAuthority somePublisher someBoot),
    (0, .defineClass firstSession { id := ⟨[97], wellFormed_a⟩, precedence := .make 7 })]

end PriorityFabric.Calls
