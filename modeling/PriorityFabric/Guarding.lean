import PriorityFabric.Node
import PriorityFabric.Checkpoints

/-!
Which requests a node refuses without touching anything when their session is not live.

Requests that publish something reach the authority check, but only after the mutation was
journaled; the other requests never look at their session.
-/

namespace PriorityFabric.Guarding

open PriorityFabric.Lib.LittleEndian
open PriorityFabric.Lib.KeyedTable (getElem?_insert_of_ne)
open PriorityFabric.Basics
open PriorityFabric.Ident
open PriorityFabric.Model
open PriorityFabric.ModelCodec
open PriorityFabric.QueryCodec
open PriorityFabric.State
open PriorityFabric.StateCodec
open PriorityFabric.Apply
open PriorityFabric.ApplyFacts
open PriorityFabric.Readable
open PriorityFabric.Durability
open PriorityFabric.Store
open PriorityFabric.StateDirectory
open PriorityFabric.JournalScan
open PriorityFabric.Committing
open PriorityFabric.Serving
open PriorityFabric.Runtime
open PriorityFabric.Runtime.FabricRuntime
open PriorityFabric.CommitRuns
open PriorityFabric.Calls
open PriorityFabric.Checkpoints
open PriorityFabric.Lifetimes
open PriorityFabric.Authority
open PriorityFabric.Wire
open PriorityFabric.Node
open PriorityFabric.Node.FabricNode

/-- A call under a usable session of an open runtime. -/
def held (r : FabricRuntime) (actor : Session) (mutation : Option Mutation) : Option Mutation :=
  if sessionShapeValid actor = false then none
  else if r.closed then none
  else mutation

/-- The generation a named policy has; an assignment that names none carries none. -/
def policyGenerationOf (image : StateImage) : Option PolicyId → Option Generation
  | none => some .unset
  | some policy => (image.policies[policy]?).map (·.definition.generation)

/-- The assignment with the generations of what it names, when all of it is defined. -/
def stamped (image : StateImage) (a : PriorityAssignment) : Option PriorityAssignment :=
  if a.kind = .default then none
  else do
    let subject ← image.subjects[a.subject]?
    let scope ← image.scopes[a.scope]?
    let cls ← image.classes[a.cls]?
    let policyGeneration ← policyGenerationOf image a.policy
    return { a with
      generation := .unset
      subjectGeneration := subject.definition.generation
      scopeGeneration := scope.definition.generation
      classGeneration := cls.definition.generation
      policyGeneration }

/-- The mutation a call commits, unless it is refused before that. -/
def publishes (r : FabricRuntime) (now : UInt64) : Call → Option Mutation
  | .advanceEpoch actor reason => held r actor (some (baseMutation actor .advanceEpoch
      (if reason.isEmpty then text "epoch advanced" else reason) now))
  | .fence actor publisher boot reason =>
      if publisher.valid = false ∨ boot.valid = false then none
      else held r actor (some (baseMutation actor (.fenceAuthority publisher boot)
        (if reason.isEmpty then text "fenced" else reason) now))
  | .defineClass actor d => held r actor (some (baseMutation actor
      (.defineClass { d with generation := .unset }) (text "define class") now))
  | .defineScope actor d => held r actor (some (baseMutation actor
      (.defineScope { d with generation := .unset }) (text "define scope") now))
  | .definePolicy actor d => held r actor ((r.image.scopes[d.scope]?).map fun scope =>
      baseMutation actor (.definePolicy { d with
        generation := .unset, scopeGeneration := scope.definition.generation })
        (text "define policy") now)
  | .defineSubject actor d => held r actor (some (baseMutation actor
      (.defineSubject { d with generation := .unset }) (text "define subject") now))
  | .assign actor a => held r actor ((stamped r.image a).map fun a =>
      baseMutation actor (.assign a) (text "assign") now)
  | .retireAssignment actor id reason => held r actor (some (baseMutation actor
      (.retireAssignment id) (if reason.isEmpty then text "retired" else reason) now))
  | .grantAuthority _ _ | .integrityReport | .checkpoint | .close => none

/-- The files after a call that is refused or commits this mutation. -/
def filesAfter (r : FabricRuntime) : Option Mutation → Directory
  | none => r.state.dir
  | some mutation => (Store.commit r.state mutation).2.dir

section Files

variable {r : FabricRuntime} {α : Type} {actor : Session}

theorem dir_publish (now : UInt64) (op : Bytes) (mutation : Mutation)
    (value : CommitOutcome → StateImage → α) :
    (r.publish now actor op mutation value).2.state.dir =
      (Store.commit r.state mutation).2.dir := by
  unfold publish
  rw [← commitMutation_state]
  generalize commitMutation r.state mutation = result
  obtain ⟨status, state⟩ := result
  cases status with
  | error e => rfl
  | ok outcome => rfl

theorem dir_underSession {body : Result α × FabricRuntime} {mutation : Option Mutation}
    (h : body.2.state.dir = filesAfter r mutation) :
    (r.underSession actor body).2.state.dir = filesAfter r (held r actor mutation) := by
  unfold underSession held
  split
  · rfl
  · split
    · rfl
    · exact h

theorem dir_assign (now : UInt64) (a : PriorityAssignment) :
    (r.assign now actor a).2.state.dir = filesAfter r (publishes r now (.assign actor a)) := by
  refine dir_underSession ?_
  unfold stamped
  split
  · rfl
  · cases hsubject : r.image.subjects[a.subject]? with
    | none => rfl
    | some subject =>
        cases hscope : r.image.scopes[a.scope]? with
        | none => rfl
        | some scope =>
            cases hcls : r.image.classes[a.cls]? with
            | none => rfl
            | some cls =>
                cases hpolicy : a.policy with
                | none => exact dir_publish _ _ _ _
                | some policy =>
                    cases hentry : r.image.policies[policy]? with
                    | none => simp [policyGenerationOf, hentry, filesAfter, rejectUndefined,
                        rejectCall, withState]
                    | some entry =>
                        simp only [policyGenerationOf, hentry]
                        exact dir_publish _ _ _ _

theorem dir_perform {call : Call} (hactor : actorOf call = some actor) (now : UInt64) :
    (Calls.perform r now call).2.state.dir = filesAfter r (publishes r now call) := by
  cases call with
  | grantAuthority publisher boot => cases hactor
  | integrityReport => cases hactor
  | checkpoint => cases hactor
  | close => cases hactor
  | advanceEpoch actor reason =>
      rw [Calls.perform, snd_outcome]
      exact dir_underSession (dir_publish _ _ _ _)
  | fence actor publisher boot reason =>
      rw [Calls.perform, snd_outcome, publishes]
      unfold FabricRuntime.fence held
      split
      · split <;> rfl
      · split
        · rfl
        · split
          · rfl
          · exact dir_publish _ _ _ _
  | defineClass actor d =>
      rw [Calls.perform, snd_outcome]
      exact dir_underSession (dir_publish _ _ _ _)
  | defineScope actor d =>
      rw [Calls.perform, snd_outcome]
      exact dir_underSession (dir_publish _ _ _ _)
  | definePolicy actor d =>
      rw [Calls.perform, snd_outcome]
      refine dir_underSession ?_
      cases hscope : r.image.scopes[d.scope]? with
      | none => rfl
      | some scope => exact dir_publish _ _ _ _
  | defineSubject actor d =>
      rw [Calls.perform, snd_outcome]
      exact dir_underSession (dir_publish _ _ _ _)
  | assign actor a =>
      rw [Calls.perform, snd_outcome]
      exact dir_assign now a
  | retireAssignment actor id reason =>
      rw [Calls.perform, snd_outcome]
      exact dir_underSession (dir_publish _ _ _ _)

end Files

/-- Every check before the first write passes, and the journal takes the record. -/
def Journals (s : StoreState) (mutation : Mutation) : Prop :=
  (∃ planned, planCommit s.store s.live mutation = .ok planned) ∧
    (s.store.segmentBytes < segmentRollBytes ∧ s.store.segmentOpen = true ∨
      segmentRollBytes ≤ s.store.segmentBytes ∧
        (s.store.segmentIndex + 1) % 2 ^ 32 < s.store.options.limits.maxJournalSegments)

theorem getD_openAppend (dir : Directory) (name : Bytes) :
    (openAppend dir name).getD name [] = dir.getD name [] := by
  by_cases h : name ∈ dir
  · rw [openAppend_of_mem h]
  · rw [openAppend_of_not_mem h, Std.ExtTreeMap.getD_insert_self, Std.ExtTreeMap.getD_eq_fallback h]

theorem appendBytes_ne {dir dir' : Directory} {store : DurableStore} {bytes : Bytes}
    (hsame : dir'.getD (journalSegmentName store.segmentIndex) [] =
      dir.getD (journalSegmentName store.segmentIndex) []) (hbytes : bytes ≠ []) :
    appendBytes dir' store bytes ≠ dir := by
  intro heq
  have hget := congrArg (·.getD (journalSegmentName store.segmentIndex) []) heq
  simp only [appendBytes, Std.ExtTreeMap.getD_insert_self, hsame] at hget
  exact hbytes (List.append_right_eq_self.mp hget)

section Commit

variable {s : StoreState} {mutation : Mutation}

theorem dir_stranded_ne {dir : Directory} {live : StateImage} (planned : Mutation)
    (hsame : s.dir.getD (journalSegmentName s.store.segmentIndex) [] =
      dir.getD (journalSegmentName s.store.segmentIndex) []) :
    (stranded s planned live).dir ≠ dir := by
  refine appendBytes_ne hsame ?_
  intro hempty
  have hlength := congrArg List.length hempty
  simp [journalBytes, length_encodeJournalRecord] at hlength

/-- A mutation that will not be applied leaves the files alone if and only if it is refused
before it is journaled. -/
theorem commit_dir_iff
    (hrefused : ∀ image, applyMutation s.live (planOf s.live mutation) false ≠ (.ok (), image)) :
    (Store.commit s mutation).2.dir = s.dir ↔ ¬ Journals s mutation := by
  have hstranded {t : StoreState} (hlive : t.live = s.live) (hopen : t.store.segmentOpen = true)
      (hsame : t.dir.getD (journalSegmentName t.store.segmentIndex) [] =
        s.dir.getD (journalSegmentName t.store.segmentIndex) []) :
      (journalCommit t (planOf s.live mutation) .complete .complete).2.dir ≠ s.dir := by
    cases happly : applyMutation t.live (planOf s.live mutation) false with
    | mk status image =>
        cases status with
        | ok u =>
            rw [hlive] at happly
            exact absurd happly (hrefused image)
        | error e =>
            rw [journalCommit_stranded hopen happly]
            exact dir_stranded_ne _ hsame
  unfold Store.commit commitWriting
  cases hplan : planCommit s.store s.live mutation with
  | error e =>
      simp [Journals, hplan]
  | ok planned =>
      obtain rfl := planCommit_eq_planOf hplan
      unfold rollSegmentIfNeeded
      by_cases hroll : s.store.segmentBytes < segmentRollBytes
      · rw [if_pos hroll]
        by_cases hopen : s.store.segmentOpen = true
        · refine iff_of_false (hstranded rfl hopen rfl) ?_
          simp only [not_not]
          exact ⟨⟨_, hplan⟩, .inl ⟨hroll, hopen⟩⟩
        · have hclosed : s.store.segmentOpen = false := by simpa using hopen
          refine iff_of_true ?_ ?_
          · simp [journalCommit, appendRecord, hclosed]
          · rintro ⟨-, ⟨-, h⟩ | ⟨h, -⟩⟩
            · exact hopen h
            · omega
      · rw [if_neg hroll]
        by_cases hroom : (s.store.segmentIndex + 1) % 2 ^ 32 <
            s.store.options.limits.maxJournalSegments
        · refine iff_of_false ?_ ?_
          · simp only [failIf, ge_iff_le, not_le.mpr hroom, if_false, bind, Except.bind, pure,
              Except.pure]
            exact hstranded rfl rfl (getD_openAppend _ _)
          · simp only [not_not]
            exact ⟨⟨_, hplan⟩, .inr ⟨by omega, hroom⟩⟩
        · refine iff_of_true ?_ ?_
          · simp only [failIf, ge_iff_le, not_lt.mp hroom, if_true, bind, Except.bind]
          · rintro ⟨-, ⟨h, -⟩ | ⟨-, h⟩⟩
            · exact hroll h
            · exact hroom h

end Commit

section Calls

variable {r : FabricRuntime} {actor : Session} {now : UInt64} {call : Call} {mutation : Mutation}

theorem held_eq_some {found : Option Mutation} (h : held r actor found = some mutation) :
    found = some mutation := by
  unfold held at h
  split at h
  · cases h
  · split at h
    · cases h
    · exact h

theorem publishes_base (hactor : actorOf call = some actor)
    (h : publishes r now call = some mutation) :
    ∃ op reason, mutation = baseMutation actor op reason now := by
  cases call with
  | grantAuthority publisher boot => cases hactor
  | integrityReport => cases hactor
  | checkpoint => cases hactor
  | close => cases hactor
  | advanceEpoch actor reason =>
      cases hactor
      cases held_eq_some h
      exact ⟨_, _, rfl⟩
  | fence actor publisher boot reason =>
      cases hactor
      rw [publishes] at h
      split at h
      · cases h
      · cases held_eq_some h
        exact ⟨_, _, rfl⟩
  | defineClass actor d =>
      cases hactor
      cases held_eq_some h
      exact ⟨_, _, rfl⟩
  | defineScope actor d =>
      cases hactor
      cases held_eq_some h
      exact ⟨_, _, rfl⟩
  | definePolicy actor d =>
      cases hactor
      obtain ⟨scope, -, rfl⟩ := Option.map_eq_some_iff.mp (held_eq_some h)
      exact ⟨_, _, rfl⟩
  | defineSubject actor d =>
      cases hactor
      cases held_eq_some h
      exact ⟨_, _, rfl⟩
  | assign actor a =>
      cases hactor
      obtain ⟨a, -, rfl⟩ := Option.map_eq_some_iff.mp (held_eq_some h)
      exact ⟨_, _, rfl⟩
  | retireAssignment actor id reason =>
      cases hactor
      cases held_eq_some h
      exact ⟨_, _, rfl⟩

theorem not_applied_of_not_current (hcurrent : ¬ Current r.image actor) (op : MutationOp)
    (reason : Bytes) (image : StateImage) :
    applyMutation r.state.live (planOf r.state.live (baseMutation actor op reason now)) false ≠
      (.ok (), image) := by
  intro happly
  obtain ⟨expected, hadmissible, -⟩ := applyMutation_eq_ok_iff.mp happly
  exact hcurrent (current_of_checkAuthority (hadmissible.authorized rfl rfl))

/-- A call under a session that is not current leaves the files alone if and only if it
does not get as far as the journal. -/
theorem perform_dir_iff (hactor : actorOf call = some actor)
    (hcurrent : ¬ Current r.image actor) :
    (Calls.perform r now call).2.state.dir = r.state.dir ↔
      ∀ mutation, publishes r now call = some mutation → ¬ Journals r.state mutation := by
  rw [dir_perform hactor]
  cases hpublished : publishes r now call with
  | none => exact iff_of_true rfl (fun mutation h => by cases h)
  | some mutation =>
      obtain ⟨op, reason, rfl⟩ := publishes_base hactor hpublished
      rw [filesAfter, commit_dir_iff (not_applied_of_not_current hcurrent op reason)]
      constructor
      · intro h mutation hmutation
        cases hmutation
        exact h
      · intro h
        exact h _ rfl

end Calls

/-- The snapshot and the manifest already stand as a checkpoint would write them. -/
def Folded (s : StoreState) : Prop :=
  s.dir[snapshotName]? = some (encodeSnapshot s.store.key (encodeState s.live)) ∧
    s.dir[manifestName]? = some (encodeManifest s.store.key (checkpointManifest s.dir s))

/-- The store writes no snapshot, or it writes nothing new and can open no segment after it. -/
def CheckpointIdle (s : StoreState) : Prop :=
  s.store.isOpen = false ∨ s.live.health ≠ .healthy ∨
    (encodeState s.live).length > s.store.options.limits.maxStateBytes ∨
    Folded s ∧ ((s.store.segmentIndex + 1) % 2 ^ 32 + 1) % 2 ^ 32 ≥
      s.store.options.limits.maxJournalSegments

/-- Writing snapshot and manifest changes nothing if and only if both stand already. -/
theorem folded_iff {s : StoreState} :
    withManifest s (s.dir.insert snapshotName
      (encodeSnapshot s.store.key (encodeState s.live))) = s.dir ↔ Folded s := by
  generalize hsnapshot : encodeSnapshot s.store.key (encodeState s.live) = snapshot
  unfold Folded withManifest writeManifest
  rw [hsnapshot]
  have hne : manifestName ≠ snapshotName := by decide
  constructor
  · intro h
    have hmanifest := congrArg (·[manifestName]?) h
    have hsnap := congrArg (·[snapshotName]?) h
    simp only [Std.ExtTreeMap.getElem?_insert_self] at hmanifest
    simp only [getElem?_insert_of_ne _ hne, Std.ExtTreeMap.getElem?_insert_self] at hsnap
    refine ⟨hsnap.symm, ?_⟩
    rw [insert_of_getElem? hsnap.symm] at hmanifest
    exact hmanifest.symm
  · rintro ⟨hsnap, hmanifest⟩
    rw [insert_of_getElem? hsnap, insert_of_getElem? hmanifest]

theorem checkpoint_idle_iff {s : StoreState} :
    (∃ e, (Store.checkpoint s).1 = .error e) ∧ (Store.checkpoint s).2.dir = s.dir ↔
      CheckpointIdle s := by
  unfold Store.checkpoint
  cases hwritten : withSnapshot s with
  | error e =>
      refine iff_of_true ⟨⟨e, rfl⟩, rfl⟩ ?_
      by_contra hidle
      simp only [CheckpointIdle, not_or, Bool.not_eq_false, ne_eq, not_not, gt_iff_lt,
        not_lt] at hidle
      obtain ⟨hopen, hhealth, hbytes, -⟩ := hidle
      rw [withSnapshot_eq_ok.mpr ⟨hopen, hhealth, hbytes, rfl⟩] at hwritten
      cases hwritten
  | ok dir =>
      obtain ⟨hopen, hhealth, hbytes, rfl⟩ := withSnapshot_eq_ok.mp hwritten
      have hidle : CheckpointIdle s ↔ Folded s ∧
          ((s.store.segmentIndex + 1) % 2 ^ 32 + 1) % 2 ^ 32 ≥
            s.store.options.limits.maxJournalSegments := by
        simp [CheckpointIdle, hopen, hhealth, not_lt.mpr hbytes]
      rw [hidle]
      by_cases hroom : ((s.store.segmentIndex + 1) % 2 ^ 32 + 1) % 2 ^ 32 ≥
          s.store.options.limits.maxJournalSegments
      · simp only [hroom, if_true, and_true, folded_iff]
        exact ⟨And.right, fun h => ⟨⟨_, rfl⟩, h⟩⟩
      · simp only [hroom, if_false, and_false, iff_false]
        rintro ⟨⟨e, h⟩, -⟩
        cases h

/-- The request is refused and nothing of the node changes. -/
structure Guarded (node : FabricNode) (result : Result Reply × FabricNode) : Prop where
  refused : ∃ e, result.1 = .error e
  files : result.2.runtime.state.dir = node.runtime.state.dir
  stopping : result.2.stopping = node.stopping
  epoch : result.2.runtime.image.epoch = node.runtime.image.epoch
  classes : result.2.runtime.image.classes = node.runtime.image.classes
  scopes : result.2.runtime.image.scopes = node.runtime.image.scopes
  policies : result.2.runtime.image.policies = node.runtime.image.policies
  subjects : result.2.runtime.image.subjects = node.runtime.image.subjects
  assignments : result.2.runtime.image.assignments = node.runtime.image.assignments
  authority : result.2.runtime.image.authority = node.runtime.image.authority

/-- The call a request makes under the session it carries. -/
def callOf (limits : Limits) (op : UInt16) (session : Session) (inner : Bytes) : Option Call :=
  match Op.ofCode? op with
  | some .defineClass => (decodeClassDefinition inner limits).toOption.map (.defineClass session)
  | some .defineScope => (decodeScopeDefinition inner limits).toOption.map (.defineScope session)
  | some .definePolicy => (decodePolicyDefinition inner limits).toOption.map (.definePolicy session)
  | some .defineSubject =>
      (decodeSubjectDefinition inner limits).toOption.map (.defineSubject session)
  | some .assign => (decodeAssignment inner limits).toOption.map (.assign session)
  | some .retire => (decodeRetireRequest inner limits).toOption.map fun request =>
      .retireAssignment session request.1 request.2
  | some .advanceEpoch => (decodeReason inner limits).toOption.map (.advanceEpoch session)
  | some .fence => (decodeFenceRequest inner limits).toOption.map fun request =>
      .fence session request.publisher request.boot request.reason
  | _ => none

/-- What keeps a request whose session is not live from being answered or written down. -/
def Kept (node : FabricNode) (now : UInt64) (op : UInt16) (session : Session) (inner : Bytes) :
    Prop :=
  match Op.ofCode? op with
  | some .query => (decodeQuery inner node.options.limits).toOption = none
  | some .stats | some .integrity | some .audit | some .ping => False
  | some .shutdown => node.options.allowRemoteShutdown = false
  | some .checkpoint => node.runtime.closed = true ∨ CheckpointIdle node.runtime.state
  | _ => ∀ call mutation, callOf node.options.limits op session inner = some call →
      publishes node.runtime now call = some mutation → ¬ Journals node.runtime.state mutation

section Requests

variable {node : FabricNode} {now : UInt64} {session : Session}

theorem guarded_here (e : Status) : Guarded node (.error e, node) :=
  ⟨⟨e, rfl⟩, rfl, rfl, rfl, rfl, rfl, rfl, rfl, rfl, rfl⟩

theorem not_guarded_ok {reply : Reply} {node' : FabricNode} :
    ¬ Guarded node (.ok reply, node') := by
  rintro ⟨⟨e, h⟩, -⟩
  cases h

/-- A call under a session that is not current is guarded if and only if it does not get
as far as the journal. -/
theorem guarded_answer {α : Type} {reply : α → Reply} {result : Result α × FabricRuntime}
    {call : Call} (hcall : Calls.perform node.runtime now call = outcome result)
    (hactor : actorOf call = some session) (hcurrent : ¬ Current node.runtime.image session) :
    Guarded node (node.answer reply result) ↔ ∀ mutation,
      publishes node.runtime now call = some mutation →
        ¬ Journals node.runtime.state mutation := by
  obtain ⟨⟨e, hrefused⟩, hsame⟩ := refused_of_not_current hactor hcurrent now
  rw [← perform_dir_iff hactor hcurrent]
  rw [hcall] at hrefused hsame ⊢
  obtain ⟨status, r'⟩ := result
  cases status with
  | ok a => cases hrefused
  | error e' =>
      constructor
      · intro h
        exact h.files
      · intro hfiles
        exact ⟨⟨e', rfl⟩, hfiles, rfl, hsame.epoch, hsame.classes, hsame.scopes, hsame.policies,
          hsame.subjects, hsame.assignments, hsame.authority⟩

theorem guarded_decoded {α : Type} {result : Result α} {body : α → Result Reply × FabricNode}
    {toCall : α → Call} {Q : Call → Mutation → Prop}
    (h : ∀ a, Guarded node (body a) ↔ ∀ mutation, Q (toCall a) mutation) :
    Guarded node (node.decoded result body) ↔
      ∀ call mutation, result.toOption.map toCall = some call → Q call mutation := by
  cases result with
  | error e =>
      refine iff_of_true (guarded_here e) ?_
      intro call mutation hcall
      cases hcall
  | ok a =>
      refine (h a).trans ⟨?_, ?_⟩
      · intro hQ call mutation hcall
        cases hcall
        exact hQ mutation
      · intro hQ mutation
        exact hQ _ mutation rfl

theorem guarded_checkpoint :
    Guarded node (node.answer .generation node.runtime.checkpointRuntime) ↔
      node.runtime.closed = true ∨ CheckpointIdle node.runtime.state := by
  unfold checkpointRuntime
  by_cases hclosed : node.runtime.closed = true
  · rw [if_pos hclosed]
    exact iff_of_true (guarded_here _) (.inl hclosed)
  · rw [if_neg hclosed, ← checkpoint_idle_iff]
    have hlive := checkpoint_live node.runtime.state
    generalize Store.checkpoint node.runtime.state = result at hlive ⊢
    obtain ⟨status, state⟩ := result
    cases status with
    | ok generation =>
        refine iff_of_false not_guarded_ok ?_
        rintro (h | ⟨⟨e, h⟩, -⟩)
        · exact hclosed h
        · cases h
    | error e =>
        have hrecord {β : Type} (f : StateImage → β) : f state.live = f node.runtime.state.live :=
          congrArg f hlive
        constructor
        · intro h
          exact .inr ⟨⟨e, rfl⟩, h.files⟩
        · rintro (h | ⟨-, hfiles⟩)
          · exact absurd h hclosed
          · exact ⟨⟨e, rfl⟩, hfiles, rfl, hrecord _, hrecord _, hrecord _, hrecord _, hrecord _,
              hrecord _, hrecord _⟩

/-- A request with a session block that is not live is guarded if and only if its operation
keeps it. -/
theorem guarded_serve (hcurrent : ¬ Current node.runtime.image session) (op : UInt16)
    (inner : Bytes) :
    Guarded node (node.serve now op session inner) ↔ Kept node now op session inner := by
  unfold serve Kept callOf
  cases Op.ofCode? op with
  | none => exact iff_of_true (guarded_here _) (fun call mutation h => by cases h)
  | some known =>
      cases known with
      | hello => exact iff_of_true (guarded_here _) (fun call mutation h => by cases h)
      | helloAck => exact iff_of_true (guarded_here _) (fun call mutation h => by cases h)
      | response => exact iff_of_true (guarded_here _) (fun call mutation h => by cases h)
      | error => exact iff_of_true (guarded_here _) (fun call mutation h => by cases h)
      | defineClass => exact guarded_decoded fun d => guarded_answer rfl rfl hcurrent
      | defineScope => exact guarded_decoded fun d => guarded_answer rfl rfl hcurrent
      | definePolicy => exact guarded_decoded fun d => guarded_answer rfl rfl hcurrent
      | defineSubject => exact guarded_decoded fun d => guarded_answer rfl rfl hcurrent
      | assign => exact guarded_decoded fun a => guarded_answer rfl rfl hcurrent
      | retire => exact guarded_decoded fun request => guarded_answer rfl rfl hcurrent
      | advanceEpoch => exact guarded_decoded fun reason => guarded_answer rfl rfl hcurrent
      | fence => exact guarded_decoded fun request => guarded_answer rfl rfl hcurrent
      | query =>
          simp only
          generalize decodeQuery inner node.options.limits = result
          cases result with
          | error e => exact iff_of_true (guarded_here e) rfl
          | ok query => exact iff_of_false not_guarded_ok (fun h => by cases h)
      | stats => exact iff_of_false not_guarded_ok id
      | integrity => exact iff_of_false not_guarded_ok id
      | audit => exact iff_of_false not_guarded_ok id
      | ping => exact iff_of_false not_guarded_ok id
      | checkpoint => exact guarded_checkpoint
      | shutdown =>
          simp only
          split
          · rename_i hremote
            exact iff_of_true (guarded_here _) hremote
          · rename_i hremote
            exact iff_of_false not_guarded_ok hremote

end Requests

/-- A request, other than the greeting, whose session block is not a live grant: the node
refuses it and nothing changes, if and only if the operation of the request keeps it. -/
theorem stale_requests_guarded (node : FabricNode) (now : UInt64) (header : FrameHeader)
    (payload : Bytes) (hop : header.op ≠ Op.hello.code)
    (hstale : ∀ session inner,
      decodeSessionRequest payload node.options.limits = .ok (session, inner) →
        ¬ Current node.runtime.image session) :
    Guarded node (node.dispatch now header payload) ↔ ∀ session inner,
      decodeSessionRequest payload node.options.limits = .ok (session, inner) →
        Kept node now header.op session inner := by
  rw [dispatch, if_neg hop]
  cases hrequest : decodeSessionRequest payload node.options.limits with
  | error e =>
      refine iff_of_true (guarded_here e) ?_
      intro session inner h
      cases h
  | ok request =>
      obtain ⟨session, inner⟩ := request
      refine (guarded_serve (hstale session inner hrequest) header.op inner).trans ⟨?_, ?_⟩
      · intro hkept session' inner' h
        cases h
        exact hkept
      · intro hkept
        exact hkept session inner rfl

def stranger : Session := { publisher := somePublisher, boot := someBoot }

def shutdownFrame : FrameHeader := { op := Op.shutdown.code }

theorem decode_stranger :
    decodeSessionRequest (encodeSessionRequest stranger []) {} = .ok (stranger, []) := by
  refine decodeSessionRequest_encode [] ?_ ?_ (by decide)
  · exact ⟨by decide, by decide⟩
  · rw [length_encodeSession]
    decide

theorem not_current_stranger {r : FabricRuntime} (hfresh : Fresh r) :
    ¬ Current r.image stranger := by
  rintro ⟨-, entry, hentry, -⟩
  rw [hfresh.authority] at hentry
  simp at hentry

/-- A node that does not accept remote shutdown refuses the stranger's. -/
theorem stale_requests_guarded_shutdown :
    ∃ r, Fresh r ∧
      Guarded { runtime := r, options := { allowRemoteShutdown := false } }
        (FabricNode.dispatch { runtime := r, options := { allowRemoteShutdown := false } } 0
          shutdownFrame (encodeSessionRequest stranger [])) := by
  obtain ⟨opened, hopen⟩ := openStore_empty
  have hfresh : Fresh (startRuntime creatingRuntime opened) :=
    fresh_startRuntime (by simp) hopen
  refine ⟨_, hfresh, (stale_requests_guarded _ 0 shutdownFrame _ (by decide) ?_).mpr ?_⟩
  · intro session inner h
    cases decode_stranger.symm.trans h
    exact not_current_stranger hfresh
  · intro session inner h
    exact rfl

/-- On a fresh node the stranger's shutdown is answered and stops the node. -/
theorem stranger_stops_node :
    ∃ r, Fresh r ∧ ¬ Current r.image stranger ∧
      decodeSessionRequest (encodeSessionRequest stranger []) {} = .ok (stranger, []) ∧
      (FabricNode.dispatch { runtime := r } 0 shutdownFrame
        (encodeSessionRequest stranger [])).2.stopping = true ∧
      ¬ Guarded { runtime := r } (FabricNode.dispatch { runtime := r } 0 shutdownFrame
        (encodeSessionRequest stranger [])) := by
  obtain ⟨opened, hopen⟩ := openStore_empty
  have hfresh : Fresh (startRuntime creatingRuntime opened) :=
    fresh_startRuntime (by simp) hopen
  have hdispatch (r : FabricRuntime) :
      FabricNode.dispatch { runtime := r } 0 shutdownFrame (encodeSessionRequest stranger []) =
        (.ok .empty, { runtime := r, stopping := true }) := by
    rw [dispatch, if_neg (by decide)]
    simp only [decode_stranger, decoded]
    rfl
  refine ⟨_, hfresh, not_current_stranger hfresh, decode_stranger, ?_, ?_⟩
  · rw [hdispatch]
  · rw [hdispatch]
    exact not_guarded_ok

end PriorityFabric.Guarding
