import PriorityFabric.Granting
import PriorityFabric.Planning
import PriorityFabric.ReadBack
import PriorityFabric.Revalidation

/-!
Publishing the same thing twice.

A definition, an assignment or a retirement that was accepted may be sent again: if the
store has room for it, the second call is accepted as well, returns the same generation and
leaves only its traces in the audit ring and the journal.  A store behind more than a
thousand checkpoints may have no room although it is small: its last segment is full.
-/

namespace PriorityFabric.Republication

open PriorityFabric.Lib.LittleEndian
open PriorityFabric.Basics
open PriorityFabric.Ident
open PriorityFabric.Model
open PriorityFabric.State
open PriorityFabric.StateCodec
open PriorityFabric.Validate
open PriorityFabric.Apply
open PriorityFabric.ApplyFacts
open PriorityFabric.Durability
open PriorityFabric.Store
open PriorityFabric.Runtime
open PriorityFabric.Runtime.FabricRuntime
open PriorityFabric.Readable
open PriorityFabric.Committing
open PriorityFabric.Serving
open PriorityFabric.Calls
open PriorityFabric.Lifetimes
open PriorityFabric.Bounds
open PriorityFabric.Inheritance
open PriorityFabric.Granting
open PriorityFabric.Planning
open PriorityFabric.Revalidation

/-! ## The calls -/

/-- The calls that publish something. -/
inductive Publication where
  | defineClass (d : PriorityClassDef)
  | defineScope (d : PolicyScopeDef)
  | definePolicy (d : PolicyDef)
  | defineSubject (d : SubjectDef)
  | assign (a : PriorityAssignment)
  | retireAssignment (id : PriorityAssignmentId) (reason : Bytes)

def Publication.call (r : FabricRuntime) (now : UInt64) (actor : Session) :
    Publication → Result Generation × FabricRuntime
  | .defineClass d => r.defineClass now actor d
  | .defineScope d => r.defineScope now actor d
  | .definePolicy d => r.definePolicy now actor d
  | .defineSubject d => r.defineSubject now actor d
  | .assign a => r.assign now actor a
  | .retireAssignment id reason => r.retireAssignment now actor id reason

/-- The operation a call asks for and the reason it gives, once what it names is bound to
the current generations. -/
def Publication.request (image : StateImage) : Publication → Option (MutationOp × Bytes)
  | .defineClass d => some (.defineClass { d with generation := .unset }, text "define class")
  | .defineScope d => some (.defineScope { d with generation := .unset }, text "define scope")
  | .definePolicy d =>
      (image.scopes[d.scope]?).map fun scope =>
        (.definePolicy { d with
          generation := .unset
          scopeGeneration := scope.definition.generation }, text "define policy")
  | .defineSubject d =>
      some (.defineSubject { d with generation := .unset }, text "define subject")
  | .assign a =>
      if a.kind = .default then none
      else
        (image.subjects[a.subject]?).bind fun subject =>
        (image.scopes[a.scope]?).bind fun scope =>
        (image.classes[a.cls]?).bind fun cls =>
        let stamped := { a with
          generation := .unset
          subjectGeneration := subject.definition.generation
          scopeGeneration := scope.definition.generation
          classGeneration := cls.definition.generation }
        match a.policy with
        | none => some (.assign { stamped with policyGeneration := .unset }, text "assign")
        | some policy =>
            (image.policies[policy]?).map fun entry =>
              (.assign { stamped with policyGeneration := entry.definition.generation },
                text "assign")
  | .retireAssignment id reason =>
      some (.retireAssignment id, if reason.isEmpty then text "retired" else reason)

section Calls

variable {r r' : FabricRuntime} {now : UInt64} {actor : Session} {g : Generation}

theorem underSession_eq_ok_iff {body : Result Generation × FabricRuntime} :
    r.underSession actor body = (.ok g, r') ↔
      sessionShapeValid actor = true ∧ r.closed = false ∧ body = (.ok g, r') := by
  unfold underSession
  split
  · rename_i hshape
    simp [hshape]
  · rename_i hshape
    rw [Bool.not_eq_false] at hshape
    split
    · rename_i hclosed
      simp [hclosed]
    · rename_i hopen
      rw [Bool.not_eq_true] at hopen
      simp [hshape, hopen]

/-- The commit of a mutation is what a call reports. -/
def Commits (r : FabricRuntime) (mutation : Mutation) (g : Generation) (r' : FabricRuntime) :
    Prop :=
  ∃ outcome state, commitMutation r.state mutation = (.ok outcome, state) ∧
    outcome.entityGeneration = g ∧ r.withState state = r'

theorem publish_eq_ok_iff {op : Bytes} {mutation : Mutation} :
    r.publish now actor op mutation (fun outcome _ => outcome.entityGeneration) = (.ok g, r') ↔
      Commits r mutation g r' := by
  unfold publish Commits
  generalize commitMutation r.state mutation = result
  obtain ⟨status, state⟩ := result
  cases status with
  | error e => simp [rejectCall]
  | ok outcome => simp

/-- A call is accepted if its session is usable and the commit it asks for is. -/
theorem call_eq_ok_iff (p : Publication) :
    p.call r now actor = (.ok g, r') ↔
      sessionShapeValid actor = true ∧ r.closed = false ∧
        ∃ op reason, p.request r.image = some (op, reason) ∧
          Commits r (baseMutation actor op reason now) g r' := by
  cases p with
  | defineClass d =>
      simp only [Publication.call, FabricRuntime.defineClass, underSession_eq_ok_iff,
        publish_eq_ok_iff, Publication.request]
      simp
  | defineScope d =>
      simp only [Publication.call, FabricRuntime.defineScope, underSession_eq_ok_iff,
        publish_eq_ok_iff, Publication.request]
      simp
  | definePolicy d =>
      simp only [Publication.call, FabricRuntime.definePolicy, underSession_eq_ok_iff,
        Publication.request]
      cases r.image.scopes[d.scope]? with
      | none => simp [rejectCall]
      | some scope => simp [publish_eq_ok_iff]
  | defineSubject d =>
      simp only [Publication.call, FabricRuntime.defineSubject, underSession_eq_ok_iff,
        publish_eq_ok_iff, Publication.request]
      simp
  | assign a =>
      simp only [Publication.call, FabricRuntime.assign, underSession_eq_ok_iff,
        Publication.request]
      by_cases hkind : a.kind = .default
      · simp [hkind]
      · simp only [if_neg hkind]
        cases r.image.subjects[a.subject]? with
        | none => simp [rejectUndefined, rejectCall]
        | some subject =>
            cases r.image.scopes[a.scope]? with
            | none => simp [rejectUndefined, rejectCall]
            | some scope =>
                cases r.image.classes[a.cls]? with
                | none => simp [rejectUndefined, rejectCall]
                | some cls =>
                    cases a.policy with
                    | none => simp [publish_eq_ok_iff]
                    | some policy =>
                        simp only [Option.bind_some]
                        cases r.image.policies[policy]? with
                        | none => simp [rejectUndefined, rejectCall]
                        | some entry => simp [publish_eq_ok_iff]
  | retireAssignment id reason =>
      simp only [Publication.call, FabricRuntime.retireAssignment, underSession_eq_ok_iff,
        publish_eq_ok_iff, Publication.request]
      simp

theorem governs_of_request {p : Publication} {image : StateImage} {op : MutationOp}
    {reason : Bytes} (h : p.request image = some (op, reason)) : governs op = false := by
  cases p with
  | definePolicy d =>
      obtain ⟨scope, -, hop⟩ := Option.map_eq_some_iff.mp h
      cases hop
      rfl
  | assign a =>
      simp only [Publication.request] at h
      split at h
      · cases h
      · obtain ⟨subject, -, h⟩ := Option.bind_eq_some_iff.mp h
        obtain ⟨scope, -, h⟩ := Option.bind_eq_some_iff.mp h
        obtain ⟨cls, -, h⟩ := Option.bind_eq_some_iff.mp h
        split at h
        · cases h
          rfl
        · obtain ⟨entry, -, hop⟩ := Option.map_eq_some_iff.mp h
          cases hop
          rfl
  | _ =>
      cases h
      rfl

/-- A publication leaves what it was bound to as it was, so it asks for the same again. -/
theorem request_again {p : Publication} {a b : StateImage} {mutation : Mutation}
    {reason : Bytes} (hrequest : p.request a = some (mutation.op, reason))
    (h : Published a b mutation) : p.request b = some (mutation.op, reason) := by
  rw [← hrequest]
  cases p with
  | definePolicy d =>
      obtain ⟨scope, -, hop⟩ := Option.map_eq_some_iff.mp hrequest
      have hscopes := h.scopes_eq fun c hc => by
        rw [hc] at hop
        cases hop
      simp only [Publication.request, hscopes]
  | assign a' =>
      have hop : ∃ assignment, mutation.op = .assign assignment := by
        simp only [Publication.request] at hrequest
        split at hrequest
        · cases hrequest
        · obtain ⟨subject, -, hrequest⟩ := Option.bind_eq_some_iff.mp hrequest
          obtain ⟨scope, -, hrequest⟩ := Option.bind_eq_some_iff.mp hrequest
          obtain ⟨cls, -, hrequest⟩ := Option.bind_eq_some_iff.mp hrequest
          split at hrequest
          · exact ⟨_, (Prod.mk.inj (Option.some.inj hrequest)).1.symm⟩
          · obtain ⟨entry, -, hop⟩ := Option.map_eq_some_iff.mp hrequest
            exact ⟨_, (Prod.mk.inj hop).1.symm⟩
      obtain ⟨assignment, hop⟩ := hop
      have hclasses := h.classes_eq fun c hc => by simp [hop] at hc
      have hscopes := h.scopes_eq fun c hc => by simp [hop] at hc
      have hpolicies := h.policies_eq fun c hc => by simp [hop] at hc
      have hsubjects := h.subjects_eq fun c hc => by simp [hop] at hc
      simp only [Publication.request, hclasses, hscopes, hpolicies, hsubjects]
  | _ => rfl

end Calls

/-! ## The second commit -/

/-- The reserve step of a commit finds room: the two records stay within the durable growth
bound, and a segment that is full has a successor. -/
structure Reserves (store : DurableStore) (mutation : Mutation) : Prop where
  growth_le : store.durableBytes + journalRecordBytes (encodeMutation mutation).length +
    journalRecordBytes 40 ≤ store.options.limits.maxStateBytes
  segments : store.segmentBytes < segmentRollBytes ∨
    (store.segmentIndex + 1) % 2 ^ 32 < store.options.limits.maxJournalSegments

/-- The image takes the mutation and holds already what it asks for. -/
structure Repeats (image : StateImage) (mutation : Mutation) : Prop where
  healthy : image.health = .healthy
  valid : validateMutation image mutation = .ok ()
  authorized : checkAuthority image mutation = .ok ()
  repeated : isIdempotent image mutation = true
  generation_set : image.generation.isSet = true

section Commits

variable {s s' : StoreState} {mutation : Mutation}

theorem rolledStore_options (dir : Directory) (store : DurableStore) :
    (rolledStore dir store).options = store.options ∧
      (rolledStore dir store).isOpen = store.isOpen := by
  unfold rolledStore
  split <;> exact ⟨rfl, rfl⟩

/-- A mutation that repeats what the image holds goes through: it is recorded. -/
theorem commit_repeated (hopen : s.store.isOpen = true) (hsegment : s.store.segmentOpen = true)
    (hrepeats : Repeats s.live mutation)
    (hpayload : (encodeMutation mutation).length ≤ s.store.options.limits.maxRecordPayload)
    (hreserves : Reserves s.store mutation) :
    ∃ dir, commit s mutation = (.ok (), accepted ⟨dir, rolledStore s.dir s.store, s.live⟩
      (planOf s.live mutation)
      (recordAccepted s.live (planOf s.live mutation) s.live.generation)) := by
  have hlength : (encodeMutation (planOf s.live mutation)).length =
      (encodeMutation mutation).length := length_encodeMutation_congr rfl rfl rfl
  have hgeneration : plannedGeneration s.live mutation = s.live.generation := by
    simp [plannedGeneration, hrepeats.repeated]
  have hplanned : Planned s.store s.live mutation (planOf s.live mutation) := by
    refine ⟨hopen, hrepeats.healthy, hrepeats.valid, rfl, ?_, ?_, ?_⟩
    · rw [hgeneration]
      exact hrepeats.generation_set
    · rw [hlength]
      exact hpayload
    · rw [hlength]
      exact hreserves.growth_le
  have hrepeated' : isIdempotent s.live (planOf s.live mutation) = true := hrepeats.repeated
  have hadmissible : Admissible s.live (planOf s.live mutation) false s.live.generation := by
    refine ⟨hrepeats.valid, fun _ _ => hrepeats.authorized, hgeneration.symm, fun hfresh => ?_,
      fun _ => ?_⟩
    · rw [hrepeated'] at hfresh
      cases hfresh
    · exact congrArg Generation.value hgeneration
  have happly := applyMutation_eq_ok_iff.mpr ⟨_, hadmissible, .repeated hrepeated'⟩
  exact commit_of_planned hplanned hreserves.segments (fun _ => hsegment) happly

end Commits

/-! ## Again -/

/-- Two mutations that ask for the same under the same session. -/
structure Twins (m m' : Mutation) : Prop where
  op : m'.op = m.op
  reason : m'.reason = m.reason
  publisher : m'.publisher = m.publisher
  boot : m'.boot = m.boot
  epoch : m'.epoch = m.epoch
  token : m'.token = m.token
  caller : m.system = false

section Again

variable {image : StateImage} {m m' : Mutation}

theorem Twins.validateMutation_eq (h : Twins m m') :
    validateMutation image m' = validateMutation image m := by
  unfold validateMutation validateGrant
  rw [h.op, h.reason, h.publisher, h.boot]

theorem Twins.checkAuthority_eq (h : Twins m m') :
    checkAuthority image m' = checkAuthority image m := by
  unfold checkAuthority
  rw [h.publisher, h.boot, h.epoch, h.token]

theorem Twins.isIdempotent_eq (h : Twins m m') :
    isIdempotent image m' = isIdempotent image m := by
  unfold isIdempotent EntityKind.idempotent sameAuthorityBinding
  rw [h.op, h.publisher, h.boot, h.epoch]

theorem checkAuthority_again {a b : StateImage} (h : Published a b m)
    (hauthority : checkAuthority a m = .ok ()) : checkAuthority b m = .ok () := by
  unfold checkAuthority at hauthority ⊢
  rw [h.epoch, h.authority]
  exact hauthority

theorem published_of_commit {s s' : StoreState} (hop : governs m.op = false)
    (h : commit s m = (.ok (), s')) : Published s.live s'.live m := by
  obtain ⟨-, -, -, dir, live, happly, rfl⟩ := commit_eq_ok h
  obtain ⟨expected, -, happlied⟩ := applyMutation_eq_ok_iff.mp happly
  have hplan : Published s.live live (planOf s.live m) := published_of_applied hop happlied
  exact ⟨hplan.epoch, hplan.authority, hplan.limits, hplan.classes, hplan.scopes, hplan.policies,
    hplan.subjects, hplan.repeated⟩

theorem repeats_of_commit {s s' : StoreState} (hbounded : Bounded s.live)
    (hsearch : SearchesSuffice s.live.limits) (hop : governs m.op = false) (htwins : Twins m m')
    (h : commit s m = (.ok (), s')) : Repeats s'.live m' := by
  have hpublished := published_of_commit hop h
  obtain ⟨hplanned, -, -, dir, live, happly, rfl⟩ := commit_eq_ok h
  obtain ⟨expected, hadmissible, happlied⟩ := applyMutation_eq_ok_iff.mp happly
  have hauthority : checkAuthority s.live m = .ok () := hadmissible.authorized rfl htwins.caller
  refine ⟨?_, ?_, ?_, htwins.isIdempotent_eq.trans hpublished.repeated, ?_⟩
  · exact (applied_frame happlied).health.trans hplanned.healthy
  · rw [htwins.validateMutation_eq]
    exact validateMutation_again hpublished hop hbounded hsearch hplanned.valid
  · rw [htwins.checkAuthority_eq]
    exact checkAuthority_again hpublished hauthority
  · have hgeneration : live.generation = (planOf s.live m).resultingGeneration :=
      generation_of_planned hplanned happly
    change live.generation.isSet = true
    rw [hgeneration]
    exact hplanned.generation_set

theorem commit_again {s s' : StoreState} (hbounded : Bounded s.live)
    (hsearch : SearchesSuffice s.live.limits) (hop : governs m.op = false) (htwins : Twins m m')
    (h : commit s m = (.ok (), s')) (hreserves : Reserves s'.store m') :
    ∃ dir, commit s' m' = (.ok (), accepted ⟨dir, rolledStore s'.dir s'.store, s'.live⟩
      (planOf s'.live m')
      (recordAccepted s'.live (planOf s'.live m') s'.live.generation)) := by
  have hrepeats := repeats_of_commit hbounded hsearch hop htwins h
  obtain ⟨hplanned, -, hopen, dir, live, happly, rfl⟩ := commit_eq_ok h
  obtain ⟨hoptions, hisOpen⟩ := rolledStore_options s.dir s.store
  refine commit_repeated (hisOpen.trans hplanned.opened) hopen hrepeats ?_ hreserves
  rw [length_encodeMutation_congr htwins.op htwins.publisher htwins.reason]
  have hlength : (encodeMutation (planOf s.live m)).length = (encodeMutation m).length :=
    length_encodeMutation_congr rfl rfl rfl
  have hpayload := hplanned.payload_le
  rw [hlength] at hpayload
  change _ ≤ (rolledStore s.dir s.store).options.limits.maxRecordPayload
  rw [hoptions]
  exact hpayload

/-- The second commit announces the generation the first one gave the entity. -/
theorem preview_again {s s' : StoreState} (hop : governs m.op = false) (htwins : Twins m m')
    (h : commit s m = (.ok (), s')) :
    previewEntityGeneration s'.live m' = previewEntityGeneration s.live m := by
  have hrepeated := htwins.isIdempotent_eq.trans (published_of_commit hop h).repeated
  obtain ⟨-, -, -, dir, live, happly, rfl⟩ := commit_eq_ok h
  have hplanned : governs (planOf s.live m).op = false := hop
  have hfirst := generationOf_of_applied hplanned happly
  have hsecond := generationOf_of_idempotent hrepeated
  rw [htwins.op] at hsecond
  simp only [previewEntityGeneration, hrepeated, Bool.true_or, if_true]
  exact Option.some.inj (hsecond.symm.trans hfirst)

end Again

theorem commitMutation_eq_ok_iff {s s' : StoreState} {mutation : Mutation}
    {outcome : CommitOutcome} :
    commitMutation s mutation = (.ok outcome, s') ↔
      commit s mutation = (.ok (), s') ∧
        outcome = ⟨previewEntityGeneration s.live mutation, s'.live.generation,
          isIdempotent s.live mutation⟩ := by
  unfold commitMutation
  generalize commit s mutation = result
  obtain ⟨status, state⟩ := result
  cases status with
  | error e => simp
  | ok u =>
      simp only [Prod.mk.injEq, Except.ok.injEq, true_and]
      constructor
      · rintro ⟨rfl, rfl⟩
        exact ⟨rfl, rfl⟩
      · rintro ⟨rfl, rfl⟩
        exact ⟨rfl, rfl⟩

theorem twins_baseMutation (actor : Session) (op : MutationOp) (reason : Bytes)
    (now later : UInt64) :
    Twins (baseMutation actor op reason now) (baseMutation actor op reason later) :=
  ⟨rfl, rfl, rfl, rfl, rfl, rfl, rfl⟩

/-- `b` is `a` but for the audit ring and the two counters that move with every commit. -/
def SameButAudit (a b : StateImage) : Prop :=
  b = { a with
    audit := b.audit
    nextAuditSequence := b.nextAuditSequence
    lastSequence := b.lastSequence }

/-- The state behind a commit that only records. -/
def recorded (s : StoreState) (dir : Directory) (mutation : Mutation) : StoreState :=
  accepted ⟨dir, rolledStore s.dir s.store, s.live⟩ (planOf s.live mutation)
    (recordAccepted s.live (planOf s.live mutation) s.live.generation)

theorem bounds_of_reachable {r : FabricRuntime} (hreach : Reachable r) (hlimits : r.limits = {}) :
    Bounded r.state.live ∧ SearchesSuffice r.state.live.limits := by
  obtain ⟨hreached, hsame⟩ := hreach.reached
  have hwithin := Checkpoints.within_of_reached hreached
  refine ⟨hwithin.1, ?_⟩
  rw [hwithin.2, ← hsame, hlimits]
  exact searchesSuffice_default

/-- An accepted call asks for the same when it is made again, and if the store has room,
that is recorded. -/
theorem call_again {r r' : FabricRuntime} (hreach : Reachable r) (hlimits : r.limits = {})
    {p : Publication} {now : UInt64} {actor : Session} {g : Generation}
    (h : p.call r now actor = (.ok g, r')) (later : UInt64) :
    ∃ op reason, p.request r'.image = some (op, reason) ∧
      (Reserves r'.state.store (baseMutation actor op reason later) → ∃ dir,
        p.call r' later actor = (.ok g,
          r'.withState (recorded r'.state dir (baseMutation actor op reason later)))) := by
  obtain ⟨hbounded, hsearch⟩ := bounds_of_reachable hreach hlimits
  obtain ⟨hshape, hopen, op, reason, hrequest, outcome, state, hcommit, rfl, rfl⟩ :=
    (call_eq_ok_iff p).mp h
  obtain ⟨hstore, rfl⟩ := commitMutation_eq_ok_iff.mp hcommit
  have hgoverns := governs_of_request hrequest
  have htwins := twins_baseMutation actor op reason now later
  have hrequest' := request_again hrequest (published_of_commit hgoverns hstore)
  refine ⟨op, reason, hrequest', fun hreserves => ?_⟩
  obtain ⟨dir, hagain⟩ := commit_again hbounded hsearch hgoverns htwins hstore hreserves
  have hcommits : Commits (r.withState state) (baseMutation actor op reason later)
      (previewEntityGeneration r.state.live (baseMutation actor op reason now)) _ :=
    ⟨_, _, commitMutation_eq_ok_iff.mpr ⟨hagain, rfl⟩, preview_again hgoverns htwins hstore, rfl⟩
  exact ⟨dir, (call_eq_ok_iff p).mpr ⟨hshape, hopen, op, reason, hrequest', hcommits⟩⟩

/-- While the store has room, making an accepted call again is accepted, returns the same
generation and changes nothing but the audit ring and the counters. -/
theorem republication_idempotent {r r' : FabricRuntime} (hreach : Reachable r)
    (hlimits : r.limits = {}) {p : Publication} {now : UInt64} {actor : Session}
    {g : Generation} (h : p.call r now actor = (.ok g, r')) (later : UInt64)
    (hreserves : ∀ op reason, p.request r'.image = some (op, reason) →
      Reserves r'.state.store (baseMutation actor op reason later)) :
    ∃ r'', p.call r' later actor = (.ok g, r'') ∧ SameButAudit r'.image r''.image := by
  obtain ⟨op, reason, hrequest, hagain⟩ := call_again hreach hlimits h later
  obtain ⟨dir, hcall⟩ := hagain (hreserves op reason hrequest)
  exact ⟨_, hcall, rfl⟩

def firstClass : PriorityClassDef := { id := ⟨[97], wellFormed_a⟩, precedence := .make 1 }

/-- The definition of a class by a publisher on a fresh store, when it is made again. -/
def defineAgain (session : Session) : Mutation :=
  baseMutation session (.defineClass firstClass) (text "define class") 1

/-- A granted publisher defines a class, and there is room to define it again. -/
def definesWithRoom : Bool :=
  match ReadBack.grantedRuntime with
  | .error _ => false
  | .ok (session, r) =>
      let result := r.defineClass 0 session firstClass
      let store := result.2.state.store
      result.1.isOk && decide (r.limits = {}) &&
        decide (store.durableBytes +
          journalRecordBytes (encodeMutation (defineAgain session)).length +
          journalRecordBytes 40 ≤ store.options.limits.maxStateBytes) &&
        decide (store.segmentBytes < segmentRollBytes)

theorem republication_idempotent_class :
    ∃ r r' session g, Reachable r ∧ r.limits = {} ∧
      r.defineClass 0 session firstClass = (.ok g, r') ∧
      ∃ r'', r'.defineClass 1 session firstClass = (.ok g, r'') ∧
        SameButAudit r'.image r''.image := by
  have h : definesWithRoom = true := by decide +kernel
  unfold definesWithRoom at h
  cases hruntime : ReadBack.grantedRuntime with
  | error e => simp [hruntime] at h
  | ok found =>
      obtain ⟨session, r⟩ := found
      simp only [hruntime, Bool.and_eq_true, decide_eq_true_eq] at h
      generalize hcall : r.defineClass 0 session firstClass = result at h
      obtain ⟨status, r'⟩ := result
      obtain ⟨⟨⟨hok, hlimits⟩, hgrowth⟩, hsegment⟩ := h
      cases status with
      | error e => cases hok
      | ok g =>
          have hreach := ReadBack.reachable_grantedRuntime hruntime
          refine ⟨r, r', session, g, hreach, hlimits, hcall, ?_⟩
          have hagain : (Publication.defineClass firstClass).call r 0 session = (.ok g, r') :=
            hcall
          refine republication_idempotent hreach hlimits hagain 1 ?_
          rintro op reason ⟨⟩
          exact ⟨hgrowth, .inl hsegment⟩

/-! ## The last segment -/

/-- What the store is asked to commit when the class is defined at time zero. -/
def defining (session : Session) : Mutation :=
  baseMutation session (.defineClass { firstClass with generation := .unset })
    (text "define class") 0

def definingBytes (session : Session) : Nat := (encodeMutation (defining session)).length + 120

theorem recorded_defining (s : StoreState) (dir : Directory) (session : Session) :
    (recorded s dir (defining session)).store.segmentBytes =
        (rolledStore s.dir s.store).segmentBytes + definingBytes session ∧
      (recorded s dir (defining session)).store.durableBytes =
        s.store.durableBytes + definingBytes session := by
  have hlength : (encodeMutation (planOf s.live (defining session))).length =
      (encodeMutation (defining session)).length := length_encodeMutation_congr rfl rfl rfl
  have hdurable : (rolledStore s.dir s.store).durableBytes = s.store.durableBytes := by
    unfold rolledStore
    split <;> rfl
  constructor
  · exact congrArg (fun n => (rolledStore s.dir s.store).segmentBytes + (n + 40 + 80)) hlength
  · change (rolledStore s.dir s.store).durableBytes + _ = _
    rw [hdurable]
    exact congrArg (fun n => s.store.durableBytes + (n + 40 + 80)) hlength

theorem growth_defining (session : Session) (hsmall : definingBytes session ≤ 268435456) :
    journalRecordBytes (encodeMutation (defining session)).length + journalRecordBytes 40 =
      definingBytes session := by
  unfold definingBytes at hsmall ⊢
  have hcommit : journalRecordBytes 40 = 80 := by decide
  have hmutation : journalRecordBytes (encodeMutation (defining session)).length =
      (encodeMutation (defining session)).length + 40 :=
    if_pos (show _ + 40 < 2 ^ 64 by omega)
  omega

theorem reserves_defining {store : DurableStore} {session : Session}
    (hlimits : store.options.limits = {})
    (hgrowth : store.durableBytes + definingBytes session ≤ 268435456)
    (hsegments : store.segmentBytes < segmentRollBytes ∨
      (store.segmentIndex + 1) % 2 ^ 32 < 1024) : Reserves store (defining session) := by
  have hbytes := growth_defining session (by omega)
  refine ⟨?_, by rwa [hlimits]⟩
  rw [hlimits, Nat.add_assoc, hbytes]
  exact hgrowth

/-- A class has just been defined, and the journal is at this segment. -/
structure Filling (session : Session) (index : Nat) (r : FabricRuntime) : Prop where
  defined : ∃ before g, Reachable before ∧ before.limits = {} ∧
    before.defineClass 0 session firstClass = (.ok g, r)
  index_eq : r.state.store.segmentIndex = index

section Filling

variable {session : Session} {index : Nat} {r : FabricRuntime}

theorem Filling.reachable (h : Filling session index r) :
    Reachable r ∧ r.limits = {} ∧ r.state.store.options.limits = {} := by
  obtain ⟨before, g, hreach, hlimits, hcall⟩ := h.defined
  have hcalled := hreach.called 0 (.defineClass session firstClass)
  rw [Calls.perform, snd_outcome, hcall] at hcalled
  have hsame : SameLimits r := hcalled.reached.2
  obtain ⟨-, -, op, reason, -, outcome, state, -, -, rfl⟩ :=
    (call_eq_ok_iff (.defineClass firstClass)).mp hcall
  exact ⟨hcalled, hlimits, hsame.symm.trans hlimits⟩

theorem Filling.again (h : Filling session index r)
    (hreserves : Reserves r.state.store (defining session)) :
    ∃ r', Filling session (rolledStore r.state.dir r.state.store).segmentIndex r' ∧
      r'.state.store.segmentBytes =
        (rolledStore r.state.dir r.state.store).segmentBytes + definingBytes session ∧
      r'.state.store.durableBytes = r.state.store.durableBytes + definingBytes session := by
  obtain ⟨before, g, hreach, hlimits, hcall⟩ := h.defined
  obtain ⟨op, reason, hrequest, hagain⟩ :=
    @call_again _ _ hreach hlimits (.defineClass firstClass) _ _ _ hcall 0
  obtain ⟨rfl, rfl⟩ := Prod.mk.inj (Option.some.inj hrequest)
  obtain ⟨dir, hcall'⟩ := hagain hreserves
  obtain ⟨hreach', hlimits', -⟩ := h.reachable
  obtain ⟨hsegment, hdurable⟩ := recorded_defining r.state dir session
  exact ⟨_, ⟨⟨r, g, hreach', hlimits', hcall'⟩, rfl⟩, hsegment, hdurable⟩

/-- There is room for the records as long as the store stays below its bound. -/
theorem Filling.reserves (h : Filling session index r)
    (hgrowth : r.state.store.durableBytes + definingBytes session ≤ 268435456)
    (hsegments : r.state.store.segmentBytes < segmentRollBytes ∨ index < 1023) :
    Reserves r.state.store (defining session) := by
  obtain ⟨-, -, hlimits⟩ := h.reachable
  refine reserves_defining hlimits hgrowth (hsegments.imp id fun hindex => ?_)
  rw [h.index_eq]
  omega

theorem Filling.fill (h : Filling session index r)
    (hgrowth : r.state.store.durableBytes + segmentRollBytes + definingBytes session ≤
      268435456 + r.state.store.segmentBytes) :
    ∃ r', Filling session index r' ∧ segmentRollBytes ≤ r'.state.store.segmentBytes ∧
      r'.state.store.segmentBytes ≤
        max r.state.store.segmentBytes (segmentRollBytes + definingBytes session) ∧
      r'.state.store.durableBytes + r.state.store.segmentBytes =
        r.state.store.durableBytes + r'.state.store.segmentBytes := by
  generalize hk : segmentRollBytes - r.state.store.segmentBytes = k
  induction k using Nat.strong_induction_on generalizing r with
  | _ k ih =>
      by_cases hfull : segmentRollBytes ≤ r.state.store.segmentBytes
      · exact ⟨r, h, hfull, le_max_left _ _, rfl⟩
      · have hsmall : r.state.store.segmentBytes < segmentRollBytes := Nat.lt_of_not_le hfull
        obtain ⟨r', hnext, hbytes, hdurable⟩ := h.again (h.reserves (by omega) (.inl hsmall))
        have hrolled : rolledStore r.state.dir r.state.store = r.state.store := if_pos hsmall
        rw [hrolled] at hbytes hnext
        rw [h.index_eq] at hnext
        have hpos : 0 < definingBytes session := by
          unfold definingBytes
          omega
        obtain ⟨last, hlast, hroll, hmax, hsum⟩ := @ih (segmentRollBytes -
          r'.state.store.segmentBytes) (by omega) r' hnext (by omega) rfl
        refine ⟨last, hlast, hroll, ?_, by omega⟩
        omega

theorem Filling.stuck (h : Filling session 1023 r)
    (hfull : segmentRollBytes ≤ r.state.store.segmentBytes) (g : Generation) (r' : FabricRuntime) :
    r.defineClass 0 session firstClass ≠ (.ok g, r') := by
  intro hcall
  obtain ⟨-, -, hlimits⟩ := h.reachable
  obtain ⟨-, -, op, reason, -, outcome, state, hcommit, -, -⟩ :=
    (call_eq_ok_iff (.defineClass firstClass)).mp hcall
  obtain ⟨-, hsegments, -⟩ := commit_eq_ok (commitMutation_eq_ok_iff.mp hcommit).1
  rcases hsegments with hsmall | hmore
  · omega
  · rw [h.index_eq, hlimits] at hmore
    exact absurd hmore (by decide)

end Filling

def FilesWithin (dir : Directory) (bound : Nat) : Prop :=
  ∀ name content : Bytes, dir[name]? = some content → content.length ≤ bound

section Files

variable {dir : Directory} {bound : Nat}

theorem FilesWithin.insert (h : FilesWithin dir bound) (name : Bytes) {content : Bytes}
    (hcontent : content.length ≤ bound) : FilesWithin (dir.insert name content) bound := by
  intro other found hfound
  rw [Std.ExtTreeMap.getElem?_insert] at hfound
  split at hfound
  · obtain rfl := Option.some.inj hfound
    exact hcontent
  · exact h other found hfound

theorem FilesWithin.openAppend (h : FilesWithin dir bound) (name : Bytes) :
    FilesWithin (openAppend dir name) bound := by
  intro other found hfound
  rw [Store.openAppend, Std.ExtTreeMap.getElem?_insertIfNew] at hfound
  split at hfound
  · obtain rfl := Option.some.inj hfound
    exact Nat.zero_le bound
  · exact h other found hfound

theorem FilesWithin.removeSegments (h : FilesWithin dir bound) (count : Nat) :
    FilesWithin (removeSegments dir count) bound := by
  unfold Store.removeSegments
  induction List.range count generalizing dir with
  | nil => exact h
  | cons index rest ih =>
      refine ih fun other found hfound => ?_
      rw [Std.ExtTreeMap.getElem?_erase] at hfound
      split at hfound
      · cases hfound
      · exact h other found hfound

theorem FilesWithin.fileSize_le (h : FilesWithin dir bound) (name : Bytes) :
    fileSize dir name ≤ bound := by
  rw [fileSize, Std.ExtTreeMap.getD_eq_getD_getElem?]
  cases hfile : dir[name]? with
  | none => exact Nat.zero_le bound
  | some content => exact h name content hfile

theorem measureDurableBytes_le (h : FilesWithin dir bound) :
    measureDurableBytes dir ≤ 4096 * bound := by
  unfold measureDurableBytes
  split
  · rename_i total hmeasured
    simp only [directoryBytes, bind_eq_ok, failIf_eq_ok, exists_const, pure, Except.pure,
      Except.ok.injEq] at hmeasured
    obtain ⟨hsize, rfl⟩ := hmeasured
    have hfiles : ∀ n ∈ dir.toList.map (·.2.length), n ≤ bound := by
      intro n hn
      obtain ⟨⟨name, content⟩, hfile, rfl⟩ := List.mem_map.mp hn
      exact h name content (Std.ExtTreeMap.mem_toList_iff_getElem?_eq_some.mp hfile)
    have hsum := List.sum_le_card_nsmul _ _ hfiles
    rw [List.length_map, Std.ExtTreeMap.length_toList, smul_eq_mul] at hsum
    exact hsum.trans (Nat.mul_le_mul_right bound (by omega))
  · exact Nat.zero_le _

end Files

/-- A runtime that serves this image, with its journal at this segment. -/
structure Idle (image : StateImage) (index : Nat) (r : FabricRuntime) : Prop where
  reachable : Reachable r
  limits_eq : r.limits = {}
  closed_eq : r.closed = false
  image_eq : r.image = image
  isOpen : r.state.store.isOpen = true
  segmentOpen : r.state.store.segmentOpen = true
  index_eq : r.state.store.segmentIndex = index
  segment_le : r.state.store.segmentBytes ≤ 10000
  files : FilesWithin r.state.dir 10000
  durable_le : r.state.store.durableBytes ≤ 40960000

theorem Idle.checkpoint {image : StateImage} {index : Nat} {r : FabricRuntime}
    (h : Idle image index r) (hhealthy : image.health = .healthy)
    (hlength : (encodeState image).length ≤ 5000) (hindex : index < 1022) :
    Idle image (index + 1) r.checkpointRuntime.2 := by
  have hcalled := h.reachable.called 0 .checkpoint
  rw [Calls.perform, snd_outcome] at hcalled
  have himage : r.state.live = image := h.image_eq
  have hsame : r.limits = r.state.store.options.limits := h.reachable.reached.2
  have hlimits : r.state.store.options.limits = {} := hsame.symm.trans h.limits_eq
  have hfits : (encodeState r.state.live).length ≤
      r.state.store.options.limits.maxStateBytes := by
    rw [himage, hlimits]
    exact hlength.trans (by decide)
  have hsnapshot := Checkpoints.withSnapshot_eq_ok.mpr
    ⟨h.isOpen, himage ▸ hhealthy, hfits, rfl⟩
  have hnext : (r.state.store.segmentIndex + 1) % 2 ^ 32 = index + 1 := by
    rw [h.index_eq]
    omega
  have hroom : ¬ (index + 1 + 1) % 2 ^ 32 ≥ r.state.store.options.limits.maxJournalSegments := by
    rw [hlimits]
    change ¬ _ ≥ 1024
    omega
  have hwritten : FilesWithin (withManifest r.state (r.state.dir.insert snapshotName
      (encodeSnapshot r.state.store.key (encodeState r.state.live)))) 10000 := by
    refine (h.files.insert _ ?_).insert _ ?_
    · rw [StoreFiles.length_encodeSnapshot, himage]
      omega
    · rw [StoreFiles.length_encodeManifest]
      decide
  have hopened := hwritten.openAppend (journalSegmentName (index + 1))
  have hfiles := hopened.removeSegments (retiredSegments r.state)
  have hstate : r.checkpointRuntime.2 = r.withState (Store.checkpoint r.state).2 := by
    simp [checkpointRuntime, h.closed_eq]
  rw [hstate] at hcalled ⊢
  unfold Store.checkpoint at hcalled ⊢
  simp only [hsnapshot, hnext, hroom, if_false] at hcalled ⊢
  exact ⟨hcalled, h.limits_eq, h.closed_eq, h.image_eq, h.isOpen, rfl, rfl,
    hopened.fileSize_le _, hfiles, measureDurableBytes_le hfiles⟩

theorem Idle.worn {image : StateImage} {r : FabricRuntime} (h : Idle image 0 r)
    (hhealthy : image.health = .healthy) (hlength : (encodeState image).length ≤ 5000)
    {index : Nat} (hindex : index ≤ 1022) : ∃ r', Idle image index r' := by
  induction index with
  | zero => exact ⟨r, h⟩
  | succ index ih =>
      obtain ⟨r', hidle⟩ := ih (by omega)
      exact ⟨_, hidle.checkpoint hhealthy hlength hindex⟩

theorem repeats_of_defined {r r' : FabricRuntime} {session : Session} {g : Generation}
    (hreach : Reachable r) (hlimits : r.limits = {})
    (h : r.defineClass 0 session firstClass = (.ok g, r')) :
    sessionShapeValid session = true ∧ Repeats r'.image (defining session) := by
  obtain ⟨hbounded, hsearch⟩ := bounds_of_reachable hreach hlimits
  obtain ⟨hshape, -, op, reason, hrequest, outcome, state, hcommit, -, rfl⟩ :=
    (call_eq_ok_iff (.defineClass firstClass)).mp h
  obtain ⟨rfl, rfl⟩ := Prod.mk.inj (Option.some.inj hrequest)
  exact ⟨hshape, repeats_of_commit hbounded hsearch rfl (twins_baseMutation session _ _ 0 0)
    (commitMutation_eq_ok_iff.mp hcommit).1⟩

theorem Idle.filling {image : StateImage} {index : Nat} {r : FabricRuntime} {session : Session}
    (h : Idle image index r) (hshape : sessionShapeValid session = true)
    (hrepeats : Repeats image (defining session)) (hbytes : definingBytes session ≤ 10000) :
    ∃ r', Filling session index r' ∧
      r'.state.store.segmentBytes ≤ 20000 ∧ r'.state.store.durableBytes ≤ 40970000 := by
  have himage : r.state.live = image := h.image_eq
  have hsame : r.limits = r.state.store.options.limits := h.reachable.reached.2
  have hlimits : r.state.store.options.limits = {} := hsame.symm.trans h.limits_eq
  have hdurable := h.durable_le
  have hsegment := h.segment_le
  have hsmall : r.state.store.segmentBytes < segmentRollBytes :=
    lt_of_le_of_lt hsegment (by decide)
  have hpayload : (encodeMutation (defining session)).length ≤
      r.state.store.options.limits.maxRecordPayload := by
    rw [hlimits]
    unfold definingBytes at hbytes
    change _ ≤ 1048576
    omega
  obtain ⟨dir, hcommit⟩ := commit_repeated h.isOpen h.segmentOpen (himage ▸ hrepeats) hpayload
    (reserves_defining hlimits (by omega) (.inl hsmall))
  have hcall := (@call_eq_ok_iff r _ 0 session _ (.defineClass firstClass)).mpr
    ⟨hshape, h.closed_eq, _, _, rfl, _, _, commitMutation_eq_ok_iff.mpr ⟨hcommit, rfl⟩, rfl, rfl⟩
  obtain ⟨hsegment', hdurable'⟩ := recorded_defining r.state dir session
  have hrolled : rolledStore r.state.dir r.state.store = r.state.store := if_pos hsmall
  rw [hrolled] at hsegment'
  refine ⟨_, ⟨⟨r, _, h.reachable, h.limits_eq, hcall⟩, ?_⟩, ?_, ?_⟩
  · exact (congrArg DurableStore.segmentIndex hrolled).trans h.index_eq
  · exact hsegment'.trans_le (by omega)
  · exact hdurable'.trans_le (by omega)

/-- What the run starts from: a granted publisher has defined a class on a fresh store. -/
def startsWorn : Bool :=
  match ReadBack.grantedRuntime with
  | .error _ => false
  | .ok (session, r) =>
      let result := r.defineClass 0 session firstClass
      let state := result.2.state
      result.1.isOk && decide (r.limits = {}) && decide (result.2.closed = false) &&
        decide (state.live.health = .healthy) && decide ((encodeState state.live).length ≤ 5000) &&
        decide (state.store.isOpen = true) && decide (state.store.segmentOpen = true) &&
        decide (state.store.segmentIndex = 0) && decide (state.store.segmentBytes ≤ 10000) &&
        decide (state.store.durableBytes ≤ 10000) && decide (definingBytes session ≤ 10000) &&
        state.dir.toList.all fun file => file.2.length ≤ 10000

theorem exists_idle :
    ∃ session image r, Idle image 0 r ∧ sessionShapeValid session = true ∧
      Repeats image (defining session) ∧ image.health = .healthy ∧
      (encodeState image).length ≤ 5000 ∧ definingBytes session ≤ 10000 := by
  have h : startsWorn = true := by decide +kernel
  unfold startsWorn at h
  cases hruntime : ReadBack.grantedRuntime with
  | error e => simp [hruntime] at h
  | ok found =>
      obtain ⟨session, r⟩ := found
      simp only [hruntime, Bool.and_eq_true, decide_eq_true_eq] at h
      generalize hcall : r.defineClass 0 session firstClass = result at h
      obtain ⟨status, r'⟩ := result
      obtain ⟨⟨⟨⟨⟨⟨⟨⟨⟨⟨⟨hok, hlimits⟩, hclosed⟩, hhealthy⟩, hlength⟩, hopen⟩, hsegment⟩, hindex⟩,
        hbytes⟩, hdurable⟩, hdefining⟩, hfiles⟩ := h
      cases status with
      | error e => cases hok
      | ok g =>
          have hreach := ReadBack.reachable_grantedRuntime hruntime
          have hcalled := hreach.called 0 (.defineClass session firstClass)
          rw [Calls.perform, snd_outcome, hcall] at hcalled
          obtain ⟨hshape, hrepeats⟩ := repeats_of_defined hreach hlimits hcall
          obtain ⟨-, -, op, reason, -, outcome, state, -, -, rfl⟩ :=
            (call_eq_ok_iff (.defineClass firstClass)).mp hcall
          have hwithin : FilesWithin state.dir 10000 := by
            intro name content hfile
            have hmem := Std.ExtTreeMap.mem_toList_iff_getElem?_eq_some.mpr hfile
            exact of_decide_eq_true (List.all_eq_true.mp hfiles _ hmem)
          exact ⟨session, state.live, _, ⟨hcalled, hlimits, hclosed, rfl, hopen, hsegment, hindex,
            hbytes, hwithin, hdurable.trans (by decide)⟩, hshape, hrepeats, hhealthy, hlength,
            hdefining⟩

/-- In the last segment a definition may be accepted and, repeated, refused: not for the
bytes of the store but because the segment is full. -/
theorem full_segment_refuses_republication :
    ∃ r r' session g, Reachable r ∧ r.limits = {} ∧
      r.defineClass 0 session firstClass = (.ok g, r') ∧
      r'.state.store.durableBytes + journalRecordBytes (encodeMutation (defining session)).length +
        journalRecordBytes 40 ≤ r'.state.store.options.limits.maxStateBytes ∧
      ∀ g' r'', r'.defineClass 0 session firstClass ≠ (.ok g', r'') := by
  obtain ⟨session, image, r, hidle, hshape, hrepeats, hhealthy, hlength, hbytes⟩ := exists_idle
  obtain ⟨idle, hworn⟩ := hidle.worn hhealthy hlength (le_refl 1022)
  have hroll : segmentRollBytes = 67108864 := by decide
  obtain ⟨first, hfirst, hsegment, hdurable⟩ := hworn.filling hshape hrepeats hbytes
  obtain ⟨full, hfull, hreached, hmost, hsum⟩ := hfirst.fill (by omega)
  obtain ⟨rolled, hrolled, hsegment', hdurable'⟩ :=
    hfull.again (hfull.reserves (by omega) (.inr (by decide)))
  have hlast : (rolledStore full.state.dir full.state.store).segmentIndex = 1023 := by
    unfold rolledStore
    rw [if_neg (by omega)]
    change (full.state.store.segmentIndex + 1) % 2 ^ 32 = 1023
    rw [hfull.index_eq]
    rfl
  rw [hlast] at hrolled
  obtain ⟨last, hstuck, hreached', hmost', hsum'⟩ := hrolled.fill (by omega)
  obtain ⟨before, g, hreach, hlimits, hcall⟩ := hstuck.defined
  obtain ⟨-, -, hdefault⟩ := hstuck.reachable
  refine ⟨before, last, session, g, hreach, hlimits, hcall, ?_, hstuck.stuck hreached'⟩
  rw [hdefault, Nat.add_assoc, growth_defining session (by omega)]
  change _ ≤ 268435456
  omega

end PriorityFabric.Republication
