import PriorityFabric.Store

/-!
The runtime: lifecycle, authority, definitions and assignments.

Each call takes the time `now`.  The wall clock is read again for the second mutation of a
takeover and for a refusal that is recorded; the clock is taken to stand still within a call.
Statistics and locks carry no authoritative state and are left out.
-/

namespace PriorityFabric.Runtime

open PriorityFabric.Lib.LittleEndian
open PriorityFabric.Basics
open PriorityFabric.Ident
open PriorityFabric.Hashing
open PriorityFabric.Model
open PriorityFabric.State
open PriorityFabric.Apply
open PriorityFabric.Durability
open PriorityFabric.Store

/-- What a publisher holds after a grant. -/
structure Session where
  publisher : PublisherId := {}
  boot : BootId := {}
  epoch : FabricEpoch := {}
  token : FencingToken := {}
  deriving DecidableEq

structure RuntimeOptions where
  limits : Limits := {}
  createIfMissing : Bool := false
  exclusiveLock : Bool := true
  failOnDegraded : Bool := false
  advanceEpochOnOpen : Bool := false
  allowNewPublishers : Bool := true

/-- The options of the store under the runtime. -/
def RuntimeOptions.store (options : RuntimeOptions) : Options where
  limits := options.limits
  createIfMissing := options.createIfMissing
  exclusiveLock := options.exclusiveLock

structure FabricRuntime where
  state : StoreState
  limits : Limits
  allowNewPublishers : Bool
  closed : Bool := false

namespace FabricRuntime

def image (r : FabricRuntime) : StateImage := r.state.live

structure CommitOutcome where
  entityGeneration : Generation
  stateGeneration : Generation
  noop : Bool

/-- Journal and apply one mutation; report the generation the entity now holds. -/
def commitMutation (s : StoreState) (mutation : Mutation) :
    Result CommitOutcome × StoreState :=
  let noop := isIdempotent s.live mutation
  let entityGeneration := previewEntityGeneration s.live mutation
  match commit s mutation with
  | (.error e, s') => (.error e, s')
  | (.ok (), s') =>
      (.ok { entityGeneration, stateGeneration := s'.live.generation, noop }, s')

/-- Record a refused attempt in the in-memory audit ring; it is not journaled. -/
def recordRejection (image : StateImage) (limits : Limits) (op : Bytes)
    (status : Status) (actor : Session) (now : UInt64) : StateImage :=
  let sequence := image.nextAuditSequence
  let image := { image with nextAuditSequence := image.nextAuditSequence + 1 }
  appendAudit image
    { sequence := sequence
      op := op
      result := status.code
      detail := status.message
      provenance :=
        { publisher := actor.publisher
          boot := actor.boot
          epoch := actor.epoch
          token := actor.token
          stateGeneration := image.generation
          auditSequence := sequence
          recordedAtMs := now
          op := op }
      stateGeneration := image.generation } limits

def baseMutation (actor : Session) (op : MutationOp) (reason : Bytes) (now : UInt64) :
    Mutation where
  op := op
  epoch := actor.epoch
  publisher := actor.publisher
  boot := actor.boot
  token := actor.token
  recordedAtMs := now
  reason := reason

def sessionShapeValid (session : Session) : Bool :=
  session.publisher.valid && session.boot.valid && session.epoch.isEstablished &&
    session.token.isValid

def withState (r : FabricRuntime) (state : StoreState) : FabricRuntime := { r with state }

def rejectCall {α : Type} (r : FabricRuntime) (op : Bytes) (status : Status)
    (actor : Session) (now : UInt64) : Result α × FabricRuntime :=
  (.error status, r.withState { r.state with
    live := recordRejection r.state.live r.limits op status actor now })

/-- The epoch advance a new authority incarnation journals on opening.  It
carries no publisher. -/
def epochOnOpen (image : StateImage) (now : UInt64) : Mutation where
  op := .advanceEpoch
  epoch := image.epoch
  recordedAtMs := now
  reason := text "state directory opened by a new authority incarnation"
  system := true

/-- The runtime over a recovered store: the grants of the previous process have
expired. -/
def startRuntime (options : RuntimeOptions) (opened : Opened) : FabricRuntime where
  state := { dir := opened.dir, store := opened.store,
             live := normalizeImage { opened.image with limits := options.limits } }
  limits := options.limits
  allowNewPublishers := options.allowNewPublishers

/-- Advance the epoch as the last part of opening. -/
def advanceOnOpen (r : FabricRuntime) (now : UInt64) : Result FabricRuntime × Directory :=
  match commitMutation r.state (epochOnOpen r.image now) with
  | (.error e, state) => (.error e, state.dir)
  | (.ok _, state) => (.ok (r.withState state), state.dir)

/-- Open a state directory: recover it, expire the grants of the previous
process and, if asked to, advance the epoch. -/
def openRuntime (dir : Directory) (options : RuntimeOptions)
    (entropy : List.Vector UInt8 storeKeyBytes) (now : UInt64) :
    Result FabricRuntime × Directory :=
  if limitsWithinCompiledCeiling options.limits = false then
    (.error (makeError .limitExceeded
      (text "the requested limits exceed the compiled ceiling; the fabric refuses to " ++
        text "run with unbounded configuration")), dir)
  else
    match openStore dir options.store entropy with
    | .error e => (.error e, withLock dir options.store)
    | .ok opened =>
        if options.failOnDegraded && opened.report.health != .healthy then
          (.error (makeError .degraded
            (text "the durable state is degraded and fail_on_degraded is set: " ++
              opened.report.detail)), opened.dir)
        else
          let r := startRuntime options opened
          if options.advanceEpochOnOpen && r.image.epoch.isEstablished &&
              r.image.health == .healthy then advanceOnOpen r now
          else (.ok r, r.state.dir)

/-- Close the runtime: the store is released, and with it what it counted. -/
def close (r : FabricRuntime) : FabricRuntime :=
  if r.closed then r
  else { r with
    closed := true
    state := { r.state with store := { r.state.store with
      segmentOpen := false
      isOpen := false
      durableBytes := 0
      journalRecords := 0 } } }

/-- Another boot of the publisher holds a live grant. -/
def liveOtherIncarnation (image : StateImage) (publisher : PublisherId) (boot : BootId) :
    Bool :=
  image.authority.toList.any fun entry =>
    entry.1.publisher = publisher ∧ entry.1.boot ≠ boot ∧ entry.2.state = .granted

def knownPublisher (image : StateImage) (publisher : PublisherId) : Bool :=
  image.authority.toList.any fun entry => entry.1.publisher = publisher

/-- The session the fabric acts under when it grants authority. -/
def bootstrapSession (image : StateImage) (publisher : PublisherId) (boot : BootId) :
    Session where
  publisher := publisher
  boot := boot
  epoch := image.epoch
  token := ⟨image.nextFencingToken⟩

/-- Journal the grant itself and hand out the session. -/
def grant (r : FabricRuntime) (publisher : PublisherId) (boot : BootId) (now : UInt64) :
    Result Session × FabricRuntime :=
  let mutation := { baseMutation (bootstrapSession r.image publisher boot) .grantAuthority
    (text "authority granted") now with system := true }
  match commitMutation r.state mutation with
  | (.error e, state) => (.error e, r.withState state)
  | (.ok _, state) =>
      let r := r.withState state
      match r.image.authority[Incarnation.mk publisher boot]? with
      | none =>
          (.error (makeError .internal
            (text "the grant did not produce an authority record")), r)
      | some entry => (.ok ⟨publisher, boot, entry.epoch, entry.token⟩, r)

/-- Establish the epoch the first time and advance it when another incarnation
of the publisher is replaced, then grant. -/
def takeOver (r : FabricRuntime) (publisher : PublisherId) (boot : BootId)
    (now : UInt64) : Result Session × FabricRuntime :=
  let liveOther := liveOtherIncarnation r.image publisher boot
  if r.image.epoch.isEstablished = false ∨ liveOther = true then
    let reason := if liveOther then text "publisher incarnation replaced"
      else text "fabric epoch established"
    let mutation := { baseMutation (bootstrapSession r.image publisher boot) .advanceEpoch
      reason now with system := true }
    match commitMutation r.state mutation with
    | (.error e, state) => (.error e, r.withState state)
    | (.ok _, state) => grant (r.withState state) publisher boot now
  else grant r publisher boot now

def grantAuthority (r : FabricRuntime) (now : UInt64) (publisher : PublisherId)
    (boot : BootId) : Result Session × FabricRuntime :=
  if publisher.valid = false then
    (.error (makeError .malformedId (text "authority request carries no publisher id")), r)
  else if boot.valid = false then
    (.error (makeError .invalidArgument
      (text "authority request carries an all-zero boot id")), r)
  else if r.closed then
    (.error (makeError .notReady (text "the runtime is closed")), r)
  else if r.image.health ≠ .healthy then
    (.error (makeError .degraded r.image.healthDetail), r)
  else
    match r.image.authority[Incarnation.mk publisher boot]? with
    | some entry =>
        if entry.state = .fenced then
          (.error (makeError .fenced (text "publisher '" ++ publisher.value ++
            text "' incarnation " ++ boot.hex ++
            text " was fenced; it cannot be granted authority again")), r)
        else if entry.state = .granted ∧ entry.epoch = r.image.epoch then
          (.ok ⟨publisher, boot, entry.epoch, entry.token⟩, r)
        else takeOver r publisher boot now
    | none =>
        if knownPublisher r.image publisher = false ∧ r.allowNewPublishers = false then
          (.error (makeError .unauthorized (text "publisher '" ++ publisher.value ++
            text "' is not registered and this fabric does not accept new publishers")), r)
        else takeOver r publisher boot now

/-- The shared frame of the calls made under a session. -/
def underSession {α : Type} (r : FabricRuntime) (actor : Session)
    (body : Result α × FabricRuntime) : Result α × FabricRuntime :=
  if sessionShapeValid actor = false then
    (.error (makeError .unauthorized (text "the caller holds no usable session")), r)
  else if r.closed then
    (.error (makeError .notReady (text "the runtime is closed")), r)
  else body

/-- Commit a mutation for a caller; a refusal is recorded. -/
def publish {α : Type} (r : FabricRuntime) (now : UInt64) (actor : Session) (op : Bytes)
    (mutation : Mutation) (value : CommitOutcome → StateImage → α) :
    Result α × FabricRuntime :=
  match commitMutation r.state mutation with
  | (.error e, state) => (r.withState state).rejectCall op e actor now
  | (.ok outcome, state) => (.ok (value outcome state.live), r.withState state)

def advanceEpoch (r : FabricRuntime) (now : UInt64) (actor : Session) (reason : Bytes) :
    Result FabricEpoch × FabricRuntime :=
  underSession r actor <|
    publish r now actor (text "advance_epoch")
      (baseMutation actor .advanceEpoch
        (if reason.isEmpty then text "epoch advanced" else reason) now)
      fun _ image => image.epoch

def fence (r : FabricRuntime) (now : UInt64) (actor : Session) (publisher : PublisherId)
    (boot : BootId) (reason : Bytes) : Result Unit × FabricRuntime :=
  if sessionShapeValid actor = false then
    (.error (makeError .unauthorized (text "the caller holds no usable session")), r)
  else if publisher.valid = false ∨ boot.valid = false then
    (.error (makeError .invalidArgument
      (text "the fence request names no incarnation")), r)
  else if r.closed then
    (.error (makeError .notReady (text "the runtime is closed")), r)
  else
    publish r now actor (text "fence")
      (baseMutation actor (.fenceAuthority publisher boot)
        (if reason.isEmpty then text "fenced" else reason) now)
      fun _ _ => ()

def defineClass (r : FabricRuntime) (now : UInt64) (actor : Session)
    (definition : PriorityClassDef) : Result Generation × FabricRuntime :=
  underSession r actor <|
    publish r now actor (text "define_class")
      (baseMutation actor (.defineClass { definition with generation := .unset })
        (text "define class") now)
      fun outcome _ => outcome.entityGeneration

def defineScope (r : FabricRuntime) (now : UInt64) (actor : Session)
    (definition : PolicyScopeDef) : Result Generation × FabricRuntime :=
  underSession r actor <|
    publish r now actor (text "define_scope")
      (baseMutation actor (.defineScope { definition with generation := .unset })
        (text "define scope") now)
      fun outcome _ => outcome.entityGeneration

/-- A policy is bound to the current generation of its scope. -/
def definePolicy (r : FabricRuntime) (now : UInt64) (actor : Session)
    (definition : PolicyDef) : Result Generation × FabricRuntime :=
  underSession r actor <|
    match r.image.scopes[definition.scope]? with
    | none =>
        r.rejectCall (text "define_policy")
          (makeError .notFound (text "policy names scope '" ++ definition.scope.value ++
            text "' which is not defined")) actor now
    | some scope =>
        publish r now actor (text "define_policy")
          (baseMutation actor (.definePolicy { definition with
              generation := .unset
              scopeGeneration := scope.definition.generation })
            (text "define policy") now)
          fun outcome _ => outcome.entityGeneration

def defineSubject (r : FabricRuntime) (now : UInt64) (actor : Session)
    (definition : SubjectDef) : Result Generation × FabricRuntime :=
  underSession r actor <|
    publish r now actor (text "define_subject")
      (baseMutation actor (.defineSubject { definition with generation := .unset })
        (text "define subject") now)
      fun outcome _ => outcome.entityGeneration

/-- The refusal of an assignment that names something undefined. -/
def rejectUndefined (r : FabricRuntime) (now : UInt64) (actor : Session)
    (noun name : Bytes) : Result Generation × FabricRuntime :=
  r.rejectCall (text "assign")
    (makeError .notFound (text "assignment names " ++ noun ++ text " '" ++ name ++
      text "' which is not defined")) actor now

/-- An assignment is bound to the current generations of what it names. -/
def assign (r : FabricRuntime) (now : UInt64) (actor : Session)
    (assignment : PriorityAssignment) : Result Generation × FabricRuntime :=
  underSession r actor <|
    if assignment.kind = .default then
      (.error (makeError .invalidArgument
        (text "Default is produced by the fabric from a policy declaration and " ++
          text "cannot be published as an assignment")), r)
    else
      match r.image.subjects[assignment.subject]? with
      | none => rejectUndefined r now actor (text "subject") assignment.subject.value
      | some subject =>
        match r.image.scopes[assignment.scope]? with
        | none => rejectUndefined r now actor (text "scope") assignment.scope.value
        | some scope =>
          match r.image.classes[assignment.cls]? with
          | none => rejectUndefined r now actor (text "class") assignment.cls.value
          | some cls =>
            let stamped := { assignment with
              generation := .unset
              subjectGeneration := subject.definition.generation
              scopeGeneration := scope.definition.generation
              classGeneration := cls.definition.generation }
            match assignment.policy with
            | none =>
                publish r now actor (text "assign")
                  (baseMutation actor (.assign { stamped with policyGeneration := .unset })
                    (text "assign") now)
                  fun outcome _ => outcome.entityGeneration
            | some policy =>
                match r.image.policies[policy]? with
                | none => rejectUndefined r now actor (text "policy") policy.value
                | some entry =>
                    publish r now actor (text "assign")
                      (baseMutation actor (.assign { stamped with
                          policyGeneration := entry.definition.generation })
                        (text "assign") now)
                      fun outcome _ => outcome.entityGeneration

def retireAssignment (r : FabricRuntime) (now : UInt64) (actor : Session)
    (id : PriorityAssignmentId) (reason : Bytes) : Result Generation × FabricRuntime :=
  underSession r actor <|
    publish r now actor (text "retire_assignment")
      (baseMutation actor (.retireAssignment id)
        (if reason.isEmpty then text "retired" else reason) now)
      fun outcome _ => outcome.entityGeneration

/-- Compare the live image with a fresh replay of the durable bytes. -/
def integrityReport (r : FabricRuntime) : IntegrityReport × FabricRuntime :=
  if r.closed then
    ({ ok := false, health := .degraded, detail := text "the runtime is closed" }, r)
  else
    match verify r.state with
    | .error e => ({ ok := false, health := .degraded, detail := e.message }, r)
    | .ok (report, dir) => (report, r.withState { r.state with dir })

def checkpointRuntime (r : FabricRuntime) : Result Generation × FabricRuntime :=
  if r.closed then (.error (makeError .notReady (text "the runtime is closed")), r)
  else
    match checkpoint r.state with
    | (status, state) => (status, r.withState state)

end FabricRuntime

end PriorityFabric.Runtime
