import PriorityFabric.Lib.Tallied
import PriorityFabric.Connections
import PriorityFabric.Replies
import PriorityFabric.Authority
import PriorityFabric.Trails

/-!
The counters of the runtime.

Every call is made as before and counted beside it.  Over every run the counters agree with
what the state says: epochs and tokens move as often as they are counted.
-/

namespace PriorityFabric.Metering

open PriorityFabric.Lib.LittleEndian
open PriorityFabric.Basics
open PriorityFabric.Ident
open PriorityFabric.Model
open PriorityFabric.State
open PriorityFabric.Validate
open PriorityFabric.Apply hiding perform
open PriorityFabric.Readable (plannedGeneration)
open PriorityFabric.ApplyFacts
open PriorityFabric.Durability
open PriorityFabric.Store
open PriorityFabric.Serving
open PriorityFabric.Runtime
open PriorityFabric.Runtime.FabricRuntime
open PriorityFabric.Calls
open PriorityFabric.Lifetimes
open PriorityFabric.Lib.Tallied
open PriorityFabric.Authority (Fenced)
open PriorityFabric.Trails (image_integrityReport image_checkpointRuntime image_close)
open PriorityFabric.Node (FabricNode)
open PriorityFabric.Replies (FabricStats stateStats)

/-! ## Counting -/

def countAccepted (stats : FabricStats) : FabricStats :=
  { stats with
    mutationsAccepted := stats.mutationsAccepted + 1
    durableCommits := stats.durableCommits + 1 }

def countRejected (stats : FabricStats) : FabricStats :=
  { stats with mutationsRejected := stats.mutationsRejected + 1 }

def countNoop (outcome : CommitOutcome) (stats : FabricStats) : FabricStats :=
  { stats with idempotentNoops := stats.idempotentNoops + if outcome.noop then 1 else 0 }

def countEpoch (stats : FabricStats) : FabricStats :=
  { stats with epochAdvances := stats.epochAdvances + 1 }

def countGrant (stats : FabricStats) : FabricStats :=
  { stats with authoritiesGranted := stats.authoritiesGranted + 1 }

/-- Only a fence of an incarnation that was not fenced is counted as issued. -/
def countFence (alreadyFenced : Bool) (stats : FabricStats) : FabricStats :=
  if alreadyFenced then stats else { stats with fencesIssued := stats.fencesIssued + 1 }

def countOutcome (outcome : Outcome) (stats : FabricStats) : FabricStats :=
  let stats := { stats with evaluations := stats.evaluations + 1 }
  match outcome with
  | .assigned => { stats with evaluationsAssigned := stats.evaluationsAssigned + 1 }
  | .inherited => { stats with evaluationsInherited := stats.evaluationsInherited + 1 }
  | .overridden => { stats with evaluationsOverridden := stats.evaluationsOverridden + 1 }
  | .conflict => { stats with evaluationsConflict := stats.evaluationsConflict + 1 }
  | .unknown => { stats with evaluationsUnknown := stats.evaluationsUnknown + 1 }
  | .stale => { stats with evaluationsStale := stats.evaluationsStale + 1 }
  | .fenced => { stats with evaluationsFenced := stats.evaluationsFenced + 1 }
  | .rejected => { stats with evaluationsRejected := stats.evaluationsRejected + 1 }

/-! ## Counted calls -/

def alreadyFenced (image : StateImage) (publisher : PublisherId) (boot : BootId) : Bool :=
  (image.authority[Incarnation.mk publisher boot]?).any fun entry => entry.state = .fenced

/-- A runtime and its counters. -/
structure Metered where
  runtime : FabricRuntime
  stats : FabricStats := {}

namespace Metered

def reject {α : Type} (m : Metered) (op : Bytes) (status : Status) (actor : Session)
    (now : UInt64) : Result α × Metered :=
  let rejected := m.runtime.rejectCall op status actor now
  (rejected.1, ⟨rejected.2, countRejected m.stats⟩)

def publish {α : Type} (m : Metered) (now : UInt64) (actor : Session) (op : Bytes)
    (mutation : Mutation) (count : CommitOutcome → FabricStats → FabricStats)
    (value : CommitOutcome → StateImage → α) : Result α × Metered :=
  match commitMutation m.runtime.state mutation with
  | (.error e, state) => reject ⟨m.runtime.withState state, m.stats⟩ op e actor now
  | (.ok outcome, state) =>
      (.ok (value outcome state.live),
        ⟨m.runtime.withState state, count outcome (countAccepted m.stats)⟩)

def underSession {α : Type} (m : Metered) (actor : Session) (body : Result α × Metered) :
    Result α × Metered :=
  if sessionShapeValid actor = false then
    (.error (makeError .unauthorized (text "the caller holds no usable session")), m)
  else if m.runtime.closed then
    (.error (makeError .notReady (text "the runtime is closed")), m)
  else body

def advanceEpoch (m : Metered) (now : UInt64) (actor : Session) (reason : Bytes) :
    Result FabricEpoch × Metered :=
  underSession m actor <|
    publish m now actor (text "advance_epoch")
      (baseMutation actor .advanceEpoch
        (if reason.isEmpty then text "epoch advanced" else reason) now)
      (fun _ => countEpoch) fun _ image => image.epoch

def fence (m : Metered) (now : UInt64) (actor : Session) (publisher : PublisherId)
    (boot : BootId) (reason : Bytes) : Result Unit × Metered :=
  if sessionShapeValid actor = false then
    (.error (makeError .unauthorized (text "the caller holds no usable session")), m)
  else if publisher.valid = false ∨ boot.valid = false then
    (.error (makeError .invalidArgument
      (text "the fence request names no incarnation")), m)
  else if m.runtime.closed then
    (.error (makeError .notReady (text "the runtime is closed")), m)
  else
    publish m now actor (text "fence")
      (baseMutation actor (.fenceAuthority publisher boot)
        (if reason.isEmpty then text "fenced" else reason) now)
      (fun _ => countFence (alreadyFenced m.runtime.image publisher boot)) fun _ _ => ()

def defineClass (m : Metered) (now : UInt64) (actor : Session)
    (definition : PriorityClassDef) : Result Generation × Metered :=
  underSession m actor <|
    publish m now actor (text "define_class")
      (baseMutation actor (.defineClass { definition with generation := .unset })
        (text "define class") now)
      countNoop fun outcome _ => outcome.entityGeneration

def defineScope (m : Metered) (now : UInt64) (actor : Session)
    (definition : PolicyScopeDef) : Result Generation × Metered :=
  underSession m actor <|
    publish m now actor (text "define_scope")
      (baseMutation actor (.defineScope { definition with generation := .unset })
        (text "define scope") now)
      countNoop fun outcome _ => outcome.entityGeneration

def definePolicy (m : Metered) (now : UInt64) (actor : Session)
    (definition : PolicyDef) : Result Generation × Metered :=
  underSession m actor <|
    match m.runtime.image.scopes[definition.scope]? with
    | none =>
        m.reject (text "define_policy")
          (makeError .notFound (text "policy names scope '" ++ definition.scope.value ++
            text "' which is not defined")) actor now
    | some scope =>
        publish m now actor (text "define_policy")
          (baseMutation actor (.definePolicy { definition with
              generation := .unset
              scopeGeneration := scope.definition.generation })
            (text "define policy") now)
          countNoop fun outcome _ => outcome.entityGeneration

def defineSubject (m : Metered) (now : UInt64) (actor : Session)
    (definition : SubjectDef) : Result Generation × Metered :=
  underSession m actor <|
    publish m now actor (text "define_subject")
      (baseMutation actor (.defineSubject { definition with generation := .unset })
        (text "define subject") now)
      countNoop fun outcome _ => outcome.entityGeneration

def rejectUndefined (m : Metered) (now : UInt64) (actor : Session)
    (noun name : Bytes) : Result Generation × Metered :=
  m.reject (text "assign")
    (makeError .notFound (text "assignment names " ++ noun ++ text " '" ++ name ++
      text "' which is not defined")) actor now

def assign (m : Metered) (now : UInt64) (actor : Session)
    (assignment : PriorityAssignment) : Result Generation × Metered :=
  underSession m actor <|
    if assignment.kind = .default then
      (.error (makeError .invalidArgument
        (text "Default is produced by the fabric from a policy declaration and " ++
          text "cannot be published as an assignment")), m)
    else
      match m.runtime.image.subjects[assignment.subject]? with
      | none => rejectUndefined m now actor (text "subject") assignment.subject.value
      | some subject =>
        match m.runtime.image.scopes[assignment.scope]? with
        | none => rejectUndefined m now actor (text "scope") assignment.scope.value
        | some scope =>
          match m.runtime.image.classes[assignment.cls]? with
          | none => rejectUndefined m now actor (text "class") assignment.cls.value
          | some cls =>
            let stamped := { assignment with
              generation := .unset
              subjectGeneration := subject.definition.generation
              scopeGeneration := scope.definition.generation
              classGeneration := cls.definition.generation }
            match assignment.policy with
            | none =>
                publish m now actor (text "assign")
                  (baseMutation actor (.assign { stamped with policyGeneration := .unset })
                    (text "assign") now)
                  countNoop fun outcome _ => outcome.entityGeneration
            | some policy =>
                match m.runtime.image.policies[policy]? with
                | none => rejectUndefined m now actor (text "policy") policy.value
                | some entry =>
                    publish m now actor (text "assign")
                      (baseMutation actor (.assign { stamped with
                          policyGeneration := entry.definition.generation })
                        (text "assign") now)
                      countNoop fun outcome _ => outcome.entityGeneration

def retireAssignment (m : Metered) (now : UInt64) (actor : Session)
    (id : PriorityAssignmentId) (reason : Bytes) : Result Generation × Metered :=
  underSession m actor <|
    publish m now actor (text "retire_assignment")
      (baseMutation actor (.retireAssignment id)
        (if reason.isEmpty then text "retired" else reason) now)
      countNoop fun outcome _ => outcome.entityGeneration

/-- The grant itself; a refusal is counted but not recorded. -/
def grant (m : Metered) (publisher : PublisherId) (boot : BootId) (now : UInt64) :
    Result Session × Metered :=
  let mutation := { baseMutation (bootstrapSession m.runtime.image publisher boot)
    .grantAuthority (text "authority granted") now with system := true }
  match commitMutation m.runtime.state mutation with
  | (.error e, state) => (.error e, ⟨m.runtime.withState state, countRejected m.stats⟩)
  | (.ok _, state) =>
      let r := m.runtime.withState state
      match r.image.authority[Incarnation.mk publisher boot]? with
      | none =>
          (.error (makeError .internal
            (text "the grant did not produce an authority record")), ⟨r, m.stats⟩)
      | some entry =>
          (.ok ⟨publisher, boot, entry.epoch, entry.token⟩,
            ⟨r, countGrant (countAccepted m.stats)⟩)

def takeOver (m : Metered) (publisher : PublisherId) (boot : BootId) (now : UInt64) :
    Result Session × Metered :=
  let liveOther := liveOtherIncarnation m.runtime.image publisher boot
  if m.runtime.image.epoch.isEstablished = false ∨ liveOther = true then
    let reason := if liveOther then text "publisher incarnation replaced"
      else text "fabric epoch established"
    let mutation := { baseMutation (bootstrapSession m.runtime.image publisher boot)
      .advanceEpoch reason now with system := true }
    match commitMutation m.runtime.state mutation with
    | (.error e, state) => (.error e, ⟨m.runtime.withState state, countRejected m.stats⟩)
    | (.ok _, state) =>
        grant ⟨m.runtime.withState state, countEpoch (countAccepted m.stats)⟩ publisher boot now
  else grant m publisher boot now

def grantAuthority (m : Metered) (now : UInt64) (publisher : PublisherId) (boot : BootId) :
    Result Session × Metered :=
  if publisher.valid = false then
    (.error (makeError .malformedId (text "authority request carries no publisher id")), m)
  else if boot.valid = false then
    (.error (makeError .invalidArgument
      (text "authority request carries an all-zero boot id")), m)
  else if m.runtime.closed then
    (.error (makeError .notReady (text "the runtime is closed")), m)
  else if m.runtime.image.health ≠ .healthy then
    (.error (makeError .degraded m.runtime.image.healthDetail), m)
  else
    match m.runtime.image.authority[Incarnation.mk publisher boot]? with
    | some entry =>
        if entry.state = .fenced then
          (.error (makeError .fenced (text "publisher '" ++ publisher.value ++
            text "' incarnation " ++ boot.hex ++
            text " was fenced; it cannot be granted authority again")), m)
        else if entry.state = .granted ∧ entry.epoch = m.runtime.image.epoch then
          (.ok ⟨publisher, boot, entry.epoch, entry.token⟩, m)
        else takeOver m publisher boot now
    | none =>
        if knownPublisher m.runtime.image publisher = false ∧
            m.runtime.allowNewPublishers = false then
          (.error (makeError .unauthorized (text "publisher '" ++ publisher.value ++
            text "' is not registered and this fabric does not accept new publishers")), m)
        else takeOver m publisher boot now

/-- A query is answered from the runtime as it is, and counted by its outcome. -/
def evaluate (m : Metered) (query : PriorityQuery) : PriorityDecision × Metered :=
  let decision := FabricNode.evaluate m.runtime query
  (decision, { m with stats := countOutcome decision.outcome m.stats })

end Metered

/-! ## The calls are those of the runtime -/

def erase {α : Type} (result : Result α × Metered) : Result α × FabricRuntime :=
  (result.1, result.2.runtime)

section Erasure

variable {α : Type} (m : Metered)

theorem erase_publish (now : UInt64) (actor : Session) (op : Bytes) (mutation : Mutation)
    (count : CommitOutcome → FabricStats → FabricStats)
    (value : CommitOutcome → StateImage → α) :
    erase (m.publish now actor op mutation count value) =
      m.runtime.publish now actor op mutation value := by
  unfold Metered.publish FabricRuntime.publish
  generalize commitMutation m.runtime.state mutation = committed
  obtain ⟨status, state⟩ := committed
  cases status with
  | error e => rfl
  | ok outcome => rfl

theorem erase_underSession (actor : Session) (body : Result α × Metered) :
    erase (m.underSession actor body) = m.runtime.underSession actor (erase body) := by
  unfold Metered.underSession FabricRuntime.underSession
  split
  · rfl
  · split <;> rfl

theorem erase_advanceEpoch (now : UInt64) (actor : Session) (reason : Bytes) :
    erase (m.advanceEpoch now actor reason) = m.runtime.advanceEpoch now actor reason := by
  unfold Metered.advanceEpoch FabricRuntime.advanceEpoch
  rw [erase_underSession, erase_publish]

theorem erase_fence (now : UInt64) (actor : Session) (publisher : PublisherId) (boot : BootId)
    (reason : Bytes) :
    erase (m.fence now actor publisher boot reason) =
      m.runtime.fence now actor publisher boot reason := by
  unfold Metered.fence FabricRuntime.fence
  split
  · rfl
  · split
    · rfl
    · split
      · rfl
      · exact erase_publish m _ _ _ _ _ _

theorem erase_defineClass (now : UInt64) (actor : Session) (d : PriorityClassDef) :
    erase (m.defineClass now actor d) = m.runtime.defineClass now actor d := by
  unfold Metered.defineClass FabricRuntime.defineClass
  rw [erase_underSession, erase_publish]

theorem erase_defineScope (now : UInt64) (actor : Session) (d : PolicyScopeDef) :
    erase (m.defineScope now actor d) = m.runtime.defineScope now actor d := by
  unfold Metered.defineScope FabricRuntime.defineScope
  rw [erase_underSession, erase_publish]

theorem erase_definePolicy (now : UInt64) (actor : Session) (d : PolicyDef) :
    erase (m.definePolicy now actor d) = m.runtime.definePolicy now actor d := by
  unfold Metered.definePolicy FabricRuntime.definePolicy
  rw [erase_underSession]
  congr 1
  cases m.runtime.image.scopes[d.scope]? with
  | none => rfl
  | some scope => exact erase_publish m _ _ _ _ _ _

theorem erase_defineSubject (now : UInt64) (actor : Session) (d : SubjectDef) :
    erase (m.defineSubject now actor d) = m.runtime.defineSubject now actor d := by
  unfold Metered.defineSubject FabricRuntime.defineSubject
  rw [erase_underSession, erase_publish]

theorem erase_assign (now : UInt64) (actor : Session) (a : PriorityAssignment) :
    erase (m.assign now actor a) = m.runtime.assign now actor a := by
  unfold Metered.assign FabricRuntime.assign
  rw [erase_underSession]
  congr 1
  split
  · rfl
  · cases m.runtime.image.subjects[a.subject]? with
    | none => rfl
    | some subject =>
        cases m.runtime.image.scopes[a.scope]? with
        | none => rfl
        | some scope =>
            cases m.runtime.image.classes[a.cls]? with
            | none => rfl
            | some cls =>
                cases a.policy with
                | none => exact erase_publish m _ _ _ _ _ _
                | some policy =>
                    simp only
                    cases m.runtime.image.policies[policy]? with
                    | none => rfl
                    | some entry => exact erase_publish m _ _ _ _ _ _

theorem erase_retireAssignment (now : UInt64) (actor : Session) (id : PriorityAssignmentId)
    (reason : Bytes) :
    erase (m.retireAssignment now actor id reason) =
      m.runtime.retireAssignment now actor id reason := by
  unfold Metered.retireAssignment FabricRuntime.retireAssignment
  rw [erase_underSession, erase_publish]

theorem erase_grant (publisher : PublisherId) (boot : BootId) (now : UInt64) :
    erase (m.grant publisher boot now) = m.runtime.grant publisher boot now := by
  unfold Metered.grant FabricRuntime.grant
  simp only
  generalize commitMutation m.runtime.state _ = committed
  obtain ⟨status, state⟩ := committed
  cases status with
  | error e => rfl
  | ok outcome =>
      simp only
      cases (m.runtime.withState state).image.authority[Incarnation.mk publisher boot]? with
      | none => rfl
      | some entry => rfl

theorem erase_takeOver (publisher : PublisherId) (boot : BootId) (now : UInt64) :
    erase (m.takeOver publisher boot now) = m.runtime.takeOver publisher boot now := by
  unfold Metered.takeOver FabricRuntime.takeOver
  simp only
  split
  · generalize commitMutation m.runtime.state _ = committed
    obtain ⟨status, state⟩ := committed
    cases status with
    | error e => rfl
    | ok outcome => exact erase_grant ⟨_, _⟩ publisher boot now
  · exact erase_grant m publisher boot now

theorem erase_grantAuthority (now : UInt64) (publisher : PublisherId) (boot : BootId) :
    erase (m.grantAuthority now publisher boot) =
      m.runtime.grantAuthority now publisher boot := by
  have htake := erase_takeOver m publisher boot now
  unfold Metered.grantAuthority FabricRuntime.grantAuthority
  split
  · rfl
  · split
    · rfl
    · split
      · rfl
      · split
        · rfl
        · cases m.runtime.image.authority[Incarnation.mk publisher boot]? with
          | none =>
              simp only
              split
              · rfl
              · exact htake
          | some entry =>
              simp only
              split
              · rfl
              · split
                · rfl
                · exact htake

end Erasure

/-! ## Balances -/

def evaluationsByOutcome (stats : FabricStats) : UInt64 :=
  stats.evaluationsAssigned + stats.evaluationsInherited + stats.evaluationsOverridden +
    stats.evaluationsConflict + stats.evaluationsUnknown + stats.evaluationsStale +
    stats.evaluationsFenced + stats.evaluationsRejected

def isFenced (entry : AuthorityEntry) : Bool := entry.state = .fenced

def fencedBoots (image : StateImage) : UInt64 := UInt64.ofNat (tally isFenced image.authority)

/-- What is left of the state when the counters are taken off. -/
structure Balance where
  epochs : UInt64
  tokens : UInt64
  generations : UInt64
  fences : UInt64
  commits : UInt64
  evaluations : UInt64

def balance (image : StateImage) (stats : FabricStats) : Balance where
  epochs := image.epoch.value - stats.epochAdvances
  tokens := image.nextFencingToken - stats.authoritiesGranted
  generations := image.generation.value - (stats.mutationsAccepted - stats.idempotentNoops)
  fences := fencedBoots image - stats.fencesIssued
  commits := stats.durableCommits - stats.mutationsAccepted
  evaluations := stats.evaluations - evaluationsByOutcome stats

/-- What one committed mutation does to the numbers of the state. -/
structure Adds (a b : StateImage) (epochs tokens fences noops : UInt64) : Prop where
  epochs : b.epoch.value = a.epoch.value + epochs
  tokens : b.nextFencingToken = a.nextFencingToken + tokens
  fences : fencedBoots b = fencedBoots a + fences
  generations : b.generation.value + noops = a.generation.value + 1

/-- How one committed mutation is counted. -/
structure Counted (s t : FabricStats) (epochs tokens fences noops : UInt64) : Prop where
  epochs : t.epochAdvances = s.epochAdvances + epochs
  tokens : t.authoritiesGranted = s.authoritiesGranted + tokens
  fences : t.fencesIssued = s.fencesIssued + fences
  noops : t.idempotentNoops = s.idempotentNoops + noops
  accepted : t.mutationsAccepted = s.mutationsAccepted + 1
  commits : t.durableCommits = s.durableCommits + 1
  evaluations : t.evaluations = s.evaluations
  byOutcome : evaluationsByOutcome t = evaluationsByOutcome s

section Balances

variable {a b : StateImage} {s t : FabricStats} {mutation : Mutation}

theorem add_sub_add (x y z : UInt64) : (x + z) - (y + z) = x - y := by
  grind

theorem balance_of_adds {epochs tokens fences noops : UInt64}
    (h : Adds a b epochs tokens fences noops) (h' : Counted s t epochs tokens fences noops) :
    balance b t = balance a s := by
  have hgenerations : b.generation.value - (t.mutationsAccepted - t.idempotentNoops) =
      a.generation.value - (s.mutationsAccepted - s.idempotentNoops) := by
    have hadds := h.generations
    rw [h'.accepted, h'.noops]
    grind
  unfold balance
  rw [hgenerations, h.epochs, h'.epochs, add_sub_add, h.tokens, h'.tokens, add_sub_add,
    h.fences, h'.fences, add_sub_add, h'.commits, h'.accepted, add_sub_add, h'.evaluations,
    h'.byOutcome]

theorem balance_of_sameRecord (h : SameRecord b a) (s : FabricStats) :
    balance b s = balance a s := by
  unfold balance fencedBoots
  rw [h.epoch, h.nextFencingToken, h.generation, h.authority]

theorem evaluations_countOutcome (outcome : Outcome) (s : FabricStats) :
    (countOutcome outcome s).evaluations = s.evaluations + 1 := by
  cases outcome <;> rfl

theorem evaluationsByOutcome_countOutcome (outcome : Outcome) (s : FabricStats) :
    evaluationsByOutcome (countOutcome outcome s) = evaluationsByOutcome s + 1 := by
  cases outcome
  all_goals
    simp only [countOutcome, evaluationsByOutcome]
    grind

theorem balance_outcome (a : StateImage) (s : FabricStats) (outcome : Outcome) :
    balance a (countOutcome outcome s) = balance a s := by
  have hevaluations : (countOutcome outcome s).evaluations -
      evaluationsByOutcome (countOutcome outcome s) =
      s.evaluations - evaluationsByOutcome s := by
    rw [evaluations_countOutcome, evaluationsByOutcome_countOutcome, add_sub_add]
  have hrest : balance a (countOutcome outcome s) =
      { balance a s with evaluations := (countOutcome outcome s).evaluations -
        evaluationsByOutcome (countOutcome outcome s) } := by
    cases outcome <;> rfl
  rw [hrest, hevaluations]
  rfl

theorem eq_add_one {x y : UInt64} (h : y.toNat = x.toNat + 1) : y = x + 1 := by
  have hlt := y.toNat_lt
  apply UInt64.toNat_inj.mp
  rw [h, UInt64.toNat_add, UInt64.toNat_one, Nat.mod_eq_of_lt (by omega)]

theorem generation_of_apply
    (h : applyMutation a (planOf a mutation) false = (.ok (), b)) :
    b.generation.value + (if isIdempotent a mutation then 1 else 0) = a.generation.value + 1 := by
  have hsame : isIdempotent a (planOf a mutation) = isIdempotent a mutation := rfl
  obtain ⟨expected, hadmissible, -⟩ := applyMutation_eq_ok_iff.mp h
  rw [applyMutation_generation h, plannedGeneration, hsame]
  cases hnoop : isIdempotent a mutation with
  | true => rfl
  | false =>
      cases hnext : a.generation.next with
      | none => exact absurd hnext (hadmissible.next_exists (hsame.trans hnoop))
      | some generation =>
          simp only [Bool.false_eq_true, if_false, Option.getD_some]
          rw [eq_add_one (next_value hnext), UInt64.add_zero]

theorem isFenced_supersede (publisher : PublisherId) (boot : BootId) (key : Incarnation)
    (entry : AuthorityEntry) : isFenced (supersede publisher boot key entry) = isFenced entry := by
  unfold supersede
  split
  · rename_i h
    simp [isFenced, h.2.2]
  · rfl

theorem isFenced_expireStale (epoch : FabricEpoch) (entry : AuthorityEntry) :
    isFenced (expireStale epoch entry) = isFenced entry := by
  unfold expireStale
  split
  · rename_i h
    simp [isFenced, h.1]
  · rfl

theorem fencedBoots_fence (publisher : PublisherId) (boot : BootId) (provenance : Provenance)
    (h : b.authority = (Apply.fenceAuthority a publisher boot provenance).authority) :
    fencedBoots b = fencedBoots a + if alreadyFenced a publisher boot then 0 else 1 := by
  obtain ⟨entry, hfenced, hinsert⟩ : ∃ entry, isFenced entry = true ∧
      b.authority = a.authority.insert ⟨publisher, boot⟩ entry := by
    refine ⟨_, ?_, h⟩
    split <;> rfl
  have hbefore := tally_erase (p := isFenced) a.authority ⟨publisher, boot⟩
  have halready : (a.authority[Incarnation.mk publisher boot]?).any isFenced =
      alreadyFenced a publisher boot := rfl
  unfold fencedBoots
  rw [hinsert, tally_insert, hfenced, if_pos rfl, hbefore, halready]
  cases alreadyFenced a publisher boot with
  | true => exact (UInt64.add_zero _).symm
  | false => exact UInt64.ofNat_add _ _

theorem fencedBoots_grant {mutation : Mutation} {entry : AuthorityEntry}
    (hentry : isFenced entry = false) (hvalid : validateGrant a mutation = .ok ())
    (h : b.authority = (a.authority.map (supersede mutation.publisher mutation.boot)).insert
      ⟨mutation.publisher, mutation.boot⟩ entry) :
    fencedBoots b = fencedBoots a := by
  have hkept := tally_map (isFenced_supersede mutation.publisher mutation.boot) a.authority
  have hbefore := tally_erase (p := isFenced)
    (a.authority.map (supersede mutation.publisher mutation.boot))
    ⟨mutation.publisher, mutation.boot⟩
  have hnot : ((a.authority.map (supersede mutation.publisher mutation.boot))[
      Incarnation.mk mutation.publisher mutation.boot]?).any isFenced = false := by
    rw [Std.ExtTreeMap.getElem?_map]
    cases hold : a.authority[Incarnation.mk mutation.publisher mutation.boot]? with
    | none => rfl
    | some old =>
        rw [Option.map_some, Option.any_some, isFenced_supersede]
        refine decide_eq_false fun hfenced => ?_
        exact Fenced.not_granted ⟨old, hold, hfenced⟩ hvalid rfl
  unfold fencedBoots
  rw [h, tally_insert, hentry, ← hkept, hbefore, hnot]

theorem adds_noop (hop : governs mutation.op = false)
    (happly : applyMutation a (planOf a mutation) false = (.ok (), b)) :
    Adds a b 0 0 0 (if isIdempotent a mutation then 1 else 0) := by
  have hgenerations := generation_of_apply happly
  cases applyMutation_governed happly with
  | kept _ hepoch htoken hauthority =>
      refine ⟨?_, ?_, ?_, hgenerations⟩
      · rw [hepoch, UInt64.add_zero]
      · rw [htoken, UInt64.add_zero]
      · unfold fencedBoots
        rw [hauthority, UInt64.add_zero]
  | granted _ hgrant =>
      change mutation.op = _ at hgrant
      rw [hgrant] at hop
      cases hop
  | fenced _ _ _ hfence =>
      change mutation.op = _ at hfence
      rw [hfence] at hop
      cases hop
  | advanced _ hadvance =>
      change mutation.op = _ at hadvance
      rw [hadvance] at hop
      cases hop

theorem generation_of_governing (hop : governs mutation.op = true)
    (happly : applyMutation a (planOf a mutation) false = (.ok (), b)) :
    b.generation.value + 0 = a.generation.value + 1 := by
  have hfresh : isIdempotent a mutation = false := by
    cases hcase : mutation.op with
    | grantAuthority => rw [isIdempotent, hcase]
    | fenceAuthority publisher boot => rw [isIdempotent, hcase]
    | advanceEpoch => rw [isIdempotent, hcase]
    | _ =>
        rw [hcase] at hop
        cases hop
  have hgeneration := generation_of_apply happly
  rwa [hfresh] at hgeneration

theorem adds_fence {publisher : PublisherId} {boot : BootId}
    (hop : mutation.op = .fenceAuthority publisher boot)
    (happly : applyMutation a (planOf a mutation) false = (.ok (), b)) :
    Adds a b 0 0 (if alreadyFenced a publisher boot then 0 else 1) 0 := by
  have hgenerations := generation_of_governing (by rw [hop]; rfl) happly
  cases applyMutation_governed happly with
  | kept hkept =>
      change governs mutation.op = false at hkept
      rw [hop] at hkept
      cases hkept
  | granted _ hgrant => cases hop.symm.trans hgrant
  | fenced _ _ provenance hfence hepoch htoken hauthority =>
      cases hop.symm.trans hfence
      refine ⟨?_, ?_, fencedBoots_fence publisher boot provenance hauthority, hgenerations⟩
      · rw [hepoch, UInt64.add_zero]
      · rw [htoken, UInt64.add_zero]
  | advanced _ hadvance => cases hop.symm.trans hadvance

theorem adds_epoch (hop : mutation.op = .advanceEpoch)
    (happly : applyMutation a (planOf a mutation) false = (.ok (), b)) : Adds a b 1 0 0 0 := by
  have hgenerations := generation_of_governing (by rw [hop]; rfl) happly
  cases applyMutation_governed happly with
  | kept hkept =>
      change governs mutation.op = false at hkept
      rw [hop] at hkept
      cases hkept
  | granted _ hgrant => cases hop.symm.trans hgrant
  | fenced _ _ _ hfence => cases hop.symm.trans hfence
  | advanced epoch _ hnext hepoch htoken hauthority =>
      refine ⟨?_, ?_, ?_, hgenerations⟩
      · rw [hepoch, eq_add_one (epoch_next_value hnext)]
      · rw [htoken, UInt64.add_zero]
      · unfold fencedBoots
        rw [hauthority, tally_map fun _ => isFenced_expireStale epoch, UInt64.add_zero]

theorem adds_grant (hop : mutation.op = .grantAuthority)
    (happly : applyMutation a (planOf a mutation) false = (.ok (), b)) : Adds a b 0 1 0 0 := by
  have hgenerations := generation_of_governing (by rw [hop]; rfl) happly
  cases applyMutation_governed happly with
  | kept hkept =>
      change governs mutation.op = false at hkept
      rw [hop] at hkept
      cases hkept
  | granted provenance _ hvalid hepoch _ _ htoken hauthority =>
      refine ⟨?_, htoken, ?_, hgenerations⟩
      · rw [hepoch, UInt64.add_zero]
      · rw [fencedBoots_grant rfl hvalid hauthority, UInt64.add_zero]
  | fenced _ _ _ hfence => cases hop.symm.trans hfence
  | advanced _ hadvance => cases hop.symm.trans hadvance

theorem counted_noop (s : FabricStats) (outcome : CommitOutcome) :
    Counted s (countNoop outcome (countAccepted s)) 0 0 0 (if outcome.noop then 1 else 0) :=
  ⟨(UInt64.add_zero _).symm, (UInt64.add_zero _).symm, (UInt64.add_zero _).symm, rfl, rfl, rfl,
    rfl, rfl⟩

theorem counted_fence (s : FabricStats) (already : Bool) :
    Counted s (countFence already (countAccepted s)) 0 0 (if already then 0 else 1) 0 := by
  cases already with
  | true =>
      exact ⟨(UInt64.add_zero _).symm, (UInt64.add_zero _).symm, (UInt64.add_zero _).symm,
        (UInt64.add_zero _).symm, rfl, rfl, rfl, rfl⟩
  | false =>
      exact ⟨(UInt64.add_zero _).symm, (UInt64.add_zero _).symm, rfl, (UInt64.add_zero _).symm,
        rfl, rfl, rfl, rfl⟩

theorem counted_epoch (s : FabricStats) : Counted s (countEpoch (countAccepted s)) 1 0 0 0 :=
  ⟨rfl, (UInt64.add_zero _).symm, (UInt64.add_zero _).symm, (UInt64.add_zero _).symm, rfl, rfl,
    rfl, rfl⟩

theorem counted_grant (s : FabricStats) : Counted s (countGrant (countAccepted s)) 0 1 0 0 :=
  ⟨(UInt64.add_zero _).symm, rfl, (UInt64.add_zero _).symm, (UInt64.add_zero _).symm, rfl, rfl,
    rfl, rfl⟩

end Balances

/-! ## What a call counts -/

def Counts {α : Type} (m : Metered) (result : Result α × Metered) : Prop :=
  balance result.2.runtime.image result.2.stats = balance m.runtime.image m.stats

section Counting

variable {α : Type} {m : Metered}

theorem counts_reject (op : Bytes) (status : Status) (actor : Session) (now : UInt64) :
    Counts m (m.reject (α := α) op status actor now) :=
  balance_of_sameRecord (sameRecord_recordRejection m.runtime.image m.runtime.limits op status
    actor now) (countRejected m.stats)

theorem noop_of_commitMutation {s s' : StoreState} {mutation : Mutation}
    {outcome : CommitOutcome} (h : commitMutation s mutation = (.ok outcome, s')) :
    outcome.noop = isIdempotent s.live mutation := by
  unfold commitMutation at h
  split at h
  · cases h
  · cases h
    rfl

theorem counts_publish (now : UInt64) (actor : Session) (op : Bytes) {mutation : Mutation}
    {count : CommitOutcome → FabricStats → FabricStats}
    {epochs tokens fences noops : UInt64} (value : CommitOutcome → StateImage → α)
    (hadds : ∀ image, applyMutation m.runtime.image (planOf m.runtime.image mutation) false =
      (.ok (), image) → Adds m.runtime.image image epochs tokens fences noops)
    (hcount : ∀ outcome : CommitOutcome, outcome.noop = isIdempotent m.runtime.image mutation →
      Counted m.stats (count outcome (countAccepted m.stats)) epochs tokens fences noops) :
    Counts m (m.publish now actor op mutation count value) := by
  unfold Counts Metered.publish
  rcases commitMutation_effect m.runtime.state mutation with
    ⟨e, state, heq, hsame⟩ | ⟨outcome, state, image, heq, happly, hsame⟩
  · rw [heq]
    exact balance_of_sameRecord
      ((sameRecord_recordRejection state.live _ op e actor now).trans hsame) _
  · have hcounted := hcount outcome (noop_of_commitMutation heq)
    rw [heq]
    exact (balance_of_sameRecord hsame _).trans (balance_of_adds (hadds image happly) hcounted)

theorem counts_underSession {actor : Session} {body : Result α × Metered} (h : Counts m body) :
    Counts m (m.underSession actor body) := by
  unfold Metered.underSession
  split
  · rfl
  · split
    · rfl
    · exact h

theorem counts_noop (now : UInt64) (actor : Session) (op : Bytes) {mutation : Mutation}
    (hop : governs mutation.op = false) (value : CommitOutcome → StateImage → α) :
    Counts m (m.publish now actor op mutation countNoop value) :=
  counts_publish now actor op value (fun _ happly => adds_noop hop happly)
    fun outcome hnoop => by
      rw [← hnoop]
      exact counted_noop m.stats outcome

theorem counts_advanceEpoch (now : UInt64) (actor : Session) (reason : Bytes) :
    Counts m (m.advanceEpoch now actor reason) :=
  counts_underSession <| counts_publish now actor _ _ (fun _ happly => adds_epoch rfl happly)
    fun _ _ => counted_epoch m.stats

theorem counts_fence (now : UInt64) (actor : Session) (publisher : PublisherId) (boot : BootId)
    (reason : Bytes) : Counts m (m.fence now actor publisher boot reason) := by
  unfold Metered.fence
  split
  · rfl
  · split
    · rfl
    · split
      · rfl
      · exact counts_publish now actor _ _ (fun _ happly => adds_fence rfl happly)
          fun _ _ => counted_fence m.stats _

theorem counts_definePolicy (now : UInt64) (actor : Session) (d : PolicyDef) :
    Counts m (m.definePolicy now actor d) := by
  refine counts_underSession ?_
  split
  · exact counts_reject _ _ _ _
  · exact counts_noop now actor _ rfl _

theorem counts_assign (now : UInt64) (actor : Session) (a : PriorityAssignment) :
    Counts m (m.assign now actor a) := by
  refine counts_underSession ?_
  split
  · rfl
  · cases m.runtime.image.subjects[a.subject]? with
    | none => exact counts_reject _ _ _ _
    | some subject =>
        cases m.runtime.image.scopes[a.scope]? with
        | none => exact counts_reject _ _ _ _
        | some scope =>
            cases m.runtime.image.classes[a.cls]? with
            | none => exact counts_reject _ _ _ _
            | some cls =>
                cases a.policy with
                | none => exact counts_noop now actor _ rfl _
                | some policy =>
                    simp only
                    cases m.runtime.image.policies[policy]? with
                    | none => exact counts_reject _ _ _ _
                    | some entry => exact counts_noop now actor _ rfl _

theorem counts_grant (publisher : PublisherId) (boot : BootId) (now : UInt64) :
    Counts m (m.grant publisher boot now) := by
  have hcommit := commitMutation_effect m.runtime.state { baseMutation
    (bootstrapSession m.runtime.image publisher boot) .grantAuthority
    (text "authority granted") now with system := true }
  unfold Counts Metered.grant
  simp only
  rcases hcommit with ⟨e, state, heq, hsame⟩ | ⟨outcome, state, image, heq, happly, hsame⟩
  · rw [heq]
    exact balance_of_sameRecord hsame _
  · have hadds := adds_grant rfl happly
    obtain ⟨entry, hentry⟩ : ∃ entry,
        image.authority[Incarnation.mk publisher boot]? = some entry := by
      cases applyMutation_governed happly with
      | kept hop => cases hop
      | fenced publisher' boot' provenance hop => cases hop
      | advanced epoch hop => cases hop
      | granted provenance hop hvalid hepoch hpositive hroom htoken hauthority =>
          rw [hauthority]
          exact ⟨_, Std.ExtTreeMap.getElem?_insert_self⟩
    have hstored : (m.runtime.withState state).image.authority[
        Incarnation.mk publisher boot]? = some entry := by
      change state.live.authority[Incarnation.mk publisher boot]? = _
      rw [hsame.authority, hentry]
    rw [heq]
    simp only [hstored]
    exact (balance_of_sameRecord hsame _).trans (balance_of_adds hadds (counted_grant m.stats))

theorem counts_takeOver (publisher : PublisherId) (boot : BootId) (now : UInt64) :
    Counts m (m.takeOver publisher boot now) := by
  unfold Metered.takeOver
  simp only
  split
  · generalize hmutation : ({ baseMutation (bootstrapSession m.runtime.image publisher boot)
      .advanceEpoch (if liveOtherIncarnation m.runtime.image publisher boot = true then
        text "publisher incarnation replaced" else text "fabric epoch established") now with
      system := true } : Mutation) = mutation
    have hop : mutation.op = .advanceEpoch := by
      rw [← hmutation]
      rfl
    unfold Counts
    rcases commitMutation_effect m.runtime.state mutation with
      ⟨e, state, heq, hsame⟩ | ⟨outcome, state, image, heq, happly, hsame⟩
    · rw [heq]
      exact balance_of_sameRecord hsame _
    · rw [heq]
      have hadvanced := (balance_of_sameRecord hsame _).trans
        (balance_of_adds (adds_epoch hop happly) (counted_epoch m.stats))
      exact (counts_grant publisher boot now).trans hadvanced
  · exact counts_grant publisher boot now

theorem counts_grantAuthority (now : UInt64) (publisher : PublisherId) (boot : BootId) :
    Counts m (m.grantAuthority now publisher boot) := by
  unfold Metered.grantAuthority
  split
  · rfl
  · split
    · rfl
    · split
      · rfl
      · split
        · rfl
        · cases m.runtime.image.authority[Incarnation.mk publisher boot]? with
          | none =>
              simp only
              split
              · rfl
              · exact counts_takeOver publisher boot now
          | some entry =>
              simp only
              split
              · rfl
              · split
                · rfl
                · exact counts_takeOver publisher boot now

end Counting

/-! ## Runs -/

/-- A call of a process, or a query. -/
inductive Ask where
  | call (now : UInt64) (call : Call)
  | evaluate (query : PriorityQuery)

def counted {α : Type} (result : Result α × Metered) : Metered := result.2

namespace Metered

def perform (m : Metered) (now : UInt64) : Call → Metered
  | .grantAuthority publisher boot => counted (m.grantAuthority now publisher boot)
  | .advanceEpoch actor reason => counted (m.advanceEpoch now actor reason)
  | .fence actor publisher boot reason => counted (m.fence now actor publisher boot reason)
  | .defineClass actor d => counted (m.defineClass now actor d)
  | .defineScope actor d => counted (m.defineScope now actor d)
  | .definePolicy actor d => counted (m.definePolicy now actor d)
  | .defineSubject actor d => counted (m.defineSubject now actor d)
  | .assign actor a => counted (m.assign now actor a)
  | .retireAssignment actor id reason => counted (m.retireAssignment now actor id reason)
  | .integrityReport => { m with runtime := m.runtime.integrityReport.2 }
  | .checkpoint => { m with runtime := m.runtime.checkpointRuntime.2 }
  | .close => { m with runtime := m.runtime.close }

def serve (m : Metered) : Ask → Metered
  | .call now call => m.perform now call
  | .evaluate query => (m.evaluate query).2

end Metered

theorem runtime_counted {α : Type} {result : Result α × Metered}
    {called : Result α × FabricRuntime} (h : erase result = called) :
    (counted result).runtime = (outcome called).2 := by
  rw [snd_outcome, ← h]
  rfl

theorem runtime_perform (m : Metered) (now : UInt64) (call : Call) :
    (m.perform now call).runtime = (perform m.runtime now call).2 := by
  cases call with
  | grantAuthority publisher boot => exact runtime_counted (erase_grantAuthority m now _ _)
  | advanceEpoch actor reason => exact runtime_counted (erase_advanceEpoch m now _ _)
  | fence actor publisher boot reason => exact runtime_counted (erase_fence m now _ _ _ _)
  | defineClass actor d => exact runtime_counted (erase_defineClass m now _ _)
  | defineScope actor d => exact runtime_counted (erase_defineScope m now _ _)
  | definePolicy actor d => exact runtime_counted (erase_definePolicy m now _ _)
  | defineSubject actor d => exact runtime_counted (erase_defineSubject m now _ _)
  | assign actor a => exact runtime_counted (erase_assign m now _ _)
  | retireAssignment actor id reason =>
      exact runtime_counted (erase_retireAssignment m now _ _ _)
  | integrityReport => rfl
  | checkpoint => exact (snd_outcome _).symm
  | close => rfl

theorem balance_perform (m : Metered) (now : UInt64) (call : Call) :
    balance (m.perform now call).runtime.image (m.perform now call).stats =
      balance m.runtime.image m.stats := by
  have hkept {r : FabricRuntime} (h : r.image = m.runtime.image) :
      balance r.image m.stats = balance m.runtime.image m.stats := by
    rw [h]
  cases call with
  | grantAuthority publisher boot => exact counts_grantAuthority now publisher boot
  | advanceEpoch actor reason => exact counts_advanceEpoch now actor reason
  | fence actor publisher boot reason => exact counts_fence now actor publisher boot reason
  | defineClass actor d => exact counts_underSession (counts_noop now actor _ rfl _)
  | defineScope actor d => exact counts_underSession (counts_noop now actor _ rfl _)
  | definePolicy actor d => exact counts_definePolicy now actor d
  | defineSubject actor d => exact counts_underSession (counts_noop now actor _ rfl _)
  | assign actor a => exact counts_assign now actor a
  | retireAssignment actor id reason =>
      exact counts_underSession (counts_noop now actor _ rfl _)
  | integrityReport => exact hkept (image_integrityReport m.runtime)
  | checkpoint => exact hkept (image_checkpointRuntime m.runtime)
  | close => exact hkept (image_close m.runtime)

namespace Metered

/-- Serve calls and queries one after another. -/
def serveAll (m : Metered) (asks : List Ask) : Metered := asks.foldl serve m

end Metered

/-- The calls alone, of a runtime that counts nothing. -/
def callsOf (asks : List Ask) : List (UInt64 × Call) :=
  asks.filterMap fun
    | .call now call => some (now, call)
    | .evaluate _ => none

theorem balance_serve (m : Metered) (ask : Ask) :
    balance (m.serve ask).runtime.image (m.serve ask).stats =
      balance m.runtime.image m.stats := by
  cases ask with
  | call now call => exact balance_perform m now call
  | evaluate query => exact balance_outcome _ _ _

theorem balance_serveAll (m : Metered) (asks : List Ask) :
    balance (m.serveAll asks).runtime.image (m.serveAll asks).stats =
      balance m.runtime.image m.stats := by
  induction asks generalizing m with
  | nil => rfl
  | cons ask asks ih => exact (ih (m.serve ask)).trans (balance_serve m ask)

theorem runtime_serveAll (m : Metered) (asks : List Ask) :
    (m.serveAll asks).runtime = performAll m.runtime (callsOf asks) := by
  induction asks generalizing m with
  | nil => rfl
  | cons ask asks ih =>
      refine (ih (m.serve ask)).trans ?_
      cases ask with
      | call now call =>
          change performAll (m.perform now call).runtime (callsOf asks) = _
          rw [runtime_perform]
          rfl
      | evaluate query => rfl

/-- The counters of a process that has just opened its store. -/
def opened (r : FabricRuntime) : Metered := ⟨r, { recoveries := 1 }⟩

theorem add_of_sub {x x' y : UInt64} (h : x' - y = x) : x' = x + y := by
  grind

/-- The counters of a run agree with one another and with the state: the epoch, the tokens,
the generation and the fenced incarnations have moved as often as they were counted.
Counting changes nothing about what the calls do. -/
theorem counters_agree (r : FabricRuntime) (asks : List Ask) :
    let m := (opened r).serveAll asks
    m.runtime = performAll r (callsOf asks) ∧
      m.stats.durableCommits = m.stats.mutationsAccepted ∧
      m.stats.evaluations = evaluationsByOutcome m.stats ∧
      m.runtime.image.epoch.value = r.image.epoch.value + m.stats.epochAdvances ∧
      m.runtime.image.nextFencingToken =
        r.image.nextFencingToken + m.stats.authoritiesGranted ∧
      m.runtime.image.generation.value =
        r.image.generation.value + (m.stats.mutationsAccepted - m.stats.idempotentNoops) ∧
      (stateStats m.runtime).fencedBoots =
        (stateStats r).fencedBoots + m.stats.fencesIssued := by
  intro m
  have hbalance : balance m.runtime.image m.stats = balance r.image { recoveries := 1 } :=
    balance_serveAll (opened r) asks
  simp only [balance, Balance.mk.injEq] at hbalance
  obtain ⟨hepochs, htokens, hgenerations, hfences, hcommits, hevaluations⟩ := hbalance
  refine ⟨runtime_serveAll (opened r) asks, ?_, ?_, ?_, ?_, ?_, ?_⟩
  · exact (add_of_sub hcommits).trans (UInt64.zero_add _)
  · exact (add_of_sub hevaluations).trans (UInt64.zero_add _)
  · exact add_of_sub (hepochs.trans (UInt64.sub_zero _))
  · exact add_of_sub (htokens.trans (UInt64.sub_zero _))
  · exact add_of_sub (hgenerations.trans (UInt64.sub_zero _))
  · exact add_of_sub (hfences.trans (UInt64.sub_zero _))

end PriorityFabric.Metering
