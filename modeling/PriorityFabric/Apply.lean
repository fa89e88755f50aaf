import PriorityFabric.Validate
import PriorityFabric.StateCodec

/-!
Applying a mutation to the image.

The source mutates the image in place, so the result of an application is a
status together with the image it leaves behind, also when it fails.
-/

namespace PriorityFabric.Apply

open PriorityFabric.Lib.LittleEndian
open PriorityFabric.Basics
open PriorityFabric.Ident
open PriorityFabric.Hashing
open PriorityFabric.Model
open PriorityFabric.State
open PriorityFabric.StateCodec
open PriorityFabric.Validate

/-- The mutation repeats what the image holds.  Authority transitions never do:
their outcome depends on state that recovery rewrites. -/
def isIdempotent (image : StateImage) (mutation : Mutation) : Bool :=
  match mutation.op with
  | .defineClass d => classKind.idempotent image mutation d
  | .defineScope d => scopeKind.idempotent image mutation d
  | .definePolicy d => policyKind.idempotent image mutation d
  | .defineSubject d => subjectKind.idempotent image mutation d
  | .assign assignment =>
      match image.assignments[assignment.id]? with
      | none => false
      | some entry => entry.active && sameAssignmentContent entry.assignment assignment &&
          sameAuthorityBinding entry.provenance mutation
  | .retireAssignment target =>
      match image.assignments[target]? with
      | none => false
      | some entry => !entry.active
  | .grantAuthority => false
  | .fenceAuthority _ _ => false
  | .advanceEpoch => false

/-- The generation an assignment gets next; unset when exhausted. -/
def bumpAssignment (image : StateImage) (id : PriorityAssignmentId) : Generation :=
  (image.assignments[id]?).elim .first fun entry =>
    entry.assignment.generation.next.getD .unset

/-- The generation the affected entity gets when its content changes. -/
def bump (image : StateImage) (mutation : Mutation) : Generation :=
  match mutation.op with
  | .defineClass d => classKind.bump image d
  | .defineScope d => scopeKind.bump image d
  | .definePolicy d => policyKind.bump image d
  | .defineSubject d => subjectKind.bump image d
  | .assign assignment => bumpAssignment image assignment.id
  | .retireAssignment target => bumpAssignment image target
  | .grantAuthority => if image.nextFencingToken = 0 then .unset else .first
  | .fenceAuthority _ _ => .first
  | .advanceEpoch => .first

def currentAssignment (image : StateImage) (id : PriorityAssignmentId) : Generation :=
  (image.assignments[id]?).elim .unset (·.assignment.generation)

def currentEntityGeneration (image : StateImage) (mutation : Mutation) : Generation :=
  match mutation.op with
  | .defineClass d => classKind.current image d
  | .defineScope d => scopeKind.current image d
  | .definePolicy d => policyKind.current image d
  | .defineSubject d => subjectKind.current image d
  | .assign assignment => currentAssignment image assignment.id
  | .retireAssignment target => currentAssignment image target
  | .grantAuthority | .fenceAuthority _ _ | .advanceEpoch => image.generation

/-- An active assignment already has the proposed content. -/
def assignmentUnchanged (image : StateImage) (assignment : PriorityAssignment) : Bool :=
  match image.assignments[assignment.id]? with
  | none => false
  | some entry => entry.active && sameAssignmentContent entry.assignment assignment

def contentUnchanged (image : StateImage) (mutation : Mutation) : Bool :=
  match mutation.op with
  | .defineClass d => classKind.unchanged image d
  | .defineScope d => scopeKind.unchanged image d
  | .definePolicy d => policyKind.unchanged image d
  | .defineSubject d => subjectKind.unchanged image d
  | .assign assignment => assignmentUnchanged image assignment
  | .retireAssignment _ | .grantAuthority | .fenceAuthority _ _ | .advanceEpoch => false

/-- The generation the affected entity will hold after the mutation. -/
def previewEntityGeneration (image : StateImage) (mutation : Mutation) : Generation :=
  if isIdempotent image mutation || contentUnchanged image mutation then
    currentEntityGeneration image mutation
  else bump image mutation

/-- Put an id into a sorted bucket before the first id that is not smaller. -/
def insertSorted (id : PriorityAssignmentId) (bucket : List PriorityAssignmentId) :
    List PriorityAssignmentId :=
  bucket.takeWhile (fun other => (compare other id).isLT) ++
    id :: bucket.dropWhile (fun other => (compare other id).isLT)

/-- Store an assignment and add its id to the bucket of its subject. -/
def storeAssignment (image : StateImage) (assignment : PriorityAssignment)
    (provenance : Provenance) : Result StateImage := do
  let generation := bumpAssignment image assignment.id
  failIf (generation.isSet = false) .overflow
    (text "assignment generation counter is exhausted for '" ++ assignment.id.value ++
      text "'")
  let assignment := { assignment with generation }
  let bucket := image.assignmentsBySubject.getD assignment.subject []
  return { image with
    assignments := image.assignments.insert assignment.id { assignment, provenance }
    assignmentsBySubject := image.assignmentsBySubject.insert assignment.subject
      (insertSorted assignment.id bucket) }

def admitAssignment (image : StateImage) (assignment : PriorityAssignment)
    (provenance : Provenance) : Result StateImage :=
  match image.assignments[assignment.id]? with
  | some entry =>
      if entry.active && sameAssignmentContent entry.assignment assignment then
        .ok { image with
          assignments := image.assignments.insert assignment.id { entry with provenance } }
      else storeAssignment image assignment provenance
  | none => storeAssignment image assignment provenance

def retireAssignment (image : StateImage) (target : PriorityAssignmentId)
    (reason : Bytes) (provenance : Provenance) : Result StateImage :=
  match image.assignments[target]? with
  | none => .error (makeError .notFound (text "assignment disappeared during retirement"))
  | some entry =>
      match entry.assignment.generation.next with
      | none =>
          .error (makeError .overflow
            (text "assignment generation counter is exhausted for '" ++ target.value ++
              text "'"))
      | some generation =>
          .ok { image with
            assignments := image.assignments.insert target
              { entry with
                assignment := { entry.assignment with generation }
                active := false
                retirementReason := reason
                retiredBy := provenance } }

/-- A newer boot of the publisher supersedes a granted one. -/
def supersede (publisher : PublisherId) (boot : BootId) (key : Incarnation)
    (entry : AuthorityEntry) : AuthorityEntry :=
  if key.publisher = publisher ∧ key.boot ≠ boot ∧ entry.state = .granted then
    { entry with state := .superseded }
  else entry

def grantAuthority (image : StateImage) (publisher : PublisherId) (boot : BootId)
    (provenance : Provenance) : Result StateImage := do
  failIf (image.nextFencingToken = 0 ∨
      image.nextFencingToken = UInt64.ofNat (2 ^ 64 - 1)) .overflow
    (text "the fencing token counter is exhausted")
  let authority := image.authority.map (supersede publisher boot)
  return { image with
    authority := authority.insert ⟨publisher, boot⟩
      { publisher, boot, epoch := image.epoch, token := ⟨image.nextFencingToken⟩,
        state := .granted, provenance }
    nextFencingToken := image.nextFencingToken + 1 }

def fenceAuthority (image : StateImage) (publisher : PublisherId) (boot : BootId)
    (provenance : Provenance) : StateImage :=
  let entry := match image.authority[Incarnation.mk publisher boot]? with
    | none => { publisher, boot, epoch := .unestablished, token := .none,
                state := .fenced, provenance }
    | some entry => { entry with state := .fenced, provenance }
  { image with authority := image.authority.insert ⟨publisher, boot⟩ entry }

def expireStale (epoch : FabricEpoch) (entry : AuthorityEntry) : AuthorityEntry :=
  if entry.state = .granted ∧ entry.epoch ≠ epoch then
    { entry with state := .expired }
  else entry

def advanceEpoch (image : StateImage) : Result StateImage :=
  match image.epoch.next with
  | none => .error (makeError .overflow (text "the fabric epoch counter is exhausted"))
  | some epoch =>
      .ok { image with
        epoch
        authority := image.authority.map fun _ entry => expireStale epoch entry }

/-- The state change of a mutation that is not a mere repetition. -/
def perform (image : StateImage) (mutation : Mutation) (provenance : Provenance) :
    Result StateImage :=
  match mutation.op with
  | .defineClass d => classKind.accept image d provenance
  | .defineScope d => scopeKind.accept image d provenance
  | .definePolicy d => policyKind.accept image d provenance
  | .defineSubject d => subjectKind.accept image d provenance
  | .assign assignment => admitAssignment image assignment provenance
  | .retireAssignment target => retireAssignment image target mutation.reason provenance
  | .grantAuthority => grantAuthority image mutation.publisher mutation.boot provenance
  | .fenceAuthority publisher boot => .ok (fenceAuthority image publisher boot provenance)
  | .advanceEpoch => advanceEpoch image

def provenanceOf (image : StateImage) (mutation : Mutation) (expected : Generation) :
    Provenance where
  publisher := mutation.publisher
  boot := mutation.boot
  epoch := mutation.epoch
  token := mutation.token
  stateGeneration := expected
  auditSequence := image.nextAuditSequence
  recordedAtMs := mutation.recordedAtMs
  op := mutation.op.name

def auditOf (mutation : Mutation) (provenance : Provenance) (expected : Generation) :
    AuditEntry where
  sequence := provenance.auditSequence
  op := provenance.op
  result := .ok
  detail := if mutation.reason.isEmpty then text "accepted" else mutation.reason
  provenance := provenance
  stateGeneration := expected
  digest := Sha256.hash (encodeMutation mutation)

def recordAccepted (image : StateImage) (mutation : Mutation) (expected : Generation) :
    StateImage :=
  let provenance := provenanceOf image mutation expected
  appendAudit { image with nextAuditSequence := image.nextAuditSequence + 1 }
    (auditOf mutation provenance expected) image.limits

/-- The authority check, skipped on replay and for system mutations. -/
def checkLiveAuthority (image : StateImage) (mutation : Mutation) (replay : Bool) :
    Result Unit :=
  if replay = false ∧ mutation.system = false then checkAuthority image mutation
  else .ok ()

/-- The checks an application makes before it changes anything, and the
generation it will produce. -/
def admissible (image : StateImage) (mutation : Mutation) (replay : Bool) :
    Result Generation := do
  validateMutation image mutation
  checkLiveAuthority image mutation replay
  let idempotent := isIdempotent image mutation
  failIf (idempotent = false ∧ image.generation.next = none) .overflow
    (text "the fabric state generation counter is exhausted")
  let expected := if idempotent then image.generation
    else image.generation.next.getD .unset
  failIf (mutation.resultingGeneration.isSet = true ∧
      mutation.resultingGeneration.value ≠ expected.value) .corrupt
    (text "durable record claims generation " ++
      decimal mutation.resultingGeneration.value.toNat ++
      text " but replay produces " ++ decimal expected.value.toNat)
  return expected

/-- Apply a mutation; on replay the authority check is skipped. -/
def applyMutation (image : StateImage) (mutation : Mutation) (replay : Bool) :
    Result Unit × StateImage :=
  match admissible image mutation replay with
  | .error e => (.error e, image)
  | .ok expected =>
      let recorded := recordAccepted image mutation expected
      if isIdempotent image mutation then (.ok (), recorded)
      else
        match perform recorded mutation (provenanceOf image mutation expected) with
        | .error e => (.error e, recorded)
        | .ok performed => (.ok (), { performed with generation := expected })

end PriorityFabric.Apply
