import PriorityFabric.State

/-!
When a mutation repeats what the image holds, and whether it is admissible.

The four kinds of definition are admitted the same way; what differs between
them is collected in an `EntityKind`.
-/

namespace PriorityFabric.Validate

open PriorityFabric.Lib.LittleEndian
open PriorityFabric.Basics
open PriorityFabric.Ident
open PriorityFabric.Hashing
open PriorityFabric.Model
open PriorityFabric.State

/-- An identical republication comes from the same incarnation under the same
epoch. -/
def sameAuthorityBinding (provenance : Provenance) (mutation : Mutation) : Bool :=
  provenance.publisher = mutation.publisher && provenance.boot = mutation.boot &&
    provenance.epoch = mutation.epoch

def sameClassContent (a b : PriorityClassDef) : Bool :=
  a.id = b.id && a.precedence.same b.precedence && a.kind = b.kind &&
    a.inheritsFrom = b.inheritsFrom && a.description = b.description &&
    a.privileged = b.privileged

def sameScopeContent (a b : PolicyScopeDef) : Bool :=
  a.id = b.id && a.parent = b.parent &&
    a.conflictResolution = b.conflictResolution &&
    a.unknownDefault = b.unknownDefault && a.allowOverride = b.allowOverride &&
    a.description = b.description

def samePolicyContent (a b : PolicyDef) : Bool :=
  a.id = b.id && a.scope = b.scope && a.visibleClasses = b.visibleClasses &&
    a.conflictResolution = b.conflictResolution &&
    a.unknownDefault = b.unknownDefault &&
    a.requirePolicyForAssignment = b.requirePolicyForAssignment &&
    a.description = b.description

def sameSubjectContent (a b : SubjectDef) : Bool :=
  a.id = b.id && a.inheritsFrom = b.inheritsFrom && a.description = b.description

def sameAssignmentContent (a b : PriorityAssignment) : Bool :=
  a.id = b.id && a.subject = b.subject &&
    a.subjectGeneration = b.subjectGeneration && a.scope = b.scope &&
    a.scopeGeneration = b.scopeGeneration && a.cls = b.cls &&
    a.classGeneration = b.classGeneration && a.kind = b.kind &&
    a.displaces = b.displaces && a.policy = b.policy &&
    a.policyGeneration = b.policyGeneration && a.note = b.note

/-- What distinguishes one kind of definition from another. -/
structure EntityKind (tag : IdTag) (Def : Type) where
  id : Def → BasicId tag
  generation : Def → Generation
  setGeneration : Def → Generation → Def
  sameContent : Def → Def → Bool
  table : StateImage → Std.ExtTreeMap (BasicId tag) (Entry Def)
  setTable : StateImage → Std.ExtTreeMap (BasicId tag) (Entry Def) → StateImage
  exhausted : Bytes

def classKind : EntityKind .priorityClass PriorityClassDef where
  id := (·.id)
  generation := (·.generation)
  setGeneration d g := { d with generation := g }
  sameContent := sameClassContent
  table := (·.classes)
  setTable image classes := { image with classes }
  exhausted := text "class generation counter is exhausted for '"

def scopeKind : EntityKind .policyScope PolicyScopeDef where
  id := (·.id)
  generation := (·.generation)
  setGeneration d g := { d with generation := g }
  sameContent := sameScopeContent
  table := (·.scopes)
  setTable image scopes := { image with scopes }
  exhausted := text "scope generation counter is exhausted for '"

def policyKind : EntityKind .policy PolicyDef where
  id := (·.id)
  generation := (·.generation)
  setGeneration d g := { d with generation := g }
  sameContent := samePolicyContent
  table := (·.policies)
  setTable image policies := { image with policies }
  exhausted := text "policy generation counter is exhausted for '"

def subjectKind : EntityKind .subject SubjectDef where
  id := (·.id)
  generation := (·.generation)
  setGeneration d g := { d with generation := g }
  sameContent := sameSubjectContent
  table := (·.subjects)
  setTable image subjects := { image with subjects }
  exhausted := text "subject generation counter is exhausted for '"

namespace EntityKind

variable {tag : IdTag} {Def : Type} (kind : EntityKind tag Def)

/-- The stored definition has the same content as the proposed one. -/
def unchanged (image : StateImage) (d : Def) : Bool :=
  match (kind.table image)[kind.id d]? with
  | none => false
  | some entry => kind.sameContent entry.definition d

/-- Same content from the same incarnation under the same epoch. -/
def idempotent (image : StateImage) (mutation : Mutation) (d : Def) : Bool :=
  match (kind.table image)[kind.id d]? with
  | none => false
  | some entry => kind.sameContent entry.definition d &&
      sameAuthorityBinding entry.provenance mutation

def current (image : StateImage) (d : Def) : Generation :=
  ((kind.table image)[kind.id d]?).elim .unset fun entry =>
    kind.generation entry.definition

/-- The generation a changed definition gets; unset when exhausted. -/
def bump (image : StateImage) (d : Def) : Generation :=
  ((kind.table image)[kind.id d]?).elim .first fun entry =>
    (kind.generation entry.definition).next.getD .unset

/-- Store a changed definition under the next generation. -/
def store (image : StateImage) (d : Def) (provenance : Provenance) :
    Result StateImage := do
  let generation := kind.bump image d
  failIf (generation.isSet = false) .overflow
    (kind.exhausted ++ (kind.id d).value ++ text "'")
  return kind.setTable image ((kind.table image).insert (kind.id d)
    { definition := kind.setGeneration d generation, provenance })

/-- Admit a definition: refresh the provenance of an unchanged one, store a
changed one. -/
def accept (image : StateImage) (d : Def) (provenance : Provenance) :
    Result StateImage :=
  match (kind.table image)[kind.id d]? with
  | some entry =>
      if kind.sameContent entry.definition d then
        .ok (kind.setTable image
          ((kind.table image).insert (kind.id d) { entry with provenance }))
      else kind.store image d provenance
  | none => kind.store image d provenance

end EntityKind

def checkTextBounds (value : Bytes) (limit : Nat) (what : Bytes) : Result Unit := do
  failIf (value.length > limit) .limitExceeded
    (what ++ text " is " ++ decimal value.length ++ text " bytes, limit is " ++
      decimal limit)
  failIf (isPrintableText value = false) .invalidArgument
    (what ++ text " contains control characters")

def checkPrecedenceFree (image : StateImage) (self : PriorityClassId)
    (rank : PrecedenceRank) : Result Unit :=
  match image.classes.toList.find? fun entry =>
    entry.1 ≠ self ∧ entry.2.definition.precedence.same rank with
  | none => .ok ()
  | some entry =>
      .error (makeError .duplicatePrecedence
        (text "precedence rank " ++ decimal rank.value.toNat ++
          text " is already declared by class '" ++ entry.1.value ++
          text "'; a rank must name exactly one class"))

/-- Parents are set, distinct, defined and not the entity itself. -/
def checkParents {tag : IdTag} (noun : Bytes) (emptyId : Bytes) (self : BasicId tag)
    (isDefined : BasicId tag → Bool) :
    (seen : List (BasicId tag)) → List (BasicId tag) → Result Unit
  | _, [] => .ok ()
  | seen, parent :: rest => do
      failIf (parent.valid = false) .malformedId emptyId
      failIf (parent = self) .cycleDetected
        (noun ++ text " '" ++ self.value ++ text "' cannot inherit from itself")
      failIf (parent ∈ seen) .invalidArgument
        (noun ++ text " '" ++ self.value ++ text "' lists parent '" ++ parent.value ++
          text "' more than once")
      failIf (isDefined parent = false) .notFound
        (text "parent " ++ noun ++ text " '" ++ parent.value ++
          text "' is not defined in this fabric state")
      checkParents noun emptyId self isDefined (parent :: seen) rest

def checkAcyclic {tag : IdTag} (what : Bytes) (self : BasicId tag) (bound : Nat)
    (next : BasicId tag → List (BasicId tag)) (parents : List (BasicId tag)) :
    Result Unit :=
  parents.forM fun parent =>
    failIf (reaches parent self self bound next = true) .cycleDetected
      (text "inheriting '" ++ parent.value ++ text "' from '" ++ self.value ++
        text "' would create " ++ what)

def validateInheritance (image : StateImage) (self : PriorityClassId)
    (parents : List PriorityClassId) : Result Unit := do
  failIf (parents.length > image.limits.maxInheritsFrom) .limitExceeded
    (text "class declares " ++ decimal parents.length ++ text " parents, limit is " ++
      decimal image.limits.maxInheritsFrom)
  checkParents (text "class") (text "inheritance list holds an empty id") self
    (image.classes.contains ·) [] parents
  checkAcyclic (text "a precedence cycle") self (classSearchBound image)
    (classParents image) parents
  parents.forM fun parent => do
    let parentDepth := classDepth image parent
    failIf (parentDepth < 0) .degraded
      (text "class '" ++ parent.value ++
        text "' already sits on a cyclic or over-deep inheritance chain")
    failIf (parentDepth + 1 > image.limits.maxInheritanceDepth) .limitExceeded
      (text "inheriting '" ++ parent.value ++
        text "' would exceed the inheritance depth limit of " ++
        decimal image.limits.maxInheritanceDepth)

def validateSubjectInheritance (image : StateImage) (self : SubjectId)
    (parents : List SubjectId) : Result Unit := do
  failIf (parents.length > image.limits.maxInheritsFrom) .limitExceeded
    (text "subject declares " ++ decimal parents.length ++ text " parents, limit is " ++
      decimal image.limits.maxInheritsFrom)
  checkParents (text "subject") (text "subject inheritance list holds an empty id") self
    (image.subjects.contains ·) [] parents
  checkAcyclic (text "an inheritance cycle") self (subjectSearchBound image)
    (subjectParents image) parents

def checkRoom {K V : Type} [Ord K] [Std.TransOrd K] (table : Std.ExtTreeMap K V) (id : K)
    (limit : Nat) (what : Bytes) : Result Unit :=
  failIf (table.contains id = false ∧ table.size ≥ limit) .limitExceeded
    (text "the fabric already holds " ++ decimal table.size ++ text " " ++ what ++
      text ", limit is " ++ decimal limit)

def validateClass (image : StateImage) (definition : PriorityClassDef) :
    Result Unit := do
  failIf (definition.id.valid = false) .malformedId
    (text "class definition has no identifier")
  failIf (definition.precedence.isDeclared = false) .invalidArgument
    (text "class '" ++ definition.id.value ++
      text "' declares no precedence rank; priority semantics are never inferred by the fabric")
  failIf (definition.precedence.value.toNat > PrecedenceRank.maxRank) .invalidArgument
    (text "class '" ++ definition.id.value ++
      text "' declares a precedence rank above the ceiling")
  checkTextBounds definition.description image.limits.maxDescriptionLength
    (text "class description")
  validateInheritance image definition.id definition.inheritsFrom
  checkRoom image.classes definition.id image.limits.maxClasses (text "classes")
  if classKind.unchanged image definition then return ()
  else checkPrecedenceFree image definition.id definition.precedence

/-- Walk up from a proposed parent; the walk must end before it meets the scope
itself.  `room` is the number of hops left. -/
def checkScopeWalk (image : StateImage) (self parent : PolicyScopeId) :
    (room : Nat) → (cursor : PolicyScopeId) → (visited : List PolicyScopeId) →
      Result Unit
  | room, cursor, visited =>
      if cursor = self then
        .error (makeError .cycleDetected
          (text "attaching scope '" ++ self.value ++ text "' under '" ++ parent.value ++
            text "' would create a scope cycle"))
      else if cursor ∈ visited then
        .error (makeError .degraded
          (text "the scope tree already contains a cycle at '" ++ cursor.value ++
            text "'"))
      else
        match room with
        | 0 =>
            .error (makeError .limitExceeded
              (text "scope chain would exceed the depth limit of " ++
                decimal image.limits.maxScopeDepth))
        | room + 1 =>
            match image.scopes[cursor]? with
            | none =>
                .error (makeError .notFound
                  (text "scope '" ++ cursor.value ++ text "' is not defined"))
            | some node =>
                match node.definition.parent with
                | none => .ok ()
                | some next => checkScopeWalk image self parent room next (cursor :: visited)

def checkScopeParent (image : StateImage) (self : PolicyScopeId) :
    Option PolicyScopeId → Result Unit
  | none => .ok ()
  | some parent => do
      failIf (parent = self) .cycleDetected
        (text "scope '" ++ self.value ++ text "' cannot be its own parent")
      failIf (image.scopes.contains parent = false) .notFound
        (text "parent scope '" ++ parent.value ++ text "' is not defined")
      checkScopeWalk image self parent image.limits.maxScopeDepth parent []

/-- A default class, when there is one, is defined. -/
def checkDefaultClass (image : StateImage) (noun id : Bytes) (tail : Bytes) :
    Option PriorityClassId → Result Unit
  | none => .ok ()
  | some cls =>
      failIf (image.classes.contains cls = false) .notFound
        (noun ++ text " '" ++ id ++ text "' names default class '" ++ cls.value ++ tail)

def validateScope (image : StateImage) (definition : PolicyScopeDef) :
    Result Unit := do
  failIf (definition.id.valid = false) .malformedId
    (text "scope definition has no identifier")
  checkTextBounds definition.description image.limits.maxDescriptionLength
    (text "scope description")
  checkDefaultClass image (text "scope") definition.id.value
    (text "' which is not defined in this fabric state") definition.unknownDefault
  checkScopeParent image definition.id definition.parent
  checkRoom image.scopes definition.id image.limits.maxScopes (text "scopes")

def checkVisible (image : StateImage) (policy : PolicyId) :
    (seen : List PriorityClassId) → List PriorityClassId → Result Unit
  | _, [] => .ok ()
  | seen, cls :: rest => do
      failIf (cls ∈ seen) .invalidArgument
        (text "policy '" ++ policy.value ++ text "' lists class '" ++ cls.value ++
          text "' more than once")
      failIf (image.classes.contains cls = false) .notFound
        (text "policy '" ++ policy.value ++ text "' lists class '" ++ cls.value ++
          text "' which is not defined")
      checkVisible image policy (cls :: seen) rest

def validatePolicy (image : StateImage) (definition : PolicyDef) : Result Unit := do
  failIf (definition.id.valid = false) .malformedId
    (text "policy definition has no identifier")
  checkTextBounds definition.description image.limits.maxDescriptionLength
    (text "policy description")
  match image.scopes[definition.scope]? with
  | none =>
      .error (makeError .notFound
        (text "policy '" ++ definition.id.value ++ text "' names scope '" ++
          definition.scope.value ++ text "' which is not defined"))
  | some scope => do
      failIf (definition.scopeGeneration.isSet = false ∨
          definition.scopeGeneration ≠ scope.definition.generation) .staleGeneration
        (text "policy '" ++ definition.id.value ++ text "' is bound to scope '" ++
          definition.scope.value ++ text "' generation " ++
          decimal definition.scopeGeneration.value.toNat ++
          text " but the scope is at generation " ++
          decimal scope.definition.generation.value.toNat)
      failIf (definition.visibleClasses.length > image.limits.maxPolicyClasses)
        .limitExceeded
        (text "policy '" ++ definition.id.value ++ text "' lists " ++
          decimal definition.visibleClasses.length ++ text " classes, limit is " ++
          decimal image.limits.maxPolicyClasses)
      checkVisible image definition.id [] definition.visibleClasses
      checkDefaultClass image (text "policy") definition.id.value
        (text "' which is not defined") definition.unknownDefault
      checkRoom image.policies definition.id image.limits.maxPolicies (text "policies")

def validateSubject (image : StateImage) (definition : SubjectDef) : Result Unit := do
  failIf (definition.id.valid = false) .malformedId
    (text "subject definition has no identifier")
  checkTextBounds definition.description image.limits.maxDescriptionLength
    (text "subject description")
  validateSubjectInheritance image definition.id definition.inheritsFrom
  checkRoom image.subjects definition.id image.limits.maxSubjects (text "subjects")

def checkNamed (assignment : PriorityAssignment) (noun name : Bytes) (isDefined : Bool) :
    Result Unit :=
  failIf (isDefined = false) .notFound
    (text "assignment '" ++ assignment.id.value ++ text "' names " ++ noun ++ text " '" ++
      name ++ text "' which is not defined")

/-- An assignment is bound to the current generation of what it names. -/
def checkBound (assignment : PriorityAssignment) (noun name : Bytes)
    (bound actual : Generation) : Result Unit :=
  failIf (bound ≠ actual) .staleGeneration
    (text "assignment '" ++ assignment.id.value ++ text "' binds " ++ noun ++ text " '" ++
      name ++ text "' generation " ++ decimal bound.value.toNat ++ text " but the " ++
      noun ++ text " is at generation " ++ decimal actual.value.toNat)

def checkAssignmentPolicy (image : StateImage) (assignment : PriorityAssignment) :
    Result Unit :=
  match assignment.policy with
  | some policy => do
      checkNamed assignment (text "policy") policy.value (image.policies.contains policy)
      checkBound assignment (text "policy") policy.value assignment.policyGeneration
        (((image.policies[policy]?).map (·.definition.generation)).getD .unset)
  | none =>
      failIf (assignment.policyGeneration.isSet = true) .invalidArgument
        (text "assignment '" ++ assignment.id.value ++
          text "' carries a policy generation without a policy")

def checkDisplaces (image : StateImage) (assignment : PriorityAssignment) :
    Result Unit :=
  match assignment.displaces with
  | none => .ok ()
  | some cls =>
      failIf (image.classes.contains cls = false) .notFound
        (text "assignment '" ++ assignment.id.value ++ text "' displaces class '" ++
          cls.value ++ text "' which is not defined")

/-- The class is, or inherits from, a class visible in the scope. -/
def checkVisibility (image : StateImage) (assignment : PriorityAssignment) :
    Result Unit :=
  match effectiveVisibility image assignment.scope with
  | none => .ok ()
  | some visibility =>
      failIf (visibility.any (classImplies image assignment.cls ·) = false) .unauthorized
        (text "class '" ++ assignment.cls.value ++ text "' is not visible in scope '" ++
          assignment.scope.value ++ text "'")

/-- A policy that requires it is named by the assignments of its scope. -/
def checkEffectivePolicy (image : StateImage) (assignment : PriorityAssignment) :
    Result Unit :=
  match effectivePolicy image assignment.scope with
  | none => .ok ()
  | some effective =>
      match image.policies[effective]? with
      | none => .ok ()
      | some entry =>
          if entry.definition.requirePolicyForAssignment then
            match assignment.policy with
            | none =>
                .error (makeError .unauthorized
                  (text "scope '" ++ assignment.scope.value ++
                    text "' requires assignments to name the policy that authorizes them"))
            | some policy =>
                failIf (policy ≠ effective) .unauthorized
                  (text "assignment '" ++ assignment.id.value ++ text "' names policy '" ++
                    policy.value ++ text "' but the effective policy of scope '" ++
                    assignment.scope.value ++ text "' is '" ++ effective.value ++ text "'")
          else .ok ()

def validateAssignment (image : StateImage) (assignment : PriorityAssignment) :
    Result Unit := do
  failIf (assignment.id.valid = false) .malformedId
    (text "assignment has no identifier")
  checkTextBounds assignment.note image.limits.maxNoteLength (text "assignment note")
  checkNamed assignment (text "subject") assignment.subject.value
    (image.subjects.contains assignment.subject)
  checkNamed assignment (text "scope") assignment.scope.value
    (image.scopes.contains assignment.scope)
  checkNamed assignment (text "class") assignment.cls.value
    (image.classes.contains assignment.cls)
  checkBound assignment (text "subject") assignment.subject.value
    assignment.subjectGeneration
    (((image.subjects[assignment.subject]?).map (·.definition.generation)).getD .unset)
  checkBound assignment (text "scope") assignment.scope.value assignment.scopeGeneration
    (((image.scopes[assignment.scope]?).map (·.definition.generation)).getD .unset)
  checkBound assignment (text "class") assignment.cls.value assignment.classGeneration
    (((image.classes[assignment.cls]?).map (·.definition.generation)).getD .unset)
  checkAssignmentPolicy image assignment
  checkDisplaces image assignment
  checkVisibility image assignment
  checkEffectivePolicy image assignment
  checkRoom image.assignments assignment.id image.limits.maxAssignments
    (text "assignments")

def validateRetirement (image : StateImage) (target : PriorityAssignmentId)
    (reason : Bytes) : Result Unit := do
  failIf (target.valid = false) .malformedId (text "retirement names no assignment")
  failIf (image.assignments.contains target = false) .notFound
    (text "assignment '" ++ target.value ++ text "' is not defined")
  checkTextBounds reason image.limits.maxNoteLength (text "retirement reason")

def incarnations (image : StateImage) (publisher : PublisherId) :
    List (Incarnation × AuthorityEntry) :=
  image.authority.toList.filter (·.1.publisher = publisher)

def validateGrant (image : StateImage) (mutation : Mutation) : Result Unit := do
  failIf (mutation.publisher.valid = false) .malformedId
    (text "authority request carries no publisher identifier")
  failIf (mutation.boot.isZero = true) .invalidArgument
    (text "authority request carries an all-zero boot id")
  let state := (image.authority[Incarnation.mk mutation.publisher mutation.boot]?).map
    (·.state)
  failIf (state = some .fenced) .fenced
    (text "publisher '" ++ mutation.publisher.value ++ text "' incarnation " ++
      mutation.boot.hex ++ text " was fenced; it cannot be granted authority again")
  if state = some .granted then return ()
  else
    let boots := (incarnations image mutation.publisher).length
    failIf (boots ≥ image.limits.maxBootsPerPublisher) .limitExceeded
      (text "publisher '" ++ mutation.publisher.value ++ text "' already holds " ++
        decimal boots ++ text " incarnations, limit is " ++
        decimal image.limits.maxBootsPerPublisher)

def validateFence (publisher : PublisherId) (boot : BootId) : Result Unit :=
  failIf (publisher.valid = false ∨ boot.isZero = true) .invalidArgument
    (text "fence request names no publisher incarnation")

/-- Structural validation, the same on the commit path and on replay. -/
def validateMutation (image : StateImage) (mutation : Mutation) : Result Unit :=
  match mutation.op with
  | .defineClass definition => validateClass image definition
  | .defineScope definition => validateScope image definition
  | .definePolicy definition => validatePolicy image definition
  | .defineSubject definition => validateSubject image definition
  | .assign assignment => validateAssignment image assignment
  | .retireAssignment target => validateRetirement image target mutation.reason
  | .grantAuthority => validateGrant image mutation
  | .fenceAuthority publisher boot => validateFence publisher boot
  | .advanceEpoch =>
      failIf (image.epoch.next = none) .overflow
        (text "the fabric epoch counter is exhausted")

/-- The mutation's session is the live authority of its publisher. -/
def checkAuthority (image : StateImage) (mutation : Mutation) : Result Unit := do
  failIf (mutation.publisher.valid = false ∨ mutation.boot.isZero = true) .unauthorized
    (text "mutation carries no publisher incarnation")
  failIf (image.epoch.isEstablished = false) .notReady
    (text "the fabric epoch has not been established; no authority can exist yet")
  failIf (mutation.epoch ≠ image.epoch) .staleEpoch
    (text "mutation was prepared under epoch " ++ decimal mutation.epoch.value.toNat ++
      text " but the fabric is at epoch " ++ decimal image.epoch.value.toNat)
  match image.authority[Incarnation.mk mutation.publisher mutation.boot]? with
  | none =>
      .error (makeError .unauthorized
        (text "publisher '" ++ mutation.publisher.value ++
          text "' never held authority in this fabric"))
  | some entry => do
      failIf (entry.state ≠ .granted) .fenced
        (text "publisher '" ++ mutation.publisher.value ++ text "' incarnation " ++
          mutation.boot.hex ++ text " is " ++ entry.state.name)
      failIf (entry.epoch ≠ image.epoch) .staleEpoch
        (text "authority of publisher '" ++ mutation.publisher.value ++
          text "' was granted under epoch " ++ decimal entry.epoch.value.toNat ++
          text ", the fabric is at epoch " ++ decimal image.epoch.value.toNat)
      failIf (entry.token ≠ mutation.token) .fenced
        (text "fencing token mismatch for publisher '" ++ mutation.publisher.value ++
          text "' incarnation " ++ mutation.boot.hex)

end PriorityFabric.Validate
