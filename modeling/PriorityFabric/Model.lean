import PriorityFabric.Ident
import PriorityFabric.Hashing

/-!
The fabric's data model: classes, scopes, policies, subjects, assignments,
provenance, audit entries, queries and decisions.
-/

namespace PriorityFabric.Model

open PriorityFabric.Lib.LittleEndian
open PriorityFabric.Basics
open PriorityFabric.Ident
open PriorityFabric.Hashing

/-- Provenance category of a class; it never changes ordering. -/
inductive ClassKind where
  | standard | tenant | system | emergency
  deriving DecidableEq, Repr

/-- What happens when two assignments of one level select different classes. -/
inductive ConflictResolution where
  | deny | higherPrecedence | assignmentIdOrder
  deriving DecidableEq, Repr

/-- How an assignment came to exist. -/
inductive AssignmentKind where
  | explicit | inherited | override | exception | default
  deriving DecidableEq, Repr

/-- Lifecycle of one publisher incarnation. -/
inductive AuthorityState where
  | granted | superseded | fenced | expired
  deriving DecidableEq, Repr

/-- Health of the authoritative state. -/
inductive Health where
  | healthy | degraded
  deriving DecidableEq, Repr

/-- The eight answers an evaluation can give. -/
inductive Outcome where
  | assigned | inherited | overridden | conflict | unknown | stale | fenced | rejected
  deriving DecidableEq, Repr

def ClassKind.toNat (k : ClassKind) : Nat := k.ctorIdx
def ConflictResolution.toNat (c : ConflictResolution) : Nat := c.ctorIdx
def AssignmentKind.toNat (k : AssignmentKind) : Nat := k.ctorIdx
def AuthorityState.toNat (s : AuthorityState) : Nat := s.ctorIdx
def Health.toNat (h : Health) : Nat := h.ctorIdx
def Outcome.toNat (o : Outcome) : Nat := o.ctorIdx

def ClassKind.ofNat? (n : Nat) : Option ClassKind :=
  [standard, tenant, system, emergency][n]?

def ConflictResolution.ofNat? (n : Nat) : Option ConflictResolution :=
  [deny, higherPrecedence, assignmentIdOrder][n]?

def AssignmentKind.ofNat? (n : Nat) : Option AssignmentKind :=
  [explicit, inherited, override, exception, default][n]?

def AuthorityState.ofNat? (n : Nat) : Option AuthorityState :=
  [granted, superseded, fenced, expired][n]?

def Health.ofNat? (n : Nat) : Option Health := [healthy, degraded][n]?

@[simp] theorem ClassKind.ofNat?_toNat (k : ClassKind) :
    ClassKind.ofNat? k.toNat = some k := by
  cases k <;> rfl

@[simp] theorem ConflictResolution.ofNat?_toNat (c : ConflictResolution) :
    ConflictResolution.ofNat? c.toNat = some c := by
  cases c <;> rfl

@[simp] theorem AssignmentKind.ofNat?_toNat (k : AssignmentKind) :
    AssignmentKind.ofNat? k.toNat = some k := by
  cases k <;> rfl

@[simp] theorem AuthorityState.ofNat?_toNat (s : AuthorityState) :
    AuthorityState.ofNat? s.toNat = some s := by
  cases s <;> rfl

@[simp] theorem Health.ofNat?_toNat (h : Health) :
    Health.ofNat? h.toNat = some h := by
  cases h <;> rfl

theorem ClassKind.toNat_lt (k : ClassKind) : k.toNat < 256 := by
  cases k <;> decide

theorem ConflictResolution.toNat_lt (c : ConflictResolution) : c.toNat < 256 := by
  cases c <;> decide

theorem AssignmentKind.toNat_lt (k : AssignmentKind) : k.toNat < 256 := by
  cases k <;> decide

theorem AuthorityState.toNat_lt (s : AuthorityState) : s.toNat < 256 := by
  cases s <;> decide

theorem Health.toNat_lt (h : Health) : h.toNat < 256 := by
  cases h <;> decide

/-- The source's `to_string` for an assignment kind. -/
def AssignmentKind.name : AssignmentKind → Bytes
  | explicit => text "explicit"
  | inherited => text "inherited"
  | override => text "override"
  | exception => text "exception"
  | default => text "default"

/-- The source's `to_string` for an authority state. -/
def AuthorityState.name : AuthorityState → Bytes
  | granted => text "granted"
  | superseded => text "superseded"
  | fenced => text "fenced"
  | expired => text "expired"

structure PriorityClassDef where
  id : PriorityClassId := {}
  generation : Generation := .unset
  precedence : PrecedenceRank := .undeclared
  kind : ClassKind := .standard
  inheritsFrom : List PriorityClassId := []
  description : Bytes := []
  privileged : Bool := false
  deriving DecidableEq

/-- A node of the policy scope tree. -/
structure PolicyScopeDef where
  id : PolicyScopeId := {}
  generation : Generation := .unset
  parent : Option PolicyScopeId := none
  conflictResolution : ConflictResolution := .deny
  unknownDefault : Option PriorityClassId := none
  allowOverride : Bool := true
  description : Bytes := []
  deriving DecidableEq

/-- A policy document bound to one generation of a scope. -/
structure PolicyDef where
  id : PolicyId := {}
  generation : Generation := .unset
  scope : PolicyScopeId := {}
  scopeGeneration : Generation := .unset
  visibleClasses : List PriorityClassId := []
  conflictResolution : Option ConflictResolution := none
  unknownDefault : Option PriorityClassId := none
  requirePolicyForAssignment : Bool := true
  description : Bytes := []
  deriving DecidableEq

/-- The identity whose priority is decided. -/
structure SubjectDef where
  id : SubjectId := {}
  generation : Generation := .unset
  inheritsFrom : List SubjectId := []
  description : Bytes := []
  deriving DecidableEq

/-- A statement that a subject holds a class in a scope. -/
structure PriorityAssignment where
  id : PriorityAssignmentId := {}
  generation : Generation := .unset
  subject : SubjectId := {}
  subjectGeneration : Generation := .unset
  scope : PolicyScopeId := {}
  scopeGeneration : Generation := .unset
  cls : PriorityClassId := {}
  classGeneration : Generation := .unset
  kind : AssignmentKind := .explicit
  displaces : Option PriorityClassId := none
  policy : Option PolicyId := none
  policyGeneration : Generation := .unset
  note : Bytes := []
  deriving DecidableEq

/-- Where a durable fact came from and under which authority. -/
structure Provenance where
  publisher : PublisherId := {}
  boot : BootId := {}
  epoch : FabricEpoch := {}
  token : FencingToken := {}
  stateGeneration : Generation := .unset
  auditSequence : UInt64 := 0
  recordedAtMs : UInt64 := 0
  op : Bytes := []
  deriving DecidableEq

structure AuditEntry where
  sequence : UInt64 := 0
  op : Bytes := []
  result : StatusCode := .ok
  detail : Bytes := []
  provenance : Provenance := {}
  stateGeneration : Generation := .unset
  digest : Digest := {}
  deriving DecidableEq

/-- One step of an explanation chain. -/
structure ExplanationStep where
  stage : Bytes := []
  code : Bytes := []
  detail : Bytes := []
  assignment : Option PriorityAssignmentId := none
  assignmentGeneration : Generation := .unset
  cls : Option PriorityClassId := none
  classGeneration : Generation := .unset
  scope : Option PolicyScopeId := none
  policy : Option PolicyId := none
  provenance : Provenance := {}
  deriving DecidableEq

/-- A record of superseded or refused evidence. -/
structure EvidenceNote where
  assignment : PriorityAssignmentId := {}
  assignmentGeneration : Generation := .unset
  cls : PriorityClassId := {}
  classGeneration : Generation := .unset
  scope : PolicyScopeId := {}
  viaSubject : Option SubjectId := none
  reasonCode : Bytes := []
  reason : Bytes := []
  provenance : Provenance := {}
  deriving DecidableEq

structure PriorityDecision where
  outcome : Outcome := .unknown
  authoritative : Bool := false
  cls : PriorityClassId := {}
  classGeneration : Generation := .unset
  precedence : PrecedenceRank := .undeclared
  chain : List ExplanationStep := []
  superseded : List EvidenceNote := []
  rejectedEvidence : List EvidenceNote := []
  conflicts : List Bytes := []
  reasonCode : Bytes := []
  reason : Bytes := []
  resolution : Bytes := []
  epoch : FabricEpoch := {}
  stateGeneration : Generation := .unset
  policyGeneration : Generation := .unset
  scopeGeneration : Generation := .unset
  digest : Digest := {}
  privilegedClass : Bool := false
  deriving DecidableEq

structure PriorityQuery where
  subject : SubjectId := {}
  subjectGeneration : Generation := .unset
  scope : PolicyScopeId := {}
  asOfEpoch : Option FabricEpoch := none
  requirePolicyGeneration : Generation := .unset
  requireScopeGeneration : Generation := .unset
  strictConflicts : Bool := false
  maxExplanationSteps : Nat := 32
  correlation : UInt64 := 0
  deriving DecidableEq

/-- Result of a full integrity verification of the durable state. -/
structure IntegrityReport where
  ok : Bool := false
  health : Health := .healthy
  recordsScanned : Nat := 0
  recordsApplied : Nat := 0
  recordsRejected : Nat := 0
  unfinishedAttempts : Nat := 0
  trailingBytesDiscarded : Nat := 0
  detail : Bytes := []
  stateDigest : Digest := {}
  stateGeneration : Generation := .unset
  epoch : FabricEpoch := {}
  deriving DecidableEq

end PriorityFabric.Model
