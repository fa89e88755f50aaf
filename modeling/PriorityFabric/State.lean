import PriorityFabric.ModelCodec

/-!
The authoritative state image, the mutations that transform it, and the
structural questions the validator and the evaluator ask about it.
-/

namespace PriorityFabric.State

open PriorityFabric.Lib.LittleEndian
open PriorityFabric.Basics
open PriorityFabric.Ident
open PriorityFabric.Hashing
open PriorityFabric.Model

/-- A definition together with the provenance of the mutation that admitted it. -/
structure Entry (Def : Type) where
  definition : Def
  provenance : Provenance
  deriving DecidableEq

abbrev ClassEntry := Entry PriorityClassDef
abbrev ScopeEntry := Entry PolicyScopeDef
abbrev PolicyEntry := Entry PolicyDef
abbrev SubjectEntry := Entry SubjectDef

structure AssignmentEntry where
  assignment : PriorityAssignment
  provenance : Provenance
  active : Bool := true
  retirementReason : Bytes := []
  retiredBy : Provenance := {}
  deriving DecidableEq

structure AuthorityEntry where
  publisher : PublisherId
  boot : BootId
  epoch : FabricEpoch
  token : FencingToken
  state : AuthorityState := .granted
  provenance : Provenance
  deriving DecidableEq

/-- A publisher incarnation: the key of the authority table, ordered by
publisher first. -/
structure Incarnation where
  publisher : PublisherId
  boot : BootId
  deriving DecidableEq

instance : Ord Incarnation :=
  ⟨compareLex (compareOn (·.publisher)) (compareOn (·.boot))⟩

instance : Std.TransOrd Incarnation :=
  inferInstanceAs (Std.TransCmp
    (compareLex (compareOn Incarnation.publisher) (compareOn Incarnation.boot)))

instance : Std.LawfulEqOrd Incarnation where
  compare_self := Std.ReflOrd.compare_self (α := Incarnation)
  eq_of_compare {a b} h := by
    obtain ⟨hpublisher, hboot⟩ := Ordering.then_eq_eq.mp h
    cases a
    cases b
    simp only [compareOn] at hpublisher hboot
    rw [Std.LawfulEqOrd.eq_of_compare hpublisher, Std.LawfulEqOrd.eq_of_compare hboot]

/-- The complete authoritative state.  `assignmentsBySubject` is a derived
index: the ids of the assignments that name a subject, each group in order. -/
structure StateImage where
  epoch : FabricEpoch := {}
  generation : Generation := {}
  lastSequence : UInt64 := 0
  nextFencingToken : UInt64 := 1
  nextAuditSequence : UInt64 := 1
  limits : Limits := {}
  classes : Std.ExtTreeMap PriorityClassId ClassEntry := ∅
  scopes : Std.ExtTreeMap PolicyScopeId ScopeEntry := ∅
  policies : Std.ExtTreeMap PolicyId PolicyEntry := ∅
  subjects : Std.ExtTreeMap SubjectId SubjectEntry := ∅
  assignments : Std.ExtTreeMap PriorityAssignmentId AssignmentEntry := ∅
  assignmentsBySubject : Std.ExtTreeMap SubjectId (List PriorityAssignmentId) := ∅
  authority : Std.ExtTreeMap Incarnation AuthorityEntry := ∅
  audit : List AuditEntry := []
  health : Health := .healthy
  healthDetail : Bytes := []

/-- Group the assignments by the subject their current definition names, in
assignment order. -/
def rebuildIndexes (image : StateImage) : StateImage :=
  { image with
    assignmentsBySubject := image.assignments.toList.foldl
      (fun index entry =>
        let subject := entry.2.assignment.subject
        index.insert subject (index.getD subject [] ++ [entry.1])) ∅ }

/-- What a mutation does, with the payload that operation reads. -/
inductive MutationOp where
  | defineClass (cls : PriorityClassDef)
  | defineScope (scope : PolicyScopeDef)
  | definePolicy (policy : PolicyDef)
  | defineSubject (subject : SubjectDef)
  | assign (assignment : PriorityAssignment)
  | retireAssignment (target : PriorityAssignmentId)
  | grantAuthority
  | fenceAuthority (publisher : PublisherId) (boot : BootId)
  | advanceEpoch
  deriving DecidableEq

/-- The operation's number in the durable format. -/
def MutationOp.code : MutationOp → Nat
  | defineClass _ => 1
  | defineScope _ => 2
  | definePolicy _ => 3
  | defineSubject _ => 4
  | assign _ => 5
  | retireAssignment _ => 6
  | grantAuthority => 7
  | fenceAuthority _ _ => 8
  | advanceEpoch => 9

def MutationOp.name : MutationOp → Bytes
  | defineClass _ => text "define_class"
  | defineScope _ => text "define_scope"
  | definePolicy _ => text "define_policy"
  | defineSubject _ => text "define_subject"
  | assign _ => text "assign"
  | retireAssignment _ => text "retire_assignment"
  | grantAuthority => text "grant_authority"
  | fenceAuthority _ _ => text "fence_authority"
  | advanceEpoch => text "advance_epoch"

theorem MutationOp.length_name_le (op : MutationOp) : op.name.length ≤ 64 := by
  cases op <;> simp only [MutationOp.name] <;> decide

/-- One durable transition.  `system` marks transitions the fabric initiates
about itself; it is never encoded. -/
structure Mutation where
  op : MutationOp
  epoch : FabricEpoch := {}
  publisher : PublisherId := {}
  boot : BootId := {}
  token : FencingToken := {}
  recordedAtMs : UInt64 := 0
  reason : Bytes := []
  resultingGeneration : Generation := .unset
  system : Bool := false
  deriving DecidableEq

/-- Depth-first search for `target` along `next`, never following the edges of
`excluded`.  The list `stack` has its top first; `bound` is the number of pops
after which the search gives up. -/
def searchLoop {Id : Type} [DecidableEq Id] (next : Id → List Id) (target : Id)
    (excluded : Option Id) : (bound : Nat) → (stack visited : List Id) → Bool
  | 0, _, _ => false
  | _ + 1, [], _ => false
  | bound + 1, current :: stack, visited =>
      if current = target then true
      else if some current = excluded then
        searchLoop next target excluded bound stack visited
      else if current ∈ visited then
        searchLoop next target excluded bound stack visited
      else
        searchLoop next target excluded bound
          ((next current).reverse ++ stack) (current :: visited)

/-- `target` is reachable from `start` without the edges of `excluded`. -/
def reaches {Id : Type} [DecidableEq Id] (start target excluded : Id) (bound : Nat)
    (next : Id → List Id) : Bool :=
  searchLoop next target (some excluded) bound [start] []

/-- The parents a class lists, if it is defined. -/
def classParents (image : StateImage) (id : PriorityClassId) : List PriorityClassId :=
  ((image.classes[id]?).map (·.definition.inheritsFrom)).getD []

def subjectParents (image : StateImage) (id : SubjectId) : List SubjectId :=
  ((image.subjects[id]?).map (·.definition.inheritsFrom)).getD []

/-- The number of pops the class searches allow themselves. -/
def classSearchBound (image : StateImage) : Nat :=
  (image.limits.maxClasses + 1) * (image.limits.maxInheritanceDepth + 1)

def subjectSearchBound (image : StateImage) : Nat :=
  (image.limits.maxSubjects + 1) * (image.limits.maxInheritanceDepth + 1)

/-- `candidate` is `required` or inherits from it, transitively. -/
def classImplies (image : StateImage) (candidate required : PriorityClassId) : Bool :=
  if candidate = required then true
  else searchLoop (classParents image) required none (classSearchBound image)
    [candidate] []

/-- The state of the longest-path walk: computed depths (−1 for a failure), the
classes whose expansion is under way, and the work left. -/
structure DepthWalk where
  depth : Std.ExtTreeMap PriorityClassId Int := ∅
  inProgress : List PriorityClassId := []
  stack : List (PriorityClassId × Bool) := []

/-- The depth of a class whose parents are settled: one more than its deepest
parent, or −1. -/
def settledDepth (depth : Std.ExtTreeMap PriorityClassId Int) :
    (best : Int) → List PriorityClassId → Int
  | best, [] => best
  | best, parent :: rest =>
      match depth[parent]? with
      | none => -1
      | some d => if d < 0 then -1 else settledDepth depth (max best (d + 1)) rest

/-- One turn of the walk's loop, on the entry it popped. -/
def depthStep (image : StateImage) (walk : DepthWalk) (current : PriorityClassId)
    (expanded : Bool) : DepthWalk :=
  if expanded then
    let walk := { walk with inProgress := walk.inProgress.erase current }
    match image.classes[current]? with
    | none => { walk with depth := walk.depth.insert current (-1) }
    | some entry =>
        let best := settledDepth walk.depth 0 entry.definition.inheritsFrom
        let best := if best ≥ 0 ∧ best > image.limits.maxInheritanceDepth then -1
          else best
        { walk with depth := walk.depth.insert current best }
  else if walk.depth.contains current then walk
  else if current ∈ walk.inProgress then
    { walk with depth := walk.depth.insert current (-1) }
  else
    let walk := { walk with
      inProgress := current :: walk.inProgress
      stack := (current, true) :: walk.stack }
    let parents := (classParents image current).filter fun parent =>
      !walk.depth.contains parent
    { walk with stack := (parents.map (·, false)).reverse ++ walk.stack }

/-- Run the walk until its stack is empty; `fuel` bounds the number of pops. -/
def depthLoop (image : StateImage) : (fuel : Nat) → DepthWalk → DepthWalk
  | 0, walk => walk
  | fuel + 1, walk =>
      match walk.stack with
      | [] => walk
      | (current, expanded) :: stack =>
          depthLoop image fuel (depthStep image { walk with stack } current expanded)

/-- No more entries than this are ever pushed: every class is expanded at most
once, and so is every undefined parent. -/
def depthFuel (image : StateImage) : Nat :=
  2 + (image.classes.toList.map fun entry =>
    1 + 2 * entry.2.definition.inheritsFrom.length).sum

/-- Longest inheritance path below a class, or −1 when the class sits on a
cyclic, dangling or over-deep chain. -/
def classDepth (image : StateImage) (id : PriorityClassId) : Int :=
  let walk := depthLoop image (depthFuel image) { stack := [(id, false)] }
  walk.depth.getD id (-1)

/-- Follow scope parents from `current`; `room` is how many more scopes the
depth limit admits. -/
def scopeChainLoop (image : StateImage) (scope : PolicyScopeId) :
    (room : Nat) → (current : PolicyScopeId) → (chain : List PolicyScopeId) →
      Result (List PolicyScopeId)
  | room, current, chain =>
      if current ∈ chain then
        .error (makeError .degraded
          (text "scope chain of '" ++ scope.value ++ text "' is cyclic"))
      else
        match image.scopes[current]? with
        | none =>
            .error (makeError .notFound
              (text "scope '" ++ current.value ++ text "' is not defined"))
        | some entry =>
            match room with
            | 0 =>
                .error (makeError .limitExceeded
                  (text "scope chain of '" ++ scope.value ++ text "' is longer than " ++
                    decimal image.limits.maxScopeDepth))
            | room + 1 =>
                match entry.definition.parent with
                | none => .ok (chain ++ [current])
                | some parent => scopeChainLoop image scope room parent (chain ++ [current])

/-- The scope chain from `scope` to its root, narrowest first. -/
def scopeChain (image : StateImage) (scope : PolicyScopeId) :
    Result (List PolicyScopeId) :=
  scopeChainLoop image scope image.limits.maxScopeDepth scope []

/-- What a breadth-first level has produced so far. -/
structure AncestorLevel where
  seen : List SubjectId
  out : List (SubjectId × Nat)
  next : List (SubjectId × Nat) := []

def ancestorStep (image : StateImage) (id : SubjectId) (level : AncestorLevel)
    (entry : SubjectId × Nat) : Result AncestorLevel :=
  if entry.1 ∈ level.seen then .ok level
  else do
    failIf (entry.2 > image.limits.maxInheritanceDepth) .limitExceeded
      (text "subject '" ++ id.value ++ text "' has an inheritance chain deeper than " ++
        decimal image.limits.maxInheritanceDepth)
    match image.subjects[entry.1]? with
    | none =>
        .error (makeError .degraded
          (text "subject '" ++ entry.1.value ++ text "' is referenced but not defined"))
    | some node => do
        let out := level.out ++ [entry]
        failIf (out.length > image.limits.maxQuerySteps) .limitExceeded
          (text "subject '" ++ id.value ++ text "' has more than " ++
            decimal image.limits.maxQuerySteps ++ text " ancestors")
        return { seen := entry.1 :: level.seen, out,
                 next := level.next ++
                   node.definition.inheritsFrom.map (·, entry.2 + 1) }

/-- Breadth-first levels.  Distances grow by one from level to level and are
bounded, so `fuel` levels are enough. -/
def ancestorLoop (image : StateImage) (id : SubjectId) :
    (fuel : Nat) → (seen : List SubjectId) → (out frontier : List (SubjectId × Nat)) →
      Result (List (SubjectId × Nat))
  | 0, _, out, _ => .ok out
  | _ + 1, _, out, [] => .ok out
  | fuel + 1, seen, out, frontier@(_ :: _) => do
      let level ← frontier.foldlM (ancestorStep image id) { seen, out }
      ancestorLoop image id fuel level.seen level.out level.next

/-- Ancestors of a subject by distance, ascending id within a distance. -/
def subjectAncestors (image : StateImage) (id : SubjectId) :
    Result (List (SubjectId × Nat)) :=
  match image.subjects[id]? with
  | none =>
      .error (makeError .notFound (text "subject '" ++ id.value ++ text "' is not defined"))
  | some root => do
      let out ← ancestorLoop image id (image.limits.maxInheritanceDepth + 2) [id] []
        (root.definition.inheritsFrom.map (·, 1))
      return out.mergeSort fun a b =>
        a.2 < b.2 || (a.2 == b.2 && (compare a.1 b.1).isLE)

/-- The smallest policy bound to the nearest scope on the chain that has one. -/
def effectivePolicy (image : StateImage) (scope : PolicyScopeId) : Option PolicyId :=
  match scopeChain image scope with
  | .error _ => none
  | .ok chain => chain.findSome? fun level =>
      (image.policies.toList.find? (·.2.definition.scope = level)).map (·.1)

/-- The visibility set of the nearest enclosing policy that declares one;
`none` is unrestricted. -/
def effectiveVisibility (image : StateImage) (scope : PolicyScopeId) :
    Option (List PriorityClassId) :=
  match scopeChain image scope with
  | .error _ => none
  | .ok chain => chain.findSome? fun level =>
      (image.policies.toList.find? fun entry =>
        entry.2.definition.scope = level ∧ entry.2.definition.visibleClasses ≠ []).map
        (·.2.definition.visibleClasses)

/-- The audit ring with one more entry, without the oldest ones beyond the
bound. -/
def pushAudit (audit : List AuditEntry) (entry : AuditEntry) (limits : Limits) :
    List AuditEntry :=
  if limits.maxAuditEntries = 0 then audit
  else if audit.length ≥ limits.maxAuditEntries then
    audit.drop (audit.length - limits.maxAuditEntries + 1) ++ [entry]
  else audit ++ [entry]

def appendAudit (image : StateImage) (entry : AuditEntry) (limits : Limits) :
    StateImage :=
  { image with audit := pushAudit image.audit entry limits }

end PriorityFabric.State
