import PriorityFabric.State

/-!
Evaluation: given a subject, a scope and the current image, decide the priority
class and explain why.

A query passes the gates, the evidence for its subject is collected along the scope
chain, exceptions without a target are filtered out, and the deciding level is
chosen.  Every decision carries the digest of its own encoding.
-/

namespace PriorityFabric.Evaluate

open PriorityFabric.Lib.LittleEndian
open PriorityFabric.Basics
open PriorityFabric.Ident
open PriorityFabric.Model
open PriorityFabric.ModelCodec
open PriorityFabric.State

/-! ## Pieces of an explanation -/

/-- Evidence that passed every binding check. -/
structure Candidate where
  level : Nat
  entry : AssignmentEntry
  viaSubject : SubjectId
  inheritanceDistance : Nat

structure RejectedEvidence where
  entry : AssignmentEntry
  viaSubject : SubjectId
  code : Bytes
  detail : Bytes
  authorityRelated : Bool := false

/-- Explanation steps within a budget; the last step that fits says that the chain
was cut. -/
structure ChainBuilder where
  limit : Nat
  steps : List ExplanationStep := []
  truncated : Bool := false

def ChainBuilder.push (builder : ChainBuilder) (step : ExplanationStep) : ChainBuilder :=
  if builder.steps.length + 1 ≥ builder.limit then
    if builder.truncated then builder
    else
      { builder with
        truncated := true
        steps := builder.steps ++ [{
          stage := text "explanation"
          code := text "truncated"
          detail := text "the explanation chain reached the caller's step budget of " ++
            decimal builder.limit }] }
  else { builder with steps := builder.steps ++ [step] }

def describeAssignment (assignment : PriorityAssignment) : Bytes :=
  assignment.kind.name ++ text " assignment '" ++ assignment.id.value ++
    text "' in scope '" ++ assignment.scope.value ++ text "' selects class '" ++
    assignment.cls.value ++ text "'"

/-- The subject the evidence was inherited through, if it is not its own. -/
def inheritedVia (entry : AssignmentEntry) (via : SubjectId) : Option SubjectId :=
  if via.valid ∧ via ≠ entry.assignment.subject then some via else none

def makeStep (stage code detail : Bytes) (entry : AssignmentEntry) (via : SubjectId) :
    ExplanationStep where
  stage := stage
  code := code
  detail := detail ++ (inheritedVia entry via).elim [] fun via =>
    text " (inherited through '" ++ via.value ++ text "')"
  assignment := some entry.assignment.id
  assignmentGeneration := entry.assignment.generation
  cls := some entry.assignment.cls
  classGeneration := entry.assignment.classGeneration
  scope := some entry.assignment.scope
  policy := entry.assignment.policy
  provenance := entry.provenance

def makeNote (entry : AssignmentEntry) (via : SubjectId) (code detail : Bytes) :
    EvidenceNote where
  assignment := entry.assignment.id
  assignmentGeneration := entry.assignment.generation
  cls := entry.assignment.cls
  classGeneration := entry.assignment.classGeneration
  scope := entry.assignment.scope
  viaSubject := inheritedVia entry via
  reasonCode := code
  reason := detail
  provenance := entry.provenance

def sealed (decision : PriorityDecision) : PriorityDecision :=
  { decision with digest := computeDecisionDigest decision }

def rejectedDecision (image : StateImage) (code reason : Bytes) : PriorityDecision :=
  sealed
    { outcome := .rejected
      reasonCode := code
      reason := boundText reason image.limits.maxDescriptionLength
      resolution := text "none"
      epoch := image.epoch
      stateGeneration := image.generation }

/-! ## Modes and defaults declared by scopes and policies -/

structure ConflictMode where
  mode : ConflictResolution := .deny
  source : Bytes := text "default"

def scopeConflictMode (image : StateImage) (scope : PolicyScopeId) : ConflictMode :=
  match image.scopes[scope]? with
  | none => {}
  | some entry => { mode := entry.definition.conflictResolution, source := text "scope" }

/-- The smallest policy of the scope that declares a mode, or the scope's own. -/
def effectiveConflictMode (image : StateImage) (scope : PolicyScopeId) : ConflictMode :=
  (image.policies.toList.findSome? fun entry =>
    if entry.2.definition.scope = scope then
      entry.2.definition.conflictResolution.map fun mode =>
        { mode, source := text "policy:" ++ entry.1.value }
    else none).getD (scopeConflictMode image scope)

structure DefaultResolution where
  found : Bool := false
  cls : PriorityClassId := {}
  classGeneration : Generation := .unset
  precedence : PrecedenceRank := .undeclared
  source : Bytes := []
  privileged : Bool := false
  available : Bool := false

/-- The default class one scope of the chain declares, its policies first. -/
def declaredDefault (image : StateImage) (level : PolicyScopeId) :
    Option (PriorityClassId × Bytes) :=
  (image.policies.toList.findSome? fun entry =>
    if entry.2.definition.scope = level then
      entry.2.definition.unknownDefault.map fun cls =>
        (cls, text "policy:" ++ entry.1.value)
    else none) <|>
  ((image.scopes[level]?).bind fun node =>
    node.definition.unknownDefault.map fun cls => (cls, text "scope"))

/-- The class is, or inherits from, one that is visible in the scope. -/
def classVisible (image : StateImage) (scope : PolicyScopeId) (cls : PriorityClassId) :
    Bool :=
  match effectiveVisibility image scope with
  | none => true
  | some allowed => allowed.any (classImplies image cls ·)

def resolveUnknownDefault (image : StateImage) (scope : PolicyScopeId) :
    DefaultResolution :=
  match scopeChain image scope with
  | .error _ => {}
  | .ok chain =>
      match chain.findSome? (declaredDefault image) with
      | none => {}
      | some (cls, source) =>
          match image.classes[cls]? with
          | none => { found := true, cls, source }
          | some node =>
              { found := true, cls, source
                classGeneration := node.definition.generation
                precedence := node.definition.precedence
                privileged := node.definition.privileged
                available := classVisible image scope cls }

/-! ## The gates -/

/-- What a query that passed the gates is evaluated under. -/
structure Admitted where
  subjectGeneration : Generation
  scopes : List PolicyScopeId
  policyGeneration : Generation
  scopeGeneration : Generation

/-- Answer with a decision when `stop` holds. -/
def answerIf (stop : Prop) [Decidable stop] (decision : PriorityDecision) :
    Except PriorityDecision Unit :=
  if stop then .error decision else .ok ()

def staleDecision (image : StateImage) (code reason : Bytes) : PriorityDecision where
  outcome := .stale
  reasonCode := code
  reason := reason
  resolution := text "none"
  epoch := image.epoch
  stateGeneration := image.generation

def epochGate (image : StateImage) : Option FabricEpoch → Except PriorityDecision Unit
  | none => .ok ()
  | some epoch => do
      answerIf (epoch.value > image.epoch.value)
        (rejectedDecision image (text "epoch_from_future")
          (text "the query claims epoch " ++ decimal epoch.value.toNat ++
            text " but the fabric has only reached epoch " ++
            decimal image.epoch.value.toNat))
      let reason := text "the query was asked against epoch " ++
        decimal epoch.value.toNat ++
        text " which the fabric has superseded; the current epoch is " ++
        decimal image.epoch.value.toNat
      answerIf (epoch.value < image.epoch.value)
        (sealed { staleDecision image (text "epoch_superseded") reason with
          chain := [{ stage := text "query", code := text "epoch_superseded",
                      detail := reason }] })

/-- The queried subject and the generation the caller believes in. -/
def subjectGate (image : StateImage) (query : PriorityQuery) :
    Except PriorityDecision Generation :=
  match image.subjects[query.subject]? with
  | none =>
      .error (rejectedDecision image (text "subject_not_registered")
        (text "subject '" ++ query.subject.value ++
          text "' is not registered in this fabric state"))
  | some entry => do
      answerIf (query.subjectGeneration.isSet = true ∧
          query.subjectGeneration ≠ entry.definition.generation)
        (sealed (staleDecision image (text "subject_generation_superseded")
          (text "the query names subject '" ++ query.subject.value ++
            text "' generation " ++ decimal query.subjectGeneration.value.toNat ++
            text " but the subject is at generation " ++
            decimal entry.definition.generation.value.toNat)))
      return entry.definition.generation

def scopeGate (image : StateImage) (query : PriorityQuery) :
    Except PriorityDecision (List PolicyScopeId) :=
  match scopeChain image query.scope with
  | .error e => .error (rejectedDecision image (text "scope_unusable") e.message)
  | .ok scopes => .ok scopes

def effectivePolicyGeneration (image : StateImage) (scope : PolicyScopeId) : Generation :=
  (((effectivePolicy image scope).bind (image.policies[·]?)).map
    (·.definition.generation)).getD .unset

def scopeGenerationOf (image : StateImage) (scope : PolicyScopeId) : Generation :=
  ((image.scopes[scope]?).map (·.definition.generation)).getD .unset

def gates (image : StateImage) (query : PriorityQuery) :
    Except PriorityDecision Admitted := do
  answerIf (image.health ≠ .healthy)
    (rejectedDecision image (text "state_degraded")
      (text "the fabric state is degraded and cannot authorize a priority: " ++
        image.healthDetail))
  answerIf (query.subject.valid = false)
    (rejectedDecision image (text "invalid_subject_id")
      (text "the query does not name a subject"))
  answerIf (query.scope.valid = false)
    (rejectedDecision image (text "invalid_scope_id")
      (text "the query does not name a policy scope"))
  epochGate image query.asOfEpoch
  let subjectGeneration ← subjectGate image query
  let scopes ← scopeGate image query
  let policyGeneration := effectivePolicyGeneration image query.scope
  let scopeGeneration := scopeGenerationOf image query.scope
  answerIf (query.requirePolicyGeneration.isSet = true ∧
      policyGeneration.value < query.requirePolicyGeneration.value)
    (sealed { staleDecision image (text "required_policy_generation_not_reached")
        (text "the caller requires policy generation " ++
          decimal query.requirePolicyGeneration.value.toNat ++
          text " but the effective policy of scope '" ++ query.scope.value ++
          text "' is at generation " ++ decimal policyGeneration.value.toNat) with
      policyGeneration, scopeGeneration })
  answerIf (query.requireScopeGeneration.isSet = true ∧
      scopeGeneration.value < query.requireScopeGeneration.value)
    (sealed { staleDecision image (text "required_scope_generation_not_reached")
        (text "the caller requires scope generation " ++
          decimal query.requireScopeGeneration.value.toNat ++ text " but scope '" ++
          query.scope.value ++ text "' is at generation " ++
          decimal scopeGeneration.value.toNat) with
      policyGeneration, scopeGeneration })
  return { subjectGeneration, scopes, policyGeneration, scopeGeneration }

/-! ## Binding checks -/

def rejectIf (bad : Prop) [Decidable bad] (evidence : RejectedEvidence) :
    Except RejectedEvidence Unit :=
  if bad then .error evidence else .ok ()

def assignmentNamed (entry : AssignmentEntry) : Bytes :=
  text "assignment '" ++ entry.assignment.id.value ++ text "'"

/-- The publisher incarnation behind the evidence holds authority. -/
def stillGranted (image : StateImage) (entry : AssignmentEntry) : Bool :=
  match image.authority[Incarnation.mk entry.provenance.publisher entry.provenance.boot]? with
  | none => false
  | some authority => authority.state = .granted

/-- The evidence is active and its publisher still holds authority in this epoch. -/
def authorityBinding (image : StateImage) (via : SubjectId) (entry : AssignmentEntry) :
    Except RejectedEvidence Unit := do
  rejectIf (entry.active = false)
    { entry, viaSubject := via, code := text "assignment_retired"
      detail := assignmentNamed entry ++ text " was retired: " ++
        (if entry.retirementReason.isEmpty then text "no reason recorded"
          else entry.retirementReason) }
  rejectIf (stillGranted image entry = false)
    { entry, viaSubject := via, code := text "publisher_incarnation_fenced"
      authorityRelated := true
      detail := assignmentNamed entry ++ text " was published by publisher '" ++
        entry.provenance.publisher.value ++ text "' incarnation " ++
        entry.provenance.boot.hex ++ text " which no longer holds authority" }
  rejectIf (entry.provenance.epoch ≠ image.epoch)
    { entry, viaSubject := via, code := text "epoch_superseded"
      authorityRelated := true
      detail := assignmentNamed entry ++ text " was published under epoch " ++
        decimal entry.provenance.epoch.value.toNat ++ text " and the fabric is at epoch " ++
        decimal image.epoch.value.toNat }

/-- The class the evidence names, in the generation it names. -/
def classBinding (image : StateImage) (via : SubjectId) (entry : AssignmentEntry) :
    Except RejectedEvidence Unit :=
  match image.classes[entry.assignment.cls]? with
  | none =>
      .error
        { entry, viaSubject := via, code := text "class_not_registered"
          detail := assignmentNamed entry ++ text " names class '" ++
            entry.assignment.cls.value ++ text "' which is no longer registered" }
  | some node =>
      rejectIf (node.definition.generation ≠ entry.assignment.classGeneration)
        { entry, viaSubject := via, code := text "class_generation_stale"
          detail := assignmentNamed entry ++ text " binds class '" ++
            entry.assignment.cls.value ++ text "' generation " ++
            decimal entry.assignment.classGeneration.value.toNat ++
            text " which has been superseded by generation " ++
            decimal node.definition.generation.value.toNat }

/-- The policy the evidence names, if any, in the generation it names. -/
def policyBinding (image : StateImage) (via : SubjectId) (entry : AssignmentEntry) :
    Except RejectedEvidence Unit :=
  match entry.assignment.policy with
  | none => .ok ()
  | some policy =>
      rejectIf ((image.policies[policy]?).map (·.definition.generation) ≠
          some entry.assignment.policyGeneration)
        { entry, viaSubject := via, code := text "policy_generation_stale"
          detail := assignmentNamed entry ++ text " binds policy '" ++ policy.value ++
            text "' generation " ++ decimal entry.assignment.policyGeneration.value.toNat ++
            text " which has been superseded" }

/-- Every generation the evidence is bound to is current, and its class is
visible. -/
def generationBinding (image : StateImage) (via : SubjectId) (entry : AssignmentEntry) :
    Except RejectedEvidence Unit := do
  let assignment := entry.assignment
  rejectIf ((image.subjects[assignment.subject]?).map (·.definition.generation) ≠
      some assignment.subjectGeneration)
    { entry, viaSubject := via, code := text "subject_generation_stale"
      detail := assignmentNamed entry ++ text " binds subject '" ++
        assignment.subject.value ++ text "' generation " ++
        decimal assignment.subjectGeneration.value.toNat ++
        text " which has been superseded" }
  rejectIf ((image.scopes[assignment.scope]?).map (·.definition.generation) ≠
      some assignment.scopeGeneration)
    { entry, viaSubject := via, code := text "scope_generation_stale"
      detail := assignmentNamed entry ++ text " binds scope '" ++ assignment.scope.value ++
        text "' generation " ++ decimal assignment.scopeGeneration.value.toNat ++
        text " which has been superseded" }
  classBinding image via entry
  policyBinding image via entry
  rejectIf (classVisible image assignment.scope assignment.cls = false)
    { entry, viaSubject := via, code := text "class_not_visible"
      detail := text "class '" ++ assignment.cls.value ++ text "' is not visible in scope '" ++
        assignment.scope.value ++ text "' under the effective policy" }

def checkBinding (image : StateImage) (via : SubjectId) (entry : AssignmentEntry) :
    Except RejectedEvidence Unit := do
  authorityBinding image via entry
  generationBinding image via entry

/-! ## Collecting evidence -/

structure Evidence where
  accepted : List Candidate := []
  rejected : List RejectedEvidence := []

/-- What one assignment contributes: nothing when it does not propagate to
descendants or is bound outside the scope chain. -/
def judge (image : StateImage) (scopes : List PolicyScopeId) (subject : SubjectId)
    (distance : Nat) (evidence : Evidence) (entry : AssignmentEntry) : Evidence :=
  if distance > 0 ∧ entry.assignment.kind ≠ .inherited then evidence
  else
    match scopes.findIdx? (· = entry.assignment.scope) with
    | none => evidence
    | some level =>
        match checkBinding image subject entry with
        | .error rejected => { evidence with rejected := evidence.rejected ++ [rejected] }
        | .ok () =>
            { evidence with accepted := evidence.accepted ++ [
                { level, entry, viaSubject := subject, inheritanceDistance := distance }] }

/-- The assignments of a bucket in order; `steps` counts those already scanned. -/
def collectLoop (image : StateImage) (scopes : List PolicyScopeId) (subject : SubjectId)
    (distance : Nat) : (steps : Nat) → List PriorityAssignmentId → Evidence → Evidence
  | _, [], evidence => evidence
  | steps, id :: rest, evidence =>
      match image.assignments[id]? with
      | none => collectLoop image scopes subject distance steps rest evidence
      | some entry =>
          if steps + 1 > image.limits.maxQuerySteps then
            { evidence with rejected := evidence.rejected ++ [
                { entry, viaSubject := subject
                  code := text "evidence_scan_budget_exhausted"
                  detail := text "subject '" ++ subject.value ++
                    text "' holds more assignments than the evaluation budget of " ++
                    decimal image.limits.maxQuerySteps }] }
          else
            collectLoop image scopes subject distance (steps + 1) rest
              (judge image scopes subject distance evidence entry)

def collectForSubject (image : StateImage) (scopes : List PolicyScopeId)
    (subject : SubjectId) (distance : Nat) (evidence : Evidence) : Evidence :=
  match image.assignmentsBySubject[subject]? with
  | none => evidence
  | some bucket => collectLoop image scopes subject distance 0 bucket evidence

/-- The closest ancestor that offers any evidence ends the walk. -/
def collectAncestors (image : StateImage) (scopes : List PolicyScopeId) :
    List (SubjectId × Nat) → Evidence → Evidence
  | [], evidence => evidence
  | (ancestor, distance) :: rest, evidence =>
      let collected := collectForSubject image scopes ancestor distance evidence
      if collected.accepted.length > evidence.accepted.length ∨
          collected.rejected.length > evidence.rejected.length then collected
      else collectAncestors image scopes rest collected

/-- The evidence of the subject itself, or of its closest ancestor that has any. -/
def collectEvidence (image : StateImage) (scopes : List PolicyScopeId)
    (subject : SubjectId) : Result Evidence :=
  let own := collectForSubject image scopes subject 0 {}
  if own.accepted.isEmpty then
    (subjectAncestors image subject).map (collectAncestors image scopes · own)
  else .ok own

/-! ## Exceptions -/

/-- A strictly broader candidate offers the class this one displaces. -/
def displacesTarget (accepted : List Candidate) (candidate : Candidate) : Bool :=
  match candidate.entry.assignment.displaces with
  | none => true
  | some target => accepted.any fun other =>
      other.level > candidate.level && other.entry.assignment.cls = target

def exceptionCheck (accepted : List Candidate) (candidate : Candidate) :
    Except RejectedEvidence Unit :=
  match candidate.entry.assignment.displaces with
  | none =>
      rejectIf (candidate.entry.assignment.kind = .exception)
        { entry := candidate.entry, viaSubject := candidate.viaSubject
          code := text "exception_without_target"
          detail := assignmentNamed candidate.entry ++
            text " is declared as an exception but names no class to displace" }
  | some target =>
      rejectIf (displacesTarget accepted candidate = false)
        { entry := candidate.entry, viaSubject := candidate.viaSubject
          code := text "exception_target_mismatch"
          detail := assignmentNamed candidate.entry ++ text " displaces class '" ++
            target.value ++ text "' but no valid broader assignment offers that class" }

/-- Split the candidates into those that apply and those that do not. -/
def filterExceptions (evidence : Evidence) : Evidence where
  accepted := evidence.accepted.filter fun candidate =>
    (exceptionCheck evidence.accepted candidate).isOk
  rejected := evidence.rejected ++ evidence.accepted.filterMap fun candidate =>
    match exceptionCheck evidence.accepted candidate with
    | .ok () => none
    | .error rejected => some rejected

/-! ## The answer without usable evidence -/

/-- Answer from refused evidence, from a declared default, or not at all. -/
def fallbackDecision (image : StateImage) (query : PriorityQuery)
    (rejected : List RejectedEvidence) (decision : PriorityDecision) : PriorityDecision :=
  let fallback := resolveUnknownDefault image query.scope
  match rejected with
  | first :: _ =>
      let fenced := rejected.any (·.authorityRelated)
      { decision with
        outcome := if fenced then .fenced else .stale
        reasonCode := if fenced then text "evidence_fenced" else text "evidence_stale"
        reason := text "the fabric holds " ++ decimal rejected.length ++
          text " piece(s) of evidence for this subject and scope, and every one of " ++
          text "them lost its authority: " ++ first.code
        resolution := text "none" }
  | [] =>
      if fallback.found ∧ fallback.available then
        { decision with
          outcome := .assigned
          authoritative := true
          cls := fallback.cls
          classGeneration := fallback.classGeneration
          precedence := fallback.precedence
          privilegedClass := fallback.privileged
          reasonCode := text "policy_declared_default"
          reason := text "no assignment exists for subject '" ++ query.subject.value ++
            text "' in scope '" ++ query.scope.value ++
            text "'; the policy declared by " ++ fallback.source ++
            text " supplies the default class '" ++ fallback.cls.value ++ text "'"
          resolution := text "policy_default" }
      else if fallback.found then
        { decision with
          outcome := .unknown
          reasonCode := text "default_class_unavailable"
          reason := text "the policy declares default class '" ++ fallback.cls.value ++
            text "' for unassigned subjects but that class is not usable in scope '" ++
            query.scope.value ++ text "'; the fabric does not substitute another class"
          resolution := text "none" }
      else
        { decision with
          outcome := .unknown
          reasonCode := text "no_authoritative_assignment"
          reason := text "no assignment, inheritance or policy default covers subject '" ++
            query.subject.value ++ text "' in scope '" ++ query.scope.value ++
            text "'; the fabric reports UNKNOWN rather than assuming a low class"
          resolution := text "none" }

/-- Explain the fallback: a default has a step of its own. -/
def explainFallback (builder : ChainBuilder) (decision : PriorityDecision) : ChainBuilder :=
  let builder := if decision.authoritative then
      builder.push
        { stage := text "default.apply"
          code := text "policy_declared_default"
          detail := decision.reason
          cls := some decision.cls
          classGeneration := decision.classGeneration }
    else builder
  builder.push
    { stage := text "decision", code := decision.reasonCode, detail := decision.reason }

/-! ## The deciding level -/

def scopeAt (scopes : List PolicyScopeId) (level : Nat) : PolicyScopeId :=
  scopes.getD level {}

/-- The scope of the level does not allow overrides. -/
def nonOverridable (image : StateImage) (scopes : List PolicyScopeId) (level : Nat) : Bool :=
  match image.scopes[scopeAt scopes level]? with
  | none => false
  | some node => !node.definition.allowOverride

/-- The narrowest level that holds evidence and does not allow overrides. -/
def authoritativeLevel (image : StateImage) (scopes : List PolicyScopeId)
    (accepted : List Candidate) : Option Nat :=
  ((accepted.map (·.level)).filter (nonOverridable image scopes)).min?

/-- The level that decides: one that does not allow overrides, or the narrowest. -/
def decidingLevel (image : StateImage) (scopes : List PolicyScopeId)
    (accepted : List Candidate) : Nat :=
  (authoritativeLevel image scopes accepted).getD (((accepted.map (·.level)).min?).getD 0)

/-! ## Conflicts -/

/-- A candidate of the deciding level, with its position. -/
abbrev Placed := Candidate × Nat

/-- The candidate with the highest declared rank, the earliest of equals. -/
def higherPrecedence (image : StateImage) (first : Placed) (winning : List Placed) : Placed :=
  winning.foldl
    (fun best candidate =>
      match image.classes[candidate.1.entry.assignment.cls]? with
      | none => best
      | some node =>
          match image.classes[best.1.entry.assignment.cls]? with
          | none => candidate
          | some leader =>
              if node.definition.precedence.value > leader.definition.precedence.value then
                candidate
              else best)
    first

/-- The candidate with the smallest assignment id. -/
def assignmentIdOrder (first : Placed) (winning : List Placed) : Placed :=
  winning.foldl
    (fun best candidate =>
      if (compare candidate.1.entry.assignment.id best.1.entry.assignment.id).isLT then
        candidate
      else best)
    first

/-- How the candidates of the deciding level were settled. -/
structure Verdict where
  conflict : Bool := false
  winner : Option Candidate
  losers : List Candidate := []
  resolution : Bytes := text "unique"

/-- Settle contradictory candidates as the caller and the policy say. -/
def settleConflict (image : StateImage) (query : PriorityQuery) (scope : PolicyScopeId)
    (first : Placed) (winning : List Placed) : Verdict :=
  let mode := effectiveConflictMode image scope
  if query.strictConflicts ∨ mode.mode = .deny then
    { conflict := true
      winner := none
      losers := winning.map (·.1)
      resolution := if query.strictConflicts then text "denied_by_caller"
        else text "denied_by_" ++ mode.source }
  else
    let winner := if mode.mode = .higherPrecedence then higherPrecedence image first winning
      else assignmentIdOrder first winning
    { conflict := true
      winner := some winner.1
      losers := (winning.filter (·.2 ≠ winner.2)).map (·.1)
      resolution := (if mode.mode = .higherPrecedence then text "higher_precedence_by_"
        else text "assignment_id_order_by_") ++ mode.source }

/-- The winner among the candidates of the deciding level. -/
def settle (image : StateImage) (query : PriorityQuery) (scope : PolicyScopeId)
    (first : Candidate) (others : List Candidate) : Verdict :=
  if others.any (·.entry.assignment.cls ≠ first.entry.assignment.cls) then
    settleConflict image query scope (first, 0) (first :: others).zipIdx
  else { winner := some first }

def conflictText (candidate : Candidate) : Bytes :=
  describeAssignment candidate.entry.assignment ++ text " (subject '" ++
    (if candidate.viaSubject.valid then candidate.viaSubject.value
      else candidate.entry.assignment.subject.value) ++ text "')"

def loserNote (resolution : Bytes) (candidate : Candidate) : EvidenceNote :=
  makeNote candidate.entry candidate.viaSubject (text "conflict_loser")
    (describeAssignment candidate.entry.assignment ++
      text " lost the deterministic conflict resolution (" ++ resolution ++ text ")")

def displacedNote (scope : PolicyScopeId) (deciding : Nat) (candidate : Candidate) :
    EvidenceNote :=
  if candidate.level < deciding then
    makeNote candidate.entry candidate.viaSubject (text "displaced_by_authoritative_scope")
      (describeAssignment candidate.entry.assignment ++
        text " was displaced because scope '" ++ scope.value ++
        text "' declares itself non-overridable")
  else
    makeNote candidate.entry candidate.viaSubject (text "broader_scope_displaced")
      (describeAssignment candidate.entry.assignment ++
        text " was displaced by narrower evidence in scope '" ++ scope.value ++ text "'")

/-! ## The answer from usable evidence -/

/-- Outcome and texts when the candidates contradict each other. -/
def conflictOutcome (scope : PolicyScopeId) (verdict : Verdict)
    (decision : PriorityDecision) : PriorityDecision :=
  { decision with
    outcome := .conflict
    authoritative := verdict.winner.isSome
    resolution := verdict.resolution
    reasonCode := if verdict.winner.isSome then text "conflict_resolved"
      else text "conflict_unresolved"
    reason := text "contradictory assignments were found at scope '" ++ scope.value ++
      (if verdict.winner.isSome then
        text "'; the policy resolved them deterministically (" ++ verdict.resolution ++
          text ")"
      else text "' and the effective conflict policy denies rather than guessing") }

/-- Outcome and texts when one class is left. -/
def uniqueOutcome (query : PriorityQuery) (scope : PolicyScopeId) (winner : Candidate)
    (displaced : List Candidate) (decision : PriorityDecision) : PriorityDecision :=
  let decision := { decision with
    authoritative := true
    resolution := if displaced.isEmpty then text "unique" else text "narrower_scope" }
  if displaced.isEmpty = false then
    { decision with
      outcome := .overridden
      reasonCode := text "narrower_scope_overrides"
      reason := assignmentNamed winner.entry ++ text " in scope '" ++ scope.value ++
        text "' displaces broader evidence in the enclosing scopes" }
  else if winner.inheritanceDistance > 0 then
    { decision with
      outcome := .inherited
      reasonCode := text "inherited_from_ancestor"
      reason := text "subject '" ++ query.subject.value ++
        text "' holds no assignment of its own; the class comes from ancestor '" ++
        winner.viaSubject.value ++ text "' at inheritance distance " ++
        decimal winner.inheritanceDistance }
  else
    { decision with
      outcome := .assigned
      reasonCode := text "explicit_assignment"
      reason := assignmentNamed winner.entry ++ text " names subject '" ++
        query.subject.value ++ text "' directly in scope '" ++ scope.value ++ text "'" }

/-- The class of the winner, as the registry has it now. -/
def nameClass (image : StateImage) (winner : Candidate) (decision : PriorityDecision) :
    PriorityDecision :=
  match image.classes[winner.entry.assignment.cls]? with
  | none =>
      { decision with
        authoritative := false
        outcome := .rejected
        reasonCode := text "class_disappeared"
        reason := text "the winning assignment names a class that is not registered" }
  | some node =>
      { decision with
        cls := winner.entry.assignment.cls
        classGeneration := node.definition.generation
        precedence := node.definition.precedence
        privilegedClass := node.definition.privileged }

/-- The last step of the explanation names the winner of an authoritative answer. -/
def finalStep (winner : Option Candidate) (decision : PriorityDecision) : ExplanationStep :=
  let step : ExplanationStep :=
    { stage := text "decision", code := decision.reasonCode, detail := decision.reason }
  match winner with
  | none => step
  | some winner =>
      if decision.authoritative then
        { step with
          assignment := some winner.entry.assignment.id
          assignmentGeneration := winner.entry.assignment.generation
          cls := some decision.cls
          classGeneration := decision.classGeneration
          scope := some winner.entry.assignment.scope
          provenance := winner.entry.provenance }
      else step

/-- The decision of the level's candidates, the first of them and the others. -/
def decideAt (image : StateImage) (query : PriorityQuery) (scopes : List PolicyScopeId)
    (deciding : Nat) (first : Candidate) (others displaced : List Candidate)
    (builder : ChainBuilder) (decision : PriorityDecision) : PriorityDecision :=
  let scope := scopeAt scopes deciding
  let verdict := settle image query scope first others
  let decision := match verdict.conflict, verdict.winner with
    | false, some winner => uniqueOutcome query scope winner displaced decision
    | _, _ => conflictOutcome scope verdict
        { decision with conflicts := (first :: others).map conflictText }
  let decision := match verdict.winner with
    | none => decision
    | some winner => nameClass image winner decision
  let decision := { decision with
    superseded := verdict.losers.map (loserNote verdict.resolution) ++
      displaced.map (displacedNote scope deciding) }
  { decision with chain := (builder.push (finalStep verdict.winner decision)).steps }

/-! ## Evaluation -/

def stepBudget (image : StateImage) (query : PriorityQuery) : Nat :=
  max 2 (min
    (if query.maxExplanationSteps = 0 then image.limits.maxExplanationSteps
      else query.maxExplanationSteps)
    image.limits.maxExplanationSteps)

def queryStep (image : StateImage) (query : PriorityQuery) (admitted : Admitted) :
    ExplanationStep where
  stage := text "query"
  code := text "validated"
  detail := text "subject '" ++ query.subject.value ++ text "' generation " ++
    decimal admitted.subjectGeneration.value.toNat ++ text " in scope '" ++
    query.scope.value ++ text "' generation " ++
    decimal admitted.scopeGeneration.value.toNat ++ text " at epoch " ++
    decimal image.epoch.value.toNat

/-- The chain up to the decision: the query, what was accepted, what was refused. -/
def explainEvidence (image : StateImage) (query : PriorityQuery) (admitted : Admitted)
    (evidence : Evidence) : ChainBuilder :=
  let builder : ChainBuilder := { limit := stepBudget image query }
  let builder := builder.push (queryStep image query admitted)
  let builder := evidence.accepted.foldl
    (fun builder candidate => builder.push
      (makeStep (text "candidate.accept") (text "binding_ok")
        (describeAssignment candidate.entry.assignment) candidate.entry
        candidate.viaSubject)) builder
  evidence.rejected.foldl
    (fun builder item => builder.push
      (makeStep (text "candidate.reject") item.code item.detail item.entry
        item.viaSubject)) builder

/-- Answer from the evidence that was collected. -/
def answer (image : StateImage) (query : PriorityQuery) (admitted : Admitted)
    (collected : Evidence) : PriorityDecision :=
  let evidence := filterExceptions collected
  let builder := explainEvidence image query admitted evidence
  let rejected := evidence.rejected.take image.limits.maxQuerySteps
  let decision : PriorityDecision :=
    { epoch := image.epoch
      stateGeneration := image.generation
      policyGeneration := admitted.policyGeneration
      scopeGeneration := admitted.scopeGeneration
      rejectedEvidence := rejected.map fun item =>
        makeNote item.entry item.viaSubject item.code item.detail }
  let deciding := decidingLevel image admitted.scopes evidence.accepted
  match evidence.accepted.filter (·.level = deciding) with
  | [] =>
      let decision := fallbackDecision image query rejected decision
      sealed { decision with chain := (explainFallback builder decision).steps }
  | first :: others =>
      let displaced := evidence.accepted.filter (·.level ≠ deciding)
      sealed (decideAt image query admitted.scopes deciding first others displaced builder
        decision)

/-- Decide the priority class of a subject in a scope. -/
def evaluateQuery (image : StateImage) (query : PriorityQuery) : PriorityDecision :=
  match gates image query with
  | .error decision => decision
  | .ok admitted =>
      match collectEvidence image admitted.scopes query.subject with
      | .error e => rejectedDecision image (text "inheritance_unusable") e.message
      | .ok collected => answer image query admitted collected

end PriorityFabric.Evaluate
