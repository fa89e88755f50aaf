import PriorityFabric.Holdings

/-!
What an evaluation reads of an image.

The registry, the authority table and the limits are read whole; of the assignments only
those that the queried subject and its ancestors hold.  The generation of the image is
reported and otherwise unused.
-/

namespace PriorityFabric.Views

open PriorityFabric.Lib.LittleEndian
open PriorityFabric.Basics
open PriorityFabric.Ident
open PriorityFabric.Model
open PriorityFabric.State
open PriorityFabric.Evaluate
open PriorityFabric.UsableEvidence
open PriorityFabric.Decisions
open PriorityFabric.Holdings

/-- The image `b` under everything an evaluation goes by in `a`, apart from assignments. -/
def overlaid (a b : StateImage) : StateImage :=
  { b with
    epoch := a.epoch
    limits := a.limits
    classes := a.classes
    scopes := a.scopes
    policies := a.policies
    subjects := a.subjects
    authority := a.authority
    health := a.health
    healthDetail := a.healthDetail }

section Overlay

variable (a b : StateImage)

theorem scopeChainLoop_overlaid (scope : PolicyScopeId) (room : Nat) (current : PolicyScopeId)
    (chain : List PolicyScopeId) :
    scopeChainLoop (overlaid a b) scope room current chain =
      scopeChainLoop a scope room current chain := by
  induction room generalizing current chain with
  | zero =>
      unfold scopeChainLoop
      rfl
  | succ room ih =>
      unfold scopeChainLoop
      simp only [ih]
      rfl

theorem scopeChain_overlaid (scope : PolicyScopeId) :
    scopeChain (overlaid a b) scope = scopeChain a scope :=
  scopeChainLoop_overlaid a b scope _ _ _

theorem effectivePolicy_overlaid (scope : PolicyScopeId) :
    effectivePolicy (overlaid a b) scope = effectivePolicy a scope := by
  unfold effectivePolicy
  rw [scopeChain_overlaid]
  rfl

theorem classVisible_overlaid (scope : PolicyScopeId) (cls : PriorityClassId) :
    classVisible (overlaid a b) scope cls = classVisible a scope cls := by
  unfold classVisible effectiveVisibility
  rw [scopeChain_overlaid]
  rfl

theorem resolveUnknownDefault_overlaid (scope : PolicyScopeId) :
    resolveUnknownDefault (overlaid a b) scope = resolveUnknownDefault a scope := by
  unfold resolveUnknownDefault
  simp only [scopeChain_overlaid, classVisible_overlaid]
  rfl

theorem ancestorLoop_overlaid (id : SubjectId) (fuel : Nat) (seen : List SubjectId)
    (out frontier : List (SubjectId × Nat)) :
    ancestorLoop (overlaid a b) id fuel seen out frontier =
      ancestorLoop a id fuel seen out frontier := by
  induction fuel generalizing seen out frontier with
  | zero => rfl
  | succ fuel ih =>
      cases frontier with
      | nil => rfl
      | cons entry rest =>
          simp only [ancestorLoop, ih]
          rfl

theorem subjectAncestors_overlaid (id : SubjectId) :
    subjectAncestors (overlaid a b) id = subjectAncestors a id := by
  unfold subjectAncestors
  simp only [ancestorLoop_overlaid]
  rfl

theorem checkBinding_overlaid (via : SubjectId) (entry : AssignmentEntry) :
    checkBinding (overlaid a b) via entry = checkBinding a via entry := by
  unfold checkBinding generationBinding
  simp only [classVisible_overlaid]
  rfl

theorem gathered_overlaid (scopes : List PolicyScopeId) (subject : SubjectId) (distance : Nat) :
    gathered (overlaid a b) scopes subject distance =
      within a scopes subject distance a.limits.maxQuerySteps (heldBy b subject) := by
  unfold gathered within candidateOf refusalOf verdictOn
  simp only [checkBinding_overlaid]
  rfl

end Overlay

/-- The subject is the queried one or an ancestor of it. -/
def Consulted (image : StateImage) (subject holder : SubjectId) : Prop :=
  holder = subject ∨ AncestorOf image subject holder

/-- The subjects an evaluation consults hold the same assignments in both images. -/
def SameHoldings (a b : StateImage) (subject : SubjectId) : Prop :=
  ∀ holder, Consulted a subject holder → heldBy b holder = heldBy a holder

section Evidence

variable {a b : StateImage} {subject : SubjectId}

theorem gathered_overlaid_eq (scopes : List PolicyScopeId) {holder : SubjectId} (distance : Nat)
    (h : heldBy b holder = heldBy a holder) :
    gathered (overlaid a b) scopes holder distance = gathered a scopes holder distance := by
  rw [gathered_overlaid, h]
  rfl

theorem collectEvidence_overlaid (h : SameHoldings a b subject) (scopes : List PolicyScopeId) :
    collectEvidence (overlaid a b) scopes subject = collectEvidence a scopes subject := by
  rw [collectEvidence_eq, collectEvidence_eq, subjectAncestors_overlaid,
    gathered_overlaid_eq scopes 0 (h subject (.inl rfl))]
  cases hancestors : subjectAncestors a subject with
  | error e => rfl
  | ok ancestors =>
      have htier : ancestorTier (overlaid a b) scopes ancestors =
          ancestorTier a scopes ancestors := by
        have hgathered : ancestors.map (fun ancestor =>
            gathered (overlaid a b) scopes ancestor.1 ancestor.2) =
            ancestors.map fun ancestor => gathered a scopes ancestor.1 ancestor.2 := by
          refine List.map_congr_left fun ancestor hancestor => ?_
          have hlisted := subjectAncestors_listed hancestors ancestor hancestor
          exact gathered_overlaid_eq scopes _ (h _ (.inr hlisted.1.1))
        rw [ancestorTier, hgathered]
        rfl
      simp only [Except.map, htier]

end Evidence

/-- A decision without the generation of the image it was made on and the digest over it. -/
def unstamped (decision : PriorityDecision) : PriorityDecision :=
  { decision with stateGeneration := .unset, digest := {} }

theorem exists_digest_of_unstamped {decision decision' : PriorityDecision}
    (h : unstamped decision' = unstamped decision) :
    ∃ digest, decision' =
      { decision with stateGeneration := decision'.stateGeneration, digest } := by
  refine ⟨decision'.digest, ?_⟩
  cases decision
  cases decision'
  simp only [unstamped, PriorityDecision.mk.injEq] at h ⊢
  tauto

section Gates

variable (a b : StateImage)

theorem mapError_bind {ε ε' α β : Type} (g : ε → ε') (x : Except ε α) (f : α → Except ε β) :
    (x >>= f).mapError g = x.mapError g >>= fun a => (f a).mapError g := by
  cases x <;> rfl

theorem mapError_answerIf (stop : Prop) [Decidable stop] (decision : PriorityDecision) :
    (answerIf stop decision).mapError unstamped = answerIf stop (unstamped decision) := by
  unfold answerIf
  split <;> rfl

theorem epochGate_overlaid (epoch : Option FabricEpoch) :
    (epochGate (overlaid a b) epoch).mapError unstamped =
      (epochGate a epoch).mapError unstamped := by
  cases epoch with
  | none => rfl
  | some epoch =>
      simp only [epochGate, mapError_bind, mapError_answerIf]
      rfl

theorem subjectGate_overlaid (query : PriorityQuery) :
    (subjectGate (overlaid a b) query).mapError unstamped =
      (subjectGate a query).mapError unstamped := by
  unfold subjectGate
  have hsubjects : (overlaid a b).subjects = a.subjects := rfl
  rw [hsubjects]
  cases a.subjects[query.subject]? with
  | none => rfl
  | some entry =>
      simp only [mapError_bind, mapError_answerIf]
      rfl

theorem scopeGate_overlaid (query : PriorityQuery) :
    (scopeGate (overlaid a b) query).mapError unstamped =
      (scopeGate a query).mapError unstamped := by
  unfold scopeGate
  rw [scopeChain_overlaid]
  cases scopeChain a query.scope <;> rfl

theorem gates_overlaid (query : PriorityQuery) :
    (gates (overlaid a b) query).mapError unstamped = (gates a query).mapError unstamped := by
  unfold gates effectivePolicyGeneration
  simp only [mapError_bind, mapError_answerIf, epochGate_overlaid, subjectGate_overlaid,
    scopeGate_overlaid, effectivePolicy_overlaid]
  rfl

end Gates

section Answers

variable (a b : StateImage)

/-- The decision as made on an image of this generation. -/
def restamped (generation : Generation) (decision : PriorityDecision) : PriorityDecision :=
  { decision with stateGeneration := generation }

variable (generation : Generation) (image : StateImage) (query : PriorityQuery)
  (scope : PolicyScopeId) (decision : PriorityDecision)

theorem fallbackDecision_restamped (rejected : List RejectedEvidence) :
    fallbackDecision image query rejected (restamped generation decision) =
      restamped generation (fallbackDecision image query rejected decision) := by
  unfold fallbackDecision
  cases rejected with
  | cons first rest => rfl
  | nil =>
      simp only
      split
      · rfl
      · split <;> rfl

theorem uniqueOutcome_restamped (winner : Candidate) (displaced : List Candidate) :
    uniqueOutcome query scope winner displaced (restamped generation decision) =
      restamped generation (uniqueOutcome query scope winner displaced decision) := by
  unfold uniqueOutcome
  simp only
  split
  · rfl
  · split <;> rfl

theorem nameClass_restamped (winner : Candidate) :
    nameClass image winner (restamped generation decision) =
      restamped generation (nameClass image winner decision) := by
  unfold nameClass
  split <;> rfl

/-- Outcome and texts of a verdict, before the class is named. -/
def outcomeOf (first : Candidate) (others displaced : List Candidate) (verdict : Verdict) :
    PriorityDecision :=
  match verdict.conflict, verdict.winner with
  | false, some winner => uniqueOutcome query scope winner displaced decision
  | _, _ => conflictOutcome scope verdict
      { decision with conflicts := (first :: others).map conflictText }

def namedBy (winner : Option Candidate) : PriorityDecision :=
  match winner with
  | none => decision
  | some winner => nameClass image winner decision

theorem outcomeOf_restamped (first : Candidate) (others displaced : List Candidate)
    (verdict : Verdict) :
    outcomeOf query scope (restamped generation decision) first others displaced verdict =
      restamped generation (outcomeOf query scope decision first others displaced verdict) := by
  obtain ⟨conflict, winner, losers, resolution⟩ := verdict
  cases winner with
  | none => cases conflict <;> rfl
  | some winner =>
      cases conflict with
      | true => rfl
      | false => exact uniqueOutcome_restamped generation query scope decision winner displaced

theorem namedBy_restamped (winner : Option Candidate) :
    namedBy image (restamped generation decision) winner =
      restamped generation (namedBy image decision winner) := by
  cases winner with
  | none => rfl
  | some winner => exact nameClass_restamped generation image decision winner

/-- The notes and the explanation of a decision on a level. -/
def explained (deciding : Nat) (displaced : List Candidate) (builder : ChainBuilder)
    (verdict : Verdict) : PriorityDecision :=
  let decision := { decision with
    superseded := verdict.losers.map (loserNote verdict.resolution) ++
      displaced.map (displacedNote scope deciding) }
  { decision with chain := (builder.push (finalStep verdict.winner decision)).steps }

theorem decideAt_eq (scopes : List PolicyScopeId) (deciding : Nat) (first : Candidate)
    (others displaced : List Candidate) (builder : ChainBuilder) :
    decideAt image query scopes deciding first others displaced builder decision =
      explained (scopeAt scopes deciding)
        (namedBy image (outcomeOf query (scopeAt scopes deciding) decision first others displaced
          (settle image query (scopeAt scopes deciding) first others))
          (settle image query (scopeAt scopes deciding) first others).winner)
        deciding displaced builder
        (settle image query (scopeAt scopes deciding) first others) := rfl

theorem decideAt_restamped (scopes : List PolicyScopeId) (deciding : Nat) (first : Candidate)
    (others displaced : List Candidate) (builder : ChainBuilder) :
    decideAt image query scopes deciding first others displaced builder
        (restamped generation decision) =
      restamped generation
        (decideAt image query scopes deciding first others displaced builder decision) := by
  rw [decideAt_eq, decideAt_eq, outcomeOf_restamped, namedBy_restamped]
  rfl

def opening (admitted : Admitted) (rejected : List RejectedEvidence) : PriorityDecision where
  epoch := image.epoch
  stateGeneration := image.generation
  policyGeneration := admitted.policyGeneration
  scopeGeneration := admitted.scopeGeneration
  rejectedEvidence := rejected.map fun item =>
    makeNote item.entry item.viaSubject item.code item.detail

theorem opening_overlaid (admitted : Admitted) (rejected : List RejectedEvidence) :
    opening (overlaid a b) admitted rejected =
      restamped b.generation (opening a admitted rejected) := rfl

/-- The answer from what is left after the exceptions. -/
def concluded (admitted : Admitted) (evidence : Evidence) : PriorityDecision :=
  let builder := explainEvidence image query admitted evidence
  let rejected := evidence.rejected.take image.limits.maxQuerySteps
  let decision := opening image admitted rejected
  let deciding := decidingLevel image admitted.scopes evidence.accepted
  match evidence.accepted.filter (·.level = deciding) with
  | [] =>
      let decision := fallbackDecision image query rejected decision
      sealed { decision with chain := (explainFallback builder decision).steps }
  | first :: others =>
      let displaced := evidence.accepted.filter (·.level ≠ deciding)
      sealed (decideAt image query admitted.scopes deciding first others displaced builder
        decision)

theorem answer_eq (admitted : Admitted) (collected : Evidence) :
    answer image query admitted collected =
      concluded image query admitted (filterExceptions collected) := rfl

theorem fallbackDecision_overlaid (rejected : List RejectedEvidence) :
    fallbackDecision (overlaid a b) query rejected decision =
      fallbackDecision a query rejected decision := by
  unfold fallbackDecision
  rw [resolveUnknownDefault_overlaid]

theorem decideAt_overlaid (scopes : List PolicyScopeId) (deciding : Nat) (first : Candidate)
    (others displaced : List Candidate) (builder : ChainBuilder) :
    decideAt (overlaid a b) query scopes deciding first others displaced builder decision =
      decideAt a query scopes deciding first others displaced builder decision := rfl

theorem concluded_overlaid (admitted : Admitted) (evidence : Evidence) :
    unstamped (concluded (overlaid a b) query admitted evidence) =
      unstamped (concluded a query admitted evidence) := by
  have hdeciding : decidingLevel (overlaid a b) admitted.scopes evidence.accepted =
      decidingLevel a admitted.scopes evidence.accepted := rfl
  have hbuilder : explainEvidence (overlaid a b) query admitted evidence =
      explainEvidence a query admitted evidence := rfl
  have hlimits : (overlaid a b).limits = a.limits := rfl
  unfold concluded
  simp only [hdeciding, hbuilder, hlimits, opening_overlaid, fallbackDecision_overlaid,
    decideAt_overlaid, fallbackDecision_restamped, decideAt_restamped]
  split <;> rfl

end Answers

/-- An evaluation depends on the setting and on what the subjects it consults hold; the
generation of the image is only reported. -/
theorem evaluateQuery_overlaid {a b : StateImage} {query : PriorityQuery}
    (h : SameHoldings a b query.subject) :
    unstamped (evaluateQuery (overlaid a b) query) = unstamped (evaluateQuery a query) := by
  have hgates := gates_overlaid a b query
  unfold evaluateQuery
  generalize gates (overlaid a b) query = overlaidGates at hgates ⊢
  cases hadmitted : gates a query with
  | error decision =>
      rw [hadmitted] at hgates
      cases overlaidGates with
      | error decision' => exact Except.error.inj hgates
      | ok admitted => cases hgates
  | ok admitted =>
      rw [hadmitted] at hgates
      cases overlaidGates with
      | error decision' => cases hgates
      | ok admitted' =>
          cases hgates
          simp only [collectEvidence_overlaid h]
          cases collectEvidence a admitted.scopes query.subject with
          | error e => rfl
          | ok collected => exact concluded_overlaid a b query admitted _

end PriorityFabric.Views
