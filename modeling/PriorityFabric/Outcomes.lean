import PriorityFabric.Decisions

/-!
The shape of every decision.

A decision either carries authority, and then it names a class as the registry has it
now, or it names nothing at all.  Its explanation stays within the step budget.
-/

namespace PriorityFabric.Outcomes

open PriorityFabric.Lib.LittleEndian
open PriorityFabric.Basics
open PriorityFabric.Ident
open PriorityFabric.Model
open PriorityFabric.State
open PriorityFabric.Evaluate
open PriorityFabric.Decisions

def Outcome.Refusing (outcome : Outcome) : Prop :=
  outcome = .unknown ∨ outcome = .stale ∨ outcome = .fenced ∨ outcome = .rejected

def Outcome.Granting (outcome : Outcome) : Prop :=
  outcome = .assigned ∨ outcome = .inherited ∨ outcome = .overridden

/-- No authority, no class and no rank. -/
structure Silent (decision : PriorityDecision) : Prop where
  authoritative : decision.authoritative = false
  cls : decision.cls = {}
  precedence : decision.precedence = .undeclared
  outcome : ¬ Outcome.Granting decision.outcome

/-- The decision reports the class it names as the registry has it now. -/
def ReportsEntry (image : StateImage) (decision : PriorityDecision) : Prop :=
  ∃ node, image.classes[decision.cls]? = some node ∧
    decision.classGeneration = node.definition.generation ∧
    decision.precedence = node.definition.precedence ∧
    decision.privilegedClass = node.definition.privileged

structure Naming (image : StateImage) (decision : PriorityDecision) : Prop where
  authoritative : decision.authoritative = true
  entry : ReportsEntry image decision
  outcome : ¬ Outcome.Refusing decision.outcome

def Formed (image : StateImage) (decision : PriorityDecision) : Prop :=
  Silent decision ∨ Naming image decision

def shape (decision : PriorityDecision) :
    Outcome × Bool × PriorityClassId × Generation × PrecedenceRank × Bool :=
  (decision.outcome, decision.authoritative, decision.cls, decision.classGeneration,
    decision.precedence, decision.privilegedClass)

theorem Formed.congr {image : StateImage} {decision decision' : PriorityDecision}
    (h : Formed image decision) (hshape : shape decision' = shape decision) :
    Formed image decision' := by
  simp only [shape, Prod.mk.injEq] at hshape
  obtain ⟨houtcome, hauthoritative, hcls, hgeneration, hprecedence, hprivileged⟩ := hshape
  rcases h with h | h
  · refine .inl ⟨?_, ?_, ?_, ?_⟩
    · rw [hauthoritative, h.authoritative]
    · rw [hcls, h.cls]
    · rw [hprecedence, h.precedence]
    · rw [houtcome]
      exact h.outcome
  · refine .inr ⟨?_, ?_, ?_⟩
    · rw [hauthoritative, h.authoritative]
    · unfold ReportsEntry
      rw [hcls, hgeneration, hprecedence, hprivileged]
      exact h.entry
    · rw [houtcome]
      exact h.outcome

theorem Formed.sealed {image : StateImage} {decision : PriorityDecision}
    (h : Formed image decision) : Formed image (sealed decision) :=
  h.congr rfl

theorem silent_of_refusal {image : StateImage} {decision : PriorityDecision}
    (h : Refusal image decision) : Silent decision := by
  cases h with
  | rejected code reason =>
      exact ⟨rfl, rfl, rfl, by simp [Outcome.Granting, rejectedDecision, sealed]⟩
  | stale code reason policyGeneration scopeGeneration hchain =>
      exact ⟨rfl, rfl, rfl, by simp [Outcome.Granting, staleDecision, sealed]⟩

theorem length_chain_of_refusal {image : StateImage} {decision : PriorityDecision}
    (h : Refusal image decision) : decision.chain.length ≤ 1 := by
  cases h with
  | rejected code reason => exact Nat.zero_le 1
  | stale code reason policyGeneration scopeGeneration hchain => exact hchain

theorem registered_of_available {image : StateImage} {scope : PolicyScopeId}
    (h : (resolveUnknownDefault image scope).available = true) :
    ∃ node, image.classes[(resolveUnknownDefault image scope).cls]? = some node ∧
      (resolveUnknownDefault image scope).classGeneration = node.definition.generation ∧
      (resolveUnknownDefault image scope).precedence = node.definition.precedence ∧
      (resolveUnknownDefault image scope).privileged = node.definition.privileged := by
  unfold resolveUnknownDefault at h ⊢
  split at h
  · cases h
  · split at h
    · cases h
    · split at h
      · cases h
      · rename_i chain hchain _ cls source hdefault _ node hnode
        simp only [hnode]
        exact ⟨node, rfl, rfl, rfl, rfl⟩

theorem formed_fallbackDecision {image : StateImage} {query : PriorityQuery}
    (rejected : List RejectedEvidence) {decision : PriorityDecision} (h : Silent decision) :
    Formed image (fallbackDecision image query rejected decision) := by
  unfold fallbackDecision
  simp only
  split
  · refine .inl ⟨h.authoritative, h.cls, h.precedence, ?_⟩
    simp only [Outcome.Granting]
    split <;> simp
  · split
    · rename_i hfound
      refine .inr ⟨rfl, registered_of_available hfound.2, ?_⟩
      simp [Outcome.Refusing]
    · split
      · exact .inl ⟨h.authoritative, h.cls, h.precedence, by simp [Outcome.Granting]⟩
      · exact .inl ⟨h.authoritative, h.cls, h.precedence, by simp [Outcome.Granting]⟩

/-- A winner either is named as the registry has it, or the answer is withdrawn. -/
theorem formed_nameClass {image : StateImage} (winner : Candidate) {decision : PriorityDecision}
    (hcls : decision.cls = {}) (hprecedence : decision.precedence = .undeclared)
    (hauthoritative : decision.authoritative = true)
    (houtcome : ¬ Outcome.Refusing decision.outcome) :
    Formed image (nameClass image winner decision) := by
  unfold nameClass
  split
  · exact .inl ⟨rfl, hcls, hprecedence, by simp [Outcome.Granting]⟩
  · rename_i node hnode
    exact .inr ⟨hauthoritative, ⟨node, hnode, rfl, rfl, rfl⟩, houtcome⟩

theorem uniqueOutcome_grants (query : PriorityQuery) (scope : PolicyScopeId)
    (winner : Candidate) (displaced : List Candidate) (decision : PriorityDecision) :
    (uniqueOutcome query scope winner displaced decision).authoritative = true ∧
      (uniqueOutcome query scope winner displaced decision).cls = decision.cls ∧
      (uniqueOutcome query scope winner displaced decision).precedence = decision.precedence ∧
      ¬ Outcome.Refusing (uniqueOutcome query scope winner displaced decision).outcome := by
  unfold uniqueOutcome
  simp only
  split
  · exact ⟨rfl, rfl, rfl, by simp [Outcome.Refusing]⟩
  · split
    · exact ⟨rfl, rfl, rfl, by simp [Outcome.Refusing]⟩
    · exact ⟨rfl, rfl, rfl, by simp [Outcome.Refusing]⟩

theorem formed_conflictOutcome (image : StateImage)
    (scope : PolicyScopeId) (verdict : Verdict) {decision : PriorityDecision}
    (h : Silent decision) :
    Formed image (match verdict.winner with
      | none => conflictOutcome scope verdict decision
      | some winner => nameClass image winner (conflictOutcome scope verdict decision)) := by
  split
  · rename_i hwinner
    refine .inl ⟨?_, h.cls, h.precedence, ?_⟩
    · simp [conflictOutcome, hwinner]
    · simp [conflictOutcome, Outcome.Granting]
  · rename_i winner hwinner
    refine formed_nameClass winner h.cls h.precedence ?_ ?_
    · simp [conflictOutcome, hwinner]
    · simp [conflictOutcome, Outcome.Refusing]

theorem formed_decideAt {image : StateImage} {query : PriorityQuery}
    (scopes : List PolicyScopeId) (deciding : Nat) (first : Candidate)
    (others displaced : List Candidate) (builder : ChainBuilder) {decision : PriorityDecision}
    (h : Silent decision) :
    Formed image (decideAt image query scopes deciding first others displaced builder
      decision) := by
  have hbase : Silent { decision with conflicts := (first :: others).map conflictText } :=
    ⟨h.authoritative, h.cls, h.precedence, h.outcome⟩
  have hconflicting := formed_conflictOutcome image (scopeAt scopes deciding)
    (settle image query (scopeAt scopes deciding) first others) hbase
  simp only [decideAt]
  cases hwinner : (settle image query (scopeAt scopes deciding) first others).winner with
  | none =>
      rw [hwinner] at hconflicting
      cases (settle image query (scopeAt scopes deciding) first others).conflict with
      | false => exact hconflicting.congr rfl
      | true => exact hconflicting.congr rfl
  | some winner =>
      rw [hwinner] at hconflicting
      cases (settle image query (scopeAt scopes deciding) first others).conflict with
      | false =>
          obtain ⟨hauthoritative, hcls, hprecedence, houtcome⟩ :=
            uniqueOutcome_grants query (scopeAt scopes deciding) winner displaced decision
          have hformed : Formed image (nameClass image winner
              (uniqueOutcome query (scopeAt scopes deciding) winner displaced decision)) :=
            formed_nameClass winner (hcls.trans h.cls) (hprecedence.trans h.precedence)
              hauthoritative houtcome
          exact hformed.congr rfl
      | true => exact hconflicting.congr rfl

/-- A chain under construction is within its limit, and below it until it was cut. -/
structure Bounded (builder : ChainBuilder) : Prop where
  length : builder.steps.length ≤ builder.limit
  below : builder.truncated = false → builder.steps.length < builder.limit

theorem Bounded.push {builder : ChainBuilder} (h : Bounded builder) (step : ExplanationStep) :
    Bounded (builder.push step) ∧ (builder.push step).limit = builder.limit := by
  unfold ChainBuilder.push
  split
  · split
    · exact ⟨h, rfl⟩
    · rename_i hopen
      have hbelow := h.below (by simpa using hopen)
      refine ⟨⟨?_, fun hcut => Bool.noConfusion hcut⟩, rfl⟩
      simp only [List.length_append, List.length_singleton]
      omega
  · rename_i hfits
    refine ⟨⟨?_, fun _ => ?_⟩, rfl⟩
    · simp only [List.length_append, List.length_singleton]
      omega
    · simp only [List.length_append, List.length_singleton]
      omega

theorem Bounded.foldl {α : Type} (f : α → ExplanationStep) (items : List α)
    {builder : ChainBuilder} (h : Bounded builder) :
    Bounded (items.foldl (fun builder item => builder.push (f item)) builder) ∧
      (items.foldl (fun builder item => builder.push (f item)) builder).limit =
        builder.limit := by
  induction items generalizing builder with
  | nil => exact ⟨h, rfl⟩
  | cons item items ih =>
      obtain ⟨hpush, hlimit⟩ := h.push (f item)
      obtain ⟨hrest, hsame⟩ := ih hpush
      exact ⟨hrest, hsame.trans hlimit⟩

theorem bounded_explainEvidence (image : StateImage) (query : PriorityQuery)
    (admitted : Admitted) (evidence : Evidence) :
    Bounded (explainEvidence image query admitted evidence) ∧
      (explainEvidence image query admitted evidence).limit = stepBudget image query := by
  have hstart : Bounded { limit := stepBudget image query } := by
    refine ⟨Nat.zero_le _, fun _ => ?_⟩
    exact lt_of_lt_of_le (by norm_num) (le_max_left 2 _)
  obtain ⟨hquery, hlimit⟩ := hstart.push (queryStep image query admitted)
  obtain ⟨haccepted, hlimit'⟩ := hquery.foldl (fun candidate : Candidate =>
    makeStep (text "candidate.accept") (text "binding_ok")
      (describeAssignment candidate.entry.assignment) candidate.entry candidate.viaSubject)
    evidence.accepted
  obtain ⟨hrejected, hlimit''⟩ := haccepted.foldl (fun item : RejectedEvidence =>
    makeStep (text "candidate.reject") item.code item.detail item.entry item.viaSubject)
    evidence.rejected
  exact ⟨hrejected, hlimit''.trans (hlimit'.trans hlimit)⟩

theorem bounded_explainFallback {builder : ChainBuilder} (h : Bounded builder)
    (decision : PriorityDecision) :
    (explainFallback builder decision).steps.length ≤ builder.limit := by
  unfold explainFallback
  simp only
  split
  · obtain ⟨hdefault, hlimit⟩ := h.push
      { stage := text "default.apply"
        code := text "policy_declared_default"
        detail := decision.reason
        cls := some decision.cls
        classGeneration := decision.classGeneration }
    obtain ⟨hlast, hlimit'⟩ := hdefault.push
      { stage := text "decision", code := decision.reasonCode, detail := decision.reason }
    exact hlast.length.trans_eq (hlimit'.trans hlimit)
  · obtain ⟨hlast, hlimit⟩ := h.push
      { stage := text "decision", code := decision.reasonCode, detail := decision.reason }
    exact hlast.length.trans_eq hlimit

theorem formed_answer (image : StateImage) (query : PriorityQuery) (admitted : Admitted)
    (collected : Evidence) :
    Formed image (answer image query admitted collected) ∧
      (answer image query admitted collected).chain.length ≤ stepBudget image query := by
  obtain ⟨hbounded, hlimit⟩ :=
    bounded_explainEvidence image query admitted (filterExceptions collected)
  have hgranting : ¬ Outcome.Granting .unknown := by simp [Outcome.Granting]
  simp only [answer]
  split
  · refine ⟨(formed_fallbackDecision _ ?_).congr rfl, ?_⟩
    · exact ⟨rfl, rfl, rfl, hgranting⟩
    · exact (bounded_explainFallback hbounded _).trans_eq hlimit
  · refine ⟨Formed.sealed (formed_decideAt _ _ _ _ _ _ ?_), ?_⟩
    · exact ⟨rfl, rfl, rfl, hgranting⟩
    · obtain ⟨hlast, hlimit'⟩ := hbounded.push _
      exact hlast.length.trans_eq (hlimit'.trans hlimit)

theorem formed_evaluateQuery (image : StateImage) (query : PriorityQuery) :
    Formed image (evaluateQuery image query) ∧
      (evaluateQuery image query).chain.length ≤ stepBudget image query := by
  have hbudget : 1 ≤ stepBudget image query :=
    le_trans (by norm_num) (le_max_left 2 _)
  unfold evaluateQuery
  split
  · rename_i decision hgates
    have hrefusal := gates_refusal hgates
    exact ⟨.inl (silent_of_refusal hrefusal), (length_chain_of_refusal hrefusal).trans hbudget⟩
  · split
    · exact ⟨.inl (silent_of_refusal (.rejected _ _)), Nat.zero_le _⟩
    · exact formed_answer _ _ _ _

/-- Every class of the image has a name and a declared rank. -/
def ClassesDeclared (image : StateImage) : Prop :=
  ∀ (cls : PriorityClassId) node, image.classes[cls]? = some node →
    cls.valid = true ∧ node.definition.precedence.isDeclared = true

/-- Every decision is well formed: authority, a class and a declared rank come together, as
the registry has them now, the outcome says which, and the explanation is within its
budget. -/
theorem decision_well_formed {image : StateImage} (hdeclared : ClassesDeclared image)
    (query : PriorityQuery) :
    ((evaluateQuery image query).authoritative = true ↔
        (evaluateQuery image query).cls.valid = true) ∧
      ((evaluateQuery image query).cls.valid = true ↔
        (evaluateQuery image query).precedence.isDeclared = true) ∧
      ((evaluateQuery image query).authoritative = true →
        ReportsEntry image (evaluateQuery image query)) ∧
      (Outcome.Refusing (evaluateQuery image query).outcome →
        (evaluateQuery image query).authoritative = false) ∧
      (Outcome.Granting (evaluateQuery image query).outcome →
        (evaluateQuery image query).authoritative = true) ∧
      (evaluateQuery image query).chain.length ≤ max 2 (min
        (if query.maxExplanationSteps = 0 then image.limits.maxExplanationSteps
          else query.maxExplanationSteps) image.limits.maxExplanationSteps) := by
  obtain ⟨hformed, hchain⟩ := formed_evaluateQuery image query
  rcases hformed with hsilent | hnaming
  · have hcls : (evaluateQuery image query).cls.valid = false := by
      rw [hsilent.cls]
      rfl
    have hprecedence : (evaluateQuery image query).precedence.isDeclared = false := by
      rw [hsilent.precedence]
      rfl
    have hauthoritative := hsilent.authoritative
    refine ⟨?_, ?_, ?_, fun _ => hauthoritative, ?_, hchain⟩
    · rw [hauthoritative, hcls]
    · rw [hcls, hprecedence]
    · intro htrue
      rw [hauthoritative] at htrue
      cases htrue
    · intro hgranting
      exact absurd hgranting hsilent.outcome
  · obtain ⟨node, hnode, hrest⟩ := hnaming.entry
    obtain ⟨hcls, hrank⟩ := hdeclared _ node hnode
    have hauthoritative := hnaming.authoritative
    have hprecedence : (evaluateQuery image query).precedence.isDeclared = true := by
      rw [hrest.2.1]
      exact hrank
    refine ⟨?_, ?_, fun _ => hnaming.entry, ?_, fun _ => hauthoritative, hchain⟩
    · rw [hauthoritative, hcls]
    · rw [hcls, hprecedence]
    · intro hrefusing
      exact absurd hrefusing hnaming.outcome

theorem classesDeclared_oneImage : ClassesDeclared oneImage := by
  intro cls node hnode
  simp only [oneImage, imageWith, rebuildIndexes, List.foldl_cons, List.foldl_nil,
    Std.ExtTreeMap.getElem?_insert] at hnode
  split at hnode
  · rename_i hcls
    obtain rfl := Std.LawfulEqCmp.eq_of_compare hcls
    cases hnode
    exact ⟨rfl, rfl⟩
  · split at hnode
    · rename_i hcls
      obtain rfl := Std.LawfulEqCmp.eq_of_compare hcls
      cases hnode
      exact ⟨rfl, rfl⟩
    · simp at hnode

theorem decision_well_formed_one :
    (evaluateQuery oneImage oneQuery).authoritative = true ∧
      (evaluateQuery oneImage oneQuery).cls.valid = true ∧
      (evaluateQuery oneImage oneQuery).precedence.isDeclared = true ∧
      ReportsEntry oneImage (evaluateQuery oneImage oneQuery) := by
  have hauthoritative : (evaluateQuery oneImage oneQuery).authoritative = true := by
    decide
  obtain ⟨hcls, hrank, hentry, -⟩ := decision_well_formed classesDeclared_oneImage oneQuery
  have hvalid := hcls.mp hauthoritative
  exact ⟨hauthoritative, hvalid, hrank.mp hvalid, hentry hauthoritative⟩

end PriorityFabric.Outcomes
