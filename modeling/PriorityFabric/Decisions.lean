import PriorityFabric.Lib.GroupIndex
import PriorityFabric.UsableEvidence

/-!
What stands behind an authoritative decision.

An authoritative answer is a default that was declared on the scope chain, or comes from
one assignment that passed every binding check and reaches the queried subject.
-/

namespace PriorityFabric.Decisions

open PriorityFabric.Lib.LittleEndian
open PriorityFabric.Lib.GroupIndex
open PriorityFabric.Basics
open PriorityFabric.Ident
open PriorityFabric.Model
open PriorityFabric.State
open PriorityFabric.Evaluate
open PriorityFabric.UsableEvidence

/-! ## Ancestors -/

/-- `ancestor` is reached from `subject` by parent links. -/
def AncestorOf (image : StateImage) (subject ancestor : SubjectId) : Prop :=
  Relation.TransGen (fun child parent => parent ∈ subjectParents image child) subject ancestor

theorem ancestorStep_eq_ok {image : StateImage} {id : SubjectId} {level level' : AncestorLevel}
    {entry : SubjectId × Nat} (h : ancestorStep image id level entry = .ok level') :
    (entry.1 ∈ level.seen ∧ level' = level) ∨
      (entry.1 ∉ level.seen ∧ entry.2 ≤ image.limits.maxInheritanceDepth ∧
        ∃ node, image.subjects[entry.1]? = some node ∧
        level' = { seen := entry.1 :: level.seen
                   out := level.out ++ [entry]
                   next := level.next ++
                     node.definition.inheritsFrom.map (·, entry.2 + 1) }) := by
  unfold ancestorStep at h
  split at h
  · rename_i hseen
    cases h
    exact .inl ⟨hseen, rfl⟩
  · rename_i hseen
    simp only [bind_eq_ok, failIf_eq_ok, exists_const, gt_iff_lt, not_lt] at h
    obtain ⟨hdepth, hnode⟩ := h
    cases hfound : image.subjects[entry.1]? with
    | none => simp [hfound] at hnode
    | some node =>
        simp only [hfound, bind_eq_ok, failIf_eq_ok, exists_const, pure, Except.pure,
          Except.ok.injEq] at hnode
        exact .inr ⟨hseen, hdepth, node, rfl, hnode.2.symm⟩

/-- Everything listed is a proper ancestor, at a positive distance. -/
def Listed (image : StateImage) (id : SubjectId) (entry : SubjectId × Nat) : Prop :=
  AncestorOf image id entry.1 ∧ 0 < entry.2

/-- The part of a level that later levels rely on. -/
structure LevelOk (image : StateImage) (id : SubjectId) (level : AncestorLevel) : Prop where
  seen : id ∈ level.seen
  out : ∀ entry ∈ level.out, Listed image id entry ∧ entry.1 ≠ id
  next : ∀ entry ∈ level.next, Listed image id entry

theorem LevelOk.step {image : StateImage} {id : SubjectId} {level level' : AncestorLevel}
    {entry : SubjectId × Nat} (h : LevelOk image id level) (hentry : Listed image id entry)
    (hstep : ancestorStep image id level entry = .ok level') : LevelOk image id level' := by
  rcases ancestorStep_eq_ok hstep with ⟨-, rfl⟩ | ⟨hnew, -, node, hnode, rfl⟩
  · exact h
  · refine ⟨List.mem_cons_of_mem _ h.seen, ?_, ?_⟩
    · intro found hfound
      rcases List.mem_append.mp hfound with hold | hlast
      · exact h.out found hold
      · obtain rfl := List.mem_singleton.mp hlast
        refine ⟨hentry, ?_⟩
        rintro rfl
        exact hnew h.seen
    · intro found hfound
      rcases List.mem_append.mp hfound with hold | hparent
      · exact h.next found hold
      · obtain ⟨parent, hmem, rfl⟩ := List.mem_map.mp hparent
        refine ⟨hentry.1.tail ?_, Nat.succ_pos _⟩
        simp only [subjectParents, hnode, Option.map_some, Option.getD_some]
        exact hmem

theorem LevelOk.fold {image : StateImage} {id : SubjectId} {level level' : AncestorLevel}
    {frontier : List (SubjectId × Nat)} (h : LevelOk image id level)
    (hfrontier : ∀ entry ∈ frontier, Listed image id entry)
    (hfold : frontier.foldlM (ancestorStep image id) level = .ok level') :
    LevelOk image id level' := by
  induction frontier generalizing level with
  | nil =>
      cases hfold
      exact h
  | cons entry frontier ih =>
      rw [List.foldlM_cons, bind_eq_ok] at hfold
      obtain ⟨middle, hstep, hrest⟩ := hfold
      exact ih (h.step (hfrontier entry (by simp)) hstep)
        (fun found hfound => hfrontier found (by simp [hfound])) hrest

theorem ancestorLoop_listed {image : StateImage} {id : SubjectId} (fuel : Nat)
    {seen : List SubjectId} {out frontier result : List (SubjectId × Nat)}
    (hseen : id ∈ seen) (hout : ∀ entry ∈ out, Listed image id entry ∧ entry.1 ≠ id)
    (hfrontier : ∀ entry ∈ frontier, Listed image id entry)
    (h : ancestorLoop image id fuel seen out frontier = .ok result) :
    ∀ entry ∈ result, Listed image id entry ∧ entry.1 ≠ id := by
  induction fuel generalizing seen out frontier with
  | zero =>
      cases h
      exact hout
  | succ fuel ih =>
      cases frontier with
      | nil =>
          cases h
          exact hout
      | cons entry frontier =>
          simp only [ancestorLoop, bind_eq_ok] at h
          obtain ⟨level, hfold, hrest⟩ := h
          have hstart : LevelOk image id { seen, out } :=
            ⟨hseen, hout, fun _ hmem => by cases hmem⟩
          have hlevel := hstart.fold hfrontier hfold
          exact ih hlevel.seen hlevel.out hlevel.next hrest

theorem subjectAncestors_listed {image : StateImage} {id : SubjectId}
    {ancestors : List (SubjectId × Nat)} (h : subjectAncestors image id = .ok ancestors) :
    ∀ entry ∈ ancestors, Listed image id entry ∧ entry.1 ≠ id := by
  unfold subjectAncestors at h
  cases hroot : image.subjects[id]? with
  | none => simp [hroot] at h
  | some root =>
      simp only [hroot, bind_eq_ok, pure, Except.pure, Except.ok.injEq] at h
      obtain ⟨out, hloop, rfl⟩ := h
      intro entry hentry
      rw [List.mem_mergeSort] at hentry
      refine ancestorLoop_listed _ (by simp) (by simp) ?_ hloop entry hentry
      intro found hfound
      obtain ⟨parent, hmem, rfl⟩ := List.mem_map.mp hfound
      refine ⟨.single ?_, Nat.zero_lt_one⟩
      simp only [subjectParents, hroot, Option.map_some, Option.getD_some]
      exact hmem

/-! ## Candidates -/

/-- The assignment of a candidate: stored, bound, on the chain, and either the queried
subject's own or inherited from a proper ancestor. -/
structure Reaches (image : StateImage) (query : PriorityQuery) (scopes : List PolicyScopeId)
    (candidate : Candidate) : Prop where
  stored : ∃ id ∈ image.assignmentsBySubject.getD candidate.viaSubject [],
    image.assignments[id]? = some candidate.entry
  bound : Bound image candidate.entry
  level : scopes.findIdx? (· = candidate.entry.assignment.scope) = some candidate.level
  own : candidate.inheritanceDistance = 0 → candidate.viaSubject = query.subject
  inherited : 0 < candidate.inheritanceDistance →
    candidate.entry.assignment.kind = .inherited ∧
      AncestorOf image query.subject candidate.viaSubject ∧
      candidate.viaSubject ≠ query.subject

theorem reaches_of_mem_gathered {image : StateImage} {query : PriorityQuery}
    {scopes : List PolicyScopeId} {subject : SubjectId} {distance : Nat}
    {candidate : Candidate}
    (hsubject : (distance = 0 → subject = query.subject) ∧
      (0 < distance → AncestorOf image query.subject subject ∧ subject ≠ query.subject))
    (h : candidate ∈ (gathered image scopes subject distance).accepted) :
    Reaches image query scopes candidate := by
  simp only [gathered, within, List.mem_filterMap] at h
  obtain ⟨entry, hentry, hcandidate⟩ := h
  obtain ⟨hkind, hlevel, hbound, rfl, rfl, rfl⟩ := candidateOf_eq_some_iff.mp hcandidate
  have hstored := List.mem_of_mem_take hentry
  simp only [entriesOf, List.mem_filterMap] at hstored
  exact ⟨hstored, hbound, hlevel, hsubject.1, fun hpos => ⟨hkind hpos, hsubject.2 hpos⟩⟩

theorem reaches_of_mem_ancestorTier {image : StateImage} {query : PriorityQuery}
    {scopes : List PolicyScopeId} {ancestors : List (SubjectId × Nat)} {candidate : Candidate}
    (hancestors : subjectAncestors image query.subject = .ok ancestors)
    (h : candidate ∈ (ancestorTier image scopes ancestors).accepted) :
    Reaches image query scopes candidate := by
  unfold ancestorTier at h
  cases hfind : (ancestors.map fun ancestor =>
      gathered image scopes ancestor.1 ancestor.2).find? contributes with
  | none =>
      rw [hfind] at h
      cases h
  | some evidence =>
      rw [hfind, Option.getD_some] at h
      obtain ⟨ancestor, hmem, rfl⟩ := List.mem_map.mp (List.mem_of_find?_eq_some hfind)
      obtain ⟨⟨hancestor, hpos⟩, hne⟩ := subjectAncestors_listed hancestors ancestor hmem
      exact reaches_of_mem_gathered
        ⟨fun hzero => absurd hpos (by omega), fun _ => ⟨hancestor, hne⟩⟩ h

theorem reaches_of_collectEvidence {image : StateImage} {query : PriorityQuery}
    {scopes : List PolicyScopeId} {collected : Evidence} {candidate : Candidate}
    (hcollect : collectEvidence image scopes query.subject = .ok collected)
    (h : candidate ∈ collected.accepted) : Reaches image query scopes candidate := by
  have hown (hmem : candidate ∈ (gathered image scopes query.subject 0).accepted) :
      Reaches image query scopes candidate :=
    reaches_of_mem_gathered ⟨fun _ => rfl, fun hpos => absurd hpos (Nat.lt_irrefl 0)⟩ hmem
  rw [collectEvidence_eq] at hcollect
  split at hcollect
  · cases hancestors : subjectAncestors image query.subject with
    | error e =>
        rw [hancestors] at hcollect
        cases hcollect
    | ok ancestors =>
        rw [hancestors] at hcollect
        cases hcollect
        rcases List.mem_append.mp h with hmem | hmem
        · exact hown hmem
        · exact reaches_of_mem_ancestorTier hancestors hmem
  · cases hcollect
    exact hown h

theorem mem_of_mem_filterExceptions {evidence : Evidence} {candidate : Candidate}
    (h : candidate ∈ (filterExceptions evidence).accepted) : candidate ∈ evidence.accepted :=
  List.mem_of_mem_filter h

/-! ## The winner -/

/-- A fold that keeps its best so far or takes the next item ends on one of them. -/
theorem foldl_choice_mem {α : Type} {f : α → α → α} (hf : ∀ a b, f a b = a ∨ f a b = b)
    (first : α) (items : List α) : items.foldl f first ∈ first :: items := by
  induction items generalizing first with
  | nil => simp
  | cons item items ih =>
      rw [List.foldl_cons]
      rcases List.mem_cons.mp (ih (f first item)) with hhead | htail
      · rcases hf first item with heq | heq
        · rw [hhead, heq]
          simp
        · rw [hhead, heq]
          simp
      · simp [htail]

theorem higherPrecedence_mem (image : StateImage) (first : Placed) (winning : List Placed) :
    higherPrecedence image first winning ∈ first :: winning := by
  refine foldl_choice_mem ?_ first winning
  intro best candidate
  split
  · exact .inl rfl
  · split
    · exact .inr rfl
    · split
      · exact .inr rfl
      · exact .inl rfl

theorem assignmentIdOrder_mem (first : Placed) (winning : List Placed) :
    assignmentIdOrder first winning ∈ first :: winning := by
  refine foldl_choice_mem ?_ first winning
  intro best candidate
  split
  · exact .inr rfl
  · exact .inl rfl

theorem settle_winner_mem {image : StateImage} {query : PriorityQuery} {scope : PolicyScopeId}
    {first winner : Candidate} {others : List Candidate}
    (h : (settle image query scope first others).winner = some winner) :
    winner ∈ first :: others := by
  have hplaced {placed : Placed}
      (hmem : placed ∈ (first, 0) :: (first :: others).zipIdx) : placed.1 ∈ first :: others := by
    rcases List.mem_cons.mp hmem with rfl | hmem
    · simp
    · obtain ⟨candidate, position⟩ := placed
      exact List.fst_mem_of_mem_zipIdx hmem
  unfold settle at h
  split at h
  · simp only [settleConflict] at h
    split at h
    · cases h
    · split at h
      · cases h
        exact hplaced (higherPrecedence_mem image _ _)
      · cases h
        exact hplaced (assignmentIdOrder_mem _ _)
  · cases h
    simp

/-- The candidate that decides, among the evidence collected on a chain. -/
def winnerOf (image : StateImage) (query : PriorityQuery) (scopes : List PolicyScopeId)
    (collected : Evidence) : Option Candidate :=
  let accepted := (filterExceptions collected).accepted
  let deciding := decidingLevel image scopes accepted
  match accepted.filter (·.level = deciding) with
  | [] => none
  | first :: others => (settle image query (scopeAt scopes deciding) first others).winner

theorem winnerOf_mem {image : StateImage} {query : PriorityQuery}
    {scopes : List PolicyScopeId} {collected : Evidence} {winner : Candidate}
    (h : winnerOf image query scopes collected = some winner) :
    winner ∈ (filterExceptions collected).accepted ∧
      winner.level = decidingLevel image scopes (filterExceptions collected).accepted := by
  simp only [winnerOf] at h
  split at h
  · cases h
  · rename_i first others hlevel
    have hmem := settle_winner_mem h
    rw [← hlevel, List.mem_filter] at hmem
    exact ⟨hmem.1, by simpa using hmem.2⟩

/-- The evidence behind the answer to a query. -/
def evidenceBehind (image : StateImage) (query : PriorityQuery) : Option Candidate :=
  match gates image query with
  | .error _ => none
  | .ok admitted =>
      match collectEvidence image admitted.scopes query.subject with
      | .error _ => none
      | .ok collected => winnerOf image query admitted.scopes collected

/-- The decision reports the class of the winner as the registry has it now. -/
structure Reports (image : StateImage) (winner : Candidate) (decision : PriorityDecision) :
    Prop where
  registered : ∃ node, image.classes[winner.entry.assignment.cls]? = some node ∧
    decision.classGeneration = node.definition.generation ∧
    decision.precedence = node.definition.precedence
  cls : decision.cls = winner.entry.assignment.cls

theorem nameClass_reports {image : StateImage} {winner : Candidate}
    {decision : PriorityDecision}
    (h : (nameClass image winner decision).authoritative = true) :
    Reports image winner (nameClass image winner decision) := by
  unfold nameClass at h ⊢
  cases hnode : image.classes[winner.entry.assignment.cls]? with
  | none => simp [hnode] at h
  | some node => exact ⟨⟨node, hnode, rfl, rfl⟩, rfl⟩

theorem decideAt_reports {image : StateImage} {query : PriorityQuery}
    {scopes : List PolicyScopeId} {deciding : Nat} {first : Candidate}
    {others displaced : List Candidate} {builder : ChainBuilder} {decision : PriorityDecision}
    (h : (decideAt image query scopes deciding first others displaced builder
      decision).authoritative = true) :
    ∃ winner, (settle image query (scopeAt scopes deciding) first others).winner =
        some winner ∧
      Reports image winner (decideAt image query scopes deciding first others displaced
        builder decision) := by
  simp only [decideAt] at h ⊢
  cases hwinner : (settle image query (scopeAt scopes deciding) first others).winner with
  | none =>
      -- Without a winner the outcome is an unresolved conflict.
      simp only [hwinner] at h
      simp [conflictOutcome, hwinner] at h
  | some winner =>
      simp only [hwinner] at h ⊢
      have hreports := nameClass_reports h
      exact ⟨winner, rfl, hreports.registered, hreports.cls⟩

/-! ## Defaults -/

/-- A policy or the scope itself declares the default of one scope of the chain. -/
def Declares (image : StateImage) (level : PolicyScopeId) (cls : PriorityClassId) : Prop :=
  (∃ id policy, image.policies[(id : PolicyId)]? = some policy ∧
      policy.definition.scope = level ∧ policy.definition.unknownDefault = some cls) ∨
    ∃ scope, image.scopes[level]? = some scope ∧ scope.definition.unknownDefault = some cls

theorem declares_of_declaredDefault {image : StateImage} {level : PolicyScopeId}
    {cls : PriorityClassId} {source : Bytes}
    (h : declaredDefault image level = some (cls, source)) : Declares image level cls := by
  unfold declaredDefault at h
  rw [Option.orElse_eq_orElse, Option.orElse_eq_or, Option.or_eq_some_iff] at h
  rcases h with hpolicy | ⟨-, hscope⟩
  · obtain ⟨entry, hmem, hentry⟩ := List.exists_of_findSome?_eq_some hpolicy
    split at hentry
    · rename_i hlevel
      rw [Option.map_eq_some_iff] at hentry
      obtain ⟨found, hdefault, heq⟩ := hentry
      cases heq
      exact .inl ⟨entry.1, entry.2,
        Std.ExtTreeMap.mem_toList_iff_getElem?_eq_some.mp hmem, hlevel, hdefault⟩
    · cases hentry
  · rw [Option.bind_eq_some_iff] at hscope
    obtain ⟨node, hnode, hdefault⟩ := hscope
    rw [Option.map_eq_some_iff] at hdefault
    obtain ⟨found, hfound, heq⟩ := hdefault
    cases heq
    exact .inr ⟨node, hnode, hfound⟩

theorem declares_of_resolveUnknownDefault {image : StateImage} {scope : PolicyScopeId}
    (h : (resolveUnknownDefault image scope).found = true) :
    ∃ chain, scopeChain image scope = .ok chain ∧
      ∃ level ∈ chain, Declares image level (resolveUnknownDefault image scope).cls := by
  unfold resolveUnknownDefault at h ⊢
  cases hchain : scopeChain image scope with
  | error e => simp [hchain] at h
  | ok chain =>
      simp only [hchain] at h ⊢
      cases hfind : chain.findSome? (declaredDefault image) with
      | none => simp [hfind] at h
      | some found =>
          obtain ⟨cls, source⟩ := found
          obtain ⟨level, hmem, hlevel⟩ := List.exists_of_findSome?_eq_some hfind
          refine ⟨chain, rfl, level, hmem, ?_⟩
          simp only
          split <;> exact declares_of_declaredDefault hlevel

theorem fallbackDecision_authoritative {image : StateImage} {query : PriorityQuery}
    {rejected : List RejectedEvidence} {decision : PriorityDecision}
    (hbase : decision.authoritative = false)
    (h : (fallbackDecision image query rejected decision).authoritative = true) :
    (resolveUnknownDefault image query.scope).found = true ∧
      (fallbackDecision image query rejected decision).resolution = text "policy_default" ∧
      (fallbackDecision image query rejected decision).cls =
        (resolveUnknownDefault image query.scope).cls := by
  unfold fallbackDecision at h ⊢
  simp only at h ⊢
  split at h
  · rw [hbase] at h
    cases h
  · split at h
    · rename_i hfound
      rw [if_pos hfound]
      exact ⟨hfound.1, rfl, rfl⟩
    · split at h
      · rw [hbase] at h
        cases h
      · rw [hbase] at h
        cases h

/-! ## Authoritative answers -/

theorem sealed_authoritative (decision : PriorityDecision) :
    (sealed decision).authoritative = decision.authoritative := rfl

theorem answerIf_eq_error {stop : Prop} [Decidable stop] {decision e : PriorityDecision} :
    answerIf stop decision = .error e ↔ stop ∧ decision = e := by
  unfold answerIf
  split <;> simp_all

theorem answerIf_eq_ok {stop : Prop} [Decidable stop] {decision : PriorityDecision} {u : Unit} :
    answerIf stop decision = .ok u ↔ ¬ stop := by
  unfold answerIf
  split <;> simp_all

theorem except_bind_eq_error {ε α β : Type} {x : Except ε α} {f : α → Except ε β} {e : ε} :
    (x >>= f) = .error e ↔ x = .error e ∨ ∃ a, x = .ok a ∧ f a = .error e := by
  cases x <;> simp [Bind.bind, Except.bind]

/-- What a gate answers: a rejection, or a stale decision with at most one step. -/
inductive Refusal (image : StateImage) : PriorityDecision → Prop where
  | rejected (code reason : Bytes) : Refusal image (rejectedDecision image code reason)
  | stale (code reason : Bytes) {chain : List ExplanationStep}
      (policyGeneration scopeGeneration : Generation) (hchain : chain.length ≤ 1) :
      Refusal image (sealed { staleDecision image code reason with
        chain, policyGeneration, scopeGeneration })

theorem Refusal.authoritative {image : StateImage} {decision : PriorityDecision}
    (h : Refusal image decision) : decision.authoritative = false := by
  cases h <;> rfl

theorem epochGate_refusal {image : StateImage} {epoch : Option FabricEpoch}
    {decision : PriorityDecision} (h : epochGate image epoch = .error decision) :
    Refusal image decision := by
  unfold epochGate at h
  split at h
  · cases h
  · simp only [except_bind_eq_error, answerIf_eq_error] at h
    rcases h with ⟨-, rfl⟩ | ⟨_, -, -, rfl⟩
    · exact .rejected _ _
    · exact .stale _ _ _ _ le_rfl

theorem subjectGate_refusal {image : StateImage} {query : PriorityQuery}
    {decision : PriorityDecision} (h : subjectGate image query = .error decision) :
    Refusal image decision := by
  unfold subjectGate at h
  split at h
  · cases h
    exact .rejected _ _
  · simp only [except_bind_eq_error, answerIf_eq_error, pure, Except.pure, reduceCtorEq,
      and_false, exists_false, or_false] at h
    obtain ⟨-, rfl⟩ := h
    exact .stale _ _ _ _ (Nat.zero_le 1)

theorem scopeGate_refusal {image : StateImage} {query : PriorityQuery}
    {decision : PriorityDecision} (h : scopeGate image query = .error decision) :
    Refusal image decision := by
  unfold scopeGate at h
  split at h
  · cases h
    exact .rejected _ _
  · cases h

theorem gates_refusal {image : StateImage} {query : PriorityQuery} {decision : PriorityDecision}
    (h : gates image query = .error decision) : Refusal image decision := by
  simp only [gates, except_bind_eq_error, answerIf_eq_error, pure, Except.pure, reduceCtorEq,
    and_false, exists_false, or_false] at h
  rcases h with ⟨-, rfl⟩ | ⟨_, -, ⟨-, rfl⟩ | ⟨_, -, ⟨-, rfl⟩ | ⟨_, -, hepoch | ⟨_, -, hsubject |
    ⟨_, -, hscope | ⟨scopes, -, ⟨-, rfl⟩ | ⟨_, -, -, rfl⟩⟩⟩⟩⟩⟩⟩
  · exact .rejected _ _
  · exact .rejected _ _
  · exact .rejected _ _
  · exact epochGate_refusal hepoch
  · exact subjectGate_refusal hsubject
  · exact scopeGate_refusal hscope
  · exact .stale _ _ _ _ (Nat.zero_le 1)
  · exact .stale _ _ _ _ (Nat.zero_le 1)

/-- What a query that passed the gates has established. -/
structure Passed (image : StateImage) (query : PriorityQuery) (admitted : Admitted) : Prop where
  healthy : image.health = .healthy
  registered : ∃ entry, image.subjects[query.subject]? = some entry
  chain : scopeChain image query.scope = .ok admitted.scopes

theorem passed_of_gates {image : StateImage} {query : PriorityQuery} {admitted : Admitted}
    (h : gates image query = .ok admitted) : Passed image query admitted := by
  simp only [gates, except_bind_eq_ok, answerIf_eq_ok, exists_const, pure, Except.pure,
    Except.ok.injEq, not_not, ne_eq] at h
  obtain ⟨hhealth, -, -, _, -, generation, hsubject, scopes, hscope, -, -, rfl⟩ := h
  refine ⟨hhealth, ?_, ?_⟩
  · unfold subjectGate at hsubject
    split at hsubject
    · cases hsubject
    · rename_i entry hentry
      exact ⟨entry, hentry⟩
  · unfold scopeGate at hscope
    split at hscope
    · cases hscope
    · rename_i found hfound
      cases hscope
      exact hfound

/-! ## Answers -/

section Answers

variable {image : StateImage} {query : PriorityQuery} {admitted : Admitted}
  {collected : Evidence}

theorem answer_fallback
    (h : (filterExceptions collected).accepted.filter (·.level =
      decidingLevel image admitted.scopes (filterExceptions collected).accepted) = []) :
    ∃ base chain, base.authoritative = false ∧ answer image query admitted collected =
      sealed { fallbackDecision image query
        ((filterExceptions collected).rejected.take image.limits.maxQuerySteps) base with
          chain } := by
  simp only [answer, h]
  exact ⟨_, _, rfl, rfl⟩

theorem answer_decided {first : Candidate} {others : List Candidate}
    (h : (filterExceptions collected).accepted.filter (·.level =
      decidingLevel image admitted.scopes (filterExceptions collected).accepted) =
        first :: others) :
    ∃ builder base, answer image query admitted collected =
      sealed (decideAt image query admitted.scopes
        (decidingLevel image admitted.scopes (filterExceptions collected).accepted) first others
        ((filterExceptions collected).accepted.filter (·.level ≠
          decidingLevel image admitted.scopes (filterExceptions collected).accepted))
        builder base) := by
  simp only [answer, h]
  exact ⟨_, _, rfl⟩

theorem winnerOf_decided {first : Candidate} {others : List Candidate}
    (h : (filterExceptions collected).accepted.filter (·.level =
      decidingLevel image admitted.scopes (filterExceptions collected).accepted) =
        first :: others) :
    winnerOf image query admitted.scopes collected =
      (settle image query (scopeAt admitted.scopes
        (decidingLevel image admitted.scopes (filterExceptions collected).accepted)) first
        others).winner := by
  simp only [winnerOf, h]

theorem decided_of_winnerOf {winner : Candidate}
    (h : winnerOf image query admitted.scopes collected = some winner) :
    ∃ first others, (filterExceptions collected).accepted.filter (·.level =
      decidingLevel image admitted.scopes (filterExceptions collected).accepted) =
        first :: others := by
  cases hlevel : (filterExceptions collected).accepted.filter (·.level =
      decidingLevel image admitted.scopes (filterExceptions collected).accepted) with
  | nil =>
      simp only [winnerOf, hlevel] at h
      cases h
  | cons first others => exact ⟨first, others, rfl⟩

/-- An authoritative answer from collected evidence is a declared default or reports its
winner. -/
theorem answer_authoritative
    (h : (answer image query admitted collected).authoritative = true) :
    ((answer image query admitted collected).resolution = text "policy_default" ∧
        ∃ chain, scopeChain image query.scope = .ok chain ∧ ∃ level ∈ chain,
          Declares image level (answer image query admitted collected).cls) ∨
      ∃ winner, winnerOf image query admitted.scopes collected = some winner ∧
        Reports image winner (answer image query admitted collected) := by
  cases hlevel : (filterExceptions collected).accepted.filter (·.level =
      decidingLevel image admitted.scopes (filterExceptions collected).accepted) with
  | nil =>
      obtain ⟨base, steps, hbase, hanswer⟩ := answer_fallback hlevel
      rw [hanswer] at h ⊢
      obtain ⟨hfound, hresolution, hcls⟩ := fallbackDecision_authoritative hbase h
      obtain ⟨chain, hchain, level, hmem, hdeclares⟩ := declares_of_resolveUnknownDefault hfound
      rw [← hcls] at hdeclares
      exact .inl ⟨hresolution, chain, hchain, level, hmem, hdeclares⟩
  | cons first others =>
      obtain ⟨builder, base, hanswer⟩ := answer_decided hlevel
      rw [winnerOf_decided hlevel]
      rw [hanswer] at h ⊢
      rw [sealed_authoritative] at h
      obtain ⟨winner, hwinner, hreports⟩ := decideAt_reports h
      exact .inr ⟨winner, hwinner, hreports.registered, hreports.cls⟩

end Answers

/-- An authoritative decision is a declared default, or reports the evidence behind it. -/
theorem evaluateQuery_authoritative {image : StateImage} {query : PriorityQuery}
    (h : (evaluateQuery image query).authoritative = true) :
    ((evaluateQuery image query).resolution = text "policy_default" ∧
        ∃ chain, scopeChain image query.scope = .ok chain ∧ ∃ level ∈ chain,
          Declares image level (evaluateQuery image query).cls) ∨
      ∃ winner, evidenceBehind image query = some winner ∧
        Reports image winner (evaluateQuery image query) := by
  unfold evaluateQuery evidenceBehind at *
  cases hgates : gates image query with
  | error decision =>
      simp only [hgates] at h
      rw [(gates_refusal hgates).authoritative] at h
      cases h
  | ok admitted =>
      simp only [hgates] at h ⊢
      cases hcollect : collectEvidence image admitted.scopes query.subject with
      | error e =>
          simp only [hcollect] at h
          cases h
      | ok collected =>
          simp only [hcollect] at h ⊢
          exact answer_authoritative h

theorem reaches_of_evidenceBehind {image : StateImage} {query : PriorityQuery}
    {winner : Candidate} (h : evidenceBehind image query = some winner) :
    ∃ chain, scopeChain image query.scope = .ok chain ∧ Reaches image query chain winner := by
  unfold evidenceBehind at h
  cases hgates : gates image query with
  | error decision =>
      rw [hgates] at h
      cases h
  | ok admitted =>
      simp only [hgates] at h
      cases hcollect : collectEvidence image admitted.scopes query.subject with
      | error e =>
          rw [hcollect] at h
          cases h
      | ok collected =>
          simp only [hcollect] at h
          have hmem := mem_of_mem_filterExceptions (winnerOf_mem h).1
          exact ⟨admitted.scopes, (passed_of_gates hgates).chain,
            reaches_of_collectEvidence hcollect hmem⟩

/-! ## Soundness -/

/-- The image's index is the one its assignments give. -/
def Indexed (image : StateImage) : Prop := rebuildIndexes image = image

theorem Indexed.exact {image : StateImage} (h : Indexed image) :
    Exact (fun entry : AssignmentEntry => entry.assignment.subject) image.assignments
      image.assignmentsBySubject := by
  have hindex := congrArg StateImage.assignmentsBySubject h
  rw [← hindex]
  exact exact_regroup _ _

theorem Indexed.subject_eq {image : StateImage} (h : Indexed image) {subject : SubjectId}
    {id : PriorityAssignmentId} {entry : AssignmentEntry}
    (hid : id ∈ image.assignmentsBySubject.getD subject [])
    (hentry : image.assignments[id]? = some entry) : entry.assignment.subject = subject := by
  obtain ⟨found, hfound, hsubject⟩ := (h.exact.mem_iff subject id).mp hid
  rw [hentry] at hfound
  cases hfound
  exact hsubject

/-- An assignment of the image that authorizes what the decision reports. -/
structure Authorizes (image : StateImage) (query : PriorityQuery) (entry : AssignmentEntry)
    (decision : PriorityDecision) : Prop where
  stored : ∃ id, image.assignments[(id : PriorityAssignmentId)]? = some entry
  bound : Bound image entry
  onChain : ∃ chain, scopeChain image query.scope = .ok chain ∧ entry.assignment.scope ∈ chain
  subject : entry.assignment.subject = query.subject ∨
    (entry.assignment.kind = .inherited ∧
      AncestorOf image query.subject entry.assignment.subject ∧
      entry.assignment.subject ≠ query.subject)
  cls : decision.cls = entry.assignment.cls
  registered : ∃ node, image.classes[entry.assignment.cls]? = some node ∧
    decision.classGeneration = node.definition.generation ∧
    decision.precedence = node.definition.precedence

theorem authorizes_of_evidenceBehind {image : StateImage} {query : PriorityQuery}
    {winner : Candidate} {decision : PriorityDecision} (hindex : Indexed image)
    (h : evidenceBehind image query = some winner) (hreports : Reports image winner decision) :
    Authorizes image query winner.entry decision := by
  obtain ⟨chain, hchain, hreaches⟩ := reaches_of_evidenceBehind h
  obtain ⟨id, hid, hentry⟩ := hreaches.stored
  have hsubject := hindex.subject_eq hid hentry
  refine ⟨⟨id, hentry⟩, hreaches.bound, ⟨chain, hchain, ?_⟩, ?_, hreports.cls,
    hreports.registered⟩
  · have hlevel := List.findIdx?_eq_some_iff_getElem.mp hreaches.level
    obtain ⟨hlt, hscope, -⟩ := hlevel
    have heq : chain[winner.level] = winner.entry.assignment.scope := by simpa using hscope
    rw [← heq]
    exact List.getElem_mem hlt
  · rw [hsubject]
    rcases Nat.eq_zero_or_pos winner.inheritanceDistance with hzero | hpos
    · exact .inl (hreaches.own hzero)
    · exact .inr (hreaches.inherited hpos)

/-- An authoritative decision is a default declared on the scope chain, or an assignment
authorizes it. -/
theorem authoritative_decision_sound {image : StateImage} {query : PriorityQuery}
    (hindex : Indexed image) (h : (evaluateQuery image query).authoritative = true) :
    ((evaluateQuery image query).resolution = text "policy_default" ∧
        ∃ chain, scopeChain image query.scope = .ok chain ∧ ∃ level ∈ chain,
          Declares image level (evaluateQuery image query).cls) ∨
      ∃ entry, Authorizes image query entry (evaluateQuery image query) := by
  rcases evaluateQuery_authoritative h with hdefault | ⟨winner, hwinner, hreports⟩
  · exact .inl hdefault
  · exact .inr ⟨winner.entry, authorizes_of_evidenceBehind hindex hwinner hreports⟩

def lowClass : PriorityClassId := ⟨[108], wellFormed_l⟩
def highClass : PriorityClassId := ⟨[104], by decide⟩
def oneSubject : SubjectId := ⟨[117], by decide⟩
def oneScope : PolicyScopeId := ⟨[115], by decide⟩
def onePublisher : PublisherId := ⟨[112], wellFormed_p⟩
def oneBoot : BootId := ⟨List.Vector.replicate 16 1⟩

/-- The provenance of everything in the image. -/
def oneProvenance : Provenance := { publisher := onePublisher, boot := oneBoot, epoch := ⟨1⟩ }

/-- Two classes, some subjects and scopes, one granted publisher and its assignments. -/
def imageWith (limits : Limits) (subjects : List SubjectDef) (scopes : List PolicyScopeDef)
    (assignments : List PriorityAssignment) : StateImage :=
  let classes : List PriorityClassDef :=
    [{ id := lowClass, generation := .first, precedence := ⟨1, true⟩ },
      { id := highClass, generation := .first, precedence := ⟨2, true⟩ }]
  rebuildIndexes
    { epoch := ⟨1⟩, limits
      classes := classes.foldl (fun table d => table.insert d.id ⟨d, oneProvenance⟩) ∅
      scopes := scopes.foldl (fun table d => table.insert d.id ⟨d, oneProvenance⟩) ∅
      subjects := subjects.foldl (fun table d => table.insert d.id ⟨d, oneProvenance⟩) ∅
      assignments := assignments.foldl
        (fun table a => table.insert a.id { assignment := a, provenance := oneProvenance }) ∅
      authority := (∅ : Std.ExtTreeMap Incarnation AuthorityEntry).insert ⟨onePublisher, oneBoot⟩
        { publisher := onePublisher, boot := oneBoot, epoch := ⟨1⟩, token := ⟨1⟩,
          provenance := oneProvenance } }

theorem indexed_imageWith (limits : Limits) (subjects : List SubjectDef)
    (scopes : List PolicyScopeDef) (assignments : List PriorityAssignment) :
    Indexed (imageWith limits subjects scopes assignments) := rfl

/-- An assignment of the subject in the scope, bound to first generations. -/
def assignmentOf (id : PriorityAssignmentId) (cls : PriorityClassId) : PriorityAssignment where
  id := id
  generation := .first
  subject := oneSubject
  subjectGeneration := .first
  scope := oneScope
  scopeGeneration := .first
  cls := cls
  classGeneration := .first

def oneQuery : PriorityQuery := { subject := oneSubject, scope := oneScope }

def oneImage : StateImage :=
  imageWith {} [{ id := oneSubject, generation := .first }]
    [{ id := oneScope, generation := .first }] [assignmentOf ⟨[97], wellFormed_a⟩ lowClass]

theorem authoritative_decision_sound_one :
    (evaluateQuery oneImage oneQuery).authoritative = true ∧
      ((evaluateQuery oneImage oneQuery).resolution = text "policy_default" ∧
          (∃ chain, scopeChain oneImage oneQuery.scope = .ok chain ∧ ∃ level ∈ chain,
            Declares oneImage level (evaluateQuery oneImage oneQuery).cls) ∨
        ∃ entry, Authorizes oneImage oneQuery entry (evaluateQuery oneImage oneQuery)) := by
  have h : (evaluateQuery oneImage oneQuery).authoritative = true := by decide
  exact ⟨h, authoritative_decision_sound (indexed_imageWith _ _ _ _) h⟩

end PriorityFabric.Decisions
