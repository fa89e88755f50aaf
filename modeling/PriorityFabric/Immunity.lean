import PriorityFabric.DerivedIndex
import PriorityFabric.Holdings

/-!
A scope that does not allow overrides keeps deciding when narrower evidence is added.

The comparison is between two images that differ in their assignments only.
-/

namespace PriorityFabric.Immunity

open PriorityFabric.Lib.LittleEndian
open PriorityFabric.Lib.GroupIndex
open PriorityFabric.Basics
open PriorityFabric.Ident
open PriorityFabric.Model
open PriorityFabric.State
open PriorityFabric.Evaluate
open PriorityFabric.UsableEvidence
open PriorityFabric.Decisions
open PriorityFabric.Holdings
open PriorityFabric.DerivedIndex (reframe scopeChain_reframe)

/-- Everything evaluation reads besides the assignments is the same. -/
structure SameRegistry (image image' : StateImage) : Prop where
  epoch : image'.epoch = image.epoch
  limits : image'.limits = image.limits
  classes : image'.classes = image.classes
  scopes : image'.scopes = image.scopes
  policies : image'.policies = image.policies
  subjects : image'.subjects = image.subjects
  authority : image'.authority = image.authority
  health : image'.health = image.health

namespace SameRegistry

variable {image image' : StateImage} (h : SameRegistry image image')
include h

theorem reframe_eq : reframe image image' = image' := by
  rw [reframe, ← h.limits, ← h.classes, ← h.scopes, ← h.policies, ← h.subjects]

theorem scopeChain_eq (scope : PolicyScopeId) :
    scopeChain image' scope = scopeChain image scope := by
  have hchain := scopeChain_reframe image image' scope
  rwa [h.reframe_eq] at hchain

theorem classImplies_eq (candidate required : PriorityClassId) :
    classImplies image' candidate required = classImplies image candidate required := by
  have hparents : classParents image' = classParents image := by
    funext cls
    rw [classParents, classParents, h.classes]
  rw [classImplies, classImplies, classSearchBound, classSearchBound, h.limits, hparents]

theorem effectivePolicy_eq (scope : PolicyScopeId) :
    effectivePolicy image' scope = effectivePolicy image scope := by
  rw [effectivePolicy, effectivePolicy, h.scopeChain_eq, h.policies]

theorem classVisible_eq (scope : PolicyScopeId) (cls : PriorityClassId) :
    classVisible image' scope cls = classVisible image scope cls := by
  simp only [classVisible, effectiveVisibility, h.scopeChain_eq, h.policies, h.classImplies_eq]

theorem bound_iff (entry : AssignmentEntry) : Bound image' entry ↔ Bound image entry := by
  constructor
  · rintro ⟨hactive, hgranted, hepoch, hsubject, hscope, hcls, hpolicy, hvisible⟩
    rw [h.authority] at hgranted
    rw [h.epoch] at hepoch
    rw [h.subjects] at hsubject
    rw [h.scopes] at hscope
    rw [h.classes] at hcls
    rw [h.policies] at hpolicy
    rw [h.classVisible_eq] at hvisible
    exact ⟨hactive, hgranted, hepoch, hsubject, hscope, hcls, hpolicy, hvisible⟩
  · rintro ⟨hactive, hgranted, hepoch, hsubject, hscope, hcls, hpolicy, hvisible⟩
    refine ⟨hactive, ?_, ?_, ?_, ?_, ?_, ?_, ?_⟩
    · rw [h.authority]
      exact hgranted
    · rw [h.epoch]
      exact hepoch
    · rw [h.subjects]
      exact hsubject
    · rw [h.scopes]
      exact hscope
    · rw [h.classes]
      exact hcls
    · rw [h.policies]
      exact hpolicy
    · rw [h.classVisible_eq]
      exact hvisible

theorem candidateOf_eq (scopes : List PolicyScopeId) (subject : SubjectId) (distance : Nat)
    (entry : AssignmentEntry) :
    candidateOf image' scopes subject distance entry =
      candidateOf image scopes subject distance entry := by
  apply Option.ext
  intro candidate
  rw [candidateOf_eq_some_iff, candidateOf_eq_some_iff, h.bound_iff]

theorem epochGate_ok {epoch : Option FabricEpoch} {u : Unit}
    (hgate : epochGate image epoch = .ok u) : epochGate image' epoch = .ok u := by
  unfold epochGate at hgate ⊢
  cases epoch with
  | none => rfl
  | some epoch =>
      simp only [except_bind_eq_ok, answerIf_eq_ok, exists_const, h.epoch] at hgate ⊢
      exact hgate

theorem subjectGate_ok {query : PriorityQuery} {generation : Generation}
    (hgate : subjectGate image query = .ok generation) :
    subjectGate image' query = .ok generation := by
  unfold subjectGate at hgate ⊢
  rw [h.subjects]
  cases hentry : image.subjects[query.subject]? with
  | none =>
      rw [hentry] at hgate
      cases hgate
  | some entry =>
      simp only [hentry, except_bind_eq_ok, answerIf_eq_ok, exists_const] at hgate ⊢
      exact hgate

theorem scopeGate_ok {query : PriorityQuery} {scopes : List PolicyScopeId}
    (hgate : scopeGate image query = .ok scopes) : scopeGate image' query = .ok scopes := by
  unfold scopeGate at hgate ⊢
  rw [h.scopeChain_eq]
  cases hchain : scopeChain image query.scope with
  | error e =>
      rw [hchain] at hgate
      cases hgate
  | ok chain =>
      rw [hchain] at hgate
      exact hgate

theorem gates_ok {query : PriorityQuery} {admitted : Admitted}
    (hgates : gates image query = .ok admitted) : gates image' query = .ok admitted := by
  have hpolicy (scope : PolicyScopeId) :
      effectivePolicyGeneration image' scope = effectivePolicyGeneration image scope := by
    rw [effectivePolicyGeneration, effectivePolicyGeneration, h.effectivePolicy_eq, h.policies]
  have hscope (scope : PolicyScopeId) :
      scopeGenerationOf image' scope = scopeGenerationOf image scope := by
    rw [scopeGenerationOf, scopeGenerationOf, h.scopes]
  simp only [gates, except_bind_eq_ok, answerIf_eq_ok, exists_const, hpolicy, hscope,
    h.health] at hgates ⊢
  obtain ⟨hhealth, hsubjectId, hscopeId, u, hepoch, generation, hsubject, scopes, hchain,
    hrest⟩ := hgates
  exact ⟨hhealth, hsubjectId, hscopeId, u, h.epochGate_ok hepoch, generation,
    h.subjectGate_ok hsubject, scopes, h.scopeGate_ok hchain, hrest⟩

theorem settle_eq (query : PriorityQuery) (scope : PolicyScopeId) (first : Candidate)
    (others : List Candidate) :
    settle image' query scope first others = settle image query scope first others := by
  have hmode : effectiveConflictMode image' scope = effectiveConflictMode image scope := by
    rw [effectiveConflictMode, effectiveConflictMode, scopeConflictMode, scopeConflictMode,
      h.policies, h.scopes]
  have hhigher (placed : Placed) (winning : List Placed) :
      higherPrecedence image' placed winning = higherPrecedence image placed winning := by
    rw [higherPrecedence, higherPrecedence, h.classes]
  simp only [settle, settleConflict, hmode, hhigher]

end SameRegistry

/-- `image'` is `image` with further active assignments of the subject, each bound to a
scope of the chain below `level`. -/
structure Adds (image image' : StateImage) (subject : SubjectId) (chain : List PolicyScopeId)
    (level : Nat) : Prop where
  registry : SameRegistry image image'
  kept : ∀ (id : PriorityAssignmentId) entry, image.assignments[id]? = some entry →
    image'.assignments[id]? = some entry
  added : ∀ (id : PriorityAssignmentId) entry, image'.assignments[id]? = some entry →
    image.assignments[id]? = none → entry.active = true ∧
      entry.assignment.subject = subject ∧ levelOf chain entry.assignment.scope < level

section Adding

variable {image image' : StateImage} {subject : SubjectId} {chain : List PolicyScopeId}
  {level : Nat}

/-- The candidate a subject's own assignment gives, if its level is not below `level`. -/
def broadCandidate (image : StateImage) (chain : List PolicyScopeId) (subject : SubjectId)
    (level : Nat) (id : PriorityAssignmentId) : Option Candidate :=
  ((image.assignments[id]?).bind (candidateOf image chain subject 0)).filter
    fun candidate => level ≤ candidate.level

theorem filter_accepted_gathered (hscanned : Scanned image subject) :
    (gathered image chain subject 0).accepted.filter (fun candidate => level ≤ candidate.level) =
      (image.assignmentsBySubject.getD subject []).filterMap
        (broadCandidate image chain subject level) := by
  rw [gathered_of_scanned hscanned, heldBy, entriesOf, List.filterMap_filterMap,
    List.filter_filterMap]
  rfl

theorem Adds.broadCandidate_added (h : Adds image image' subject chain level)
    {id : PriorityAssignmentId} (hnew : image.assignments[id]? = none) :
    broadCandidate image' chain subject level id = none := by
  unfold broadCandidate
  cases hentry : image'.assignments[id]? with
  | none => rfl
  | some entry =>
      obtain ⟨-, -, hlevel⟩ := h.added id entry hentry hnew
      rw [Option.bind_some, Option.filter_eq_none_iff]
      intro candidate hcandidate hle
      obtain ⟨-, hfound, -⟩ := candidateOf_eq_some_iff.mp hcandidate
      rw [levelOf_eq hfound] at hlevel
      simp only [decide_eq_true_eq] at hle
      omega

theorem Adds.broadCandidate_kept (h : Adds image image' subject chain level)
    {id : PriorityAssignmentId} {entry : AssignmentEntry}
    (hentry : image.assignments[id]? = some entry) :
    broadCandidate image' chain subject level id = broadCandidate image chain subject level id := by
  unfold broadCandidate
  rw [hentry, h.kept id entry hentry, Option.bind_some, Option.bind_some,
    h.registry.candidateOf_eq]

theorem Adds.bucket_filter (h : Adds image image' subject chain level) (hindex : Indexed image)
    (hindex' : Indexed image') :
    (image'.assignmentsBySubject.getD subject []).filter
        (fun id => (image.assignments[id]?).isSome) =
      image.assignmentsBySubject.getD subject [] := by
  have hincreasing : Increasing ((image'.assignmentsBySubject.getD subject []).filter
      (fun id => (image.assignments[id]?).isSome)) :=
    (hindex'.exact.increasing subject).sublist List.filter_sublist
  refine hincreasing.eq_of_mem_iff (hindex.exact.increasing subject) fun id => ?_
  rw [List.mem_filter, hindex'.exact.mem_iff, hindex.exact.mem_iff]
  constructor
  · rintro ⟨⟨entry', hentry', hsubject⟩, hsome⟩
    obtain ⟨entry, hentry⟩ := Option.isSome_iff_exists.mp hsome
    have hsame := h.kept id entry hentry
    rw [hentry'] at hsame
    cases hsame
    exact ⟨entry', hentry, hsubject⟩
  · rintro ⟨entry, hentry, hsubject⟩
    exact ⟨⟨entry, h.kept id entry hentry, hsubject⟩, by rw [hentry]; rfl⟩

theorem Adds.scanned (h : Adds image image' subject chain level) (hindex : Indexed image)
    (hindex' : Indexed image') (hscanned : Scanned image' subject) : Scanned image subject := by
  unfold Scanned at hscanned ⊢
  rw [length_heldBy hindex', h.registry.limits] at hscanned
  rw [length_heldBy hindex, ← h.bucket_filter hindex hindex']
  exact (List.length_filter_le _ _).trans hscanned

theorem Adds.filter_accepted (h : Adds image image' subject chain level)
    (hindex : Indexed image) (hindex' : Indexed image') (hscanned : Scanned image' subject) :
    (gathered image' chain subject 0).accepted.filter
        (fun candidate => level ≤ candidate.level) =
      (gathered image chain subject 0).accepted.filter
        (fun candidate => level ≤ candidate.level) := by
  rw [filter_accepted_gathered hscanned,
    filter_accepted_gathered (h.scanned hindex hindex' hscanned),
    ← h.bucket_filter hindex hindex', List.filterMap_filter]
  refine List.filterMap_congr fun id hid => ?_
  cases hentry : image.assignments[id]? with
  | none =>
      rw [h.broadCandidate_added hentry]
      rfl
  | some entry =>
      rw [h.broadCandidate_kept hentry]
      rfl

end Adding

section Deciding

variable {level : Nat}

theorem exceptionCheck_congr {accepted accepted' : List Candidate}
    (h : accepted'.filter (fun candidate => level ≤ candidate.level) =
      accepted.filter (fun candidate => level ≤ candidate.level))
    {candidate : Candidate} (hlevel : level ≤ candidate.level) :
    exceptionCheck accepted' candidate = exceptionCheck accepted candidate := by
  have hmem (other : Candidate) (hbroader : candidate.level < other.level) :
      other ∈ accepted' ↔ other ∈ accepted := by
    have hiff : other ∈ accepted'.filter (fun candidate => level ≤ candidate.level) ↔
        other ∈ accepted.filter (fun candidate => level ≤ candidate.level) := by rw [h]
    have hle : level ≤ other.level := by omega
    simpa [List.mem_filter, hle] using hiff
  have hdisplaces : displacesTarget accepted' candidate = displacesTarget accepted candidate := by
    unfold displacesTarget
    split
    · rfl
    · rw [Bool.eq_iff_iff, List.any_eq_true, List.any_eq_true]
      refine exists_congr fun other => ?_
      simp only [gt_iff_lt, Bool.and_eq_true, decide_eq_true_eq]
      constructor
      · rintro ⟨hother, hbroader, hcls⟩
        exact ⟨(hmem other hbroader).mp hother, hbroader, hcls⟩
      · rintro ⟨hother, hbroader, hcls⟩
        exact ⟨(hmem other hbroader).mpr hother, hbroader, hcls⟩
  unfold exceptionCheck
  rw [hdisplaces]

theorem filterExceptions_congr {evidence evidence' : Evidence}
    (h : evidence'.accepted.filter (fun candidate => level ≤ candidate.level) =
      evidence.accepted.filter (fun candidate => level ≤ candidate.level)) :
    (filterExceptions evidence').accepted.filter (fun candidate => level ≤ candidate.level) =
      (filterExceptions evidence).accepted.filter
        (fun candidate => level ≤ candidate.level) := by
  simp only [filterExceptions, List.filter_filter]
  have hswap (accepted : List Candidate) (check : List Candidate) :
      accepted.filter (fun candidate => decide (level ≤ candidate.level) &&
          (exceptionCheck check candidate).isOk) =
        (accepted.filter fun candidate => level ≤ candidate.level).filter
          (fun candidate => (exceptionCheck check candidate).isOk) := by
    rw [List.filter_filter]
    exact List.filter_congr fun candidate _ => Bool.and_comm _ _
  rw [hswap, hswap, h]
  refine List.filter_congr fun candidate hcandidate => ?_
  rw [List.mem_filter, decide_eq_true_eq] at hcandidate
  rw [exceptionCheck_congr h hcandidate.2]

variable {image : StateImage} {scopes : List PolicyScopeId} {accepted : List Candidate}

theorem decidingLevel_eq (hnonOverridable : nonOverridable image scopes level = true)
    (hnarrower : ∀ k < level, nonOverridable image scopes k = false)
    (hmem : ∃ candidate ∈ accepted, candidate.level = level) :
    decidingLevel image scopes accepted = level := by
  have hmin : authoritativeLevel image scopes accepted = some level := by
    unfold authoritativeLevel
    rw [List.min?_eq_some_iff]
    constructor
    · obtain ⟨candidate, hcandidate, rfl⟩ := hmem
      exact List.mem_filter.mpr ⟨List.mem_map_of_mem hcandidate, hnonOverridable⟩
    · intro k hk
      by_contra hlt
      have hoverridable := hnarrower k (by omega)
      rw [List.mem_filter, hoverridable] at hk
      exact absurd hk.2 (by decide)
  rw [decidingLevel, hmin, Option.getD_some]

theorem filter_level_eq (accepted : List Candidate) (level : Nat) :
    accepted.filter (·.level = level) =
      (accepted.filter fun candidate => level ≤ candidate.level).filter (·.level = level) := by
  rw [List.filter_filter]
  refine List.filter_congr fun candidate _ => ?_
  by_cases heq : candidate.level = level
  · simp [heq]
  · simp [heq]

theorem answer_of_winner {query : PriorityQuery} {admitted : Admitted} {collected : Evidence}
    {winner : Candidate} {node : ClassEntry}
    (hwinner : winnerOf image query admitted.scopes collected = some winner)
    (hnode : image.classes[winner.entry.assignment.cls]? = some node) :
    (answer image query admitted collected).authoritative = true ∧
      (answer image query admitted collected).cls = winner.entry.assignment.cls := by
  obtain ⟨first, others, hlevel⟩ := decided_of_winnerOf hwinner
  obtain ⟨builder, base, hanswer⟩ := answer_decided hlevel
  rw [winnerOf_decided hlevel] at hwinner
  rw [hanswer, sealed_authoritative, sealed_cls]
  exact decideAt_of_winner hwinner hnode

theorem decided_from {query : PriorityQuery} {winner : Candidate} {chain : List PolicyScopeId}
    (hbehind : evidenceBehind image query = some winner)
    (hchain : scopeChain image query.scope = .ok chain) :
    ∃ admitted collected, gates image query = .ok admitted ∧ admitted.scopes = chain ∧
      collectEvidence image chain query.subject = .ok collected ∧
      winnerOf image query chain collected = some winner := by
  unfold evidenceBehind at hbehind
  cases hgates : gates image query with
  | error decision => simp [hgates] at hbehind
  | ok admitted =>
      have hscopes : admitted.scopes = chain := by
        have hpassed := (passed_of_gates hgates).chain
        rw [hchain] at hpassed
        cases hpassed
        rfl
      simp only [hgates, hscopes] at hbehind
      cases hcollect : collectEvidence image chain query.subject with
      | error e => simp [hcollect] at hbehind
      | ok collected =>
          simp only [hcollect] at hbehind
          exact ⟨admitted, collected, rfl, hscopes, rfl, hbehind⟩

end Deciding

section Immune

variable {image image' : StateImage} {query : PriorityQuery} {winner : Candidate}
  {chain : List PolicyScopeId}

theorem nonOverridable_below {level : Nat} (hlength : level ≤ chain.length)
    (h : ∀ scope ∈ chain, levelOf chain scope < level → ¬ Firm image scope) :
    ∀ k < level, nonOverridable image chain k = false := by
  intro k hk
  rw [← Bool.not_eq_true, nonOverridable_iff]
  have hlt : k < chain.length := by omega
  rw [scopeAt_of_lt hlt]
  refine h _ (List.getElem_mem hlt) (Nat.lt_of_le_of_lt ?_ hk)
  by_contra hfirst
  have hne := List.not_of_lt_findIdx (Nat.lt_of_not_le hfirst)
  simp at hne

theorem collected_own {collected : Evidence}
    (hcollect : collectEvidence image chain query.subject = .ok collected)
    (hmem : winner ∈ collected.accepted) (hown : winner.inheritanceDistance = 0) :
    collected.accepted = (gathered image chain query.subject 0).accepted := by
  obtain ⟨holder, distance, hgathered, haccepted⟩ := tier_of_collected hcollect hmem
  obtain ⟨-, hcandidate⟩ := mem_accepted_gathered hgathered
  obtain ⟨-, -, -, -, hvia, hdistance⟩ := candidateOf_eq_some_iff.mp hcandidate
  have hreaches := reaches_of_collectEvidence hcollect hmem
  rw [haccepted, ← hvia, ← hdistance, hreaches.own hown, hown]

theorem Adds.winnerOf_eq {collected : Evidence} (hindex : Indexed image)
    (hindex' : Indexed image') (hadds : Adds image image' query.subject chain winner.level)
    (hscanned : Scanned image' query.subject)
    (hcollect : collectEvidence image chain query.subject = .ok collected)
    (hwinner : winnerOf image query chain collected = some winner)
    (hown : winner.inheritanceDistance = 0)
    (hfirm : nonOverridable image chain winner.level = true)
    (hbelow : ∀ k < winner.level, nonOverridable image chain k = false) :
    collectEvidence image' chain query.subject = .ok (gathered image' chain query.subject 0) ∧
      winnerOf image' query chain (gathered image' chain query.subject 0) = some winner := by
  obtain ⟨hmem, hlevel⟩ := winnerOf_mem hwinner
  have hoffered := mem_of_mem_filterExceptions hmem
  have hown' := collected_own hcollect hoffered hown
  have hsame : (gathered image' chain query.subject 0).accepted.filter
        (fun candidate => winner.level ≤ candidate.level) =
      collected.accepted.filter (fun candidate => winner.level ≤ candidate.level) := by
    rw [hown']
    exact hadds.filter_accepted hindex hindex' hscanned
  have hfiltered := filterExceptions_congr hsame
  have hwinner' : winner ∈
      (filterExceptions (gathered image' chain query.subject 0)).accepted := by
    have hin : winner ∈ (filterExceptions collected).accepted.filter
        (fun candidate => winner.level ≤ candidate.level) :=
      List.mem_filter.mpr ⟨hmem, by simp⟩
    rw [← hfiltered] at hin
    exact List.mem_of_mem_filter hin
  have hnonempty : (gathered image' chain query.subject 0).accepted.isEmpty = false := by
    rw [List.isEmpty_eq_false_iff_exists_mem]
    exact ⟨winner, mem_of_mem_filterExceptions hwinner'⟩
  have hnonOverridable (k : Nat) :
      nonOverridable image' chain k = nonOverridable image chain k := by
    rw [nonOverridable, nonOverridable, hadds.registry.scopes]
  have hdeciding' : decidingLevel image' chain
      (filterExceptions (gathered image' chain query.subject 0)).accepted = winner.level := by
    refine decidingLevel_eq ?_ ?_ ⟨winner, hwinner', rfl⟩
    · rw [hnonOverridable]
      exact hfirm
    · intro k hk
      rw [hnonOverridable]
      exact hbelow k hk
  refine ⟨?_, ?_⟩
  · rw [collectEvidence_eq, hnonempty]
    rfl
  · simp only [winnerOf] at hwinner ⊢
    rw [hdeciding', filter_level_eq, hfiltered, ← filter_level_eq]
    rw [← hlevel] at hwinner
    simp only [hadds.registry.settle_eq]
    exact hwinner

/-- A query that the subject's own evidence decides at a scope that does not allow
overrides, while every narrower scope does, is decided the same way whatever assignments
are added below that scope, as far as the scan reaches. -/
theorem firm_scope_keeps_deciding (hindex : Indexed image) (hindex' : Indexed image')
    (hbehind : evidenceBehind image query = some winner)
    (hown : winner.inheritanceDistance = 0)
    (hchain : scopeChain image query.scope = .ok chain)
    (hfirm : Firm image winner.entry.assignment.scope)
    (hbelow : ∀ scope ∈ chain, levelOf chain scope < levelOf chain winner.entry.assignment.scope →
      ¬ Firm image scope)
    (hadds : Adds image image' query.subject chain
      (levelOf chain winner.entry.assignment.scope))
    (hscanned : Scanned image' query.subject) :
    (evaluateQuery image query).authoritative = true ∧
      (evaluateQuery image' query).authoritative = true ∧
      (evaluateQuery image' query).cls = (evaluateQuery image query).cls := by
  obtain ⟨admitted, collected, hgates, rfl, hcollect, hwinner⟩ := decided_from hbehind hchain
  have hreaches := reaches_of_collectEvidence hcollect
    (mem_of_mem_filterExceptions (winnerOf_mem hwinner).1)
  have hlevel := levelOf_eq hreaches.level
  obtain ⟨hlt, -⟩ := List.findIdx?_eq_some_iff_getElem.mp hreaches.level
  have hscope := scopeAt_of_findIdx? hreaches.level
  obtain ⟨node, hnode, -⟩ := Option.map_eq_some_iff.mp hreaches.bound.cls
  rw [hlevel] at hbelow hadds
  obtain ⟨hcollect', hwinner'⟩ := hadds.winnerOf_eq hindex hindex' hscanned hcollect hwinner
    hown (nonOverridable_iff.mpr (hscope ▸ hfirm)) (nonOverridable_below (Nat.le_of_lt hlt) hbelow)
  have hbefore := answer_of_winner hwinner hnode
  have hafter := answer_of_winner hwinner' (hadds.registry.classes ▸ hnode)
  have heval : evaluateQuery image query = answer image query admitted collected := by
    simp only [evaluateQuery, hgates, hcollect]
  have heval' : evaluateQuery image' query =
      answer image' query admitted (gathered image' admitted.scopes query.subject 0) := by
    simp only [evaluateQuery, hadds.registry.gates_ok hgates, hcollect']
  rw [heval, heval']
  exact ⟨hbefore.1, hafter.1, hafter.2.trans hbefore.2.symm⟩

end Immune

def innerScope : PolicyScopeId := ⟨[105], by decide⟩
def outerScope : PolicyScopeId := ⟨[111], by decide⟩

/-- The inner scope may or may not allow overrides; the outer one does not. -/
def nestedScopes (allowOverride : Bool) : List PolicyScopeDef :=
  [{ id := innerScope, generation := .first, parent := some outerScope, allowOverride },
    { id := outerScope, generation := .first, allowOverride := false }]

def outerAssignment : PriorityAssignment :=
  { assignmentOf ⟨[98], wellFormed_b⟩ lowClass with scope := outerScope }

def innerAssignment : PriorityAssignment :=
  { assignmentOf ⟨[97], wellFormed_a⟩ highClass with scope := innerScope }

def nestedImage (limits : Limits) (allowOverride : Bool)
    (assignments : List PriorityAssignment) : StateImage :=
  imageWith limits [{ id := oneSubject, generation := .first }] (nestedScopes allowOverride)
    assignments

def innerQuery : PriorityQuery := { subject := oneSubject, scope := innerScope }

theorem adds_innerAssignment (limits : Limits) (allowOverride : Bool) :
    Adds (nestedImage limits allowOverride [outerAssignment])
      (nestedImage limits allowOverride [outerAssignment, innerAssignment]) oneSubject
      [innerScope, outerScope] 1 := by
  have hne : compare innerAssignment.id outerAssignment.id ≠ .eq := by decide
  refine ⟨⟨rfl, rfl, rfl, rfl, rfl, rfl, rfl, rfl⟩, ?_, ?_⟩
  · intro id entry hentry
    simp only [nestedImage, imageWith, rebuildIndexes, List.foldl_cons, List.foldl_nil,
      Std.ExtTreeMap.getElem?_insert, Std.LawfulEqOrd.compare_eq_iff_eq,
      Std.ExtTreeMap.getElem?_empty] at hentry ⊢
    split at hentry
    · rename_i hid
      rw [if_neg (by rw [← hid]; decide), if_pos hid]
      exact hentry
    · cases hentry
  · intro id entry hentry hnone
    simp only [nestedImage, imageWith, rebuildIndexes, List.foldl_cons, List.foldl_nil,
      Std.ExtTreeMap.getElem?_insert, Std.LawfulEqOrd.compare_eq_iff_eq,
      Std.ExtTreeMap.getElem?_empty] at hentry hnone
    split at hentry
    · cases hentry
      exact ⟨rfl, rfl, by decide⟩
    · split at hentry
      · rename_i hid
        rw [if_pos hid] at hnone
        cases hnone
      · cases hentry

theorem decided_at_outer (limits : Limits) (allowOverride : Bool)
    (h : (evidenceBehind (nestedImage limits allowOverride [outerAssignment]) innerQuery).map
      (fun winner => (winner.inheritanceDistance, winner.entry.assignment.scope)) =
        some (0, outerScope)) :
    ∃ winner, evidenceBehind (nestedImage limits allowOverride [outerAssignment]) innerQuery =
      some winner ∧ winner.inheritanceDistance = 0 ∧
        winner.entry.assignment.scope = outerScope := by
  obtain ⟨winner, hbehind, hplace⟩ := Option.map_eq_some_iff.mp h
  obtain ⟨hown, hscope⟩ := Prod.mk.inj hplace
  exact ⟨winner, hbehind, hown, hscope⟩

theorem firm_outerScope (limits : Limits) (allowOverride : Bool)
    (assignments : List PriorityAssignment) :
    Firm (nestedImage limits allowOverride assignments) outerScope :=
  ⟨_, Std.ExtTreeMap.getElem?_insert_self, rfl⟩

theorem not_firm_innerScope (limits : Limits) (assignments : List PriorityAssignment) :
    ¬ Firm (nestedImage limits true assignments) innerScope := by
  rintro ⟨node, hnode, hfirm⟩
  simp only [nestedImage, imageWith, rebuildIndexes, nestedScopes, List.foldl_cons,
    List.foldl_nil, Std.ExtTreeMap.getElem?_insert, Std.LawfulEqOrd.compare_eq_iff_eq] at hnode
  rw [if_neg (by decide), if_pos trivial] at hnode
  cases hnode
  cases hfirm

theorem unfirm_below_outer (limits : Limits) (assignments : List PriorityAssignment) :
    ∀ scope ∈ [innerScope, outerScope],
      levelOf [innerScope, outerScope] scope < levelOf [innerScope, outerScope] outerScope →
        ¬ Firm (nestedImage limits true assignments) scope := by
  intro scope hmem hlevel
  rcases List.mem_cons.mp hmem with rfl | hmem
  · exact not_firm_innerScope limits assignments
  · obtain rfl := List.mem_singleton.mp hmem
    exact absurd hlevel (Nat.lt_irrefl _)

theorem firm_scope_keeps_deciding_nested :
    (evaluateQuery (nestedImage {} true [outerAssignment]) innerQuery).authoritative = true ∧
      (evaluateQuery (nestedImage {} true [outerAssignment, innerAssignment])
        innerQuery).authoritative = true ∧
      (evaluateQuery (nestedImage {} true [outerAssignment, innerAssignment]) innerQuery).cls =
        (evaluateQuery (nestedImage {} true [outerAssignment]) innerQuery).cls := by
  obtain ⟨winner, hbehind, hown, hscope⟩ := decided_at_outer {} true (by decide)
  have hchain : scopeChain (nestedImage {} true [outerAssignment]) innerQuery.scope =
      .ok [innerScope, outerScope] := by decide
  have hscanned : Scanned (nestedImage {} true [outerAssignment, innerAssignment]) oneSubject := by
    unfold Scanned
    decide
  have hbelow : ∀ scope ∈ [innerScope, outerScope],
      levelOf [innerScope, outerScope] scope <
          levelOf [innerScope, outerScope] winner.entry.assignment.scope →
        ¬ Firm (nestedImage {} true [outerAssignment]) scope := by
    rw [hscope]
    exact unfirm_below_outer _ _
  have hadds : Adds (nestedImage {} true [outerAssignment])
      (nestedImage {} true [outerAssignment, innerAssignment]) innerQuery.subject
      [innerScope, outerScope]
      (levelOf [innerScope, outerScope] winner.entry.assignment.scope) := by
    rw [hscope]
    exact adds_innerAssignment {} true
  exact firm_scope_keeps_deciding (indexed_imageWith _ _ _ _) (indexed_imageWith _ _ _ _)
    hbehind hown hchain (hscope ▸ firm_outerScope _ _ _) hbelow hadds hscanned

/-- When the inner scope does not allow overrides either, it takes over. -/
theorem inner_firm_scope_takes_over :
    ¬ ∀ (image image' : StateImage) (query : PriorityQuery) (winner : Candidate)
      (chain : List PolicyScopeId), image.health = .healthy → Indexed image → Indexed image' →
      (evaluateQuery image query).authoritative = true →
      evidenceBehind image query = some winner → winner.inheritanceDistance = 0 →
      scopeChain image query.scope = .ok chain → Firm image winner.entry.assignment.scope →
      Adds image image' query.subject chain (levelOf chain winner.entry.assignment.scope) →
      (evaluateQuery image' query).authoritative = true ∧
        (evaluateQuery image' query).cls = (evaluateQuery image query).cls := by
  intro h
  obtain ⟨winner, hbehind, hown, hscope⟩ := decided_at_outer {} false (by decide)
  have hchain : scopeChain (nestedImage {} false [outerAssignment]) innerQuery.scope =
      .ok [innerScope, outerScope] := by decide
  have hadds : Adds (nestedImage {} false [outerAssignment])
      (nestedImage {} false [outerAssignment, innerAssignment]) innerQuery.subject
      [innerScope, outerScope]
      (levelOf [innerScope, outerScope] winner.entry.assignment.scope) := by
    rw [hscope]
    exact adds_innerAssignment {} false
  have hsame := (h _ _ innerQuery winner _ rfl (indexed_imageWith _ _ _ _)
    (indexed_imageWith _ _ _ _) (by decide) hbehind hown hchain
    (hscope ▸ firm_outerScope _ _ _) hadds).2
  exact absurd hsame (by decide)

/-- A scan that stops short may miss the evidence of the firm scope: its limit is asked for. -/
theorem firm_scope_past_the_scan :
    ¬ ∀ (image image' : StateImage) (query : PriorityQuery) (winner : Candidate)
      (chain : List PolicyScopeId), image.health = .healthy → Indexed image → Indexed image' →
      (evaluateQuery image query).authoritative = true →
      evidenceBehind image query = some winner → winner.inheritanceDistance = 0 →
      scopeChain image query.scope = .ok chain → Firm image winner.entry.assignment.scope →
      (∀ scope ∈ chain, levelOf chain scope < levelOf chain winner.entry.assignment.scope →
        ¬ Firm image scope) →
      Adds image image' query.subject chain (levelOf chain winner.entry.assignment.scope) →
      (evaluateQuery image' query).authoritative = true ∧
        (evaluateQuery image' query).cls = (evaluateQuery image query).cls := by
  intro h
  obtain ⟨winner, hbehind, hown, hscope⟩ :=
    decided_at_outer { maxQuerySteps := 1 } true (by decide)
  have hchain : scopeChain (nestedImage { maxQuerySteps := 1 } true [outerAssignment])
      innerQuery.scope = .ok [innerScope, outerScope] := by decide
  have hadds : Adds (nestedImage { maxQuerySteps := 1 } true [outerAssignment])
      (nestedImage { maxQuerySteps := 1 } true [outerAssignment, innerAssignment])
      innerQuery.subject [innerScope, outerScope]
      (levelOf [innerScope, outerScope] winner.entry.assignment.scope) := by
    rw [hscope]
    exact adds_innerAssignment _ true
  have hbelow : ∀ scope ∈ [innerScope, outerScope],
      levelOf [innerScope, outerScope] scope <
          levelOf [innerScope, outerScope] winner.entry.assignment.scope →
        ¬ Firm (nestedImage { maxQuerySteps := 1 } true [outerAssignment]) scope := by
    rw [hscope]
    exact unfirm_below_outer _ _
  have hsame := (h _ _ innerQuery winner _ rfl (indexed_imageWith _ _ _ _)
    (indexed_imageWith _ _ _ _) (by decide) hbehind hown hchain
    (hscope ▸ firm_outerScope _ _ _) hbelow hadds).2
  exact absurd hsame (by decide)

end PriorityFabric.Immunity
