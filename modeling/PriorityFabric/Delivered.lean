import PriorityFabric.Measured

/-!
Decisions on the wire.

The texts of a decision are measured along the path of its query: what the gates say, what
is said of the evidence, what the fallback or the settlement of a conflict adds.
-/

namespace PriorityFabric.Delivered

open PriorityFabric.Lib.LittleEndian
open PriorityFabric.Basics
open PriorityFabric.Ident
open PriorityFabric.Model
open PriorityFabric.Codec
open PriorityFabric.Codec.Decoder (IdReadable)
open PriorityFabric.ModelCodec
open PriorityFabric.State
open PriorityFabric.Evaluate
open PriorityFabric.UsableEvidence
open PriorityFabric.Decisions
open PriorityFabric.DecisionCodec
open PriorityFabric.Bounds
open PriorityFabric.Apply
open PriorityFabric.Registry
open PriorityFabric.Measured

/-! ## Steps and notes -/

section Pieces

variable {n r : Nat} {limits : Limits} (hroom : Room n r limits)
include hroom

theorem provenanceWithin {entry : AssignmentEntry} (h : EntrySpelled n r entry) :
    ProvenanceWithin limits entry.provenance :=
  ⟨h.publisher.trans hroom.ids, h.op⟩

omit hroom in
theorem of_inheritedVia {entry : AssignmentEntry} {via found : SubjectId}
    (h : inheritedVia entry via = some found) : found = via ∧ via.value ≠ [] := by
  unfold inheritedVia at h
  split at h
  · rename_i hvia
    cases h
    exact ⟨rfl, (BasicId.valid_iff _).mp hvia.1⟩
  · cases h

theorem noteWithin_makeNote {entry : AssignmentEntry} {via : SubjectId} {code detail : Bytes}
    (h : EntrySpelled n r entry) (hvia : via.value.length ≤ n) (hcode : code.length ≤ maxCode)
    (hdetail : detail.length ≤ limits.maxDescriptionLength) :
    NoteWithin limits (makeNote entry via code detail) where
  assignment := h.id.readable hroom.ids
  cls := h.cls.readable hroom.ids
  scope := h.scope.readable hroom.ids
  viaSubject := by
    intro found hfound
    obtain ⟨rfl, hset⟩ := of_inheritedVia hfound
    exact ⟨hset, hvia.trans hroom.ids⟩
  reasonCode := hcode
  reason := hdetail
  provenance := provenanceWithin hroom h

omit hroom in
theorem length_viaText_le (entry : AssignmentEntry) {via : SubjectId}
    (hvia : via.value.length ≤ n) :
    ((inheritedVia entry via).elim [] fun via =>
      text " (inherited through '" ++ via.value ++ text "')").length ≤ 23 + n := by
  cases hfound : inheritedVia entry via with
  | none => exact Nat.zero_le _
  | some found =>
      obtain ⟨rfl, -⟩ := of_inheritedVia hfound
      have h1 : (text " (inherited through '").length = 21 := by decide
      have h2 : (text "')").length = 2 := by decide
      simp only [Option.elim_some, List.length_append]
      omega

theorem stepWithin_makeStep {entry : AssignmentEntry} {via : SubjectId}
    {stage code detail : Bytes} (h : EntrySpelled n r entry) (hvia : via.value.length ≤ n)
    (hstage : stage.length ≤ maxCode) (hcode : code.length ≤ maxCode)
    (hdetail : detail.length + n + 23 ≤ limits.maxDescriptionLength) :
    StepWithin limits (makeStep stage code detail entry via) where
  stage := hstage
  code := hcode
  detail := by
    have htext := length_viaText_le entry hvia
    simp only [makeStep, List.length_append]
    omega
  assignment := by
    rintro id ⟨⟩
    exact h.id.readable hroom.ids
  cls := by
    rintro id ⟨⟩
    exact h.cls.readable hroom.ids
  scope := by
    rintro id ⟨⟩
    exact h.scope.readable hroom.ids
  policy := fun policy hpolicy => (h.policy policy hpolicy).readable hroom.ids
  provenance := provenanceWithin hroom h

omit hroom in
theorem stepWithin_plain {stage code detail : Bytes} (hstage : stage.length ≤ maxCode)
    (hcode : code.length ≤ maxCode) (hdetail : detail.length ≤ limits.maxDescriptionLength) :
    StepWithin limits { stage, code, detail } where
  stage := hstage
  code := hcode
  detail := hdetail
  assignment := by
    rintro id ⟨⟩
  cls := by
    rintro id ⟨⟩
  scope := by
    rintro id ⟨⟩
  policy := by
    rintro id ⟨⟩
  provenance := ⟨Nat.zero_le _, Nat.zero_le _⟩

/-! ## The chain -/

/-- A chain under construction: within its budget, and below it until it was cut. -/
structure ChainWithin (limits : Limits) (builder : ChainBuilder) : Prop where
  steps : ∀ step ∈ builder.steps, StepWithin limits step
  length : builder.steps.length ≤ builder.limit
  below : builder.truncated = false → builder.steps.length < builder.limit
  limit : builder.limit ≤ limits.maxExplanationSteps
  small : builder.limit < 2 ^ 64

theorem ChainWithin.push {builder : ChainBuilder} (h : ChainWithin limits builder)
    {step : ExplanationStep} (hstep : StepWithin limits step) :
    ChainWithin limits (builder.push step) := by
  have hroom' := hroom.texts
  unfold ChainBuilder.push
  split
  · split
    · exact h
    · rename_i hfull hopen
      rw [Bool.not_eq_true] at hopen
      have hlength := h.below hopen
      refine ⟨?_, ?_, fun hcut => Bool.noConfusion hcut, h.limit, h.small⟩
      · intro found hfound
        rcases List.mem_append.mp hfound with hold | hlast
        · exact h.steps found hold
        · obtain rfl := List.mem_singleton.mp hlast
          refine stepWithin_plain (Nat.le_of_ble_eq_true rfl) (Nat.le_of_ble_eq_true rfl) ?_
          have h1 : (text "the explanation chain reached the caller's step budget of ").length =
              58 := by decide
          have hdecimal := length_decimal_le_twenty h.small
          rw [List.length_append]
          omega
      · simp only [List.length_append, List.length_singleton]
        omega
  · rename_i hfits
    refine ⟨?_, ?_, fun _ => ?_, h.limit, h.small⟩
    · intro found hfound
      rcases List.mem_append.mp hfound with hold | hlast
      · exact h.steps found hold
      · obtain rfl := List.mem_singleton.mp hlast
        exact hstep
    · simp only [List.length_append, List.length_singleton]
      omega
    · simp only [List.length_append, List.length_singleton]
      omega

theorem ChainWithin.foldl {α : Type} {f : α → ExplanationStep} {items : List α}
    (hitems : ∀ item ∈ items, StepWithin limits (f item)) {builder : ChainBuilder}
    (h : ChainWithin limits builder) :
    ChainWithin limits (items.foldl (fun builder item => builder.push (f item)) builder) := by
  induction items generalizing builder with
  | nil => exact h
  | cons item items ih =>
      exact ih (fun other hother => hitems other (by simp [hother]))
        (h.push hroom (hitems item (by simp)))

end Pieces

/-- The decoder's limits are no narrower than those the evaluator cuts texts and chains at. -/
structure Wider (narrow limits : Limits) : Prop where
  steps : max 2 narrow.maxExplanationSteps ≤ limits.maxExplanationSteps
  descriptions : narrow.maxDescriptionLength ≤ limits.maxDescriptionLength

/-! ## The chain up to the decision -/

theorem mem_of_scopeChain {image : StateImage} {scope : PolicyScopeId}
    {scopes : List PolicyScopeId} (h : scopeChain image scope = .ok scopes) :
    scope ∈ image.scopes := by
  unfold scopeChain scopeChainLoop at h
  cases hscope : image.scopes[scope]? with
  | none => simp [hscope] at h
  | some entry => exact (getElem?_eq_some_iff.mp hscope).1

/-- A query that passed the gates names what the image holds. -/
structure Asked (n : Nat) (query : PriorityQuery) : Prop where
  subject : Named n query.subject
  scope : Named n query.scope

section Explaining

variable {n r : Nat} {limits : Limits} {image : StateImage} (h : Legible n r image)
variable (hroom : Room n r limits) {query : PriorityQuery} (hasked : Asked n query)

include h in
theorem asked_of_passed {admitted : Admitted} (hpassed : Passed image query admitted) :
    query.subject ∈ image.subjects ∧ Asked n query := by
  obtain ⟨entry, hentry⟩ := hpassed.registered
  have hmem : query.subject ∈ image.subjects := (getElem?_eq_some_iff.mp hentry).1
  exact ⟨hmem, h.spelled.subjects _ hmem, h.spelled.scopes _ (mem_of_scopeChain hpassed.chain)⟩

include hroom hasked in
theorem stepWithin_queryStep (admitted : Admitted) :
    StepWithin limits (queryStep image query admitted) := by
  refine stepWithin_plain (Nat.le_of_ble_eq_true rfl) (Nat.le_of_ble_eq_true rfl) ?_
  have h1 : (text "subject '").length = 9 := by decide
  have h2 : (text "' generation ").length = 13 := by decide
  have h3 : (text " in scope '").length = 11 := by decide
  have h4 : (text " at epoch ").length = 10 := by decide
  have hsubject := hasked.subject.2
  have hscope := hasked.scope.2
  have hgeneration := length_decimal_u64 admitted.subjectGeneration.value
  have hgeneration' := length_decimal_u64 admitted.scopeGeneration.value
  have hepoch := length_decimal_u64 image.epoch.value
  have htexts := hroom.texts
  simp only [List.length_append]
  omega

include h hroom hasked in
theorem chainWithin_explainEvidence (hwider : Wider image.limits limits) {count : Nat}
    {evidence : Evidence} (admitted : Admitted) (hevidence : EvidenceSpelled n r count evidence) :
    ChainWithin limits (explainEvidence image query admitted evidence) := by
  have htexts := hroom.texts
  have hreasons := hroom.reasons
  have hsteps := hwider.steps
  obtain ⟨-, -, hceiling⟩ := searchBounds_of_within h.limits
  have hstart : ChainWithin limits { limit := stepBudget image query } := by
    have hbudget : 2 ≤ stepBudget image query ∧
        stepBudget image query ≤ max 2 image.limits.maxExplanationSteps := by
      unfold stepBudget
      omega
    refine ⟨?_, Nat.zero_le _, fun _ => ?_, hbudget.2.trans hsteps, ?_⟩
    · intro step hstep
      cases hstep
    · exact lt_of_lt_of_le (by norm_num) hbudget.1
    · exact lt_of_le_of_lt (hbudget.2.trans (max_le_max (le_refl 2) hceiling)) (by norm_num)
  refine ChainWithin.foldl hroom ?_ (ChainWithin.foldl hroom ?_
    (hstart.push hroom (stepWithin_queryStep hroom hasked admitted)))
  · intro item hitem
    have hspelled := hevidence.rejected item hitem
    have hdetail := hspelled.detail
    have hcode := hspelled.code
    refine stepWithin_makeStep hroom hspelled.entry hspelled.via (Nat.le_of_ble_eq_true rfl)
      (hcode.trans (by norm_num [maxCode])) ?_
    unfold refusalLength at hdetail
    omega
  · intro candidate hcandidate
    have hspelled := hevidence.accepted candidate hcandidate
    have hdescribe := length_describeAssignment_le hspelled.entry
    refine stepWithin_makeStep hroom hspelled.entry hspelled.via.2 (Nat.le_of_ble_eq_true rfl)
      (Nat.le_of_ble_eq_true rfl) ?_
    omega

end Explaining

/-! ## The answer without usable evidence -/

section Fallback

variable {n r : Nat} {limits : Limits} {image : StateImage} (h : Legible n r image)
variable (hroom : Room n r limits) {query : PriorityQuery} (hasked : Asked n query)

structure DefaultSpelled (n : Nat) (fallback : DefaultResolution) : Prop where
  cls : fallback.cls.value.length ≤ n
  named : fallback.found = true → Named n fallback.cls
  source : fallback.source.length ≤ n + 7
  precedence : RankFits fallback.precedence

theorem rankFits_undeclared : RankFits .undeclared := ⟨fun h => Bool.noConfusion h, rfl⟩

include h in
theorem spelled_declaredDefault {level : PolicyScopeId} {cls : PriorityClassId} {source : Bytes}
    (hdefault : declaredDefault image level = some (cls, source)) :
    Named n cls ∧ source.length ≤ n + 7 := by
  unfold declaredDefault at hdefault
  rw [Option.orElse_eq_orElse, Option.orElse_eq_or, Option.or_eq_some_iff] at hdefault
  rcases hdefault with hpolicy | ⟨-, hscope⟩
  · obtain ⟨⟨id, entry⟩, hmem, hfound⟩ := List.exists_of_findSome?_eq_some hpolicy
    split at hfound
    · obtain ⟨found, hunknown, hpair⟩ := Option.map_eq_some_iff.mp hfound
      cases hpair
      have hentry := Std.ExtTreeMap.mem_toList_iff_getElem?_eq_some.mp hmem
      have hid : id ∈ image.policies := (getElem?_eq_some_iff.mp hentry).1
      have hok := h.registered.policies.good id entry hentry
      refine ⟨h.spelled.classes _ (hok.unknownDefault _ hunknown), ?_⟩
      have h1 : (text "policy:").length = 7 := by decide
      have hlength := (h.spelled.policies id hid).2
      rw [List.length_append]
      change _ + id.value.length ≤ _
      omega
    · cases hfound
  · obtain ⟨node, hnode, hfound⟩ := Option.bind_eq_some_iff.mp hscope
    obtain ⟨found, hunknown, hpair⟩ := Option.map_eq_some_iff.mp hfound
    cases hpair
    have hok := h.registered.scopes.good level node hnode
    refine ⟨h.spelled.classes _ (hok.unknownDefault _ hunknown), ?_⟩
    have h1 : (text "scope").length = 5 := by decide
    omega

include h in
theorem spelled_resolveUnknownDefault (scope : PolicyScopeId) :
    DefaultSpelled n (resolveUnknownDefault image scope) := by
  have hnothing : DefaultSpelled n {} :=
    ⟨Nat.zero_le _, fun hfound => Bool.noConfusion hfound, Nat.zero_le _, rankFits_undeclared⟩
  unfold resolveUnknownDefault
  split
  · exact hnothing
  · split
    · exact hnothing
    · rename_i cls source hfound
      obtain ⟨level, -, hdefault⟩ := List.exists_of_findSome?_eq_some hfound
      obtain ⟨hcls, hsource⟩ := spelled_declaredDefault h hdefault
      split
      · exact ⟨hcls.2, fun _ => hcls, hsource, rankFits_undeclared⟩
      · rename_i node hnode
        have hfits := h.bounded.tables.classes.good cls node hnode
        exact ⟨hcls.2, fun _ => hcls, hsource, hfits.rank⟩

include h in
theorem named_fallback {decision : PriorityDecision} (hbase : decision.authoritative = false)
    {rejected : List RejectedEvidence}
    (hauthoritative : (fallbackDecision image query rejected decision).authoritative = true) :
    Named n (fallbackDecision image query rejected decision).cls := by
  obtain ⟨hfound, -, hcls⟩ := fallbackDecision_authoritative hbase hauthoritative
  rw [hcls]
  exact (spelled_resolveUnknownDefault h query.scope).named hfound

include h hroom hasked in
theorem within_fallback {decision : PriorityDecision}
    (hdecision : DecisionWithin limits (n + 30) decision) {rejected : List RejectedEvidence}
    (hrejected : ∀ item ∈ rejected, RefusalSpelled n r item) (hcount : rejected.length < 2 ^ 64) :
    DecisionWithin limits (n + 30) (fallbackDecision image query rejected decision) := by
  have htexts := hroom.texts
  have hsubject := hasked.subject.2
  have hscope := hasked.scope.2
  have hdefault := spelled_resolveUnknownDefault h query.scope
  have hcls := hdefault.cls
  unfold fallbackDecision
  simp only
  split
  · rename_i first rest
    refine { hdecision with reasonCode := ?_, reason := ?_, resolution := ?_ }
    · simp only
      split
      · exact Nat.le_of_ble_eq_true rfl
      · exact Nat.le_of_ble_eq_true rfl
    · have h1 : (text "the fabric holds ").length = 17 := by decide
      have h2 : (text " piece(s) of evidence for this subject and scope, and every one of ").length
          = 67 := by decide
      have h3 : (text "them lost its authority: ").length = 25 := by decide
      have hdecimal := length_decimal_le_twenty hcount
      have hcode := (hrejected first (by simp)).code
      simp only [List.length_append]
      omega
    · exact Nat.le_of_ble_eq_true rfl
  · split
    · refine { hdecision with
        cls := hcls.trans hroom.ids
        precedence := hdefault.precedence
        reasonCode := Nat.le_of_ble_eq_true rfl
        reason := ?_
        resolution := Nat.le_add_left_of_le (Nat.le_of_ble_eq_true rfl) }
      have h1 : (text "no assignment exists for subject '").length = 34 := by decide
      have h2 : (text "' in scope '").length = 12 := by decide
      have h3 : (text "'; the policy declared by ").length = 26 := by decide
      have h4 : (text " supplies the default class '").length = 29 := by decide
      have h5 : (text "'").length = 1 := by decide
      have hsource := hdefault.source
      simp only [List.length_append]
      omega
    · split
      · refine { hdecision with
          reasonCode := Nat.le_of_ble_eq_true rfl
          reason := ?_
          resolution := Nat.le_add_left_of_le (Nat.le_of_ble_eq_true rfl) }
        have h1 : (text "the policy declares default class '").length = 35 := by decide
        have h2 : (text "' for unassigned subjects but that class is not usable in scope '").length
            = 65 := by decide
        have h3 : (text "'; the fabric does not substitute another class").length = 47 := by
          decide
        simp only [List.length_append]
        omega
      · refine { hdecision with
          reasonCode := Nat.le_of_ble_eq_true rfl
          reason := ?_
          resolution := Nat.le_add_left_of_le (Nat.le_of_ble_eq_true rfl) }
        have h1 : (text "no assignment, inheritance or policy default covers subject '").length
            = 61 := by decide
        have h2 : (text "' in scope '").length = 12 := by decide
        have h3 : (text "'; the fabric reports UNKNOWN rather than assuming a low class").length
            = 62 := by decide
        simp only [List.length_append]
        omega

include hroom in
theorem chainWithin_explainFallback {builder : ChainBuilder}
    (hbuilder : ChainWithin limits builder) {decision : PriorityDecision}
    (hdecision : DecisionWithin limits (n + 30) decision)
    (hnamed : decision.authoritative = true → Named n decision.cls) :
    ChainWithin limits (explainFallback builder decision) := by
  have hlast : StepWithin limits
      { stage := text "decision", code := decision.reasonCode, detail := decision.reason } :=
    stepWithin_plain (Nat.le_of_ble_eq_true rfl) hdecision.reasonCode hdecision.reason
  unfold explainFallback
  simp only
  split
  · rename_i hauthoritative
    refine ChainWithin.push hroom (hbuilder.push hroom ?_) hlast
    have hplain : StepWithin limits
        { stage := text "default.apply", code := text "policy_declared_default",
          detail := decision.reason } :=
      stepWithin_plain (Nat.le_of_ble_eq_true rfl) (Nat.le_of_ble_eq_true rfl) hdecision.reason
    refine { hplain with cls := ?_ }
    rintro id ⟨⟩
    exact (hnamed hauthoritative).readable hroom.ids
  · exact hbuilder.push hroom hlast

end Fallback

/-! ## The answer from usable evidence -/

theorem length_source_le {n r : Nat} {image : StateImage} (h : Legible n r image)
    (scope : PolicyScopeId) : (effectiveConflictMode image scope).source.length ≤ n + 7 := by
  have hscope : (scopeConflictMode image scope).source.length ≤ 7 := by
    unfold scopeConflictMode
    split
    · exact Nat.le_of_ble_eq_true rfl
    · exact Nat.le_of_ble_eq_true rfl
  unfold effectiveConflictMode
  cases hfind : image.policies.toList.findSome? fun entry =>
      if entry.2.definition.scope = scope then
        entry.2.definition.conflictResolution.map fun mode =>
          ({ mode, source := text "policy:" ++ entry.1.value } : ConflictMode)
      else none with
  | none =>
      rw [Option.getD_none]
      omega
  | some found =>
      obtain ⟨⟨id, entry⟩, hmem, hfound⟩ := List.exists_of_findSome?_eq_some hfind
      split at hfound
      · obtain ⟨mode, hmode, rfl⟩ := Option.map_eq_some_iff.mp hfound
        have hentry := Std.ExtTreeMap.mem_toList_iff_getElem?_eq_some.mp hmem
        have hlength := (h.spelled.policies id (getElem?_eq_some_iff.mp hentry).1).2
        have h1 : (text "policy:").length = 7 := by decide
        rw [Option.getD_some, List.length_append]
        change _ + id.value.length ≤ n + 7
        omega
      · cases hfound

structure VerdictWithin (room : Nat) (candidates : List Candidate) (verdict : Verdict) :
    Prop where
  losers : ∀ candidate ∈ verdict.losers, candidate ∈ candidates
  count : verdict.losers.length ≤ candidates.length
  resolution : verdict.resolution.length ≤ room

theorem within_settle {n r : Nat} {image : StateImage} (h : Legible n r image)
    (query : PriorityQuery) (scope : PolicyScopeId) (first : Candidate)
    (others : List Candidate) :
    VerdictWithin (n + 30) (first :: others) (settle image query scope first others) := by
  have hsource := length_source_le h scope
  have hzip : (first :: others).zipIdx.map (·.1) = first :: others := List.zipIdx_map_fst 0 _
  unfold settle
  split
  · unfold settleConflict
    simp only
    split
    · refine ⟨?_, ?_, ?_⟩
      · intro candidate hcandidate
        rwa [hzip] at hcandidate
      · rw [hzip]
      · split
        · exact Nat.le_add_left_of_le (Nat.le_of_ble_eq_true rfl)
        · have h1 : (text "denied_by_").length = 10 := by decide
          simp only [List.length_append]
          omega
    · rename_i hnone
      refine ⟨?_, ?_, ?_⟩
      · intro candidate hcandidate
        obtain ⟨placed, hplaced, rfl⟩ := List.mem_map.mp hcandidate
        have hmem := List.mem_map_of_mem (f := Prod.fst) (List.mem_of_mem_filter hplaced)
        rwa [hzip] at hmem
      · rw [List.length_map]
        refine (List.length_filter_le _ _).trans ?_
        rw [List.length_zipIdx]
      · have h1 : (text "higher_precedence_by_").length = 21 := by decide
        have h2 : (text "assignment_id_order_by_").length = 23 := by decide
        split
        · simp only [List.length_append]
          omega
        · simp only [List.length_append]
          omega
  · refine ⟨?_, Nat.zero_le _, Nat.le_add_left_of_le (Nat.le_of_ble_eq_true rfl)⟩
    intro candidate hcandidate
    cases hcandidate

section Deciding

variable {n r : Nat} {limits : Limits} {image : StateImage} (h : Legible n r image)
variable (hroom : Room n r limits) {query : PriorityQuery} (hasked : Asked n query)
variable {scope : PolicyScopeId} (hscope : scope.value.length ≤ n)
variable {decision : PriorityDecision} (hdecision : DecisionWithin limits (n + 30) decision)

include hroom in
theorem length_conflictText_le {candidate : Candidate}
    (hcandidate : CandidateSpelled n r candidate) :
    (conflictText candidate).length ≤ limits.maxDescriptionLength := by
  have htexts := hroom.texts
  have hdescribe := length_describeAssignment_le hcandidate.entry
  have hvia := hcandidate.via.2
  have hsubject := hcandidate.entry.subject.2
  have h1 : (text " (subject '").length = 11 := by decide
  have h2 : (text "')").length = 2 := by decide
  simp only [conflictText, List.length_append]
  split <;> omega

include hroom in
theorem noteWithin_loserNote {candidate : Candidate} {resolution : Bytes}
    (hcandidate : CandidateSpelled n r candidate) (hresolution : resolution.length ≤ n + 30) :
    NoteWithin limits (loserNote resolution candidate) := by
  have htexts := hroom.texts
  have hdescribe := length_describeAssignment_le hcandidate.entry
  refine noteWithin_makeNote hroom hcandidate.entry hcandidate.via.2 (Nat.le_of_ble_eq_true rfl) ?_
  have h1 : (text " lost the deterministic conflict resolution (").length = 45 := by decide
  have h2 : (text ")").length = 1 := by decide
  simp only [List.length_append]
  omega

include hroom hscope in
theorem noteWithin_displacedNote (deciding : Nat) {candidate : Candidate}
    (hcandidate : CandidateSpelled n r candidate) :
    NoteWithin limits (displacedNote scope deciding candidate) := by
  have htexts := hroom.texts
  have hdescribe := length_describeAssignment_le hcandidate.entry
  unfold displacedNote
  split
  · refine noteWithin_makeNote hroom hcandidate.entry hcandidate.via.2
      (Nat.le_of_ble_eq_true rfl) ?_
    have h1 : (text " was displaced because scope '").length = 30 := by decide
    have h2 : (text "' declares itself non-overridable").length = 33 := by decide
    simp only [List.length_append]
    omega
  · refine noteWithin_makeNote hroom hcandidate.entry hcandidate.via.2
      (Nat.le_of_ble_eq_true rfl) ?_
    have h1 : (text " was displaced by narrower evidence in scope '").length = 46 := by decide
    have h2 : (text "'").length = 1 := by decide
    simp only [List.length_append]
    omega

include hroom hscope hdecision in
theorem within_conflictOutcome {verdict : Verdict}
    (hresolution : verdict.resolution.length ≤ n + 30) :
    DecisionWithin limits (n + 30) (conflictOutcome scope verdict decision) := by
  have htexts := hroom.texts
  have h1 : (text "contradictory assignments were found at scope '").length = 47 := by decide
  have h2 : (text "'; the policy resolved them deterministically (").length = 47 := by decide
  have h3 : (text ")").length = 1 := by decide
  have h4 : (text "' and the effective conflict policy denies rather than guessing").length =
      63 := by decide
  unfold conflictOutcome
  cases verdict.winner with
  | none =>
      refine { hdecision with
        reasonCode := Nat.le_of_ble_eq_true rfl
        reason := ?_
        resolution := hresolution }
      simp only [Option.isSome_none, Bool.false_eq_true, if_false, List.length_append]
      omega
  | some winner =>
      refine { hdecision with
        reasonCode := Nat.le_of_ble_eq_true rfl
        reason := ?_
        resolution := hresolution }
      simp only [Option.isSome_some, if_true, List.length_append]
      omega

include hroom hasked hscope hdecision in
theorem within_uniqueOutcome {winner : Candidate} (hwinner : CandidateSpelled n r winner)
    (displaced : List Candidate) :
    DecisionWithin limits (n + 30) (uniqueOutcome query scope winner displaced decision) := by
  have htexts := hroom.texts
  have hnamed := length_assignmentNamed_le hwinner.entry
  have hsubject := hasked.subject.2
  have hresolution : (if displaced.isEmpty then text "unique" else text "narrower_scope").length ≤
      n + 30 := by
    split
    · exact Nat.le_add_left_of_le (Nat.le_of_ble_eq_true rfl)
    · exact Nat.le_add_left_of_le (Nat.le_of_ble_eq_true rfl)
  unfold uniqueOutcome
  simp only
  split
  · refine { hdecision with
      reasonCode := Nat.le_of_ble_eq_true rfl
      reason := ?_
      resolution := hresolution }
    have h1 : (text " in scope '").length = 11 := by decide
    have h2 : (text "' displaces broader evidence in the enclosing scopes").length = 52 := by decide
    simp only [List.length_append]
    omega
  · split
    · refine { hdecision with
        reasonCode := Nat.le_of_ble_eq_true rfl
        reason := ?_
        resolution := hresolution }
      have h1 : (text "subject '").length = 9 := by decide
      have h2 : (text "' holds no assignment of its own; the class comes from ancestor '").length
          = 65 := by decide
      have h3 : (text "' at inheritance distance ").length = 26 := by decide
      have hvia := hwinner.via.2
      have hdistance := length_decimal_le_twenty hwinner.distance
      simp only [List.length_append]
      omega
    · refine { hdecision with
        reasonCode := Nat.le_of_ble_eq_true rfl
        reason := ?_
        resolution := hresolution }
      have h1 : (text " names subject '").length = 16 := by decide
      have h2 : (text "' directly in scope '").length = 21 := by decide
      have h3 : (text "'").length = 1 := by decide
      simp only [List.length_append]
      omega

include h hroom hdecision in
theorem within_nameClass {winner : Candidate} (hwinner : CandidateSpelled n r winner) :
    DecisionWithin limits (n + 30) (nameClass image winner decision) ∧
      ((nameClass image winner decision).authoritative = true →
        Named n (nameClass image winner decision).cls) := by
  have htexts := hroom.texts
  unfold nameClass
  split
  · refine ⟨{ hdecision with
      reasonCode := Nat.le_of_ble_eq_true rfl
      reason := ?_ }, fun hauthoritative => Bool.noConfusion hauthoritative⟩
    have h1 : (text "the winning assignment names a class that is not registered").length = 59 := by
      decide
    simp only
    omega
  · rename_i node hnode
    have hfits := h.bounded.tables.classes.good _ node hnode
    exact ⟨{ hdecision with
      cls := hwinner.entry.cls.2.trans hroom.ids
      precedence := hfits.rank }, fun _ => hwinner.entry.cls⟩

include hroom hdecision in
theorem stepWithin_finalStep {winner : Option Candidate}
    (hwinner : ∀ candidate, winner = some candidate → CandidateSpelled n r candidate)
    (hnamed : winner.isSome = true → decision.authoritative = true → Named n decision.cls) :
    StepWithin limits (finalStep winner decision) := by
  have hplain : StepWithin limits
      { stage := text "decision", code := decision.reasonCode, detail := decision.reason } :=
    stepWithin_plain (Nat.le_of_ble_eq_true rfl) hdecision.reasonCode hdecision.reason
  unfold finalStep
  cases winner with
  | none => exact hplain
  | some winner =>
      simp only
      split
      · rename_i hauthoritative
        have hentry := (hwinner winner rfl).entry
        refine { hplain with
          assignment := ?_
          cls := ?_
          scope := ?_
          provenance := provenanceWithin hroom hentry }
        · rintro id ⟨⟩
          exact hentry.id.readable hroom.ids
        · rintro id ⟨⟩
          exact (hnamed rfl hauthoritative).readable hroom.ids
        · rintro id ⟨⟩
          exact hentry.scope.readable hroom.ids
      · exact hplain

include hroom hdecision in
/-- The superseded evidence and the last step are put into a decision that is settled. -/
theorem within_finished {winner : Option Candidate} {notes : List EvidenceNote}
    {builder : ChainBuilder} (hbuilder : ChainWithin limits builder)
    (hnotes : ∀ note ∈ notes, NoteWithin limits note)
    (hcount : notes.length ≤ maxChainSteps)
    (hwinner : ∀ candidate, winner = some candidate → CandidateSpelled n r candidate)
    (hnamed : winner.isSome = true → decision.authoritative = true → Named n decision.cls) :
    DecisionWithin limits (n + 30) { decision with
      superseded := notes
      chain := (builder.push (finalStep winner { decision with superseded := notes })).steps } := by
  have hsuperseded : DecisionWithin limits (n + 30) { decision with superseded := notes } :=
    { hdecision with supersededLength := hcount, superseded := hnotes }
  have hchain := hbuilder.push hroom (stepWithin_finalStep hroom hsuperseded hwinner hnamed)
  exact { hsuperseded with
    chainLength := hchain.length.trans hchain.limit
    chain := hchain.steps }

include h hroom hasked hdecision in
theorem within_decideAt {scopes : List PolicyScopeId}
    {deciding : Nat} (hlevel : (scopeAt scopes deciding).value.length ≤ n) {first : Candidate}
    {others displaced : List Candidate}
    (hcandidates : ∀ candidate ∈ first :: others, CandidateSpelled n r candidate)
    (hdisplaced : ∀ candidate ∈ displaced, CandidateSpelled n r candidate)
    (hcount : (first :: others).length ≤ 1024) (hfew : displaced.length ≤ 1024)
    {builder : ChainBuilder} (hbuilder : ChainWithin limits builder) :
    DecisionWithin limits (n + 30)
      (decideAt image query scopes deciding first others displaced builder decision) := by
  have hverdict := within_settle h query (scopeAt scopes deciding) first others
  have hwinner : ∀ candidate,
      (settle image query (scopeAt scopes deciding) first others).winner = some candidate →
        CandidateSpelled n r candidate :=
    fun candidate hmem => hcandidates candidate (settle_winner_mem hmem)
  unfold decideAt
  simp only
  generalize settle image query (scopeAt scopes deciding) first others = verdict
    at hverdict hwinner ⊢
  have hconflicts : DecisionWithin limits (n + 30)
      { decision with conflicts := (first :: others).map conflictText } := by
    refine { hdecision with conflictsLength := ?_, conflicts := ?_ }
    · simp only [List.length_map, maxChainSteps]
      omega
    · intro conflict hconflict
      obtain ⟨candidate, hmem, rfl⟩ := List.mem_map.mp hconflict
      exact length_conflictText_le hroom (hcandidates candidate hmem)
  have hconflict := within_conflictOutcome hroom hlevel hconflicts hverdict.resolution
  have hnotes : ∀ note ∈ verdict.losers.map (loserNote verdict.resolution) ++
      displaced.map (displacedNote (scopeAt scopes deciding) deciding),
        NoteWithin limits note := by
    intro note hnote
    rcases List.mem_append.mp hnote with hloser | hother
    · obtain ⟨candidate, hmem, rfl⟩ := List.mem_map.mp hloser
      exact noteWithin_loserNote hroom (hcandidates candidate (hverdict.losers candidate hmem))
        hverdict.resolution
    · obtain ⟨candidate, hmem, rfl⟩ := List.mem_map.mp hother
      exact noteWithin_displacedNote hroom hlevel deciding (hdisplaced candidate hmem)
  have hlength : (verdict.losers.map (loserNote verdict.resolution) ++
      displaced.map (displacedNote (scopeAt scopes deciding) deciding)).length ≤
        maxChainSteps := by
    have hlosers := hverdict.count
    simp only [List.length_append, List.length_map, maxChainSteps]
    omega
  cases hw : verdict.winner with
  | none =>
      refine within_finished hroom ?_ hbuilder hnotes hlength
        (fun candidate hnone => by cases hnone) (fun hnone => by cases hnone)
      cases verdict.conflict with
      | false => exact hconflict
      | true => exact hconflict
  | some winner =>
      have hspelled := hwinner winner hw
      cases verdict.conflict with
      | false =>
          have hunique := within_uniqueOutcome hroom hasked hlevel hdecision hspelled displaced
          obtain ⟨hclass, hnamed⟩ := within_nameClass h hroom hunique hspelled
          exact within_finished hroom hclass hbuilder hnotes hlength
            (fun candidate hsome => Option.some.inj hsome ▸ hspelled) fun _ => hnamed
      | true =>
          obtain ⟨hclass, hnamed⟩ := within_nameClass h hroom hconflict hspelled
          exact within_finished hroom hclass hbuilder hnotes hlength
            (fun candidate hsome => Option.some.inj hsome ▸ hspelled) fun _ => hnamed

end Deciding

/-! ## Every decision -/

theorem within_sealed {limits : Limits} {room : Nat} {decision : PriorityDecision}
    (h : DecisionWithin limits room decision) : DecisionWithin limits room (sealed decision) := by
  unfold sealed
  exact { h with }

theorem within_stopped {limits : Limits} {room : Nat} {decision : PriorityDecision}
    (hbare : decision.cls = {} ∧ decision.precedence = .undeclared ∧ decision.chain = [] ∧
      decision.superseded = [] ∧ decision.rejectedEvidence = [] ∧ decision.conflicts = [])
    (hcode : decision.reasonCode.length ≤ maxCode)
    (hreason : decision.reason.length ≤ limits.maxDescriptionLength)
    (hresolution : decision.resolution.length ≤ room) : DecisionWithin limits room decision := by
  obtain ⟨hcls, hrank, hchain, hsuperseded, hrejected, hconflicts⟩ := hbare
  constructor
  · rw [hcls]
    exact Nat.zero_le _
  · rw [hrank]
    exact rankFits_undeclared
  · rw [hchain]
    exact Nat.zero_le _
  · rw [hchain]
    intro step hstep
    cases hstep
  · rw [hsuperseded]
    exact Nat.zero_le _
  · rw [hsuperseded]
    intro note hnote
    cases hnote
  · rw [hrejected]
    exact Nat.zero_le _
  · rw [hrejected]
    intro note hnote
    cases hnote
  · rw [hconflicts]
    exact Nat.zero_le _
  · rw [hconflicts]
    intro conflict hconflict
    cases hconflict
  · exact hcode
  · exact hreason
  · exact hresolution

theorem within_rejectedDecision {n : Nat} {image : StateImage} {limits : Limits}
    (hwider : Wider image.limits limits) {code : Bytes} (reason : Bytes)
    (hcode : code.length ≤ maxCode) :
    DecisionWithin limits (n + 30) (rejectedDecision image code reason) :=
  within_sealed (within_stopped ⟨rfl, rfl, rfl, rfl, rfl, rfl⟩ hcode
    ((length_boundText_le _ _).trans hwider.descriptions)
    (Nat.le_add_left_of_le (Nat.le_of_ble_eq_true rfl)))

section Evaluating

variable {n r : Nat} {limits : Limits} {image : StateImage} (h : Legible n r image)
variable (hroom : Room n r limits) (hwider : Wider image.limits limits)

include hroom hwider in
theorem within_epochGate {epoch : Option FabricEpoch} {decision : PriorityDecision}
    (hgate : epochGate image epoch = .error decision) :
    DecisionWithin limits (n + 30) decision := by
  have htexts := hroom.texts
  have hsteps := hwider.steps
  unfold epochGate at hgate
  split at hgate
  · cases hgate
  · rename_i epoch
    simp only [except_bind_eq_error, answerIf_eq_error] at hgate
    have h1 : (text "the query was asked against epoch ").length = 34 := by decide
    have h2 : (text " which the fabric has superseded; the current epoch is ").length = 55 := by
      decide
    have hasked := length_decimal_u64 epoch.value
    have hnow := length_decimal_u64 image.epoch.value
    have hreason : (text "the query was asked against epoch " ++ decimal epoch.value.toNat ++
        text " which the fabric has superseded; the current epoch is " ++
        decimal image.epoch.value.toNat).length ≤ limits.maxDescriptionLength := by
      simp only [List.length_append]
      omega
    rcases hgate with ⟨-, rfl⟩ | ⟨_, -, -, rfl⟩
    · exact within_rejectedDecision hwider _ (Nat.le_of_ble_eq_true rfl)
    · refine within_sealed ?_
      have hstale : DecisionWithin limits (n + 30) (staleDecision image (text "epoch_superseded")
          (text "the query was asked against epoch " ++ decimal epoch.value.toNat ++
            text " which the fabric has superseded; the current epoch is " ++
            decimal image.epoch.value.toNat)) :=
        within_stopped ⟨rfl, rfl, rfl, rfl, rfl, rfl⟩ (Nat.le_of_ble_eq_true rfl) hreason
          (Nat.le_of_ble_eq_true rfl)
      refine { hstale with chainLength := ?_, chain := ?_ }
      · simp only [List.length_singleton]
        omega
      · intro step hstep
        obtain rfl := List.mem_singleton.mp hstep
        exact stepWithin_plain (Nat.le_of_ble_eq_true rfl) (Nat.le_of_ble_eq_true rfl) hreason

include h hroom hwider in
theorem within_subjectGate {query : PriorityQuery} {decision : PriorityDecision}
    (hgate : subjectGate image query = .error decision) :
    DecisionWithin limits (n + 30) decision := by
  have htexts := hroom.texts
  unfold subjectGate at hgate
  split at hgate
  · cases hgate
    exact within_rejectedDecision hwider _ (Nat.le_of_ble_eq_true rfl)
  · rename_i entry hentry
    simp only [except_bind_eq_error, answerIf_eq_error, pure, Except.pure, reduceCtorEq,
      and_false, exists_false, or_false] at hgate
    obtain ⟨-, rfl⟩ := hgate
    have hmem : query.subject ∈ image.subjects := (getElem?_eq_some_iff.mp hentry).1
    have hsubject := (h.spelled.subjects _ hmem).2
    refine within_sealed (within_stopped ⟨rfl, rfl, rfl, rfl, rfl, rfl⟩
      (Nat.le_of_ble_eq_true rfl) ?_ (Nat.le_of_ble_eq_true rfl))
    have h1 : (text "the query names subject '").length = 25 := by decide
    have h2 : (text "' generation ").length = 13 := by decide
    have h3 : (text " but the subject is at generation ").length = 34 := by decide
    have hclaimed := length_decimal_u64 query.subjectGeneration.value
    have hnow := length_decimal_u64 entry.definition.generation.value
    simp only [staleDecision, List.length_append]
    omega

include hwider in
theorem within_scopeGate {query : PriorityQuery} {decision : PriorityDecision}
    (hgate : scopeGate image query = .error decision) :
    DecisionWithin limits (n + 30) decision := by
  unfold scopeGate at hgate
  split at hgate
  · cases hgate
    exact within_rejectedDecision hwider _ (Nat.le_of_ble_eq_true rfl)
  · cases hgate

include h in
theorem length_scope_le {query : PriorityQuery} {scopes : List PolicyScopeId}
    (hgate : scopeGate image query = .ok scopes) : query.scope.value.length ≤ n := by
  unfold scopeGate at hgate
  split at hgate
  · cases hgate
  · rename_i found hfound
    exact (h.spelled.scopes _ (mem_of_scopeChain hfound)).2

include h hroom hwider in
theorem within_gates {query : PriorityQuery} {decision : PriorityDecision}
    (hgates : gates image query = .error decision) : DecisionWithin limits (n + 30) decision := by
  have htexts := hroom.texts
  have hpolicy := length_decimal_u64 query.requirePolicyGeneration.value
  have hscope := length_decimal_u64 query.requireScopeGeneration.value
  have hpolicy' := length_decimal_u64 (effectivePolicyGeneration image query.scope).value
  have hscope' := length_decimal_u64 (scopeGenerationOf image query.scope).value
  simp only [gates, except_bind_eq_error, answerIf_eq_error, pure, Except.pure, reduceCtorEq,
    and_false, exists_false, or_false] at hgates
  rcases hgates with ⟨-, rfl⟩ | ⟨_, -, ⟨-, rfl⟩ | ⟨_, -, ⟨-, rfl⟩ | ⟨_, -, hepoch |
    ⟨_, -, hsubject | ⟨_, -, hscopes | ⟨scopes, hchain, ⟨-, rfl⟩ | ⟨_, -, -, rfl⟩⟩⟩⟩⟩⟩⟩
  · exact within_rejectedDecision hwider _ (Nat.le_of_ble_eq_true rfl)
  · exact within_rejectedDecision hwider _ (Nat.le_of_ble_eq_true rfl)
  · exact within_rejectedDecision hwider _ (Nat.le_of_ble_eq_true rfl)
  · exact within_epochGate hroom hwider hepoch
  · exact within_subjectGate h hroom hwider hsubject
  · exact within_scopeGate hwider hscopes
  · have hname := length_scope_le h hchain
    refine within_sealed (within_stopped ⟨rfl, rfl, rfl, rfl, rfl, rfl⟩
      (Nat.le_of_ble_eq_true rfl) ?_ (Nat.le_of_ble_eq_true rfl))
    have h1 : (text "the caller requires policy generation ").length = 38 := by decide
    have h2 : (text " but the effective policy of scope '").length = 36 := by decide
    have h3 : (text "' is at generation ").length = 19 := by decide
    simp only [staleDecision, List.length_append]
    omega
  · have hname := length_scope_le h hchain
    refine within_sealed (within_stopped ⟨rfl, rfl, rfl, rfl, rfl, rfl⟩
      (Nat.le_of_ble_eq_true rfl) ?_ (Nat.le_of_ble_eq_true rfl))
    have h1 : (text "the caller requires scope generation ").length = 37 := by decide
    have h2 : (text " but scope '").length = 12 := by decide
    have h3 : (text "' is at generation ").length = 19 := by decide
    simp only [staleDecision, List.length_append]
    omega

theorem length_scopeAt_le {query : PriorityQuery} {scopes : List PolicyScopeId}
    {candidate : Candidate} (hreaches : Reaches image query scopes candidate)
    (hcandidate : CandidateSpelled n r candidate) :
    (scopeAt scopes candidate.level).value.length ≤ n := by
  obtain ⟨hlt, hscope, -⟩ := List.findIdx?_eq_some_iff_getElem.mp hreaches.level
  have hat : scopeAt scopes candidate.level = candidate.entry.assignment.scope := by
    rw [scopeAt, List.getD_eq_getElem?_getD, List.getElem?_eq_getElem hlt, Option.getD_some]
    simpa using hscope
  rw [hat]
  exact hcandidate.entry.scope.2

include h hroom hwider in
theorem within_answer {query : PriorityQuery}
    {admitted : Admitted} {collected : Evidence} (hpassed : Passed image query admitted)
    (hcollect : collectEvidence image admitted.scopes query.subject = .ok collected) :
    DecisionWithin limits (n + 30) (answer image query admitted collected) := by
  obtain ⟨hmem, hasked⟩ := asked_of_passed h hpassed
  obtain ⟨hquery, -, -⟩ := searchBounds_of_within h.limits
  have hevidence := spelled_filterExceptions (spelled_collectEvidence h hmem hcollect)
  have hbuilder := chainWithin_explainEvidence h hroom hasked hwider admitted hevidence
  have hreaches : ∀ candidate ∈ (filterExceptions collected).accepted,
      Reaches image query admitted.scopes candidate :=
    fun candidate hcandidate =>
      reaches_of_collectEvidence hcollect (mem_of_mem_filterExceptions hcandidate)
  unfold answer
  generalize filterExceptions collected = evidence at hevidence hbuilder hreaches ⊢
  simp only
  have htaken : (evidence.rejected.take image.limits.maxQuerySteps).length ≤ 256 :=
    (List.length_take_le _ _).trans hquery
  have hrefused : ∀ item ∈ evidence.rejected.take image.limits.maxQuerySteps,
      RefusalSpelled n r item :=
    fun item hitem => hevidence.rejected item (List.mem_of_mem_take hitem)
  have hbase : DecisionWithin limits (n + 30)
      { epoch := image.epoch
        stateGeneration := image.generation
        policyGeneration := admitted.policyGeneration
        scopeGeneration := admitted.scopeGeneration
        rejectedEvidence := (evidence.rejected.take image.limits.maxQuerySteps).map fun item =>
          makeNote item.entry item.viaSubject item.code item.detail } := by
    have hbare : DecisionWithin limits (n + 30)
        { epoch := image.epoch
          stateGeneration := image.generation
          policyGeneration := admitted.policyGeneration
          scopeGeneration := admitted.scopeGeneration } :=
      within_stopped ⟨rfl, rfl, rfl, rfl, rfl, rfl⟩ (Nat.zero_le _) (Nat.zero_le _)
        (Nat.zero_le _)
    refine { hbare with rejectedLength := ?_, rejected := ?_ }
    · simp only [List.length_map, maxChainSteps]
      omega
    · intro note hnote
      obtain ⟨item, hitem, rfl⟩ := List.mem_map.mp hnote
      have hspelled := hrefused item hitem
      have hdetail := hspelled.detail
      have htexts := hroom.texts
      have hreasons := hroom.reasons
      refine noteWithin_makeNote hroom hspelled.entry hspelled.via
        (hspelled.code.trans (by norm_num [maxCode])) ?_
      unfold refusalLength at hdetail
      omega
  split
  · have hfallback := within_fallback h hroom hasked hbase hrefused (by omega)
    have hchain := chainWithin_explainFallback hroom hbuilder hfallback fun hauthoritative =>
      named_fallback h rfl hauthoritative
    exact within_sealed { hfallback with
      chainLength := hchain.length.trans hchain.limit
      chain := hchain.steps }
  · rename_i first others hlevel
    have hat : ∀ candidate ∈ first :: others, candidate ∈ evidence.accepted ∧
        candidate.level = decidingLevel image admitted.scopes evidence.accepted := by
      intro candidate hcandidate
      rw [← hlevel] at hcandidate
      exact ⟨List.mem_of_mem_filter hcandidate, by simpa using List.of_mem_filter hcandidate⟩
    obtain ⟨hfirst, hdeciding⟩ := hat first (by simp)
    have hscope := length_scopeAt_le (hreaches first hfirst) (hevidence.accepted first hfirst)
    rw [hdeciding] at hscope
    refine within_sealed (within_decideAt h hroom hasked hbase hscope ?_ ?_ ?_ ?_ hbuilder)
    · exact fun candidate hcandidate => hevidence.accepted candidate (hat candidate hcandidate).1
    · exact fun candidate hcandidate =>
        hevidence.accepted candidate (List.mem_of_mem_filter hcandidate)
    · rw [← hlevel]
      exact (List.length_filter_le _ _).trans (hevidence.count.trans (by norm_num))
    · exact (List.length_filter_le _ _).trans (hevidence.count.trans (by norm_num))

include h hroom hwider in
theorem within_evaluateQuery (query : PriorityQuery) :
    DecisionWithin limits (n + 30) (evaluateQuery image query) := by
  unfold evaluateQuery
  split
  · rename_i decision hgates
    exact within_gates h hroom hwider hgates
  · rename_i admitted hgates
    split
    · exact within_rejectedDecision hwider _ (Nat.le_of_ble_eq_true rfl)
    · rename_i collected hcollect
      exact within_answer h hroom hwider (passed_of_gates hgates) hcollect

end Evaluating

/-! ## Images to ask -/

def bySystem (op : MutationOp) : Mutation where
  op := op
  epoch := ⟨1⟩
  publisher := ⟨[112], wellFormed_p⟩
  boot := ⟨List.Vector.replicate 16 1⟩
  system := true

def someClassNamed (id : PriorityClassId) (rank : UInt32) : Mutation :=
  bySystem (.defineClass { id, precedence := .make rank })

def assignClass (id : PriorityAssignmentId) (cls : PriorityClassId) : Mutation :=
  bySystem (.assign
    { id, subject := ⟨[97], wellFormed_a⟩, subjectGeneration := .first
      scope := ⟨[97], wellFormed_a⟩, scopeGeneration := .first
      cls, classGeneration := .first })

/-- Two assignments of different classes under a policy that denies. -/
def contest (policy : PolicyId) : List Mutation :=
  [bySystem .advanceEpoch, bySystem .grantAuthority,
    someClassNamed ⟨[97], wellFormed_a⟩ 1, someClassNamed ⟨[98], wellFormed_b⟩ 2,
    bySystem (.defineScope { id := ⟨[97], wellFormed_a⟩ }),
    bySystem (.definePolicy
      { id := policy, scope := ⟨[97], wellFormed_a⟩, scopeGeneration := .first
        visibleClasses := [⟨[97], wellFormed_a⟩, ⟨[98], wellFormed_b⟩]
        conflictResolution := some .deny, requirePolicyForAssignment := false }),
    bySystem (.defineSubject { id := ⟨[97], wellFormed_a⟩ }),
    assignClass ⟨[97], wellFormed_a⟩ ⟨[97], wellFormed_a⟩,
    assignClass ⟨[98], wellFormed_b⟩ ⟨[98], wellFormed_b⟩]

def applyAll (image : StateImage) : List Mutation → StateImage
  | [] => image
  | mutation :: rest => applyAll (applyMutation image mutation false).2 rest

def acceptedAll (image : StateImage) : List Mutation → Bool
  | [] => true
  | mutation :: rest =>
      (applyMutation image mutation false).1.isOk &&
        acceptedAll (applyMutation image mutation false).2 rest

theorem built_applyAll {limits : Limits} {image : StateImage} (h : Built limits image)
    {mutations : List Mutation} (haccepted : acceptedAll image mutations = true) :
    Built limits (applyAll image mutations) := by
  induction mutations generalizing image with
  | nil => exact h
  | cons mutation rest ih =>
      rw [acceptedAll, Bool.and_eq_true] at haccepted
      cases happly : applyMutation image mutation false with
      | mk status image' =>
          rw [happly] at haccepted
          cases status with
          | error e => cases haccepted.1
          | ok u =>
              rw [applyAll, happly]
              exact ih (.accepted h happly) haccepted.2

theorem wellFormed_long :
    (List.replicate 48 97 : Bytes) = [] ∨ (idGrammar (List.replicate 48 97) = true ∧
      (List.replicate 48 97 : Bytes).length ≤ 4096) := by decide

def longPolicy : PolicyId := ⟨List.replicate 48 97, wellFormed_long⟩

def contestedQuery : PriorityQuery where
  subject := ⟨[97], wellFormed_a⟩
  scope := ⟨[97], wellFormed_a⟩

end PriorityFabric.Delivered
