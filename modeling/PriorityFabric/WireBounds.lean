import PriorityFabric.Decoded
import PriorityFabric.Delivered

/-!
What the wire lets through.

The decoder bounds the resolution of a conflict by sixty-four bytes, while the evaluator
writes the name of the policy behind it there; it lets through one explanation step where the
evaluator keeps two; and its bound on texts may be below those the evaluator composes.  A
decision comes back as it was made where none of this happens on the path of its query.
-/

namespace PriorityFabric.WireBounds

open PriorityFabric.Lib.LittleEndian
open PriorityFabric.Basics
open PriorityFabric.Ident
open PriorityFabric.Model
open PriorityFabric.Codec
open PriorityFabric.Codec.Decoder (IdReadable)
open PriorityFabric.ModelCodec
open PriorityFabric.State
open PriorityFabric.Evaluate
open PriorityFabric.UsableEvidence
open PriorityFabric.Decisions
open PriorityFabric.DecisionCodec
open PriorityFabric.Bounds
open PriorityFabric.Apply
open PriorityFabric.Registry
open PriorityFabric.Decoded
open PriorityFabric.Measured
open PriorityFabric.Delivered
open PriorityFabric.Lib.ReaderResults

/-! ## What the decoder yields -/

theorem value_of_fromCanonical {tag : IdTag} {canonical : Bytes} {limits : Limits}
    {id : BasicId tag} (h : BasicId.fromCanonical canonical limits = .ok id) :
    id.value = canonical := by
  unfold BasicId.fromCanonical at h
  split at h
  · split at h
    · cases h
    · rename_i hsame
      cases h
      exact not_not.mp hsame
  · cases h

section Yielding

variable {limits : Limits}

theorem yields_id {tag : IdTag} :
    Yields (Decoder.id limits : Decoder (BasicId tag)) (IdReadable limits) := by
  refine Yields.any fun value => ?_
  intro input id rest h
  cases hfound : (BasicId.fromCanonical value limits : Result (BasicId tag)) with
  | error e =>
      rw [hfound] at h
      cases h
  | ok found =>
      rw [hfound] at h
      cases h
      have hvalue := value_of_fromCanonical hfound
      by_contra hreadable
      obtain ⟨e, herror⟩ := (BasicId.fromCanonical_value id limits).2 hreadable
      rw [hvalue, hfound] at herror
      cases herror

theorem yields_optional {α : Type} {dec : Decoder α} {Q : α → Prop} (h : Yields dec Q) :
    Yields (Decoder.optional dec) fun value => ∀ a, value = some a → Q a := by
  refine Yields.any fun present => ?_
  cases present with
  | true =>
      refine Yields.bind h fun a ha => Yields.pure ?_
      rintro b ⟨⟩
      exact ha
  | false =>
      refine Yields.pure ?_
      rintro b ⟨⟩

theorem yields_decodeList {α : Type} {bound : Nat} {tooMany : Nat → Bytes} {item : Decoder α}
    {Q : α → Prop} (h : Yields item Q) :
    Yields (decodeList bound tooMany item) fun items =>
      items.length ≤ bound ∧ ∀ a ∈ items, Q a := by
  refine Yields.any fun count => Yields.bind (Yields.refuseIf _ _) fun _ hcount => ?_
  have hstep : ∀ n (out : List α), (out.length = n ∧ ∀ a ∈ out, Q a) → Yields (do
      let a ← item
      return out ++ [a]) fun out => out.length = n + 1 ∧ ∀ a ∈ out, Q a := by
    rintro n out ⟨hn, hout⟩
    refine Yields.bind h fun a ha => Yields.pure ⟨by simp [hn], fun b hb => ?_⟩
    rcases List.mem_append.mp hb with hold | hlast
    · exact hout b hold
    · obtain rfl := List.mem_singleton.mp hlast
      exact ha
  intro input items rest hread
  obtain ⟨hlength, hitems⟩ := Yields.fold hstep count 0 [] ⟨rfl, by simp⟩ input items rest hread
  refine ⟨?_, hitems⟩
  rw [hlength, Nat.zero_add]
  simpa using hcount

theorem yields_wholeProvenance :
    Yields (decodeWholeProvenance limits) (ProvenanceWithin limits) := by
  have hread : Yields (decodeProvenance limits) (ProvenanceWithin limits) :=
    Yields.bind (yields_optional yields_id) fun publisher hpublisher =>
    Yields.any fun _ => Yields.any fun _ => Yields.any fun _ => Yields.any fun _ =>
    Yields.any fun _ => Yields.any fun _ =>
    Yields.bind (yields_str _) fun _ hop => Yields.pure ⟨by
      cases publisher with
      | none => exact Nat.zero_le _
      | some id => exact (hpublisher id rfl).2, hop⟩
  exact yields_blob fun _ _ hrun => of_run hread hrun

theorem yields_explanationStep :
    Yields (decodeExplanationStep limits) (StepWithin limits) :=
  Yields.bind (yields_str _) fun _ hstage => Yields.bind (yields_str _) fun _ hcode =>
    Yields.bind (yields_str _) fun _ hdetail =>
    Yields.bind (yields_optional yields_id) fun _ hassignment => Yields.any fun _ =>
    Yields.bind (yields_optional yields_id) fun _ hcls => Yields.any fun _ =>
    Yields.bind (yields_optional yields_id) fun _ hscope =>
    Yields.bind (yields_optional yields_id) fun _ hpolicy =>
    Yields.bind yields_wholeProvenance fun _ hprovenance =>
    Yields.pure ⟨hstage, hcode, hdetail, hassignment, hcls, hscope, hpolicy, hprovenance⟩

theorem yields_evidenceNote : Yields (decodeEvidenceNote limits) (NoteWithin limits) :=
  Yields.bind yields_id fun _ hassignment => Yields.any fun _ =>
    Yields.bind yields_id fun _ hcls => Yields.any fun _ =>
    Yields.bind yields_id fun _ hscope =>
    Yields.bind (yields_optional yields_id) fun _ hvia =>
    Yields.bind (yields_str _) fun _ hcode => Yields.bind (yields_str _) fun _ hreason =>
    Yields.bind yields_wholeProvenance fun _ hprovenance =>
    Yields.pure ⟨hassignment, hcls, hscope, hvia, hcode, hreason, hprovenance⟩

theorem yields_readDecision (limits : Limits) :
    Yields (readDecision limits) (DecisionWithin limits maxCode) :=
  Yields.any fun _ => Yields.any fun _ =>
    Yields.bind (yields_optional yields_id) fun cls hcls => Yields.any fun _ =>
    Yields.bind yields_decodePrecedence fun _ hprecedence =>
    Yields.bind (yields_decodeList yields_explanationStep) fun _ hchain =>
    Yields.bind (yields_decodeList yields_evidenceNote) fun _ hsuperseded =>
    Yields.bind (yields_decodeList yields_evidenceNote) fun _ hrejected =>
    Yields.bind (yields_decodeList (yields_str _)) fun _ hconflicts =>
    Yields.bind (yields_str _) fun _ hcode => Yields.bind (yields_str _) fun _ hreason =>
    Yields.bind (yields_str _) fun _ hresolution =>
    Yields.any fun _ => Yields.any fun _ => Yields.any fun _ => Yields.any fun _ =>
    Yields.any fun _ => Yields.any fun _ => Yields.pure
      { cls := by
          cases cls with
          | none => exact Nat.zero_le _
          | some id => exact (hcls id rfl).2
        precedence := hprecedence
        chainLength := hchain.1
        chain := hchain.2
        supersededLength := hsuperseded.1
        superseded := hsuperseded.2
        rejectedLength := hrejected.1
        rejected := hrejected.2
        conflictsLength := hconflicts.1
        conflicts := hconflicts.2
        reasonCode := hcode
        reason := hreason
        resolution := hresolution }

end Yielding

theorem decodeDecision_iff {limits : Limits}
    (hlimits : limitsWithinCompiledCeiling limits = true) {decision : PriorityDecision} :
    decodeDecision (encodeDecision decision) limits = .ok decision ↔
      DecisionWithin limits maxCode decision :=
  ⟨fun hdecode => of_run (yields_readDecision limits) hdecode,
    fun hwithin => decodeDecision_encodeDecision hlimits hwithin⟩

/-! ## What the evaluator writes -/

/-- What a gate answers: no evidence, and one step at most. -/
structure Bare (decision : PriorityDecision) : Prop where
  cls : decision.cls = {}
  precedence : decision.precedence = .undeclared
  chain : decision.chain = [] ∨ decision.chain =
    [{ stage := text "query", code := text "epoch_superseded", detail := decision.reason }]
  superseded : decision.superseded = []
  rejected : decision.rejectedEvidence = []
  conflicts : decision.conflicts = []
  reasonCode : decision.reasonCode.length ≤ maxCode
  resolution : decision.resolution.length ≤ maxCode

theorem bare_rejected (image : StateImage) {code : Bytes} (reason : Bytes)
    (hcode : code.length ≤ maxCode) : Bare (rejectedDecision image code reason) :=
  ⟨rfl, rfl, .inl rfl, rfl, rfl, rfl, hcode, Nat.le_of_ble_eq_true rfl⟩

theorem bare_of_gates {image : StateImage} {query : PriorityQuery} {decision : PriorityDecision}
    (hgates : gates image query = .error decision) : Bare decision := by
  have hnone : (text "none").length ≤ maxCode := Nat.le_of_ble_eq_true rfl
  simp only [gates, except_bind_eq_error, answerIf_eq_error, pure, Except.pure, reduceCtorEq,
    and_false, exists_false, or_false] at hgates
  rcases hgates with ⟨-, rfl⟩ | ⟨_, -, ⟨-, rfl⟩ | ⟨_, -, ⟨-, rfl⟩ | ⟨_, -, hepoch |
    ⟨_, -, hsubject | ⟨_, -, hscopes | ⟨scopes, hchain, ⟨-, rfl⟩ | ⟨_, -, -, rfl⟩⟩⟩⟩⟩⟩⟩
  · exact bare_rejected image _ (Nat.le_of_ble_eq_true rfl)
  · exact bare_rejected image _ (Nat.le_of_ble_eq_true rfl)
  · exact bare_rejected image _ (Nat.le_of_ble_eq_true rfl)
  · unfold epochGate at hepoch
    split at hepoch
    · cases hepoch
    · simp only [except_bind_eq_error, answerIf_eq_error] at hepoch
      rcases hepoch with ⟨-, rfl⟩ | ⟨_, -, -, rfl⟩
      · exact bare_rejected image _ (Nat.le_of_ble_eq_true rfl)
      · exact ⟨rfl, rfl, .inr rfl, rfl, rfl, rfl, Nat.le_of_ble_eq_true rfl, hnone⟩
  · unfold subjectGate at hsubject
    split at hsubject
    · cases hsubject
      exact bare_rejected image _ (Nat.le_of_ble_eq_true rfl)
    · simp only [except_bind_eq_error, answerIf_eq_error, pure, Except.pure, reduceCtorEq,
        and_false, exists_false, or_false] at hsubject
      obtain ⟨-, rfl⟩ := hsubject
      exact ⟨rfl, rfl, .inl rfl, rfl, rfl, rfl, Nat.le_of_ble_eq_true rfl, hnone⟩
  · unfold scopeGate at hscopes
    split at hscopes
    · cases hscopes
      exact bare_rejected image _ (Nat.le_of_ble_eq_true rfl)
    · cases hscopes
  · exact ⟨rfl, rfl, .inl rfl, rfl, rfl, rfl, Nat.le_of_ble_eq_true rfl, hnone⟩
  · exact ⟨rfl, rfl, .inl rfl, rfl, rfl, rfl, Nat.le_of_ble_eq_true rfl, hnone⟩

/-- What a gate answers is within the bounds when its reason is, and its step where it has
one. -/
theorem Bare.within_iff {limits : Limits} {decision : PriorityDecision} (h : Bare decision) :
    DecisionWithin limits maxCode decision ↔
      decision.reason.length ≤ limits.maxDescriptionLength ∧
        decision.chain.length ≤ limits.maxExplanationSteps := by
  constructor
  · exact fun hwithin => ⟨hwithin.reason, hwithin.chainLength⟩
  · rintro ⟨hreason, hlength⟩
    have hchain : ∀ step ∈ decision.chain, StepWithin limits step := by
      intro step hstep
      rcases h.chain with hnone | hone
      · rw [hnone] at hstep
        cases hstep
      · rw [hone] at hstep
        obtain rfl := List.mem_singleton.mp hstep
        exact stepWithin_plain (Nat.le_of_ble_eq_true rfl) (Nat.le_of_ble_eq_true rfl) hreason
    exact
      { cls := by
          rw [h.cls]
          exact Nat.zero_le _
        precedence := by
          rw [h.precedence]
          exact rankFits_undeclared
        chainLength := hlength
        chain := hchain
        supersededLength := by
          rw [h.superseded]
          exact Nat.zero_le _
        superseded := by simp [h.superseded]
        rejectedLength := by
          rw [h.rejected]
          exact Nat.zero_le _
        rejected := by simp [h.rejected]
        conflictsLength := by
          rw [h.conflicts]
          exact Nat.zero_le _
        conflicts := by simp [h.conflicts]
        reasonCode := h.reasonCode
        reason := hreason
        resolution := h.resolution }

/-- A chain that has begun; cut, it has a second step. -/
structure Begun (builder : ChainBuilder) : Prop where
  steps : 1 ≤ builder.steps.length
  cut : builder.truncated = true → 2 ≤ builder.steps.length

theorem Begun.push {builder : ChainBuilder} (h : Begun builder) (step : ExplanationStep) :
    Begun (builder.push step) ∧ 2 ≤ (builder.push step).steps.length := by
  have hsteps := h.steps
  unfold ChainBuilder.push
  split
  · split
    · rename_i hcut
      exact ⟨h, h.cut hcut⟩
    · simp only [List.length_append, List.length_singleton]
      exact ⟨⟨by simp, fun _ => by simp; omega⟩, by omega⟩
  · simp only [List.length_append, List.length_singleton]
    exact ⟨⟨by simp, fun _ => by simp; omega⟩, by omega⟩

theorem Begun.foldl {α : Type} {f : α → ExplanationStep} {items : List α}
    {builder : ChainBuilder} (h : Begun builder) :
    Begun (items.foldl (fun builder item => builder.push (f item)) builder) := by
  induction items generalizing builder with
  | nil => exact h
  | cons item items ih => exact ih (h.push (f item)).1

theorem begun_explainEvidence (image : StateImage) (query : PriorityQuery) (admitted : Admitted)
    (evidence : Evidence) : Begun (explainEvidence image query admitted evidence) := by
  have hbudget : ¬ stepBudget image query ≤ 1 := by
    unfold stepBudget
    omega
  have hfirst : Begun (ChainBuilder.push { limit := stepBudget image query }
      (queryStep image query admitted)) := by
    have hpush : ChainBuilder.push { limit := stepBudget image query }
        (queryStep image query admitted) =
          { limit := stepBudget image query, steps := [queryStep image query admitted] } := by
      simp [ChainBuilder.push, hbudget]
    rw [hpush]
    exact ⟨Nat.le_refl _, fun hcut => Bool.noConfusion hcut⟩
  exact hfirst.foldl.foldl

/-- What the policy's settlement of a contradiction is called. -/
def resolutionText (mode : ConflictMode) : Bytes :=
  (match mode.mode with
  | .deny => text "denied_by_"
  | .higherPrecedence => text "higher_precedence_by_"
  | .assignmentIdOrder => text "assignment_id_order_by_") ++ mode.source

theorem length_resolutionText_le (mode : ConflictMode) :
    (resolutionText mode).length ≤ 23 + mode.source.length := by
  have h1 : (text "denied_by_").length = 10 := by decide
  have h2 : (text "higher_precedence_by_").length = 21 := by decide
  have h3 : (text "assignment_id_order_by_").length = 23 := by decide
  unfold resolutionText
  rw [List.length_append]
  split <;> omega

/-- The evidence that decides names different classes, and the caller leaves it to the policy
of the scope. -/
def PolicyResolves (image : StateImage) (query : PriorityQuery) (admitted : Admitted)
    (collected : Evidence) : Prop :=
  ¬ query.strictConflicts ∧ ∃ first others,
    (filterExceptions collected).accepted.filter (·.level =
      decidingLevel image admitted.scopes (filterExceptions collected).accepted) =
        first :: others ∧
      others.any (·.entry.assignment.cls ≠ first.entry.assignment.cls) = true

/-- The policy that has the last word where the query is decided. -/
def resolver (image : StateImage) (admitted : Admitted) (collected : Evidence) : ConflictMode :=
  effectiveConflictMode image (scopeAt admitted.scopes
    (decidingLevel image admitted.scopes (filterExceptions collected).accepted))

theorem resolution_settle (image : StateImage) (query : PriorityQuery) (scope : PolicyScopeId)
    (first : Candidate) (others : List Candidate) :
    if ¬ query.strictConflicts ∧
        others.any (·.entry.assignment.cls ≠ first.entry.assignment.cls) = true then
      (settle image query scope first others).resolution =
          resolutionText (effectiveConflictMode image scope) ∧
        (settle image query scope first others).conflict = true
    else (settle image query scope first others).resolution.length ≤ maxCode := by
  unfold settle
  by_cases hany : others.any (·.entry.assignment.cls ≠ first.entry.assignment.cls) = true
  · rw [if_pos hany]
    by_cases hstrict : query.strictConflicts = true
    · rw [if_neg (fun h => h.1 hstrict)]
      simp only [settleConflict, hstrict, true_or, if_true]
      exact Nat.le_of_ble_eq_true rfl
    · rw [if_pos ⟨hstrict, hany⟩]
      unfold settleConflict resolutionText
      cases hmode : (effectiveConflictMode image scope).mode <;>
        simp [hstrict, hmode]
  · rw [if_neg hany, if_neg (fun h => hany h.2)]
    exact Nat.le_of_ble_eq_true rfl

theorem resolution_nameClass (image : StateImage) (winner : Candidate)
    (decision : PriorityDecision) :
    (nameClass image winner decision).resolution = decision.resolution := by
  unfold nameClass
  split <;> rfl

theorem resolution_uniqueOutcome (query : PriorityQuery) (scope : PolicyScopeId)
    (winner : Candidate) (displaced : List Candidate) (decision : PriorityDecision) :
    (uniqueOutcome query scope winner displaced decision).resolution.length ≤ maxCode := by
  have hresolution : (uniqueOutcome query scope winner displaced decision).resolution =
      if displaced.isEmpty then text "unique" else text "narrower_scope" := by
    unfold uniqueOutcome
    simp only
    split
    · rfl
    · split <;> rfl
  rw [hresolution]
  split
  · exact Nat.le_of_ble_eq_true rfl
  · exact Nat.le_of_ble_eq_true rfl

theorem resolution_fallbackDecision (image : StateImage) (query : PriorityQuery)
    (rejected : List RejectedEvidence) (decision : PriorityDecision) :
    (fallbackDecision image query rejected decision).resolution.length ≤ maxCode := by
  unfold fallbackDecision
  simp only
  split
  · exact Nat.le_of_ble_eq_true rfl
  · split
    · exact Nat.le_of_ble_eq_true rfl
    · split
      · exact Nat.le_of_ble_eq_true rfl
      · exact Nat.le_of_ble_eq_true rfl

/-- A decision from evidence is named by its verdict, or it has no contradiction. -/
theorem resolution_decideAt (image : StateImage) (query : PriorityQuery)
    (scopes : List PolicyScopeId) (deciding : Nat) (first : Candidate)
    (others displaced : List Candidate) (builder : ChainBuilder) (decision : PriorityDecision) :
    (decideAt image query scopes deciding first others displaced builder decision).resolution =
        (settle image query (scopeAt scopes deciding) first others).resolution ∨
      (settle image query (scopeAt scopes deciding) first others).conflict = false ∧
        (decideAt image query scopes deciding first others displaced builder
          decision).resolution.length ≤ maxCode := by
  unfold decideAt
  simp only
  generalize settle image query (scopeAt scopes deciding) first others = verdict
  cases hwinner : verdict.winner with
  | none =>
      refine .inl ?_
      cases verdict.conflict <;> rfl
  | some winner =>
      cases hconflict : verdict.conflict with
      | true =>
          refine .inl ?_
          simp only [resolution_nameClass]
          rfl
      | false =>
          refine .inr ⟨rfl, ?_⟩
          simp only [resolution_nameClass]
          exact resolution_uniqueOutcome _ _ _ _ _

theorem resolution_answer (image : StateImage) (query : PriorityQuery) (admitted : Admitted)
    (collected : Evidence) :
    PolicyResolves image query admitted collected ∧
        (answer image query admitted collected).resolution =
          resolutionText (resolver image admitted collected) ∨
      ¬ PolicyResolves image query admitted collected ∧
        (answer image query admitted collected).resolution.length ≤ maxCode := by
  unfold answer PolicyResolves resolver
  simp only
  cases hlevel : (filterExceptions collected).accepted.filter (·.level =
      decidingLevel image admitted.scopes (filterExceptions collected).accepted) with
  | nil =>
      refine .inr ⟨?_, resolution_fallbackDecision _ _ _ _⟩
      rintro ⟨-, first, others, hcons, -⟩
      cases hcons
  | cons first others =>
      have hverdict := resolution_settle image query (scopeAt admitted.scopes
        (decidingLevel image admitted.scopes (filterExceptions collected).accepted)) first others
      have hdecided := resolution_decideAt image query admitted.scopes
        (decidingLevel image admitted.scopes (filterExceptions collected).accepted) first others
      simp only [sealed]
      split at hverdict
      · rename_i hresolves
        refine .inl ⟨⟨hresolves.1, first, others, rfl, hresolves.2⟩, ?_⟩
        rcases hdecided _ _ _ with hsame | ⟨hnone, -⟩
        · rw [hsame]
          exact hverdict.1
        · rw [hverdict.2] at hnone
          cases hnone
      · rename_i hresolves
        refine .inr ⟨?_, ?_⟩
        · rintro ⟨hstrict, first', others', hcons, hany⟩
          cases hcons
          exact hresolves ⟨hstrict, hany⟩
        · rcases hdecided _ _ _ with hsame | ⟨-, hlength⟩
          · rw [hsame]
            exact hverdict
          · exact hlength

/-! ## On the path of the query -/

/-- The identifiers and texts of an answer are within the bounds on each of them. -/
structure TextsWithin (limits : Limits) (decision : PriorityDecision) : Prop where
  cls : decision.cls.value.length ≤ limits.maxIdLength
  chain : ∀ step ∈ decision.chain, StepWithin limits step
  superseded : ∀ note ∈ decision.superseded, NoteWithin limits note
  rejected : ∀ note ∈ decision.rejectedEvidence, NoteWithin limits note
  conflicts : ∀ conflict ∈ decision.conflicts, conflict.length ≤ limits.maxDescriptionLength
  reason : decision.reason.length ≤ limits.maxDescriptionLength

/-- The path of the query has room in the decoder's bounds: at a gate the reason, and its step
where there is one; past the gates two steps, the name of the policy that resolves the
contradiction if there is one, and the texts about the evidence. -/
structure HasRoom (limits : Limits) (image : StateImage) (query : PriorityQuery) : Prop where
  refused : ∀ refusal, gates image query = .error refusal →
    refusal.reason.length ≤ limits.maxDescriptionLength ∧
      refusal.chain.length ≤ limits.maxExplanationSteps
  steps : ∀ admitted collected, gates image query = .ok admitted →
    collectEvidence image admitted.scopes query.subject = .ok collected →
    2 ≤ limits.maxExplanationSteps
  resolution : ∀ admitted collected, gates image query = .ok admitted →
    collectEvidence image admitted.scopes query.subject = .ok collected →
    PolicyResolves image query admitted collected →
    (resolutionText (resolver image admitted collected)).length ≤ maxCode
  texts : ∀ admitted collected, gates image query = .ok admitted →
    collectEvidence image admitted.scopes query.subject = .ok collected →
    TextsWithin limits (answer image query admitted collected)

theorem two_le_chain_answer (image : StateImage) (query : PriorityQuery) (admitted : Admitted)
    (collected : Evidence) : 2 ≤ (answer image query admitted collected).chain.length := by
  have hbegun := begun_explainEvidence image query admitted (filterExceptions collected)
  unfold answer
  simp only
  split
  · simp only [sealed, explainFallback]
    split
    · exact ((hbegun.push _).1.push _).2
    · exact (hbegun.push _).2
  · exact (hbegun.push _).2

theorem exists_short (image : StateImage) : ∃ n r, Short n r image := by
  have hkeys {tag : IdTag} {V : Type} (table : Std.ExtTreeMap (BasicId tag) V) :
      ∃ m, ∀ id : BasicId tag, id ∈ table → id.value.length ≤ m :=
    ⟨(table.keys.map (·.value.length)).sum, fun id hid =>
      List.single_le_sum (fun _ _ => Nat.zero_le _) _
        (List.mem_map_of_mem (Std.ExtTreeMap.mem_keys.mpr hid))⟩
  have hentries (f : AssignmentEntry → Nat) : ∃ m, ∀ (id : PriorityAssignmentId) entry,
      image.assignments[id]? = some entry → f entry ≤ m :=
    ⟨(image.assignments.toList.map fun found => f found.2).sum, fun id entry hentry =>
      List.single_le_sum (fun _ _ => Nat.zero_le _) _ (List.mem_map_of_mem
        (f := fun found : PriorityAssignmentId × AssignmentEntry => f found.2)
        (Std.ExtTreeMap.mem_toList_iff_getElem?_eq_some.mpr hentry))⟩
  obtain ⟨classes, hclasses⟩ := hkeys image.classes
  obtain ⟨scopes, hscopes⟩ := hkeys image.scopes
  obtain ⟨policies, hpolicies⟩ := hkeys image.policies
  obtain ⟨subjects, hsubjects⟩ := hkeys image.subjects
  obtain ⟨assignments, hassignments⟩ := hkeys image.assignments
  obtain ⟨publishers, hpublishers⟩ := hentries (·.provenance.publisher.value.length)
  obtain ⟨reasons, hreasons⟩ := hentries (·.retirementReason.length)
  exact ⟨classes + scopes + policies + subjects + assignments + publishers, reasons,
    { classes := fun id hid => (hclasses id hid).trans (by omega)
      scopes := fun id hid => (hscopes id hid).trans (by omega)
      policies := fun id hid => (hpolicies id hid).trans (by omega)
      subjects := fun id hid => (hsubjects id hid).trans (by omega)
      assignments := fun id hid => (hassignments id hid).trans (by omega)
      publishers := fun id entry hentry => (hpublishers id entry hentry).trans (by omega)
      reasons := hreasons }⟩

/-- Limits with room for every text over identifiers and reasons of these lengths. -/
def widened (n r : Nat) (limits : Limits) : Limits :=
  { limits with
    maxIdLength := n
    maxExplanationSteps := max 2 limits.maxExplanationSteps
    maxDescriptionLength := limits.maxDescriptionLength + (2 * n + r + 70) + (4 * n + 200) }

theorem room_widened (n r : Nat) (limits : Limits) : Room n r (widened n r limits) where
  ids := Nat.le_refl n
  reasons := by
    change _ ≤ limits.maxDescriptionLength + (2 * n + r + 70) + (4 * n + 200)
    omega
  texts := by
    change _ ≤ limits.maxDescriptionLength + (2 * n + r + 70) + (4 * n + 200)
    omega

theorem wider_widened (n r : Nat) (limits : Limits) : Wider limits (widened n r limits) where
  steps := Nat.le_refl _
  descriptions := by
    change _ ≤ limits.maxDescriptionLength + (2 * n + r + 70) + (4 * n + 200)
    omega

section Deciding

variable {limits : Limits} (hlimits : limitsWithinCompiledCeiling limits = true)
variable {image : StateImage} (hbuilt : Built limits image)
include hlimits hbuilt

theorem legible_of_built {n r : Nat} (hnames : Short n r image) : Legible n r image :=
  ⟨hbuilt.registered, hbuilt.bounded, spelled_of_short (keysSet_of_built hbuilt) hnames,
    hbuilt.limits_eq ▸ hlimits⟩

/-- An answer is within the bounds exactly when its steps, its resolution and its texts are. -/
theorem within_answer_iff {query : PriorityQuery} {admitted : Admitted} {collected : Evidence}
    (hpassed : Passed image query admitted)
    (hcollect : collectEvidence image admitted.scopes query.subject = .ok collected) :
    DecisionWithin limits maxCode (answer image query admitted collected) ↔
      2 ≤ limits.maxExplanationSteps ∧
        (PolicyResolves image query admitted collected →
          (resolutionText (resolver image admitted collected)).length ≤ maxCode) ∧
        TextsWithin limits (answer image query admitted collected) := by
  have hresolution := resolution_answer image query admitted collected
  constructor
  · intro hwithin
    refine ⟨(two_le_chain_answer image query admitted collected).trans hwithin.chainLength,
      fun hresolves => ?_, { hwithin with }⟩
    rcases hresolution with ⟨-, hsame⟩ | ⟨hnot, -⟩
    · rw [← hsame]
      exact hwithin.resolution
    · exact absurd hresolves hnot
  · rintro ⟨hsteps, hresolves, htexts⟩
    -- With limits that leave room for everything, what has no text is within its bounds.
    obtain ⟨n, r, hnames⟩ := exists_short image
    have hwide := within_answer (legible_of_built hlimits hbuilt hnames) (room_widened n r limits)
      (hbuilt.limits_eq ▸ wider_widened n r limits) hpassed hcollect
    have hlength : (answer image query admitted collected).chain.length ≤
        max 2 limits.maxExplanationSteps := hwide.chainLength
    refine { hwide with
      cls := htexts.cls
      chainLength := by omega
      chain := htexts.chain
      superseded := htexts.superseded
      rejected := htexts.rejected
      conflicts := htexts.conflicts
      reason := htexts.reason
      resolution := ?_ }
    rcases hresolution with ⟨hcontested, hsame⟩ | ⟨-, hshort⟩
    · rw [hsame]
      exact hresolves hcontested
    · exact hshort

theorem within_evaluateQuery_iff (query : PriorityQuery) :
    DecisionWithin limits maxCode (evaluateQuery image query) ↔ HasRoom limits image query := by
  unfold evaluateQuery
  cases hgates : gates image query with
  | error refusal =>
      simp only
      rw [(bare_of_gates hgates).within_iff]
      constructor
      · intro hroom
        refine ⟨fun found hfound => ?_, ?_, ?_, ?_⟩
        · cases hgates.symm.trans hfound
          exact hroom
        all_goals
          intro admitted collected hpassed
          cases hgates.symm.trans hpassed
      · exact fun hroom => hroom.refused refusal hgates
  | ok admitted =>
      simp only
      cases hcollect : collectEvidence image admitted.scopes query.subject with
      | error e =>
          simp only
          refine iff_of_true ?_ ⟨?_, ?_, ?_, ?_⟩
          · refine (bare_rejected image _ (Nat.le_of_ble_eq_true rfl)).within_iff.mpr
              ⟨?_, Nat.zero_le _⟩
            have hbound := length_boundText_le e.message image.limits.maxDescriptionLength
            rw [← hbuilt.limits_eq]
            exact hbound
          · intro refusal hrefused
            cases hgates.symm.trans hrefused
          all_goals
            intro found collected hfound hevidence
            cases hgates.symm.trans hfound
            cases hcollect.symm.trans hevidence
      | ok collected =>
          simp only
          rw [within_answer_iff hlimits hbuilt (passed_of_gates hgates) hcollect]
          constructor
          · rintro ⟨hsteps, hresolves, htexts⟩
            refine ⟨?_, fun _ _ _ _ => hsteps, ?_, ?_⟩
            · intro refusal hrefused
              cases hgates.symm.trans hrefused
            all_goals
              intro found evidence hfound hevidence
              cases hgates.symm.trans hfound
              cases hcollect.symm.trans hevidence
            · exact hresolves
            · exact htexts
          · exact fun hroom => ⟨hroom.steps _ _ hgates hcollect,
              hroom.resolution _ _ hgates hcollect, hroom.texts _ _ hgates hcollect⟩

end Deciding

def shortKeys {tag : IdTag} {V : Type} (n : Nat) (table : Std.ExtTreeMap (BasicId tag) V) : Bool :=
  table.keys.all fun id => decide (id.value.length ≤ n)

theorem length_of_shortKeys {tag : IdTag} {V : Type} {n : Nat}
    {table : Std.ExtTreeMap (BasicId tag) V} (h : shortKeys n table = true) (id : BasicId tag)
    (hid : id ∈ table) : id.value.length ≤ n := by
  have hkey := List.all_eq_true.mp h id (Std.ExtTreeMap.mem_keys.mpr hid)
  rwa [decide_eq_true_eq] at hkey

def shortBy (n r : Nat) (image : StateImage) : Bool :=
  shortKeys n image.classes && shortKeys n image.scopes && shortKeys n image.policies &&
    shortKeys n image.subjects && shortKeys n image.assignments &&
    image.assignments.toList.all fun entry =>
      decide (entry.2.provenance.publisher.value.length ≤ n) &&
        decide (entry.2.retirementReason.length ≤ r)

theorem short_of_shortBy {n r : Nat} {image : StateImage} (h : shortBy n r image = true) :
    Short n r image := by
  simp only [shortBy, Bool.and_eq_true] at h
  obtain ⟨⟨⟨⟨⟨hclasses, hscopes⟩, hpolicies⟩, hsubjects⟩, hassignments⟩, hentries⟩ := h
  have hentry : ∀ (id : PriorityAssignmentId) entry, image.assignments[id]? = some entry →
      entry.provenance.publisher.value.length ≤ n ∧ entry.retirementReason.length ≤ r := by
    intro id entry hentry
    have hmem := Std.ExtTreeMap.mem_toList_iff_getElem?_eq_some.mpr hentry
    simpa using List.all_eq_true.mp hentries _ hmem
  exact
    { classes := length_of_shortKeys hclasses
      scopes := length_of_shortKeys hscopes
      policies := length_of_shortKeys hpolicies
      subjects := length_of_shortKeys hsubjects
      assignments := length_of_shortKeys hassignments
      publishers := fun id entry hid => (hentry id entry hid).1
      reasons := fun id entry hid => (hentry id entry hid).2 }

end PriorityFabric.WireBounds
