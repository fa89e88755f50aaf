import PriorityFabric.Authority
import PriorityFabric.Delivered
import PriorityFabric.Planning

/-!
Policies and the scope generations they are bound to.

A policy is stamped with the generation of its scope when it is published.  Two paths leave
an old stamp behind: a scope that is redefined under its policies, and a policy that is
published again with the same content, whose stored definition stays as it was.  The
lookups of the evaluator do not look at the stamp.
-/

namespace PriorityFabric.PolicyBinding

open PriorityFabric.Lib.LittleEndian
open PriorityFabric.Basics
open PriorityFabric.Ident
open PriorityFabric.Model
open PriorityFabric.State
open PriorityFabric.Validate
open PriorityFabric.Apply
open PriorityFabric.Evaluate
open PriorityFabric.Decisions
open PriorityFabric.Store
open PriorityFabric.Runtime
open PriorityFabric.Runtime.FabricRuntime
open PriorityFabric.ApplyFacts
open PriorityFabric.CommitRuns
open PriorityFabric.Calls
open PriorityFabric.Lifetimes
open PriorityFabric.Authority
open PriorityFabric.Serving
open PriorityFabric.Planning
open PriorityFabric.Registry
open PriorityFabric.Delivered

/-- The stored policy is bound to the generation its scope has now. -/
def BoundNow (image : StateImage) (id : PolicyId) : Prop :=
  ∃ policy scope, image.policies[id]? = some policy ∧
    image.scopes[policy.definition.scope]? = some scope ∧
    policy.definition.scopeGeneration = scope.definition.generation

def boundNow (image : StateImage) (id : PolicyId) : Bool :=
  match image.policies[id]? with
  | none => false
  | some policy => (image.scopes[policy.definition.scope]?).any fun scope =>
      policy.definition.scopeGeneration = scope.definition.generation

theorem boundNow_eq_true_iff {image : StateImage} {id : PolicyId} :
    boundNow image id = true ↔ BoundNow image id := by
  unfold boundNow BoundNow
  cases hpolicy : image.policies[id]? with
  | none => simp
  | some policy => simp [Option.any_eq_true]

theorem BoundNow.congr {a b : StateImage} {id : PolicyId} (hpolicies : a.policies = b.policies)
    (hscopes : a.scopes = b.scopes) : BoundNow a id ↔ BoundNow b id := by
  unfold BoundNow
  rw [hpolicies, hscopes]

/-! ## Publishing a policy -/

/-- The definition repeats the content of a stored policy whose scope has moved on. -/
def RepeatsStale (image : StateImage) (d : PolicyDef) : Prop :=
  ∃ old scope, image.policies[d.id]? = some old ∧ samePolicyContent old.definition d = true ∧
    image.scopes[d.scope]? = some scope ∧
    old.definition.scopeGeneration ≠ scope.definition.generation

section Publishing

variable {image : StateImage} {d : PolicyDef} {scope : ScopeEntry}

theorem scope_of_samePolicyContent {a b : PolicyDef} (h : samePolicyContent a b = true) :
    a.scope = b.scope := by
  simp only [samePolicyContent, Bool.and_eq_true, decide_eq_true_eq] at h
  exact h.1.1.1.1.1.2

theorem boundNow_kept_iff {a : StateImage} {old : PolicyEntry}
    (hold : image.policies[d.id]? = some old)
    (hsame : samePolicyContent old.definition d = true)
    (hscope : image.scopes[d.scope]? = some scope) (hscopes : a.scopes = image.scopes)
    (hstored : (a.policies[d.id]?).map (·.definition) = some old.definition) :
    BoundNow a d.id ↔ ¬ RepeatsStale image d := by
  obtain ⟨policy, hpolicy, hdefinition⟩ := Option.map_eq_some_iff.mp hstored
  have hat : a.scopes[policy.definition.scope]? = some scope := by
    rw [hdefinition, scope_of_samePolicyContent hsame, hscopes, hscope]
  constructor
  · rintro ⟨found, foundScope, hfound, hfoundScope, hbound⟩
      ⟨old', scope', hold', -, hscope', hstale⟩
    rw [hpolicy, Option.some.injEq] at hfound
    subst hfound
    rw [hat, Option.some.injEq] at hfoundScope
    subst hfoundScope
    rw [hold, Option.some.injEq] at hold'
    subst hold'
    rw [hscope, Option.some.injEq] at hscope'
    subst hscope'
    rw [hdefinition] at hbound
    exact hstale hbound
  · intro hfresh
    refine ⟨policy, scope, hpolicy, hat, ?_⟩
    rw [hdefinition]
    by_contra hstale
    exact hfresh ⟨old, scope, hold, hsame, hscope, hstale⟩

/-- What the application of a stamped policy leaves is bound now, unless it repeats a stale
one. -/
theorem boundNow_of_applied {image' : StateImage} {mutation : Mutation} {replay : Bool}
    (hop : mutation.op = .definePolicy { d with
      generation := .unset, scopeGeneration := scope.definition.generation })
    (hscope : image.scopes[d.scope]? = some scope)
    (h : applyMutation image mutation replay = (.ok (), image')) :
    BoundNow image' d.id ↔ ¬ RepeatsStale image d := by
  obtain ⟨expected, -, happlied⟩ := applyMutation_eq_ok_iff.mp h
  cases happlied with
  | repeated hrepeated =>
      simp only [isIdempotent, hop, EntityKind.idempotent, policyKind] at hrepeated
      cases hold : image.policies[d.id]? with
      | none => simp [hold] at hrepeated
      | some old =>
          simp only [hold, Bool.and_eq_true] at hrepeated
          exact boundNow_kept_iff hold hrepeated.1 hscope rfl (congrArg _ hold)
  | @performed result hfresh hperform =>
      cases perform_eq_ok hperform with
      | policy d' entry hop' hentry =>
          rw [hop, MutationOp.definePolicy.injEq] at hop'
          subst hop'
          cases hentry with
          | @refreshed old hold hsame =>
              have hold' : image.policies[d.id]? = some old := hold
              exact boundNow_kept_iff hold' hsame hscope rfl (by simp)
          | stored hset hchanged =>
              have hunchanged : policyKind.unchanged image d = false := hchanged
              constructor
              · rintro - ⟨old, scope', hold, hsame, -⟩
                simp [EntityKind.unchanged, policyKind, hold, hsame] at hunchanged
              · intro _
                exact ⟨_, scope, Std.ExtTreeMap.getElem?_insert_self, hscope, rfl⟩
      | «class» d' entry hop' => simp [hop] at hop'
      | scope d' entry hop' => simp [hop] at hop'
      | subject d' entry hop' => simp [hop] at hop'
      | assign a result hop' => simp [hop] at hop'
      | retire target entry generation hop' => simp [hop] at hop'
      | grant hop' => simp [hop] at hop'
      | fence publisher boot hop' => simp [hop] at hop'
      | advance epoch hop' => simp [hop] at hop'

end Publishing

/-- A policy that was published is bound to the generation its scope has, unless the
publication repeats a policy whose scope has moved on. -/
theorem published_policy_bound_iff {r r' : FabricRuntime} {now : UInt64} {actor : Session}
    {d : PolicyDef} {g : Generation} (h : r.definePolicy now actor d = (.ok g, r')) :
    BoundNow r'.image d.id ↔ ¬ RepeatsStale r.image d := by
  have hbody := body_of_underSession h
  split at hbody
  · cases hbody
  · rename_i scope hscope
    generalize hmutation : baseMutation actor (.definePolicy { d with
      generation := .unset, scopeGeneration := scope.definition.generation })
      (text "define policy") now = mutation at hbody
    have hop : (planOf r.image mutation).op = .definePolicy { d with
        generation := .unset, scopeGeneration := scope.definition.generation } := by
      rw [← hmutation]
      rfl
    have heffect := commit_effect r.state mutation
    unfold publish commitMutation at hbody
    generalize Store.commit r.state mutation = result at hbody heffect
    cases heffect with
    | refused e s hsame => cases hbody
    | applied s image happly hsame =>
        cases hbody
        have hbound := boundNow_of_applied hop hscope happly
        exact (BoundNow.congr hsame.policies hsame.scopes).trans hbound

def onlyScope : PolicyScopeId := ⟨[97], wellFormed_a⟩

def onlyPolicy : PolicyDef := { id := ⟨[112], wellFormed_p⟩, scope := onlyScope }

/-- Grant, define the scope and its policy, then define the scope as described. -/
def scopeCalls (description : Bytes) : List (UInt64 × Call) :=
  [(0, .grantAuthority somePublisher someBoot),
    (0, .defineScope firstSession { id := onlyScope }),
    (0, .definePolicy firstSession onlyPolicy),
    (0, .defineScope firstSession { id := onlyScope, description })]

theorem run_performAll (r : FabricRuntime) (calls : List (UInt64 × Call)) :
    Run r (performAll r calls) := by
  induction calls generalizing r with
  | nil => exact .refl
  | cons call rest ih => exact .head (.call r call.1 call.2) (ih _)

/-- Publish the policy again: whether the call succeeds, and whether the stored policy is
bound to its scope afterwards. -/
def republished (r : FabricRuntime) (description : Bytes) : Bool × Bool :=
  let result := (performAll r (scopeCalls description)).definePolicy 0 firstSession onlyPolicy
  (result.1.isOk, boundNow result.2.image onlyPolicy.id)

theorem exists_republished (description : Bytes) (bound : Bool)
    (h : (openStore ∅ creating zeroKey).toOption.map
        (fun opened => republished (startRuntime creatingRuntime opened) description) =
      some (true, bound)) :
    ∃ r r' g, Fresh r ∧
      (performAll r (scopeCalls description)).definePolicy 0 firstSession onlyPolicy =
        (.ok g, r') ∧
      boundNow r'.image onlyPolicy.id = bound := by
  obtain ⟨opened, hopen⟩ := openStore_empty
  rw [hopen] at h
  have hresult : republished (startRuntime creatingRuntime opened) description = (true, bound) :=
    Option.some.inj h
  unfold republished at hresult
  generalize hcall : (performAll (startRuntime creatingRuntime opened)
    (scopeCalls description)).definePolicy 0 firstSession onlyPolicy = result at hresult
  obtain ⟨status, r'⟩ := result
  cases status with
  | error e => cases (Prod.mk.inj hresult).1
  | ok g =>
      exact ⟨_, r', g, fresh_startRuntime (by simp) hopen, hcall, (Prod.mk.inj hresult).2⟩

/-- The scope is redefined and the policy published again with the content it has. -/
theorem republished_policy_stays_stale :
    ∃ r r' r'' g, Fresh r ∧ Run r r' ∧
      r'.definePolicy 0 firstSession onlyPolicy = (.ok g, r'') ∧
      ¬ BoundNow r''.image onlyPolicy.id := by
  obtain ⟨r, r'', g, hfresh, hcall, hbound⟩ :=
    exists_republished (text "x") false (by decide +kernel)
  refine ⟨r, _, r'', g, hfresh, run_performAll r _, hcall, fun hnow => ?_⟩
  rw [boundNow_eq_true_iff.mpr hnow] at hbound
  cases hbound

theorem published_policy_bound_iff_again :
    ∃ (r r' : FabricRuntime) (g : Generation),
      r.definePolicy 0 firstSession onlyPolicy = (.ok g, r') ∧ BoundNow r'.image onlyPolicy.id ∧
        ¬ RepeatsStale r.image onlyPolicy := by
  obtain ⟨r, r', g, -, hcall, hbound⟩ :=
    exists_republished [] true (by decide +kernel)
  have hnow := boundNow_eq_true_iff.mp hbound
  exact ⟨_, r', g, hcall, hnow, (published_policy_bound_iff hcall).mp hnow⟩

/-! ## Deciding by a policy -/

/-- An answer that rests on what this policy declares: its default class, or its mode of
resolving a conflict. -/
inductive DecidedBy (image : StateImage) (query : PriorityQuery) (id : PolicyId) : Prop
  | default (hresolution : (evaluateQuery image query).resolution = text "policy_default")
      (hsource : (resolveUnknownDefault image query.scope).source =
        text "policy:" ++ id.value)
  | conflict
      (hresolution : (evaluateQuery image query).resolution =
          text "higher_precedence_by_policy:" ++ id.value ∨
        (evaluateQuery image query).resolution =
          text "assignment_id_order_by_policy:" ++ id.value)

def Declaring (policy : PolicyDef) : Prop :=
  policy.unknownDefault ≠ none ∨ policy.conflictResolution ≠ none

section Sources

variable {image : StateImage} {query : PriorityQuery} {id : PolicyId}

theorem eq_of_source {a b : PolicyId} (h : text "policy:" ++ a.value = text "policy:" ++ b.value) :
    a = b :=
  BasicId.ext (List.append_cancel_left h)

theorem append_ne_append {a b : Bytes} (ha : a ≠ []) (hb : b ≠ []) (h : a.head? ≠ b.head?)
    (c d : Bytes) : a ++ c ≠ b ++ d := by
  intro heq
  have hheads := congrArg List.head? heq
  rw [List.head?_append_of_ne_nil _ ha, List.head?_append_of_ne_nil _ hb] at hheads
  exact h hheads

theorem ne_append {a b : Bytes} (ha : a ≠ []) (hb : b ≠ []) (h : a.head? ≠ b.head?)
    (d : Bytes) : a ≠ b ++ d := by
  have hne := append_ne_append ha hb h [] d
  rwa [List.append_nil] at hne

theorem nil_ne_policy (id : PolicyId) : [] ≠ text "policy:" ++ id.value := by
  intro h
  have hnil := (List.append_eq_nil_iff.mp h.symm).1
  exact absurd hnil (by decide)

theorem declaring_of_defaultSource
    (h : (resolveUnknownDefault image query.scope).source = text "policy:" ++ id.value) :
    ∃ policy, image.policies[id]? = some policy ∧ Declaring policy.definition := by
  unfold resolveUnknownDefault at h
  cases hchain : scopeChain image query.scope with
  | error e =>
      simp only [hchain] at h
      exact absurd h (nil_ne_policy id)
  | ok chain =>
      simp only [hchain] at h
      cases hfind : chain.findSome? (declaredDefault image) with
      | none =>
          simp only [hfind] at h
          exact absurd h (nil_ne_policy id)
      | some found =>
          obtain ⟨cls, source⟩ := found
          have hsource : source = text "policy:" ++ id.value := by
            simp only [hfind] at h
            split at h <;> exact h
          obtain ⟨level, -, hlevel⟩ := List.exists_of_findSome?_eq_some hfind
          unfold declaredDefault at hlevel
          rw [Option.orElse_eq_orElse, Option.orElse_eq_or, Option.or_eq_some_iff] at hlevel
          rcases hlevel with hpolicy | ⟨-, hscope⟩
          · obtain ⟨entry, hmem, hentry⟩ := List.exists_of_findSome?_eq_some hpolicy
            split at hentry
            · rw [Option.map_eq_some_iff] at hentry
              obtain ⟨default, hdefault, heq⟩ := hentry
              obtain rfl := eq_of_source ((Prod.mk.inj heq).2.trans hsource)
              exact ⟨entry.2, Std.ExtTreeMap.mem_toList_iff_getElem?_eq_some.mp hmem,
                .inl (by rw [hdefault]; simp)⟩
            · cases hentry
          · simp only [Option.bind_eq_some_iff, Option.map_eq_some_iff] at hscope
            obtain ⟨node, -, default, -, heq⟩ := hscope
            rw [← (Prod.mk.inj heq).2] at hsource
            exact absurd hsource (ne_append (by decide) (by decide) (by decide) _)

theorem declaring_of_modeSource {scope : PolicyScopeId}
    (h : (effectiveConflictMode image scope).source = text "policy:" ++ id.value) :
    ∃ policy, image.policies[id]? = some policy ∧ Declaring policy.definition := by
  unfold effectiveConflictMode at h
  cases hfind : image.policies.toList.findSome? (fun entry =>
      if entry.2.definition.scope = scope then
        entry.2.definition.conflictResolution.map fun mode =>
          ({ mode, source := text "policy:" ++ entry.1.value } : ConflictMode)
      else none) with
  | none =>
      rw [hfind, Option.getD_none, scopeConflictMode] at h
      split at h
      · exact absurd h (ne_append (by decide) (by decide) (by decide) _)
      · have hscope : text "scope" = text "policy:" ++ id.value := h
        exact absurd hscope (ne_append (by decide) (by decide) (by decide) _)
  | some found =>
      rw [hfind, Option.getD_some] at h
      obtain ⟨entry, hmem, hentry⟩ := List.exists_of_findSome?_eq_some hfind
      split at hentry
      · rw [Option.map_eq_some_iff] at hentry
        obtain ⟨mode, hmode, rfl⟩ := hentry
        obtain rfl := eq_of_source h
        exact ⟨entry.2, Std.ExtTreeMap.mem_toList_iff_getElem?_eq_some.mp hmem,
          .inr (by rw [hmode]; simp)⟩
      · cases hentry

/-- The ways a conflict is resolved, as the resolution spells them. -/
def resolutionHeads : List Bytes :=
  [text "denied_by_", text "higher_precedence_by_", text "assignment_id_order_by_"]

/-- What stands in the resolution of an answer that was reached. -/
inductive Resolution (image : StateImage) : Bytes → Prop
  | plain {resolution : Bytes}
      (h : resolution ∈ [text "none", text "policy_default", text "unique",
        text "narrower_scope", text "denied_by_caller"]) : Resolution image resolution
  | mode {head : Bytes} (hhead : head ∈ resolutionHeads) (scope : PolicyScopeId) :
      Resolution image (head ++ (effectiveConflictMode image scope).source)

theorem resolution_settleConflict (scope : PolicyScopeId) (first : Placed)
    (winning : List Placed) :
    Resolution image (settleConflict image query scope first winning).resolution := by
  unfold settleConflict
  simp only
  split
  · simp only
    split
    · exact .plain (by simp)
    · exact .mode (by simp [resolutionHeads]) scope
  · simp only
    split
    · exact .mode (by simp [resolutionHeads]) scope
    · exact .mode (by simp [resolutionHeads]) scope

theorem resolution_settle (scope : PolicyScopeId) (first : Candidate) (others : List Candidate) :
    Resolution image (settle image query scope first others).resolution := by
  unfold settle
  split
  · exact resolution_settleConflict scope _ _
  · exact .plain (by simp)

theorem resolution_nameClass (winner : Candidate) (decision : PriorityDecision) :
    (nameClass image winner decision).resolution = decision.resolution := by
  unfold nameClass
  split <;> rfl

theorem resolution_uniqueOutcome {scope : PolicyScopeId} {winner : Candidate}
    {displaced : List Candidate} {decision : PriorityDecision} :
    Resolution image (uniqueOutcome query scope winner displaced decision).resolution := by
  have hresolution : (uniqueOutcome query scope winner displaced decision).resolution =
      if displaced.isEmpty then text "unique" else text "narrower_scope" := by
    unfold uniqueOutcome
    simp only
    split
    · rfl
    · split <;> rfl
  rw [hresolution]
  split
  · exact .plain (by simp)
  · exact .plain (by simp)

theorem resolution_decideAt (scopes : List PolicyScopeId) (deciding : Nat) (first : Candidate)
    (others displaced : List Candidate) (builder : ChainBuilder) (decision : PriorityDecision) :
    Resolution image (decideAt image query scopes deciding first others displaced builder
      decision).resolution := by
  have hverdict : Resolution image
      (settle image query (scopeAt scopes deciding) first others).resolution :=
    resolution_settle (scopeAt scopes deciding) first others
  simp only [decideAt]
  generalize settle image query (scopeAt scopes deciding) first others = verdict at hverdict
  obtain ⟨conflict, winner, losers, resolution⟩ := verdict
  cases winner with
  | none => cases conflict <;> exact hverdict
  | some winner =>
      simp only [resolution_nameClass]
      cases conflict with
      | false => exact resolution_uniqueOutcome
      | true => exact hverdict

theorem resolution_fallbackDecision {rejected : List RejectedEvidence}
    {decision : PriorityDecision} :
    Resolution image (fallbackDecision image query rejected decision).resolution := by
  unfold fallbackDecision
  simp only
  split
  · exact .plain (by simp)
  · split
    · exact .plain (by simp)
    · split
      · exact .plain (by simp)
      · exact .plain (by simp)

theorem resolution_of_authoritative (h : (evaluateQuery image query).authoritative = true) :
    Resolution image (evaluateQuery image query).resolution := by
  unfold evaluateQuery at h ⊢
  cases hgates : gates image query with
  | error decision =>
      simp only [hgates] at h
      rw [(gates_refusal hgates).authoritative] at h
      cases h
  | ok admitted =>
      simp only [hgates] at h ⊢
      cases hcollect : collectEvidence image admitted.scopes query.subject with
      | error e =>
          simp only [hcollect] at h
          cases h
      | ok collected =>
          simp only
          cases hlevel : (filterExceptions collected).accepted.filter (·.level =
              decidingLevel image admitted.scopes (filterExceptions collected).accepted) with
          | nil =>
              obtain ⟨base, steps, -, hanswer⟩ := answer_fallback hlevel
              rw [hanswer]
              exact resolution_fallbackDecision
          | cons first others =>
              obtain ⟨builder, base, hanswer⟩ := answer_decided hlevel
              rw [hanswer]
              exact resolution_decideAt _ _ _ _ _ builder base

/-- A resolution that names a policy as the one behind a mode is that policy's mode. -/
theorem declaring_of_resolution {head : Bytes} (hne : head ≠ [])
    (hplain : ∀ resolution ∈ [text "none", text "policy_default", text "unique",
      text "narrower_scope", text "denied_by_caller"], resolution ≠ [] ∧
        resolution.head? ≠ head.head?)
    (hheads : ∀ other ∈ resolutionHeads, other ≠ [] ∧ (other = head ∨ other.head? ≠ head.head?))
    {resolution : Bytes} (hresolution : Resolution image resolution)
    (h : resolution = head ++ text "policy:" ++ id.value) :
    ∃ policy, image.policies[id]? = some policy ∧ Declaring policy.definition := by
  rw [List.append_assoc] at h
  cases hresolution with
  | plain hmem =>
      obtain ⟨hnil, hhead⟩ := hplain _ hmem
      exact absurd h (ne_append hnil hne hhead _)
  | @mode other hmem scope =>
      obtain ⟨hnil, rfl | hhead⟩ := hheads other hmem
      · exact declaring_of_modeSource (List.append_cancel_left h)
      · exact absurd h (append_ne_append hnil hne hhead _ _)

theorem declaring_of_decidedBy (hauthoritative : (evaluateQuery image query).authoritative = true)
    (h : DecidedBy image query id) :
    ∃ policy, image.policies[id]? = some policy ∧ Declaring policy.definition := by
  have hresolution := resolution_of_authoritative hauthoritative
  cases h with
  | default _ hsource => exact declaring_of_defaultSource hsource
  | conflict hconflict =>
      rcases hconflict with hhigher | horder
      · have hspelled : text "higher_precedence_by_policy:" =
            text "higher_precedence_by_" ++ text "policy:" := by decide
        rw [hspelled] at hhigher
        exact declaring_of_resolution (by decide) (by decide) (by decide) hresolution hhigher
      · have hspelled : text "assignment_id_order_by_policy:" =
            text "assignment_id_order_by_" ++ text "policy:" := by decide
        rw [hspelled] at horder
        exact declaring_of_resolution (by decide) (by decide) (by decide) hresolution horder

end Sources

/-! ## Runs that keep policies bound -/

/-- A scope that is given other content has no policy that declares a default or a mode. -/
def SparesPolicies (image : StateImage) (mutation : Mutation) : Prop :=
  ∀ d, mutation.op = .defineScope d → scopeKind.unchanged image d = false →
    ∀ (id : PolicyId) (policy : PolicyEntry), image.policies[id]? = some policy →
      policy.definition.scope = d.id → ¬ Declaring policy.definition

/-- The images accepted mutations lead to when none of them redefines a scope under a policy
that declares a default or a mode. -/
inductive BuiltSparing (limits : Limits) : StateImage → Prop
  | empty : BuiltSparing limits { limits }
  | accepted {image image' : StateImage} {mutation : Mutation} {replay : Bool}
      (h : BuiltSparing limits image) (hspares : SparesPolicies image mutation)
      (happly : applyMutation image mutation replay = (.ok (), image')) :
      BuiltSparing limits image'

/-- Every policy that declares a default or a mode is bound to the generation its scope has. -/
def DeclaringBound (image : StateImage) : Prop :=
  ∀ (id : PolicyId) (policy : PolicyEntry), image.policies[id]? = some policy →
    Declaring policy.definition → ∃ scope : ScopeEntry,
      image.scopes[policy.definition.scope]? = some scope ∧
      policy.definition.scopeGeneration = scope.definition.generation

section Steps

variable {image image' : StateImage}

theorem DeclaringBound.congr (h : DeclaringBound image)
    (hpolicies : image'.policies = image.policies) (hscopes : image'.scopes = image.scopes) :
    DeclaringBound image' := by
  unfold DeclaringBound
  rw [hpolicies, hscopes]
  exact h

/-- Redefining a scope: its entry keeps its definition, or no policy that declares anything
is bound to it. -/
theorem DeclaringBound.defineScope (h : DeclaringBound image) {d : PolicyScopeDef}
    {provenance : Provenance} {entry : ScopeEntry}
    (hentry : Admitted scopeKind image d provenance entry)
    (hspares : scopeKind.unchanged image d = false →
      ∀ (id : PolicyId) (policy : PolicyEntry), image.policies[id]? = some policy →
        policy.definition.scope = d.id → ¬ Declaring policy.definition) :
    DeclaringBound { image with scopes := image.scopes.insert d.id entry } := by
  intro id policy hpolicy hdeclaring
  obtain ⟨scope, hscope, hbound⟩ := h id policy hpolicy hdeclaring
  simp only [Std.ExtTreeMap.getElem?_insert]
  split
  · rename_i heq
    have hid : d.id = policy.definition.scope := Std.LawfulEqOrd.eq_of_compare heq
    cases hentry with
    | @refreshed old hold hsame =>
        have hold' : image.scopes[d.id]? = some old := hold
        rw [hid, hscope, Option.some.injEq] at hold'
        subst hold'
        exact ⟨_, rfl, hbound⟩
    | stored hset hchanged =>
        exact absurd hdeclaring (hspares hchanged id policy hpolicy hid.symm)
  · exact ⟨scope, hscope, hbound⟩

theorem scope_of_validatePolicy {d : PolicyDef} (h : validatePolicy image d = .ok ()) :
    ∃ scope, image.scopes[d.scope]? = some scope ∧
      d.scopeGeneration = scope.definition.generation := by
  simp only [validatePolicy, bind_eq_ok, failIf_eq_ok, exists_const] at h
  obtain ⟨-, -, -, hscope⟩ := h
  split at hscope
  · cases hscope
  · rename_i scope hfound
    simp only [bind_eq_ok, failIf_eq_ok, exists_const, not_or, ne_eq, not_not] at hscope
    exact ⟨scope, hfound, hscope.1.2⟩

/-- Publishing a policy: the stored one stays, or the new one was checked against the scope. -/
theorem DeclaringBound.definePolicy (h : DeclaringBound image) {d : PolicyDef}
    {provenance : Provenance} {entry : PolicyEntry}
    (hentry : Admitted policyKind image d provenance entry)
    (hscope : ∃ scope, image.scopes[d.scope]? = some scope ∧
      d.scopeGeneration = scope.definition.generation) :
    DeclaringBound { image with policies := image.policies.insert d.id entry } := by
  intro id policy hpolicy hdeclaring
  simp only [Std.ExtTreeMap.getElem?_insert] at hpolicy
  split at hpolicy
  · cases hpolicy
    cases hentry with
    | @refreshed old hold hsame => exact h d.id old hold hdeclaring
    | stored hset hchanged => exact hscope
  · exact h id policy hpolicy hdeclaring

theorem declaringBound_applyMutation {mutation : Mutation} {replay : Bool}
    (h : DeclaringBound image) (hspares : SparesPolicies image mutation)
    (happly : applyMutation image mutation replay = (.ok (), image')) : DeclaringBound image' := by
  obtain ⟨expected, hadmissible, happlied⟩ := applyMutation_eq_ok_iff.mp happly
  have hrecorded : DeclaringBound (recordAccepted image mutation expected) := h.congr rfl rfl
  cases happlied with
  | repeated hrepeated => exact hrecorded
  | @performed result hfresh hperform =>
      have hvalid := hadmissible.valid
      cases perform_eq_ok hperform with
      | scope d entry hop hentry =>
          have hkept := hrecorded.defineScope hentry (hspares d hop)
          exact hkept
      | policy d entry hop hentry =>
          simp only [validateMutation, hop] at hvalid
          have hscope := scope_of_validatePolicy hvalid
          have hkept := hrecorded.definePolicy hentry hscope
          exact hkept
      | assign a result hop hadmitted => cases hadmitted <;> exact h.congr rfl rfl
      | «class» d entry hop hentry => exact h.congr rfl rfl
      | subject d entry hop hentry => exact h.congr rfl rfl
      | retire target entry generation hop hentry hnext => exact h.congr rfl rfl
      | grant hop hpositive hroom => exact h.congr rfl rfl
      | fence publisher boot hop => exact h.congr rfl rfl
      | advance epoch hop hnext => exact h.congr rfl rfl

theorem declaringBound_of_built {limits : Limits} (h : BuiltSparing limits image) :
    DeclaringBound image := by
  induction h with
  | empty =>
      intro id policy hpolicy
      simp at hpolicy
  | accepted h hspares happly ih => exact declaringBound_applyMutation ih hspares happly

end Steps

/-- Along every run that redefines no scope under a policy that declares a default or a mode,
a policy behind an authoritative answer is bound to the generation its scope has. -/
theorem stale_policy_decides_nothing {limits : Limits} {image : StateImage}
    (h : BuiltSparing limits image) (query : PriorityQuery) (id : PolicyId)
    (hauthoritative : (evaluateQuery image query).authoritative = true)
    (hdecided : DecidedBy image query id) : BoundNow image id := by
  obtain ⟨policy, hpolicy, hdeclaring⟩ := declaring_of_decidedBy hauthoritative hdecided
  obtain ⟨scope, hscope, hbound⟩ := declaringBound_of_built h id policy hpolicy hdeclaring
  exact ⟨policy, scope, hpolicy, hscope, hbound⟩

/-- A scope with a policy that declares a default class, and a subject without assignments. -/
def defaulting : List Mutation :=
  [bySystem .advanceEpoch, bySystem .grantAuthority, someClassNamed ⟨[97], wellFormed_a⟩ 1,
    bySystem (.defineScope { id := onlyScope }),
    bySystem (.definePolicy { onlyPolicy with
      scopeGeneration := .first
      unknownDefault := some ⟨[97], wellFormed_a⟩
      requirePolicyForAssignment := false }),
    bySystem (.defineSubject { id := ⟨[97], wellFormed_a⟩ })]

def redescribing : Mutation :=
  bySystem (.defineScope { id := onlyScope, description := text "x" })

/-- The scope is redefined; the default of its policy decides all the same. -/
theorem stale_default_decides :
    Built {} (applyAll {} (defaulting ++ [redescribing])) ∧
      (applyAll {} (defaulting ++ [redescribing])).health = .healthy ∧
      (evaluateQuery (applyAll {} (defaulting ++ [redescribing])) contestedQuery).authoritative =
        true ∧
      DecidedBy (applyAll {} (defaulting ++ [redescribing])) contestedQuery onlyPolicy.id ∧
      ¬ BoundNow (applyAll {} (defaulting ++ [redescribing])) onlyPolicy.id := by
  refine ⟨built_applyAll .empty (by decide +kernel), by decide +kernel, by decide +kernel,
    .default (by decide +kernel) (by decide +kernel), ?_⟩
  rw [← boundNow_eq_true_iff]
  decide

def scopesFirst (image : StateImage) : List Mutation → Bool
  | [] => true
  | mutation :: rest =>
      (match mutation.op with
        | .defineScope _ => image.policies.isEmpty
        | _ => true) &&
        scopesFirst (applyMutation image mutation false).2 rest

theorem builtSparing_applyAll {limits : Limits} {image : StateImage}
    (h : BuiltSparing limits image) {mutations : List Mutation}
    (haccepted : acceptedAll image mutations = true)
    (hfirst : scopesFirst image mutations = true) :
    BuiltSparing limits (applyAll image mutations) := by
  induction mutations generalizing image with
  | nil => exact h
  | cons mutation rest ih =>
      rw [acceptedAll, Bool.and_eq_true] at haccepted
      rw [scopesFirst, Bool.and_eq_true] at hfirst
      have hspares : SparesPolicies image mutation := by
        intro d hop _ id policy hpolicy
        have hempty : image.policies.isEmpty = true := by simpa only [hop] using hfirst.1
        rw [Std.ExtTreeMap.isEmpty_iff.mp hempty] at hpolicy
        simp at hpolicy
      cases happly : applyMutation image mutation false with
      | mk status image' =>
          rw [happly] at haccepted hfirst
          cases status with
          | error e => cases haccepted.1
          | ok u =>
              rw [applyAll, happly]
              exact ih (.accepted h hspares happly) haccepted.2 hfirst.2

theorem stale_policy_decides_nothing_default :
    (evaluateQuery (applyAll {} defaulting) contestedQuery).authoritative = true ∧
      DecidedBy (applyAll {} defaulting) contestedQuery onlyPolicy.id ∧
      BoundNow (applyAll {} defaulting) onlyPolicy.id := by
  have hbuilt : BuiltSparing {} (applyAll {} defaulting) :=
    builtSparing_applyAll .empty (by decide) (by decide)
  have hauthoritative : (evaluateQuery (applyAll {} defaulting) contestedQuery).authoritative =
      true := by decide +kernel
  have hdecided : DecidedBy (applyAll {} defaulting) contestedQuery onlyPolicy.id :=
    .default (by decide +kernel) (by decide +kernel)
  exact ⟨hauthoritative, hdecided,
    stale_policy_decides_nothing hbuilt contestedQuery onlyPolicy.id hauthoritative hdecided⟩

end PriorityFabric.PolicyBinding
