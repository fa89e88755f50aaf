import PriorityFabric.Ancestry
import PriorityFabric.LongestPaths

/-!
The depth limits over a run of accepted mutations.

A definition is checked against the depth limits for the node it defines only.  What
hangs below that node moves with it, and subjects are not checked at all.
-/

namespace PriorityFabric.Depths

open Relation
open PriorityFabric.Lib.LittleEndian
open PriorityFabric.Lib.Walks
open PriorityFabric.Basics
open PriorityFabric.Ident
open PriorityFabric.Model
open PriorityFabric.State
open PriorityFabric.Validate
open PriorityFabric.Apply
open PriorityFabric.ApplyFacts
open PriorityFabric.Bounds
open PriorityFabric.Registry
open PriorityFabric.Inheritance
open PriorityFabric.Ancestry
open PriorityFabric.LongestPaths

theorem mem_scopes_of_edge {image : StateImage} (h : Registered image)
    {scope parent : PolicyScopeId} (hedge : ScopeEdge image scope parent) :
    parent ∈ image.scopes := by
  obtain ⟨entry, hentry, hparent⟩ := Option.bind_eq_some_iff.mp hedge
  exact (h.scopes.good scope entry hentry).parent parent hparent

theorem mem_classes_of_edge {image : StateImage} (h : Registered image)
    {cls parent : PriorityClassId} (hedge : ClassEdge image cls parent) :
    parent ∈ image.classes := by
  unfold ClassEdge classParents at hedge
  cases hentry : image.classes[cls]? with
  | none => simp [hentry] at hedge
  | some entry =>
      rw [hentry] at hedge
      exact (h.classes.good cls entry hentry).parents parent hedge

theorem scopeChainLoop_succeeds {image : StateImage} (h : Registered image)
    (hacyclic : Acyclic (ScopeEdge image)) (scope : PolicyScopeId) {room : Nat}
    {current : PolicyScopeId} {chain : List PolicyScopeId}
    (hdefined : current ∈ image.scopes)
    (hchain : ∀ lower ∈ chain, TransGen (ScopeEdge image) lower current)
    (hroom : ∀ n y, Hops (ScopeEdge image) n current y → n + 1 ≤ room) :
    ∃ result, scopeChainLoop image scope room current chain = .ok result := by
  induction room generalizing current chain with
  | zero =>
      have hle := hroom 0 current rfl
      omega
  | succ room ih =>
      have hnew : current ∉ chain := fun hmem => hacyclic current (hchain current hmem)
      have hentry := Std.ExtTreeMap.getElem?_eq_some_getElem hdefined
      rw [scopeChainLoop, if_neg hnew]
      simp only [hentry]
      cases hparent : (image.scopes[current]).definition.parent with
      | none => exact ⟨_, rfl⟩
      | some parent =>
          have hedge : ScopeEdge image current parent := by
            simp only [ScopeEdge, scopeParent, hentry, Option.bind_some, hparent]
          refine ih (mem_scopes_of_edge h hedge) ?_ ?_
          · intro lower hlower
            rcases List.mem_append.mp hlower with hold | hlast
            · exact (hchain lower hold).tail hedge
            · obtain rfl := List.mem_singleton.mp hlast
              exact .single hedge
          · intro n y hy
            have hle := hroom (n + 1) y ⟨parent, hedge, hy⟩
            omega

theorem classDepth_nonneg {image : StateImage} (hregistered : Registered image)
    (hshallow : ∀ n x y, Hops (ClassEdge image) n x y → n ≤ image.limits.maxInheritanceDepth)
    {id : PriorityClassId} (hdefined : id ∈ image.classes) : 0 ≤ classDepth image id := by
  obtain ⟨d, hd, hlongest⟩ := exists_longest fun n y => hshallow n id y
  rw [classDepth_nonneg_iff]
  refine ⟨d, fun y hy => ?_, hlongest, hd⟩
  rcases hy.cases_tail with rfl | ⟨z, -, hedge⟩
  · exact hdefined
  · exact mem_classes_of_edge hregistered hedge

/-- The subject graph with the parents of one subject replaced. -/
def RedefinedEdge (image : StateImage) (d : SubjectDef) (subject parent : SubjectId) : Prop :=
  parent ∈ Function.update (subjectParents image) d.id d.inheritsFrom subject

/-- What hangs below the defined node stays within the limits.  A scope chain is measured
in scopes, the others in steps; of a subject only the shortest ways up count. -/
def KeepsDepth (image : StateImage) : MutationOp → Prop
  | .defineScope d => ∀ parent, d.parent = some parent → ∀ k below l top,
      Hops (ScopeEdge image) k below d.id → Hops (ScopeEdge image) l parent top →
        k + l + 2 ≤ image.limits.maxScopeDepth
  | .defineClass d => ∀ parent ∈ d.inheritsFrom,
      ¬ ReflTransGen (ClassEdge image) parent d.id ∧ ∀ k below l top,
        Hops (ClassEdge image) k below d.id → Hops (ClassEdge image) l parent top →
          k + 1 + l ≤ image.limits.maxInheritanceDepth
  | .defineSubject d => ∀ below, ReflTransGen (SubjectEdge image) below d.id → ∀ n top,
      Hops (RedefinedEdge image d) n below top →
        ∃ m ≤ image.limits.maxInheritanceDepth, Hops (RedefinedEdge image d) m below top
  | .definePolicy _ | .assign _ | .retireAssignment _ | .grantAuthority
  | .fenceAuthority _ _ | .advanceEpoch => True

/-- The images accepted mutations lead to, each of which keeps the depths. -/
inductive Kept (limits : Limits) : StateImage → Prop
  | empty : Kept limits { limits }
  | accepted {image image' : StateImage} {mutation : Mutation} {replay : Bool}
      (h : Kept limits image) (hkeeps : KeepsDepth image mutation.op)
      (happly : applyMutation image mutation replay = (.ok (), image')) :
      Kept limits image'

theorem Kept.built {limits : Limits} {image : StateImage} (h : Kept limits image) :
    Built limits image := by
  induction h with
  | empty => exact .empty
  | accepted h hkeeps happly ih => exact .accepted ih happly

/-- Every way up is within the limits. -/
structure Shallow (image : StateImage) : Prop where
  scopes : ∀ n x y, Hops (ScopeEdge image) n x y → n + 1 ≤ image.limits.maxScopeDepth
  classes : ∀ n x y, Hops (ClassEdge image) n x y → n ≤ image.limits.maxInheritanceDepth
  subjects : ∀ n x y, Hops (SubjectEdge image) n x y →
    ∃ m ≤ image.limits.maxInheritanceDepth, Hops (SubjectEdge image) m x y

theorem shallow_empty {limits : Limits} (hlimits : limitsWithinCompiledCeiling limits = true) :
    Shallow { limits } := by
  have hpositive : 0 < limits.maxScopeDepth := by
    simp only [limitsWithinCompiledCeiling, Bool.and_eq_true, decide_eq_true_eq] at hlimits
    tauto
  refine ⟨?_, ?_, ?_⟩
  · intro n x y hwalk
    cases n with
    | zero => exact hpositive
    | succ n =>
        obtain ⟨z, hz, -⟩ := hwalk
        simp [ScopeEdge, scopeParent] at hz
  · intro n x y hwalk
    cases n with
    | zero => exact Nat.zero_le _
    | succ n =>
        obtain ⟨z, hz, -⟩ := hwalk
        simp [ClassEdge, classParents] at hz
  · intro n x y hwalk
    cases n with
    | zero => exact ⟨0, Nat.zero_le _, hwalk⟩
    | succ n =>
        obtain ⟨z, hz, -⟩ := hwalk
        simp [SubjectEdge, subjectParents] at hz

section Step

variable {image image' : StateImage} {mutation : Mutation} {replay : Bool}

theorem Shallow.scopes_step (h : Shallow image) (hkeeps : KeepsDepth image mutation.op)
    (happly : applyMutation image mutation replay = (.ok (), image')) :
    ∀ n x y, Hops (ScopeEdge image') n x y → n + 1 ≤ image.limits.maxScopeDepth := by
  obtain ⟨expected, hadmissible, -⟩ := applyMutation_eq_ok_iff.mp happly
  intro n x y hwalk
  rcases (graphStep_of_applyMutation happly).scopes with hsame | ⟨d, hop, hredirects⟩
  · have hedge : ScopeEdge image' = ScopeEdge image := by
      unfold ScopeEdge scopeParent
      rw [hsame]
    rw [hedge] at hwalk
    exact h.scopes n x y hwalk
  · rw [hop] at hkeeps
    rcases hredirects.hops (scope_guard hop hadmissible.valid) hwalk with
      hold | ⟨k, l, parent, rfl, hk, hparent, hl⟩
    · exact h.scopes n x y hold
    · have hle := hkeeps parent hparent k x l y hk hl
      omega

theorem Shallow.classes_step (h : Shallow image) (hkeeps : KeepsDepth image mutation.op)
    (happly : applyMutation image mutation replay = (.ok (), image')) :
    ∀ n x y, Hops (ClassEdge image') n x y → n ≤ image.limits.maxInheritanceDepth := by
  intro n x y hwalk
  rcases (graphStep_of_applyMutation happly).classes with hsame | ⟨d, hop, hredirects⟩
  · have hedge : ClassEdge image' = ClassEdge image := by
      unfold ClassEdge classParents
      rw [hsame]
    rw [hedge] at hwalk
    exact h.classes n x y hwalk
  · rw [hop] at hkeeps
    rcases hredirects.hops (fun parent hparent => (hkeeps parent hparent).1) hwalk with
      hold | ⟨k, l, parent, rfl, hk, hparent, hl⟩
    · exact h.classes n x y hold
    · exact (hkeeps parent hparent).2 k x l y hk hl

theorem redefinedEdge_eq {d : SubjectDef}
    (h : Redirects (SubjectEdge image) (SubjectEdge image') d.id (· ∈ d.inheritsFrom)) :
    RedefinedEdge image d = SubjectEdge image' := by
  funext x y
  apply propext
  unfold RedefinedEdge
  by_cases hx : x = d.id
  · subst hx
    rw [Function.update_self, h.here y]
  · rw [Function.update_of_ne hx, h.elsewhere x y hx]
    rfl

theorem Shallow.subjects_step (h : Shallow image) (hkeeps : KeepsDepth image mutation.op)
    (happly : applyMutation image mutation replay = (.ok (), image')) :
    ∀ n x y, Hops (SubjectEdge image') n x y →
      ∃ m ≤ image.limits.maxInheritanceDepth, Hops (SubjectEdge image') m x y := by
  intro n x y hwalk
  rcases (graphStep_of_applyMutation happly).subjects with hsame | ⟨d, hop, hredirects⟩
  · have hedge : SubjectEdge image' = SubjectEdge image := by
      unfold SubjectEdge subjectParents
      rw [hsame]
    rw [hedge] at hwalk ⊢
    exact h.subjects n x y hwalk
  · rw [hop] at hkeeps
    by_cases hbelow : ReflTransGen (SubjectEdge image) x d.id
    · have hkept := hkeeps x hbelow n y
      rw [redefinedEdge_eq hredirects] at hkept
      exact hkept hwalk
    · rw [hredirects.hops_iff hbelow] at hwalk
      obtain ⟨m, hm, hshort⟩ := h.subjects n x y hwalk
      exact ⟨m, hm, (hredirects.hops_iff hbelow).mpr hshort⟩

theorem Shallow.step (h : Shallow image) (hkeeps : KeepsDepth image mutation.op)
    (happly : applyMutation image mutation replay = (.ok (), image')) : Shallow image' := by
  have hlimits := (applyMutation_frame happly).limits
  constructor
  · rw [hlimits]
    exact h.scopes_step hkeeps happly
  · rw [hlimits]
    exact h.classes_step hkeeps happly
  · rw [hlimits]
    exact h.subjects_step hkeeps happly

end Step

theorem shallow_of_kept {limits : Limits} (hlimits : limitsWithinCompiledCeiling limits = true)
    {image : StateImage} (h : Kept limits image) : Shallow image := by
  induction h with
  | empty => exact shallow_empty hlimits
  | accepted h hkeeps happly ih => exact ih.step hkeeps happly

/-- Nothing that is defined is unusable for its depth: the ancestors of a subject can only
be too many. -/
structure Usable (image : StateImage) : Prop where
  scopes : ∀ scope ∈ image.scopes, ∃ chain, scopeChain image scope = .ok chain
  classes : ∀ cls ∈ image.classes, 0 ≤ classDepth image cls
  subjects : ∀ subject ∈ image.subjects, ∀ e, subjectAncestors image subject = .error e →
    e = tooMany image subject ∧ Crowded image subject

theorem inReach_of_shallow {image : StateImage} (hregistered : Registered image)
    (h : Shallow image) (subject : SubjectId) : InReach image subject where
  shallow n y hwalk := h.subjects n subject y hwalk
  defined n y hwalk := by
    obtain ⟨z, -, hedge⟩ := hwalk.last
    unfold SubjectEdge subjectParents at hedge
    cases hentry : image.subjects[z]? with
    | none => simp [hentry] at hedge
    | some entry =>
        rw [hentry] at hedge
        exact (hregistered.subjects.good z entry hentry).parents y hedge

/-- Along a run in which every definition keeps the depths, everything that is defined
can be used. -/
theorem usable_of_kept {limits : Limits} (hlimits : limitsWithinCompiledCeiling limits = true)
    {image : StateImage} (h : Kept limits image) : Usable image := by
  have hshallow := shallow_of_kept hlimits h
  have hregistered := h.built.registered
  have hacyclic : Acyclic (ScopeEdge image) :=
    acyclic_of_bounded fun n x y hwalk => Nat.le_of_succ_le (hshallow.scopes n x y hwalk)
  refine ⟨?_, ?_, ?_⟩
  · intro scope hscope
    exact scopeChainLoop_succeeds hregistered hacyclic scope hscope (by simp)
      fun n y hwalk => hshallow.scopes n scope y hwalk
  · intro cls hcls
    exact classDepth_nonneg hregistered hshallow.classes hcls
  · intro subject hsubject e herror
    obtain ⟨rfl, hcount⟩ := subjectAncestors_error
      (inReach_of_shallow hregistered hshallow subject) hsubject herror
    exact ⟨rfl, hcount.crowded⟩

def rootScope : Mutation where
  op := .defineScope { id := ⟨[97], wellFormed_a⟩ }
  system := true

def childScope : Mutation where
  op := .defineScope { id := ⟨[98], wellFormed_b⟩, parent := some ⟨[97], wellFormed_a⟩ }
  system := true

/-- A scope without a parent and one below it. -/
def nestedWithin (limits : Limits) : StateImage :=
  (applyMutation (applyMutation { limits } rootScope false).2 childScope false).2

theorem noScopeEdge_root {scope parent : PolicyScopeId} :
    ¬ ScopeEdge (applyMutation {} rootScope false).2 scope parent := by
  have hall : ((applyMutation {} rootScope false).2.scopes.toList.all
      fun entry => entry.2.definition.parent.isNone) = true := by decide
  intro hedge
  unfold ScopeEdge scopeParent at hedge
  cases hentry : (applyMutation {} rootScope false).2.scopes[scope]? with
  | none =>
      rw [hentry] at hedge
      cases hedge
  | some entry =>
      have hnone := List.all_eq_true.mp hall _
        (Std.ExtTreeMap.mem_toList_iff_getElem?_eq_some.mpr hentry)
      rw [hentry, Option.bind_some] at hedge
      rw [hedge] at hnone
      cases hnone

theorem usable_of_kept_child :
    (nestedWithin {}).scopes.size = 2 ∧ Usable (nestedWithin {}) := by
  have hroot : applyMutation {} rootScope false =
      (.ok (), (applyMutation {} rootScope false).2) := Prod.ext (by decide) rfl
  have hchild : applyMutation (applyMutation {} rootScope false).2 childScope false =
      (.ok (), nestedWithin {}) := Prod.ext (by decide) rfl
  have hfirst : KeepsDepth {} rootScope.op := by
    intro parent hparent
    cases hparent
  have hsecond : KeepsDepth (applyMutation {} rootScope false).2 childScope.op := by
    intro parent _ k below l top hbelow habove
    have hk : k = 0 := by
      cases k with
      | zero => rfl
      | succ k =>
          obtain ⟨z, hedge, -⟩ := hbelow
          exact absurd hedge noScopeEdge_root
    have hl : l = 0 := by
      cases l with
      | zero => rfl
      | succ l =>
          obtain ⟨z, hedge, -⟩ := habove
          exact absurd hedge noScopeEdge_root
    rw [hk, hl]
    decide
  exact ⟨by decide, usable_of_kept (by decide)
    (.accepted (.accepted .empty hfirst hroot) hsecond hchild : Kept {} (nestedWithin {}))⟩

/-- The limit admits chains of one scope, and yet a scope gets a parent. -/
def nested : StateImage := nestedWithin { maxScopeDepth := 1 }

theorem built_nested : Built { maxScopeDepth := 1 } nested :=
  .accepted (.accepted .empty (Prod.ext (by decide) rfl :
      applyMutation { limits := { maxScopeDepth := 1 } } rootScope false = (.ok (), _)))
    (Prod.ext (by decide) rfl : applyMutation _ childScope false = (.ok (), _))

theorem accepted_scope_without_chain :
    ¬ ∀ (limits : Limits) (image : StateImage), limitsWithinCompiledCeiling limits = true →
      Built limits image → Usable image := by
  intro h
  have husable := h { maxScopeDepth := 1 } nested (by decide) built_nested
  obtain ⟨chain, hchain⟩ := husable.scopes ⟨[98], wellFormed_b⟩ (by decide)
  have hfails : (scopeChain nested ⟨[98], wellFormed_b⟩).isOk = false := by decide
  rw [hchain] at hfails
  cases hfails

end PriorityFabric.Depths
