import PriorityFabric.Registry
import PriorityFabric.Lib.Walks

/-!
The class graph, the subject graph and the scope tree over a run of accepted mutations.

A definition replaces the edges of one node.  The searches that guard the replacement
have a budget; it is enough, because every node is expanded once.
-/

namespace PriorityFabric.Inheritance

open Relation
open PriorityFabric.Lib.LittleEndian
open PriorityFabric.Lib.KeyedTable
open PriorityFabric.Lib.Walks
open PriorityFabric.Basics
open PriorityFabric.Ident
open PriorityFabric.Model
open PriorityFabric.State
open PriorityFabric.Validate
open PriorityFabric.Apply
open PriorityFabric.ApplyFacts
open PriorityFabric.Bounds
open PriorityFabric.Registry

def ClassEdge (image : StateImage) (cls parent : PriorityClassId) : Prop :=
  parent ∈ classParents image cls

def SubjectEdge (image : StateImage) (subject parent : SubjectId) : Prop :=
  parent ∈ subjectParents image subject

/-- The parent a scope has, if it is defined. -/
def scopeParent (image : StateImage) (scope : PolicyScopeId) : Option PolicyScopeId :=
  (image.scopes[scope]?).bind (·.definition.parent)

def ScopeEdge (image : StateImage) (scope parent : PolicyScopeId) : Prop :=
  scopeParent image scope = some parent

section Admitting

variable {image image' : StateImage} {provenance : Provenance}

theorem redirects_classes {d : PriorityClassDef} {entry : ClassEntry}
    (hentry : Admitted classKind image d provenance entry)
    (hclasses : image'.classes = image.classes.insert d.id entry) :
    Redirects (ClassEdge image) (ClassEdge image') d.id (· ∈ d.inheritsFrom) := by
  have hparents : entry.definition.inheritsFrom = d.inheritsFrom := by
    cases hentry with
    | refreshed hold hsame =>
        simp only [classKind, sameClassContent, Bool.and_eq_true, decide_eq_true_eq] at hsame
        exact hsame.1.1.2
    | stored hset hchanged => rfl
  constructor
  · intro x y hx
    simp only [ClassEdge, classParents, hclasses, Std.ExtTreeMap.getElem?_insert,
      Std.LawfulEqOrd.compare_eq_iff_eq, Ne.symm hx, if_false]
  · intro y
    simp only [ClassEdge, classParents, hclasses, Std.ExtTreeMap.getElem?_insert_self,
      Option.map_some, Option.getD_some, hparents]

theorem redirects_subjects {d : SubjectDef} {entry : SubjectEntry}
    (hentry : Admitted subjectKind image d provenance entry)
    (hsubjects : image'.subjects = image.subjects.insert d.id entry) :
    Redirects (SubjectEdge image) (SubjectEdge image') d.id (· ∈ d.inheritsFrom) := by
  have hparents : entry.definition.inheritsFrom = d.inheritsFrom := by
    cases hentry with
    | refreshed hold hsame =>
        simp only [subjectKind, sameSubjectContent, Bool.and_eq_true, decide_eq_true_eq] at hsame
        exact hsame.1.2
    | stored hset hchanged => rfl
  constructor
  · intro x y hx
    simp only [SubjectEdge, subjectParents, hsubjects, Std.ExtTreeMap.getElem?_insert,
      Std.LawfulEqOrd.compare_eq_iff_eq, Ne.symm hx, if_false]
  · intro y
    simp only [SubjectEdge, subjectParents, hsubjects, Std.ExtTreeMap.getElem?_insert_self,
      Option.map_some, Option.getD_some, hparents]

theorem redirects_scopes {d : PolicyScopeDef} {entry : ScopeEntry}
    (hentry : Admitted scopeKind image d provenance entry)
    (hscopes : image'.scopes = image.scopes.insert d.id entry) :
    Redirects (ScopeEdge image) (ScopeEdge image') d.id (d.parent = some ·) := by
  have hparent : entry.definition.parent = d.parent := by
    cases hentry with
    | refreshed hold hsame =>
        simp only [scopeKind, sameScopeContent, Bool.and_eq_true, decide_eq_true_eq] at hsame
        exact hsame.1.1.1.1.2
    | stored hset hchanged => rfl
  constructor
  · intro x y hx
    simp only [ScopeEdge, scopeParent, hscopes, Std.ExtTreeMap.getElem?_insert,
      Std.LawfulEqOrd.compare_eq_iff_eq, Ne.symm hx, if_false]
  · intro y
    simp only [ScopeEdge, scopeParent, hscopes, Std.ExtTreeMap.getElem?_insert_self,
      Option.bind_some, hparent]

end Admitting

/-- The tables are as they were, or one node of one relation is redirected. -/
structure GraphStep (image image' : StateImage) (op : MutationOp) : Prop where
  classes : image'.classes = image.classes ∨ ∃ d, op = .defineClass d ∧
    Redirects (ClassEdge image) (ClassEdge image') d.id (· ∈ d.inheritsFrom)
  scopes : image'.scopes = image.scopes ∨ ∃ d, op = .defineScope d ∧
    Redirects (ScopeEdge image) (ScopeEdge image') d.id (d.parent = some ·)
  subjects : image'.subjects = image.subjects ∨ ∃ d, op = .defineSubject d ∧
    Redirects (SubjectEdge image) (SubjectEdge image') d.id (· ∈ d.inheritsFrom)

theorem graphStep_of_performed {image result : StateImage} {mutation : Mutation}
    {provenance : Provenance} (h : Performed image mutation provenance result) :
    GraphStep image result mutation.op := by
  cases h with
  | «class» d entry hop hentry =>
      exact ⟨.inr ⟨d, hop, redirects_classes hentry rfl⟩, .inl rfl, .inl rfl⟩
  | scope d entry hop hentry =>
      exact ⟨.inl rfl, .inr ⟨d, hop, redirects_scopes hentry rfl⟩, .inl rfl⟩
  | subject d entry hop hentry =>
      exact ⟨.inl rfl, .inl rfl, .inr ⟨d, hop, redirects_subjects hentry rfl⟩⟩
  | assign a result hop hadmitted =>
      cases hadmitted <;> exact ⟨.inl rfl, .inl rfl, .inl rfl⟩
  | _ => exact ⟨.inl rfl, .inl rfl, .inl rfl⟩

theorem graphStep_of_applyMutation {image image' : StateImage} {mutation : Mutation}
    {replay : Bool} (h : applyMutation image mutation replay = (.ok (), image')) :
    GraphStep image image' mutation.op := by
  obtain ⟨expected, -, happlied⟩ := applyMutation_eq_ok_iff.mp h
  cases happlied with
  | repeated hrepeated => exact ⟨.inl rfl, .inl rfl, .inl rfl⟩
  | performed hfresh hperform =>
      have hstep := graphStep_of_performed (perform_eq_ok hperform)
      exact ⟨hstep.classes, hstep.scopes, hstep.subjects⟩

section Search

variable {Id : Type} {next : Id → List Id} {target : Id}

/-- A set that holds what was visited and what is left to visit, is closed under `next`
and lacks the target. -/
def Closes (next : Id → List Id) (target : Id) (stack visited : List Id)
    (closed : Id → Prop) : Prop :=
  (∀ x, x ∈ visited ∨ x ∈ stack → closed x) ∧ ¬ closed target ∧
    ∀ x y, closed x → y ∈ next x → closed y

/-- Every node visited so far has its successors visited or on the stack. -/
def Expanded (next : Id → List Id) (target : Id) (stack visited : List Id) : Prop :=
  ∀ x ∈ visited, x ≠ target ∧ ∀ y ∈ next x, y ∈ visited ∨ y ∈ stack

theorem closes_of_empty {visited : List Id} (h : Expanded next target [] visited) :
    Closes next target [] visited (· ∈ visited) := by
  refine ⟨fun x hx => ?_, fun hmem => (h target hmem).1 rfl, fun x y hx hy => ?_⟩
  · simpa using hx
  · simpa using (h x hx).2 y hy

theorem Expanded.drop {current : Id} {stack visited : List Id}
    (h : Expanded next target (current :: stack) visited) (hseen : current ∈ visited) :
    Expanded next target stack visited := by
  intro x hx
  refine ⟨(h x hx).1, fun y hy => ?_⟩
  rcases (h x hx).2 y hy with hold | hstack
  · exact .inl hold
  · rcases List.mem_cons.mp hstack with rfl | hstack
    · exact .inl hseen
    · exact .inr hstack

theorem Expanded.expand {current : Id} {stack visited : List Id}
    (h : Expanded next target (current :: stack) visited) (hne : current ≠ target) :
    Expanded next target ((next current).reverse ++ stack) (current :: visited) := by
  intro x hx
  simp only [List.mem_cons, List.mem_append, List.mem_reverse]
  rcases List.mem_cons.mp hx with rfl | hx
  · exact ⟨hne, fun y hy => .inr (.inl hy)⟩
  · refine ⟨(h x hx).1, fun y hy => ?_⟩
    rcases (h x hx).2 y hy with hold | hstack
    · exact .inl (.inr hold)
    · rcases List.mem_cons.mp hstack with rfl | hstack
      · exact .inl (.inl rfl)
      · exact .inr (.inr hstack)

variable [DecidableEq Id]

/-- The entries the unvisited nodes can still push. -/
def pending (next : Id → List Id) (nodes : Finset Id) (visited : List Id) : Nat :=
  ∑ node ∈ nodes.filter (· ∉ visited), (next node).length

theorem pending_cons {nodes : Finset Id} (hnodes : ∀ node, node ∉ nodes → next node = [])
    {current : Id} {visited : List Id} (hcurrent : current ∉ visited) :
    (next current).length + pending next nodes (current :: visited) =
      pending next nodes visited := by
  by_cases hmem : current ∈ nodes
  · have hfilter : nodes.filter (· ∉ current :: visited) =
        (nodes.filter (· ∉ visited)).erase current := by
      ext node
      simp only [Finset.mem_filter, Finset.mem_erase, List.mem_cons, not_or]
      tauto
    have hin : current ∈ nodes.filter (· ∉ visited) := by
      simp only [Finset.mem_filter]
      exact ⟨hmem, hcurrent⟩
    rw [pending, pending, hfilter]
    exact Finset.add_sum_erase _ (fun node => (next node).length) hin
  · have hfilter : nodes.filter (· ∉ current :: visited) = nodes.filter (· ∉ visited) := by
      apply Finset.filter_congr
      intro node hnode
      have hne : node ≠ current := fun heq => hmem (heq ▸ hnode)
      simp only [List.mem_cons, hne, false_or]
    rw [pending, pending, hfilter, hnodes current hmem, List.length_nil, Nat.zero_add]

/-- A search that ends within its budget without finding the target has closed the set
of what it visited. -/
theorem closes_of_searchLoop {nodes : Finset Id}
    (hnodes : ∀ node, node ∉ nodes → next node = []) {bound : Nat} {stack visited : List Id}
    (hbudget : stack.length + pending next nodes visited ≤ bound)
    (hexpanded : Expanded next target stack visited)
    (h : searchLoop next target (some target) bound stack visited = false) :
    ∃ closed, Closes next target stack visited closed := by
  induction bound generalizing stack visited with
  | zero =>
      obtain rfl : stack = [] := List.length_eq_zero_iff.mp (by omega)
      exact ⟨_, closes_of_empty hexpanded⟩
  | succ bound ih =>
      cases stack with
      | nil => exact ⟨_, closes_of_empty hexpanded⟩
      | cons current stack =>
          rw [List.length_cons] at hbudget
          simp only [searchLoop] at h
          split at h
          · cases h
          · rename_i hne
            rw [if_neg (by simpa using hne)] at h
            split at h
            · rename_i hseen
              obtain ⟨closed, hsub, hrest⟩ := ih (by omega) (hexpanded.drop hseen) h
              refine ⟨closed, fun x hx => ?_, hrest⟩
              rcases hx with hx | hx
              · exact hsub x (.inl hx)
              · rcases List.mem_cons.mp hx with rfl | hx
                · exact hsub x (.inl hseen)
                · exact hsub x (.inr hx)
            · rename_i hseen
              have hpending := pending_cons hnodes hseen
              obtain ⟨closed, hsub, hrest⟩ := ih
                (by rw [List.length_append, List.length_reverse]; omega)
                (hexpanded.expand hne) h
              refine ⟨closed, fun x hx => ?_, hrest⟩
              rcases hx with hx | hx
              · exact hsub x (.inl (List.mem_cons_of_mem _ hx))
              · rcases List.mem_cons.mp hx with rfl | hx
                · exact hsub x (.inl List.mem_cons_self)
                · exact hsub x (.inr (List.mem_append_right _ hx))

theorem not_reflTransGen_of_reaches (nodes : Finset Id)
    (hnodes : ∀ node, node ∉ nodes → next node = []) {bound : Nat} {start : Id}
    (hbudget : 1 + ∑ node ∈ nodes, (next node).length ≤ bound)
    (h : reaches start target target bound next = false) :
    ¬ ReflTransGen (fun x y => y ∈ next x) start target := by
  have hpending : pending next nodes [] = ∑ node ∈ nodes, (next node).length := by
    simp [pending]
  obtain ⟨closed, hsub, htarget, hclosed⟩ := closes_of_searchLoop hnodes
    (by rw [hpending, List.length_singleton]; exact hbudget)
    (fun x hx => by cases hx) h
  have hreached (y : Id) (hpath : ReflTransGen (fun x y => y ∈ next x) start y) : closed y := by
    induction hpath with
    | refl => exact hsub start (.inr List.mem_cons_self)
    | tail hpath hedge ih => exact hclosed _ _ ih hedge
  exact fun hpath => htarget (hreached target hpath)

end Search

theorem sum_parents_le {Id : Type} [DecidableEq Id] {next : Id → List Id} {nodes : Finset Id}
    {count degree : Nat} (hcount : nodes.card ≤ count)
    (hdegree : ∀ node ∈ nodes, (next node).length ≤ degree) :
    ∑ node ∈ nodes, (next node).length ≤ count * degree :=
  calc ∑ node ∈ nodes, (next node).length
      ≤ nodes.card * degree := by
        rw [← smul_eq_mul]
        exact Finset.sum_le_card_nsmul nodes _ degree hdegree
    _ ≤ count * degree := Nat.mul_le_mul_right degree hcount

section Nodes

variable {K V : Type} [Ord K] [Std.TransOrd K] [DecidableEq K]

def nodesOf (table : Std.ExtTreeMap K V) : Finset K := table.keys.toFinset

theorem mem_nodesOf [Std.LawfulEqOrd K] {table : Std.ExtTreeMap K V} {key : K} :
    key ∈ nodesOf table ↔ key ∈ table := by
  rw [nodesOf, List.mem_toFinset, Std.ExtTreeMap.mem_keys]

theorem card_nodesOf_le (table : Std.ExtTreeMap K V) : (nodesOf table).card ≤ table.size := by
  rw [nodesOf, ← Std.ExtTreeMap.length_keys]
  exact List.toFinset_card_le _

end Nodes

/-- The searches can pop every entry that is ever pushed. -/
def SearchesSuffice (limits : Limits) : Prop :=
  limits.maxInheritsFrom ≤ limits.maxInheritanceDepth + 1

theorem searchesSuffice_default : SearchesSuffice {} := by
  unfold SearchesSuffice
  decide

theorem budget_le {count size degree depth : Nat} (hsize : size ≤ count)
    (hdegree : degree ≤ depth + 1) : 1 + size * degree ≤ (count + 1) * (depth + 1) := by
  have hmul : size * degree ≤ count * (depth + 1) := Nat.mul_le_mul hsize hdegree
  rw [Nat.succ_mul]
  omega

theorem checkAcyclic_eq_ok {tag : IdTag} {what : Bytes} {self : BasicId tag} {bound : Nat}
    {next : BasicId tag → List (BasicId tag)} {parents : List (BasicId tag)} {u : Unit}
    (h : checkAcyclic what self bound next parents = .ok u) :
    ∀ parent ∈ parents, reaches parent self self bound next = false := by
  induction parents with
  | nil =>
      intro parent hparent
      cases hparent
  | cons first rest ih =>
      simp only [checkAcyclic, List.forM, bind_eq_ok, failIf_eq_ok, exists_const,
        Bool.not_eq_true] at h
      rw [List.forall_mem_cons]
      exact ⟨h.1, ih h.2⟩

theorem class_guard {image : StateImage} {mutation : Mutation} {d : PriorityClassDef}
    (hop : mutation.op = .defineClass d) (hvalid : validateMutation image mutation = .ok ())
    (hbounded : Bounded image) (hsearch : SearchesSuffice image.limits) :
    ∀ parent ∈ d.inheritsFrom, ¬ ReflTransGen (ClassEdge image) parent d.id := by
  intro parent hparent
  simp only [validateMutation, hop, validateClass, validateInheritance, bind_eq_ok,
    failIf_eq_ok, exists_const] at hvalid
  obtain ⟨-, -, -, u, -, v, ⟨-, w, -, x, hacyclic, -⟩, -⟩ := hvalid
  have hdegree : ∀ node ∈ nodesOf image.classes,
      (classParents image node).length ≤ image.limits.maxInheritsFrom := by
    intro node hnode
    obtain ⟨entry, hentry⟩ : ∃ entry, image.classes[node]? = some entry :=
      ⟨_, Std.ExtTreeMap.getElem?_eq_some_getElem (mem_nodesOf.mp hnode)⟩
    simp only [classParents, hentry, Option.map_some, Option.getD_some]
    exact (hbounded.tables.classes.good node entry hentry).parents
  have hsum := sum_parents_le (card_nodesOf_le image.classes) hdegree
  refine not_reflTransGen_of_reaches (nodesOf image.classes) ?_ ?_
    (checkAcyclic_eq_ok hacyclic parent hparent)
  · intro node hnode
    have hnone : image.classes[node]? = none :=
      Std.ExtTreeMap.getElem?_eq_none fun hmem => hnode (mem_nodesOf.mpr hmem)
    simp [classParents, hnone]
  · have hbudget : 1 + image.classes.size * image.limits.maxInheritsFrom ≤
        classSearchBound image := budget_le hbounded.sizes.classes hsearch
    omega

theorem subject_guard {image : StateImage} {mutation : Mutation} {d : SubjectDef}
    (hop : mutation.op = .defineSubject d) (hvalid : validateMutation image mutation = .ok ())
    (hbounded : Bounded image) (hsearch : SearchesSuffice image.limits) :
    ∀ parent ∈ d.inheritsFrom, ¬ ReflTransGen (SubjectEdge image) parent d.id := by
  intro parent hparent
  simp only [validateMutation, hop, validateSubject, validateSubjectInheritance, bind_eq_ok,
    failIf_eq_ok, exists_const] at hvalid
  obtain ⟨-, u, -, v, ⟨-, w, -, hacyclic⟩, -⟩ := hvalid
  have hdegree : ∀ node ∈ nodesOf image.subjects,
      (subjectParents image node).length ≤ image.limits.maxInheritsFrom := by
    intro node hnode
    obtain ⟨entry, hentry⟩ : ∃ entry, image.subjects[node]? = some entry :=
      ⟨_, Std.ExtTreeMap.getElem?_eq_some_getElem (mem_nodesOf.mp hnode)⟩
    simp only [subjectParents, hentry, Option.map_some, Option.getD_some]
    exact (hbounded.tables.subjects.good node entry hentry).parents
  have hsum := sum_parents_le (card_nodesOf_le image.subjects) hdegree
  refine not_reflTransGen_of_reaches (nodesOf image.subjects) ?_ ?_
    (checkAcyclic_eq_ok hacyclic parent hparent)
  · intro node hnode
    have hnone : image.subjects[node]? = none :=
      Std.ExtTreeMap.getElem?_eq_none fun hmem => hnode (mem_nodesOf.mpr hmem)
    simp [subjectParents, hnone]
  · have hbudget : 1 + image.subjects.size * image.limits.maxInheritsFrom ≤
        subjectSearchBound image := budget_le hbounded.sizes.subjects hsearch
    omega

theorem checkScopeWalk_eq_ok {image : StateImage} {self parent : PolicyScopeId} {room : Nat}
    {cursor : PolicyScopeId} {visited : List PolicyScopeId} {u : Unit}
    (h : checkScopeWalk image self parent room cursor visited = .ok u) :
    ¬ ReflTransGen (ScopeEdge image) cursor self := by
  induction room generalizing cursor visited with
  | zero =>
      simp only [checkScopeWalk] at h
      split at h
      · cases h
      · split at h <;> cases h
  | succ room ih =>
      simp only [checkScopeWalk] at h
      split at h
      · cases h
      · rename_i hne
        split at h
        · cases h
        · split at h
          · cases h
          · rename_i node hnode
            intro hpath
            rcases ReflTransGen.cases_head hpath with heq | ⟨next, hedge, hrest⟩
            · exact hne heq
            · simp only [ScopeEdge, scopeParent, hnode, Option.bind_some] at hedge
              rw [hedge] at h
              exact ih h hrest

theorem scope_guard {image : StateImage} {mutation : Mutation} {d : PolicyScopeDef}
    (hop : mutation.op = .defineScope d) (hvalid : validateMutation image mutation = .ok ()) :
    ∀ parent, d.parent = some parent → ¬ ReflTransGen (ScopeEdge image) parent d.id := by
  intro parent hparent
  simp only [validateMutation, hop, validateScope, bind_eq_ok, failIf_eq_ok,
    exists_const, hparent, checkScopeParent] at hvalid
  obtain ⟨-, u, -, v, -, w, ⟨-, -, hwalk⟩, -⟩ := hvalid
  exact checkScopeWalk_eq_ok hwalk

structure NoCycles (image : StateImage) : Prop where
  classes : Acyclic (ClassEdge image)
  subjects : Acyclic (SubjectEdge image)
  scopes : Acyclic (ScopeEdge image)

theorem noCycles_empty (limits : Limits) : NoCycles { limits } := by
  refine ⟨?_, ?_, ?_⟩
  · intro x hcycle
    obtain ⟨z, hz, -⟩ := TransGen.head'_iff.mp hcycle
    simp [ClassEdge, classParents] at hz
  · intro x hcycle
    obtain ⟨z, hz, -⟩ := TransGen.head'_iff.mp hcycle
    simp [SubjectEdge, subjectParents] at hz
  · intro x hcycle
    obtain ⟨z, hz, -⟩ := TransGen.head'_iff.mp hcycle
    simp [ScopeEdge, scopeParent] at hz

theorem noCycles_applyMutation {image image' : StateImage} {mutation : Mutation}
    {replay : Bool} (h : NoCycles image) (hbounded : Bounded image)
    (hsearch : SearchesSuffice image.limits)
    (happly : applyMutation image mutation replay = (.ok (), image')) : NoCycles image' := by
  obtain ⟨expected, hadmissible, -⟩ := applyMutation_eq_ok_iff.mp happly
  have hstep := graphStep_of_applyMutation happly
  refine ⟨?_, ?_, ?_⟩
  · rcases hstep.classes with hsame | ⟨d, hop, hredirects⟩
    · unfold ClassEdge classParents
      rw [hsame]
      exact h.classes
    · exact h.classes.redirect hredirects
        (class_guard hop hadmissible.valid hbounded hsearch)
  · rcases hstep.subjects with hsame | ⟨d, hop, hredirects⟩
    · unfold SubjectEdge subjectParents
      rw [hsame]
      exact h.subjects
    · exact h.subjects.redirect hredirects
        (subject_guard hop hadmissible.valid hbounded hsearch)
  · rcases hstep.scopes with hsame | ⟨d, hop, hredirects⟩
    · unfold ScopeEdge scopeParent
      rw [hsame]
      exact h.scopes
    · exact h.scopes.redirect hredirects (scope_guard hop hadmissible.valid)

theorem noCycles_of_built {limits : Limits} (hsearch : SearchesSuffice limits)
    {image : StateImage} (h : Built limits image) : NoCycles image := by
  induction h with
  | empty => exact noCycles_empty limits
  | accepted h happly ih =>
      have hlimits : SearchesSuffice _ := h.limits_eq ▸ hsearch
      exact noCycles_applyMutation ih h.bounded hlimits happly

/-- Under the default limits no sequence of accepted mutations closes a cycle. -/
theorem built_acyclic {image : StateImage} (h : Built {} image) :
    Acyclic (ClassEdge image) ∧ Acyclic (SubjectEdge image) ∧ Acyclic (ScopeEdge image) := by
  obtain ⟨hclasses, hsubjects, hscopes⟩ := noCycles_of_built searchesSuffice_default h
  exact ⟨hclasses, hsubjects, hscopes⟩

theorem built_acyclic_child :
    ClassEdge parentAndChild ⟨[97], wellFormed_a⟩ ⟨[108], wellFormed_l⟩ ∧
      Acyclic (ClassEdge parentAndChild) :=
  ⟨by unfold ClassEdge; decide, (built_acyclic built_parentAndChild).1⟩

end PriorityFabric.Inheritance
