import PriorityFabric.LongestPaths
import PriorityFabric.Delivered

/-!
What `class_implies` finds.

The search pops one entry for every edge it meets and gives up after a number of
pops that depends on the limits, not on the number of edges.  It finds what comes
early enough in the depth-first listing of the candidate's ancestors.
-/

namespace PriorityFabric.Implications

open Relation
open PriorityFabric.Basics
open PriorityFabric.Ident
open PriorityFabric.Model
open PriorityFabric.State
open PriorityFabric.Registry
open PriorityFabric.Inheritance
open PriorityFabric.LongestPaths
open PriorityFabric.Delivered (bySystem someClassNamed applyAll acceptedAll built_applyAll)

section Listing

variable {Id : Type} [DecidableEq Id] {next : Id → List Id} {target : Id}

/-- The entries a depth-first search comes to, one for every edge it meets and the last
successor first; `fuel` bounds their number. -/
def listing (next : Id → List Id) : (fuel : Nat) → (stack visited : List Id) → List Id
  | 0, _, _ => []
  | _ + 1, [], _ => []
  | fuel + 1, current :: stack, visited =>
      current ::
        if current ∈ visited then listing next fuel stack visited
        else listing next fuel ((next current).reverse ++ stack) (current :: visited)

theorem searchLoop_iff {bound : Nat} {stack visited : List Id} :
    searchLoop next target none bound stack visited = true ↔
      target ∈ listing next bound stack visited := by
  induction bound generalizing stack visited with
  | zero => simp [searchLoop, listing]
  | succ bound ih =>
      cases stack with
      | nil => simp [searchLoop, listing]
      | cons current stack =>
          by_cases htarget : current = target
          · simp [searchLoop, listing, htarget]
          · by_cases hseen : current ∈ visited
            · simp [searchLoop, listing, htarget, Ne.symm htarget, hseen, ih]
            · simp [searchLoop, listing, htarget, Ne.symm htarget, hseen, ih]

theorem listing_take {fuel : Nat} (bound : Nat) {stack visited : List Id} (h : bound ≤ fuel) :
    (listing next fuel stack visited).take bound = listing next bound stack visited := by
  induction bound generalizing fuel stack visited with
  | zero => rfl
  | succ bound ih =>
      obtain ⟨fuel, rfl⟩ := Nat.exists_eq_add_one_of_ne_zero (show fuel ≠ 0 by omega)
      cases stack with
      | nil => rfl
      | cons current stack =>
          simp only [listing, List.take_succ_cons, List.cons.injEq, true_and]
          split
          · exact ih (by omega)
          · exact ih (by omega)

theorem reachable_of_listing {fuel : Nat} {stack visited : List Id}
    (h : target ∈ listing next fuel stack visited) :
    ∃ start ∈ stack, ReflTransGen (fun x y => y ∈ next x) start target := by
  induction fuel generalizing stack visited with
  | zero => cases h
  | succ fuel ih =>
      cases stack with
      | nil => cases h
      | cons current stack =>
          rcases List.mem_cons.mp h with rfl | h
          · exact ⟨target, List.mem_cons_self, .refl⟩
          · split at h
            · obtain ⟨start, hstart, hpath⟩ := ih h
              exact ⟨start, List.mem_cons_of_mem _ hstart, hpath⟩
            · obtain ⟨start, hstart, hpath⟩ := ih h
              rcases List.mem_append.mp hstart with hnext | hstart
              · exact ⟨current, List.mem_cons_self, .head (List.mem_reverse.mp hnext) hpath⟩
              · exact ⟨start, List.mem_cons_of_mem _ hstart, hpath⟩

theorem searchLoop_target {bound : Nat} {stack visited : List Id} :
    searchLoop next target (some target) bound stack visited =
      searchLoop next target none bound stack visited := by
  induction bound generalizing stack visited with
  | zero => rfl
  | succ bound ih =>
      cases stack with
      | nil => rfl
      | cons current stack =>
          by_cases htarget : current = target
          · simp [searchLoop, htarget]
          · simp [searchLoop, htarget, ih]

theorem mem_listing_iff (nodes : Finset Id) (hnodes : ∀ node, node ∉ nodes → next node = [])
    {fuel : Nat} {start : Id} (hfuel : 1 + ∑ node ∈ nodes, (next node).length ≤ fuel) :
    target ∈ listing next fuel [start] [] ↔
      ReflTransGen (fun x y => y ∈ next x) start target := by
  constructor
  · intro h
    obtain ⟨first, hfirst, hpath⟩ := reachable_of_listing h
    rwa [List.mem_singleton.mp hfirst] at hpath
  · intro hpath
    by_contra hnot
    have hfalse : reaches start target target fuel next = false := by
      rw [reaches, searchLoop_target, ← Bool.not_eq_true, searchLoop_iff]
      exact hnot
    exact not_reflTransGen_of_reaches nodes hnodes hfuel hfalse hpath

end Listing

/-- The parents the registered classes list, all together. -/
def parentCount (image : StateImage) : Nat :=
  (image.classes.toList.map fun entry => entry.2.definition.inheritsFrom.length).sum

/-- The depth-first listing of a class and its ancestors. -/
def depthFirst (image : StateImage) (cls : PriorityClassId) : List PriorityClassId :=
  listing (classParents image) (1 + parentCount image) [cls] []

section Implies

variable {image : StateImage} {candidate required : PriorityClassId}

theorem classImplies_iff : classImplies image candidate required = true ↔
    required ∈ listing (classParents image) (classSearchBound image) [candidate] [] := by
  obtain ⟨bound, hbound⟩ := Nat.exists_eq_add_one_of_ne_zero
    (show classSearchBound image ≠ 0 from Nat.mul_ne_zero (Nat.succ_ne_zero _) (Nat.succ_ne_zero _))
  unfold classImplies
  split
  · rename_i heq
    rw [hbound, heq]
    simp [listing]
  · exact searchLoop_iff

theorem mem_listing_classes {fuel : Nat} (hfuel : 1 + parentCount image ≤ fuel) :
    required ∈ listing (classParents image) fuel [candidate] [] ↔
      ReflTransGen (ClassEdge image) candidate required := by
  refine mem_listing_iff (nodesOf image.classes) (fun cls hcls => classParents_eq_nil hcls) ?_
  rwa [sum_parents_eq image fun _ n => n]

/-- The search finds the required class exactly when it comes within the bound in the
depth-first listing. -/
theorem classImplies_iff_take : classImplies image candidate required = true ↔
    required ∈ (depthFirst image candidate).take (classSearchBound image) := by
  rw [classImplies_iff]
  rcases Nat.le_total (classSearchBound image) (1 + parentCount image) with hle | hle
  · rw [depthFirst, listing_take _ hle]
  · have hall : (depthFirst image candidate).take (classSearchBound image) =
        depthFirst image candidate := by
      have hself := @listing_take _ _ (classParents image) _ (1 + parentCount image)
        [candidate] [] (le_refl _)
      rw [depthFirst, ← hself, List.take_take, min_eq_right hle]
    rw [hall, depthFirst, mem_listing_classes hle, mem_listing_classes (le_refl _)]

/-- `class_implies` agrees with the closure of inheritance exactly where what is required is
out of reach, or comes within the bound in the depth-first listing of the candidate's
ancestors; and everywhere, where the classes list few enough parents. -/
theorem class_implies_closure_iff (image : StateImage) :
    (∀ candidate required,
      (classImplies image candidate required = true ↔
          ReflTransGen (ClassEdge image) candidate required) ↔
        (ReflTransGen (ClassEdge image) candidate required →
          required ∈ (depthFirst image candidate).take (classSearchBound image))) ∧
      (parentCount image < classSearchBound image → ∀ candidate required,
        (classImplies image candidate required = true ↔
          ReflTransGen (ClassEdge image) candidate required)) := by
  constructor
  · intro candidate required
    rw [classImplies_iff_take]
    constructor
    · exact fun h => h.mpr
    · intro h
      refine ⟨fun hmem => ?_, h⟩
      exact (mem_listing_classes (le_refl _)).mp (List.mem_of_mem_take hmem)
  · intro hfew candidate required
    rw [classImplies_iff]
    exact mem_listing_classes (by omega)

end Implies

theorem wellFormed_node (n : Fin 7) :
    idGrammar [UInt8.ofNat (97 + n.val)] = true ∧
      [UInt8.ofNat (97 + n.val)].length ≤ 4096 := by
  revert n
  decide

def node (n : Fin 7) : PriorityClassId :=
  ⟨[UInt8.ofNat (97 + n.val)], .inr (wellFormed_node n)⟩

def inheriting (n : Fin 7) (parents : List (Fin 7)) : Mutation :=
  bySystem (.defineClass
    { id := node n, precedence := .make (UInt32.ofNat n.val), inheritsFrom := parents.map node })

/-- The last class is the first parent of the first one; those between inherit from all that
come after them.  Each definition is within the depth limit when it is made. -/
def dense : List Mutation :=
  [inheriting 1 [], inheriting 2 [], inheriting 3 [], inheriting 4 [], inheriting 5 [],
    inheriting 6 [], inheriting 0 [6, 1, 2, 3, 4, 5],
    inheriting 1 [2, 3, 4, 5], inheriting 2 [3, 4, 5], inheriting 3 [4, 5], inheriting 4 [5]]

def denseLimits : Limits := { maxClasses := 7, maxInheritanceDepth := 1 }

/-- A direct parent is not found, because the search gives up before it comes to it. -/
theorem direct_parent_missed :
    ¬ ∀ (limits : Limits) (image : StateImage), limitsWithinCompiledCeiling limits = true →
      Built limits image → ∀ candidate required,
        (classImplies image candidate required = true ↔
          ReflTransGen (ClassEdge image) candidate required) := by
  intro h
  have hbuilt : Built denseLimits (applyAll { limits := denseLimits } dense) :=
    built_applyAll .empty (by decide)
  have hedge : ClassEdge (applyAll { limits := denseLimits } dense) (node 0) (node 6) := by
    unfold ClassEdge
    decide
  have hmissed : classImplies (applyAll { limits := denseLimits } dense) (node 0) (node 6) =
      false := by decide
  have hfound := (h denseLimits _ (by decide) hbuilt (node 0) (node 6)).mpr (.single hedge)
  rw [hmissed] at hfound
  cases hfound

end PriorityFabric.Implications
