import PriorityFabric.Tiers
import Mathlib.Data.Set.Card

/-!
The list of a subject's ancestors is exact on every graph.

The breadth-first walk ends whatever the parent lists say, cyclic and dangling
ones included.  It succeeds exactly when every ancestor is defined and near
enough and there are not too many, and then lists each once at its distance.
-/

namespace PriorityFabric.AncestorLists

open Relation
open PriorityFabric.Lib.Walks
open PriorityFabric.Basics
open PriorityFabric.Ident
open PriorityFabric.State
open PriorityFabric.Inheritance
open PriorityFabric.Ancestry
open PriorityFabric.Tiers

variable {image : StateImage} {id : SubjectId}

/-- `y` is another subject that `id` inherits from, at any remove. -/
def IsAncestor (image : StateImage) (id y : SubjectId) : Prop :=
  y ≠ id ∧ ReflTransGen (SubjectEdge image) id y

/-- The ancestors of a subject can be listed. -/
structure Listable (image : StateImage) (id : SubjectId) : Prop where
  defined : id ∈ image.subjects
  known : ∀ y, IsAncestor image id y → y ∈ image.subjects
  near : ∀ y, IsAncestor image id y →
    ∃ m ≤ image.limits.maxInheritanceDepth, Distance (SubjectEdge image) m id y
  few : {y | IsAncestor image id y}.encard ≤ image.limits.maxQuerySteps

/-- Each ancestor is listed once, at its distance, in the order of distances and ids. -/
structure Lists (image : StateImage) (id : SubjectId) (ancestors : List (SubjectId × Nat)) :
    Prop where
  mem_iff : ∀ y m, (y, m) ∈ ancestors ↔
    IsAncestor image id y ∧ Distance (SubjectEdge image) m id y
  once : (ancestors.map (·.1)).Nodup
  ordered : ancestors.Pairwise fun a b =>
    a.2 < b.2 ∨ (a.2 = b.2 ∧ compare a.1 b.1 = .lt)

theorem fold_beyond {n : Nat} {level level' : AncestorLevel} {rest : List (SubjectId × Nat)}
    (hdeep : image.limits.maxInheritanceDepth < n) (hrest : ∀ entry ∈ rest, entry.2 = n)
    (hfold : rest.foldlM (ancestorStep image id) level = .ok level') : level' = level := by
  induction rest generalizing level with
  | nil =>
      cases hfold
      rfl
  | cons entry rest ih =>
      rw [List.foldlM_cons, bind_eq_ok] at hfold
      obtain ⟨mid, hmid, hfold⟩ := hfold
      have hdistance := hrest entry (by simp)
      have hstep := stepped_ancestorStep image id level entry
      rw [hmid] at hstep
      cases hstep with
      | known hseen => exact ih (fun e he => hrest e (by simp [he])) hfold
      | listed hnew hdepth hcount => omega

/-- With the rounds it has, the walk comes to its end: further rounds change nothing. -/
theorem ancestorLoop_ends {fuel n : Nat} {seen : List SubjectId}
    {out frontier : List (SubjectId × Nat)} (h : LevelAt image id n { seen, out } frontier)
    (hfar : image.limits.maxInheritanceDepth + 2 ≤ n → frontier = [])
    (hfuel : image.limits.maxInheritanceDepth + 2 ≤ n + fuel) (more : Nat) :
    ancestorLoop image id (fuel + more) seen out frontier =
      ancestorLoop image id fuel seen out frontier := by
  induction fuel generalizing n seen out frontier with
  | zero =>
      rw [hfar hfuel]
      cases more <;> rfl
  | succ fuel ih =>
      rw [Nat.succ_add]
      cases frontier with
      | nil => rfl
      | cons entry rest =>
          rw [ancestorLoop, ancestorLoop]
          cases hfold : (entry :: rest).foldlM (ancestorStep image id) { seen, out } with
          | error e => rfl
          | ok level =>
              refine ih (h.fold hfold).advance (fun hdeep => ?_) (by omega)
              have hsame := fold_beyond (show image.limits.maxInheritanceDepth < n by omega)
                (fun e he => (h.rest e he).1) hfold
              rw [hsame]

/-- What is listed is defined, and not too much. -/
def Checked (image : StateImage) (out : List (SubjectId × Nat)) : Prop :=
  (∀ entry ∈ out, entry.1 ∈ image.subjects) ∧ out.length ≤ image.limits.maxQuerySteps

theorem checked_ancestorStep {level level' : AncestorLevel} {entry : SubjectId × Nat}
    (h : Checked image level.out) (hstep : ancestorStep image id level entry = .ok level') :
    Checked image level'.out := by
  unfold ancestorStep at hstep
  split at hstep
  · cases hstep
    exact h
  · rw [bind_eq_ok] at hstep
    obtain ⟨-, -, hstep⟩ := hstep
    split at hstep
    · cases hstep
    · rename_i node hnode
      simp only [bind_eq_ok, failIf_eq_ok, exists_const, pure, Except.pure,
        Except.ok.injEq] at hstep
      obtain ⟨hcount, rfl⟩ := hstep
      refine ⟨fun found hfound => ?_, Nat.le_of_not_gt hcount⟩
      rcases List.mem_append.mp hfound with hold | hlast
      · exact h.1 found hold
      · obtain rfl := List.mem_singleton.mp hlast
        rw [Std.ExtTreeMap.mem_iff_contains, Std.ExtTreeMap.contains_eq_isSome_getElem?, hnode]
        rfl

theorem checked_fold {level level' : AncestorLevel} {rest : List (SubjectId × Nat)}
    (h : Checked image level.out)
    (hfold : rest.foldlM (ancestorStep image id) level = .ok level') :
    Checked image level'.out := by
  induction rest generalizing level with
  | nil =>
      cases hfold
      exact h
  | cons entry rest ih =>
      rw [List.foldlM_cons, bind_eq_ok] at hfold
      obtain ⟨mid, hmid, hfold⟩ := hfold
      exact ih (checked_ancestorStep h hmid) hfold

theorem checked_ancestorLoop {fuel : Nat} {seen : List SubjectId}
    {out frontier result : List (SubjectId × Nat)} (h : Checked image out)
    (hloop : ancestorLoop image id fuel seen out frontier = .ok result) :
    Checked image result := by
  induction fuel generalizing seen out frontier with
  | zero =>
      cases hloop
      exact h
  | succ fuel ih =>
      cases frontier with
      | nil =>
          cases hloop
          exact h
      | cons entry rest =>
          rw [ancestorLoop, bind_eq_ok] at hloop
          obtain ⟨level, hfold, hloop⟩ := hloop
          exact ih (checked_fold h hfold) hloop

theorem exists_distance {α : Type} {r : α → α → Prop} {x y : α} (h : ReflTransGen r x y) :
    ∃ m, Distance r m x y := by
  classical
  have hhops := exists_hops h
  exact ⟨Nat.find hhops, Nat.find_spec hhops, fun m hm => Nat.find_min hhops hm⟩

theorem lists_of_ok {ancestors : List (SubjectId × Nat)}
    (h : subjectAncestors image id = .ok ancestors) : Lists image id ancestors := by
  have hcomplete := subjectAncestors_complete h
  obtain ⟨-, out, hloop, rfl⟩ := subjectAncestors_eq_ok h
  obtain ⟨last, level, rest, hlevel, rfl, -⟩ :=
    ancestorLoop_level (levelAt_start image id) (by omega) hloop
  have honce : ((level.out.mergeSort nearer).map (·.1)).Nodup :=
    ((List.mergeSort_perm level.out nearer).map _).nodup_iff.mpr hlevel.distinct
  refine ⟨fun y m => ?_, honce, ?_⟩
  · rw [hcomplete y m]
    constructor
    · rintro ⟨hne, hdistance⟩
      exact ⟨⟨hne, hdistance.1.reflTransGen⟩, hdistance⟩
    · rintro ⟨⟨hne, -⟩, hdistance⟩
      exact ⟨hne, hdistance⟩
  · have hsorted := List.pairwise_mergeSort nearer_trans nearer_total level.out
    have hdistinct := List.pairwise_map.mp honce
    refine (hsorted.and hdistinct).imp ?_
    rintro a b ⟨hnearer, hne⟩
    rcases nearer_iff.mp hnearer with hlt | ⟨heq, hle⟩
    · exact .inl hlt
    · refine .inr ⟨heq, ?_⟩
      cases hcompare : compare a.1 b.1 with
      | lt => rfl
      | eq => exact absurd (Std.LawfulEqOrd.eq_of_compare hcompare) hne
      | gt =>
          rw [hcompare] at hle
          cases hle

theorem listable_of_ok {ancestors : List (SubjectId × Nat)}
    (h : subjectAncestors image id = .ok ancestors) : Listable image id := by
  have hcomplete := subjectAncestors_complete h
  obtain ⟨hdefined, out, hloop, rfl⟩ := subjectAncestors_eq_ok h
  have hchecked := checked_ancestorLoop (show Checked image [] from ⟨by simp, by simp⟩) hloop
  obtain ⟨last, level, rest, hlevel, rfl, -⟩ :=
    ancestorLoop_level (levelAt_start image id) (by omega) hloop
  have hlisted (y : SubjectId) (hy : IsAncestor image id y) :
      ∃ m, Distance (SubjectEdge image) m id y ∧ (y, m) ∈ level.out := by
    obtain ⟨m, hm⟩ := exists_distance hy.2
    exact ⟨m, hm, List.mem_mergeSort.mp ((hcomplete y m).mpr ⟨hy.1, hm⟩)⟩
  refine ⟨hdefined, fun y hy => ?_, fun y hy => ?_, ?_⟩
  · obtain ⟨m, -, hmem⟩ := hlisted y hy
    exact hchecked.1 (y, m) hmem
  · obtain ⟨m, hdistance, hmem⟩ := hlisted y hy
    exact ⟨m, (hlevel.out (y, m) hmem).2.1, hdistance⟩
  · have hsubset : {y | IsAncestor image id y} ⊆ (level.out.map (·.1)).toFinset := by
      intro y hy
      obtain ⟨m, -, hmem⟩ := hlisted y hy
      rw [List.coe_toFinset]
      exact List.mem_map.mpr ⟨_, hmem, rfl⟩
    refine (Set.encard_le_encard hsubset).trans ?_
    rw [Set.encard_coe_eq_coe_finsetCard, Nat.cast_le]
    refine (List.toFinset_card_le _).trans ?_
    rw [List.length_map]
    exact hchecked.2

theorem Listable.inReach (h : Listable image id) : InReach image id where
  shallow n y hwalk := by
    by_cases hy : y = id
    · exact ⟨0, Nat.zero_le _, hy.symm⟩
    · obtain ⟨m, hm, hdistance⟩ := h.near y ⟨hy, hwalk.reflTransGen⟩
      exact ⟨m, hm, hdistance.1⟩
  defined n y hwalk := by
    by_cases hy : y = id
    · rw [hy]
      exact h.defined
    · exact h.known y ⟨hy, hwalk.reflTransGen⟩

theorem Listable.ok (h : Listable image id) :
    ∃ ancestors, subjectAncestors image id = .ok ancestors := by
  cases hresult : subjectAncestors image id with
  | ok ancestors => exact ⟨ancestors, rfl⟩
  | error e =>
      obtain ⟨-, ancestors, hnodup, hancestors, hcount⟩ :=
        subjectAncestors_error h.inReach h.defined hresult
      have hsubset : (ancestors.toFinset : Set SubjectId) ⊆ {y | IsAncestor image id y} := by
        intro y hy
        rw [List.coe_toFinset] at hy
        obtain ⟨hne, m, hwalk⟩ := hancestors y hy
        exact ⟨hne, hwalk.reflTransGen⟩
      have hfew := (Set.encard_le_encard hsubset).trans h.few
      rw [Set.encard_coe_eq_coe_finsetCard, Nat.cast_le, List.toFinset_card_of_nodup hnodup]
        at hfew
      omega

/-- On every graph the walk over the ancestors of a subject ends; it succeeds exactly when
the ancestors can be listed, and then lists them. -/
theorem ancestors_listed_exactly (image : StateImage) (id : SubjectId) :
    (∀ more, ancestorLoop image id (image.limits.maxInheritanceDepth + 2 + more) [id] []
        ((subjectParents image id).map (·, 1)) =
      ancestorLoop image id (image.limits.maxInheritanceDepth + 2) [id] []
        ((subjectParents image id).map (·, 1))) ∧
    ((∃ ancestors, subjectAncestors image id = .ok ancestors) ↔ Listable image id) ∧
    ∀ ancestors, subjectAncestors image id = .ok ancestors → Lists image id ancestors := by
  refine ⟨fun more => ?_, ⟨?_, Listable.ok⟩, fun ancestors h => lists_of_ok h⟩
  · exact ancestorLoop_ends (levelAt_start image id) (by omega) (by omega) more
  · rintro ⟨ancestors, h⟩
    exact listable_of_ok h

end PriorityFabric.AncestorLists
