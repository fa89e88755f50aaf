import Mathlib.Algebra.BigOperators.Group.Finset.Basic
import Mathlib.Algebra.Order.BigOperators.Group.Finset
import Mathlib.Logic.Relation

/-!
Walks along a relation, and what changing the edges of one node does to them.
-/

namespace PriorityFabric.Lib.Walks

open Relation

variable {α : Type}

def Hops (r : α → α → Prop) : Nat → α → α → Prop
  | 0, x, y => x = y
  | n + 1, x, y => ∃ z, r x z ∧ Hops r n z y

def Acyclic (r : α → α → Prop) : Prop := ∀ x, ¬ TransGen r x x

section Hops

variable {r : α → α → Prop}

theorem Hops.append {m n : Nat} {x y z : α} (h : Hops r m x y) (h' : Hops r n y z) :
    Hops r (m + n) x z := by
  induction m generalizing x with
  | zero =>
      obtain rfl := h
      rw [Nat.zero_add]
      exact h'
  | succ m ih =>
      obtain ⟨w, hw, hrest⟩ := h
      rw [Nat.succ_add]
      exact ⟨w, hw, ih hrest⟩

theorem Hops.reflTransGen {n : Nat} {x y : α} (h : Hops r n x y) : ReflTransGen r x y := by
  induction n generalizing x with
  | zero =>
      obtain rfl := h
      exact .refl
  | succ n ih =>
      obtain ⟨z, hz, hrest⟩ := h
      exact .head hz (ih hrest)

theorem exists_hops {x y : α} (h : ReflTransGen r x y) : ∃ n, Hops r n x y := by
  induction h using ReflTransGen.head_induction_on with
  | refl => exact ⟨0, rfl⟩
  | head hz hrest ih =>
      obtain ⟨n, hn⟩ := ih
      exact ⟨n + 1, _, hz, hn⟩

theorem Hops.tail {n : Nat} {x y z : α} (h : Hops r n x y) (hz : r y z) :
    Hops r (n + 1) x z :=
  h.append ⟨z, hz, rfl⟩

theorem Hops.last {n : Nat} {x z : α} (h : Hops r (n + 1) x z) :
    ∃ y, Hops r n x y ∧ r y z := by
  induction n generalizing x with
  | zero =>
      obtain ⟨y, hy, rfl⟩ := h
      exact ⟨x, rfl, hy⟩
  | succ n ih =>
      obtain ⟨w, hw, hrest⟩ := h
      obtain ⟨y, hy, hz⟩ := ih hrest
      exact ⟨y, ⟨w, hw, hy⟩, hz⟩

/-- The shortest walk from `x` to `y` has `n` steps. -/
def Distance (r : α → α → Prop) (n : Nat) (x y : α) : Prop :=
  Hops r n x y ∧ ∀ m, m < n → ¬ Hops r m x y

theorem Distance.unique {m n : Nat} {x y : α} (hm : Distance r m x y)
    (hn : Distance r n x y) : m = n := by
  rcases Nat.lt_trichotomy m n with hlt | heq | hgt
  · exact absurd hm.1 (hn.2 m hlt)
  · exact heq
  · exact absurd hn.1 (hm.2 n hgt)

theorem not_cycle_of_bounded {bound : Nat} {x y : α} (h : ∀ n z, Hops r n x z → n ≤ bound)
    (hreach : ReflTransGen r x y) : ¬ TransGen r y y := by
  intro hcycle
  obtain ⟨k, hk⟩ := exists_hops hreach
  obtain ⟨z, hz, hback⟩ := TransGen.head'_iff.mp hcycle
  obtain ⟨n, hn⟩ := exists_hops hback
  have hround : Hops r (n + 1) y y := ⟨z, hz, hn⟩
  have hmany (m : Nat) : Hops r (k + m * (n + 1)) x y := by
    induction m with
    | zero =>
        rw [Nat.zero_mul]
        exact hk
    | succ m ih =>
        rw [Nat.succ_mul, ← Nat.add_assoc]
        exact ih.append hround
  have hle := h _ _ (hmany (bound + 1))
  have hmul : (bound + 1) * 1 ≤ (bound + 1) * (n + 1) :=
    Nat.mul_le_mul_left _ (Nat.le_add_left 1 n)
  omega

theorem acyclic_of_bounded {bound : Nat} (h : ∀ n x y, Hops r n x y → n ≤ bound) :
    Acyclic r :=
  fun x => not_cycle_of_bounded (fun n z => h n x z) .refl

def Longest (r : α → α → Prop) (n : Nat) (x : α) : Prop :=
  (∃ y, Hops r n x y) ∧ ∀ m y, Hops r m x y → m ≤ n

theorem Longest.unique {m n : Nat} {x : α} (hm : Longest r m x) (hn : Longest r n x) : m = n := by
  obtain ⟨⟨y, hy⟩, hmax⟩ := hm
  obtain ⟨⟨z, hz⟩, hmax'⟩ := hn
  exact Nat.le_antisymm (hmax' m y hy) (hmax n z hz)

theorem exists_longest {bound : Nat} {x : α} (h : ∀ n y, Hops r n x y → n ≤ bound) :
    ∃ n ≤ bound, Longest r n x := by
  classical
  have hsome : ∃ y, Hops r 0 x y := ⟨x, rfl⟩
  refine ⟨Nat.findGreatest (fun n => ∃ y, Hops r n x y) bound, Nat.findGreatest_le bound, ?_, ?_⟩
  · exact Nat.findGreatest_spec (P := fun n => ∃ y, Hops r n x y) (Nat.zero_le bound) hsome
  · exact fun m y hm => Nat.le_findGreatest (h m y hm) ⟨y, hm⟩

end Hops

/-- `r'` is `r` with the edges out of `node` replaced by `targets`. -/
structure Redirects (r r' : α → α → Prop) (node : α) (targets : α → Prop) : Prop where
  elsewhere : ∀ x y, x ≠ node → (r' x y ↔ r x y)
  here : ∀ y, r' node y ↔ targets y

section Redirects

variable {r r' : α → α → Prop} {node : α} {targets : α → Prop}

theorem Redirects.hops (h : Redirects r r' node targets)
    (hnew : ∀ y, targets y → ¬ ReflTransGen r y node) {n : Nat} {x y : α}
    (hwalk : Hops r' n x y) :
    Hops r n x y ∨ ∃ k l target, n = k + 1 + l ∧ Hops r k x node ∧ targets target ∧
      Hops r l target y := by
  induction n generalizing x with
  | zero => exact .inl hwalk
  | succ n ih =>
      obtain ⟨z, hz, hrest⟩ := hwalk
      by_cases hx : x = node
      · subst hx
        have htarget := (h.here z).mp hz
        rcases ih hrest with hold | ⟨k, l, target, -, hback, -, -⟩
        · exact .inr ⟨0, n, z, by omega, rfl, htarget, hold⟩
        · exact absurd hback.reflTransGen (hnew z htarget)
      · have hold := (h.elsewhere x z hx).mp hz
        rcases ih hrest with hrest | ⟨k, l, target, rfl, hk, htarget, hl⟩
        · exact .inl ⟨z, hold, hrest⟩
        · exact .inr ⟨k + 1, l, target, by omega, ⟨z, hold, hk⟩, htarget, hl⟩

theorem Redirects.hops_iff (h : Redirects r r' node targets) {n : Nat} {x y : α}
    (hx : ¬ ReflTransGen r x node) : Hops r' n x y ↔ Hops r n x y := by
  induction n generalizing x with
  | zero => exact Iff.rfl
  | succ n ih =>
      have hne : x ≠ node := by
        rintro rfl
        exact hx .refl
      have hstep (z : α) : r' x z ∧ Hops r' n z y ↔ r x z ∧ Hops r n z y := by
        rw [h.elsewhere x z hne]
        constructor
        · rintro ⟨hz, hrest⟩
          exact ⟨hz, (ih fun hback => hx (.head hz hback)).mp hrest⟩
        · rintro ⟨hz, hrest⟩
          exact ⟨hz, (ih fun hback => hx (.head hz hback)).mpr hrest⟩
      exact exists_congr hstep

theorem Acyclic.redirect (hacyclic : Acyclic r) (h : Redirects r r' node targets)
    (hnew : ∀ y, targets y → ¬ ReflTransGen r y node) : Acyclic r' := by
  intro x hcycle
  obtain ⟨z, hz, hback⟩ := TransGen.head'_iff.mp hcycle
  obtain ⟨n, hn⟩ := exists_hops hback
  have hround : Hops r' (n + 1) x x := ⟨z, hz, hn⟩
  rcases h.hops hnew hround with ⟨w, hw, hrest⟩ | ⟨k, l, target, -, hk, htarget, hl⟩
  · exact hacyclic x (TransGen.head'_iff.mpr ⟨w, hw, hrest.reflTransGen⟩)
  · exact hnew target htarget (hl.reflTransGen.trans hk.reflTransGen)

end Redirects

end PriorityFabric.Lib.Walks
