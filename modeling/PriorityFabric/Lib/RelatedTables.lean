import Mathlib.Data.List.Nodup
import Std.Data.ExtTreeMap

/-!
Two tables with the same keys, related value by value.

Relations between tables are kept by operations that act on both in step: mapping,
inserting under one key.  What is the same of related values is the same of the tables.
-/

namespace PriorityFabric.Lib.RelatedTables

variable {K V : Type} [Ord K] [Std.TransOrd K]

/-- The tables have the same keys, and related values under them. -/
def Related (R : V → V → Prop) (table other : Std.ExtTreeMap K V) : Prop :=
  ∀ k : K, Option.Rel R table[k]? other[k]?

namespace Related

variable {R : V → V → Prop} {table other : Std.ExtTreeMap K V}

theorem refl (hR : ∀ v, R v v) (table : Std.ExtTreeMap K V) : Related R table table := by
  intro k
  cases table[k]? with
  | none => exact .none
  | some v => exact .some (hR v)

theorem exists_of_some (h : Related R table other) {k : K} {v : V} (hv : table[k]? = some v) :
    ∃ old, other[k]? = some old ∧ R v old := by
  have hk := h k
  rw [hv] at hk
  generalize other[k]? = found at hk ⊢
  cases hk with
  | some hold => exact ⟨_, rfl, hold⟩

theorem none_iff (h : Related R table other) {k : K} :
    table[k]? = none ↔ other[k]? = none := by
  have hk := h k
  generalize table[k]? = found at hk ⊢
  generalize other[k]? = found' at hk ⊢
  cases hk with
  | none => exact iff_of_true rfl rfl
  | some _ => simp

theorem imp {R' : V → V → Prop} (h : Related R table other) (hR : ∀ v old, R v old → R' v old) :
    Related R' table other := by
  intro k
  cases hv : table[k]? with
  | none =>
      rw [h.none_iff.mp hv]
      exact .none
  | some v =>
      obtain ⟨old, hold, hpair⟩ := h.exists_of_some hv
      rw [hold]
      exact .some (hR v old hpair)

theorem insert (h : Related R table other) (k : K) {v old : V} (hv : R v old) :
    Related R (table.insert k v) (other.insert k old) := by
  intro k'
  rw [Std.ExtTreeMap.getElem?_insert, Std.ExtTreeMap.getElem?_insert]
  split
  · exact .some hv
  · exact h k'

section Lawful

variable {W : Type} [Std.LawfulEqOrd K]

theorem map {R' : W → W → Prop} (h : Related R table other) {f g : K → V → W}
    (hfg : ∀ k v old, table[k]? = some v → other[k]? = some old → R v old →
      R' (f k v) (g k old)) : Related R' (table.map f) (other.map g) := by
  intro k
  rw [Std.ExtTreeMap.getElem?_map, Std.ExtTreeMap.getElem?_map]
  cases hv : table[k]? with
  | none =>
      rw [h.none_iff.mp hv]
      exact .none
  | some v =>
      obtain ⟨old, hold, hpair⟩ := h.exists_of_some hv
      rw [hold]
      exact .some (hfg k v old hv hold hpair)

theorem map_eq (h : Related R table other) {f g : K → V → W}
    (hfg : ∀ k v old, R v old → f k v = g k old) : table.map f = other.map g := by
  apply Std.ExtTreeMap.ext_getElem?
  intro k
  rw [Std.ExtTreeMap.getElem?_map, Std.ExtTreeMap.getElem?_map]
  cases hv : table[k]? with
  | none =>
      rw [h.none_iff.mp hv]
      rfl
  | some v =>
      obtain ⟨old, hold, hpair⟩ := h.exists_of_some hv
      rw [hold, Option.map_some, Option.map_some, hfg k v old hpair]

theorem keys_eq (h : Related R table other) : table.keys = other.keys := by
  have hmap := congrArg Std.ExtTreeMap.keys
    (h.map_eq (f := fun _ _ => ()) (g := fun _ _ => ()) fun _ _ _ _ => rfl)
  rwa [Std.ExtTreeMap.keys_map, Std.ExtTreeMap.keys_map] at hmap

end Lawful

end Related

end PriorityFabric.Lib.RelatedTables
