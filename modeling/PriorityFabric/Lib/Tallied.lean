import Mathlib.Data.List.Nodup
import Std.Data.ExtTreeMap

/-!
How many entries of a table pass a test.

An insertion changes the count by what it puts in and by what it takes out.
-/

namespace PriorityFabric.Lib.Tallied

section Tallied

variable {K V : Type} [Ord K] [Std.TransOrd K] {table : Std.ExtTreeMap K V} {k : K} {v : V}
  {p : V → Bool}

def tally (p : V → Bool) (table : Std.ExtTreeMap K V) : Nat :=
  table.toList.countP fun entry => p entry.2

theorem nodup_toList (table : Std.ExtTreeMap K V) : table.toList.Nodup := by
  refine table.distinct_keys_toList.imp ?_
  rintro a b hne rfl
  exact hne Std.ReflCmp.compare_self

theorem tally_map {f : K → V → V} (hf : ∀ k v, p (f k v) = p v) (table : Std.ExtTreeMap K V) :
    tally p (table.map f) = tally p table := by
  unfold tally
  rw [Std.ExtTreeMap.toList_map, List.countP_map]
  congr 1
  funext entry
  exact hf entry.1 entry.2

variable [Std.LawfulEqOrd K]

theorem perm_insert (table : Std.ExtTreeMap K V) (k : K) (v : V) :
    (table.insert k v).toList.Perm ((k, v) :: (table.erase k).toList) := by
  have hfresh : (k, v) ∉ (table.erase k).toList := by
    rw [Std.ExtTreeMap.mem_toList_iff_getElem?_eq_some, Std.ExtTreeMap.getElem?_erase_self]
    simp
  rw [List.perm_ext_iff_of_nodup (nodup_toList _)
    (List.nodup_cons.mpr ⟨hfresh, nodup_toList _⟩)]
  rintro ⟨k', v'⟩
  rw [List.mem_cons, Std.ExtTreeMap.mem_toList_iff_getElem?_eq_some,
    Std.ExtTreeMap.mem_toList_iff_getElem?_eq_some, Std.ExtTreeMap.getElem?_insert,
    Std.ExtTreeMap.getElem?_erase, Prod.mk.injEq]
  by_cases hk : k = k'
  · subst hk
    simp [Std.ReflCmp.compare_self, eq_comm]
  · have hcompare : compare k k' ≠ .eq := fun h => hk (Std.LawfulEqCmp.eq_of_compare h)
    simp [hcompare, Ne.symm hk]

theorem tally_insert (table : Std.ExtTreeMap K V) (k : K) (v : V) :
    tally p (table.insert k v) = tally p (table.erase k) + if p v then 1 else 0 := by
  unfold tally
  rw [(perm_insert table k v).countP_eq, List.countP_cons]

theorem insert_of_getElem? (h : table[k]? = some v) : table.insert k v = table := by
  apply Std.ExtTreeMap.ext_getElem?
  intro k'
  rw [Std.ExtTreeMap.getElem?_insert]
  split
  · rename_i heq
    rw [← Std.LawfulEqCmp.eq_of_compare heq, h]
  · rfl

theorem erase_of_getElem? (h : table[k]? = none) : table.erase k = table := by
  apply Std.ExtTreeMap.ext_getElem?
  intro k'
  rw [Std.ExtTreeMap.getElem?_erase]
  split
  · rename_i heq
    rw [← Std.LawfulEqCmp.eq_of_compare heq, h]
  · rfl

theorem tally_erase (table : Std.ExtTreeMap K V) (k : K) :
    tally p table = tally p (table.erase k) + if (table[k]?).any p then 1 else 0 := by
  cases h : table[k]? with
  | none => rw [erase_of_getElem? h, Option.any_none, if_neg (by simp), Nat.add_zero]
  | some v =>
      rw [Option.any_some, ← tally_insert, insert_of_getElem? h]

end Tallied

end PriorityFabric.Lib.Tallied
