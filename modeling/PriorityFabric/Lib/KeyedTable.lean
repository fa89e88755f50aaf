import Mathlib.Data.List.Nodup
import Std.Data.ExtTreeMap
import PriorityFabric.Lib.ByteReader

/-!
Ordered tables whose entries carry their own keys.

Such a table can be written out as the list of its entries in key order and built
again from that list.
-/

namespace PriorityFabric.Lib.KeyedTable

open PriorityFabric.Lib.ByteReader

variable {K V : Type} [Ord K] [Std.TransOrd K]

/-- Every entry stands under its own key and is good. -/
structure Keyed (key : V → K) (good : V → Prop) (table : Std.ExtTreeMap K V) : Prop where
  key_eq : ∀ (k : K) (v : V), table[k]? = some v → key v = k
  good : ∀ (k : K) (v : V), table[k]? = some v → good v

theorem size_insert_le {table : Std.ExtTreeMap K V} {bound : Nat} {k : K} (v : V)
    (hsize : table.size ≤ bound) (hroom : table.contains k = true ∨ table.size < bound) :
    (table.insert k v).size ≤ bound := by
  rw [Std.ExtTreeMap.size_insert]
  split
  · exact hsize
  · rename_i hnew
    rcases hroom with hold | hroom
    · exact absurd hold hnew
    · exact hroom

theorem getElem?_insert_of_ne [Std.LawfulEqOrd K] {table : Std.ExtTreeMap K V} {k other : K}
    (v : V) (h : k ≠ other) : (table.insert k v)[other]? = table[other]? := by
  rw [Std.ExtTreeMap.getElem?_insert, if_neg]
  rwa [Std.LawfulEqOrd.compare_eq_iff_eq]

def values (table : Std.ExtTreeMap K V) : List V := table.toList.map (·.2)

/-- Build a table from entries; the first entry of a key stays. -/
def collect (key : V → K) (items : List V) : Std.ExtTreeMap K V :=
  items.foldl (fun table v => table.insertIfNew (key v) v) ∅

@[simp] theorem length_values (table : Std.ExtTreeMap K V) :
    (values table).length = table.size := by
  rw [values, List.length_map, Std.ExtTreeMap.length_toList]

namespace Keyed

variable {key : V → K} {good good' : V → Prop} {table : Std.ExtTreeMap K V}

theorem empty : Keyed key good ∅ where
  key_eq k v h := by simp at h
  good k v h := by simp at h

theorem mono (h : Keyed key good table) (hgood : ∀ v, good v → good' v) :
    Keyed key good' table where
  key_eq := h.key_eq
  good k v hv := hgood v (h.good k v hv)

variable [Std.LawfulEqOrd K]

theorem insert (h : Keyed key good table) {v : V} (hv : good v) {k : K} (hk : key v = k) :
    Keyed key good (table.insert k v) where
  key_eq other found hfound := by
    rw [Std.ExtTreeMap.getElem?_insert] at hfound
    split at hfound
    · rename_i heq
      cases hfound
      exact hk.trans (Std.LawfulEqOrd.eq_of_compare heq)
    · exact h.key_eq other found hfound
  good other found hfound := by
    rw [Std.ExtTreeMap.getElem?_insert] at hfound
    split at hfound
    · cases hfound
      exact hv
    · exact h.good other found hfound

theorem insertIfNew (h : Keyed key good table) {v : V} (hv : good v) :
    Keyed key good (table.insertIfNew (key v) v) where
  key_eq other found hfound := by
    rw [Std.ExtTreeMap.getElem?_insertIfNew] at hfound
    split at hfound
    · rename_i hnew
      cases hfound
      exact Std.LawfulEqOrd.eq_of_compare hnew.1
    · exact h.key_eq other found hfound
  good other found hfound := by
    rw [Std.ExtTreeMap.getElem?_insertIfNew] at hfound
    split at hfound
    · cases hfound
      exact hv
    · exact h.good other found hfound

theorem map (h : Keyed key good table) {f : K → V → V} (hkey : ∀ k v, key (f k v) = key v)
    (hgood : ∀ k v, good v → good (f k v)) : Keyed key good (table.map f) where
  key_eq k v hv := by
    rw [Std.ExtTreeMap.getElem?_map, Option.map_eq_some_iff] at hv
    obtain ⟨old, hold, rfl⟩ := hv
    rw [hkey, h.key_eq k old hold]
  good k v hv := by
    rw [Std.ExtTreeMap.getElem?_map, Option.map_eq_some_iff] at hv
    obtain ⟨old, hold, rfl⟩ := hv
    exact hgood k old (h.good k old hold)

end Keyed

variable [Std.LawfulEqOrd K]

theorem mem_values {table : Std.ExtTreeMap K V} {v : V} :
    v ∈ values table ↔ ∃ k : K, table[k]? = some v := by
  simp only [values, List.mem_map, Prod.exists, exists_eq_right,
    Std.ExtTreeMap.mem_toList_iff_getElem?_eq_some]

theorem map_key_values {key : V → K} {good : V → Prop} {table : Std.ExtTreeMap K V}
    (h : Keyed key good table) : (values table).map key = table.toList.map (·.1) := by
  rw [values, List.map_map]
  refine List.map_congr_left fun entry hentry => ?_
  exact h.key_eq entry.1 entry.2
    (Std.ExtTreeMap.mem_toList_iff_getElem?_eq_some.mp hentry)

theorem nodup_key_values {key : V → K} {good : V → Prop} {table : Std.ExtTreeMap K V}
    (h : Keyed key good table) : ((values table).map key).Nodup := by
  rw [map_key_values h, List.Nodup, List.pairwise_map]
  refine (Std.ExtTreeMap.distinct_keys_toList (t := table)).imp ?_
  intro a b hne heq
  exact hne (by rw [heq]; exact Std.ReflOrd.compare_self)

theorem getElem?_foldl_insertIfNew [DecidableEq K] {key : V → K} {items : List V}
    (hnodup : (items.map key).Nodup) (table : Std.ExtTreeMap K V) (k : K) :
    (items.foldl (fun table v => table.insertIfNew (key v) v) table)[k]? =
      (table[k]?).or (items.find? (key · = k)) := by
  induction items generalizing table with
  | nil => simp
  | cons v items ih =>
      rw [List.map_cons, List.nodup_cons] at hnodup
      rw [List.foldl_cons, ih hnodup.2, Std.ExtTreeMap.getElem?_insertIfNew, List.find?_cons]
      simp only [Std.LawfulEqOrd.compare_eq_iff_eq]
      by_cases hk : key v = k
      · subst hk
        by_cases hmem : key v ∈ table
        · simp [hmem]
        · simp [hmem]
      · simp [hk]

theorem collect_values [DecidableEq K] {key : V → K} {good : V → Prop}
    {table : Std.ExtTreeMap K V} (h : Keyed key good table) :
    collect key (values table) = table := by
  apply Std.ExtTreeMap.ext_getElem?
  intro k
  rw [collect, getElem?_foldl_insertIfNew (nodup_key_values h)]
  simp only [Std.ExtTreeMap.getElem?_empty, Option.none_or]
  cases hfind : (values table).find? (key · = k) with
  | none =>
      rw [List.find?_eq_none] at hfind
      cases htable : table[k]? with
      | none => rfl
      | some v =>
          have := hfind v (mem_values.mpr ⟨k, htable⟩)
          simp [h.key_eq k v htable] at this
  | some v =>
      have hkey : key v = k := by simpa using List.find?_some hfind
      obtain ⟨k', hk'⟩ := mem_values.mp (List.mem_of_find?_eq_some hfind)
      rw [← hkey, h.key_eq k' v hk', hk']

theorem foldAll_room_iff {key : V → K} {C : V → Prop} {items : List V}
    (hnodup : (items.map key).Nodup) (bound : Nat) (table : Std.ExtTreeMap K V)
    (hnew : ∀ v ∈ items, key v ∉ table) (hsize : table.size ≤ bound) :
    FoldAll (fun (table : Std.ExtTreeMap K V) v => C v ∧ table.size < bound)
        (fun table v => table.insertIfNew (key v) v) table items ↔
      table.size + items.length ≤ bound ∧ ∀ v ∈ items, C v := by
  induction items generalizing table with
  | nil => simpa [FoldAll] using hsize
  | cons v items ih =>
      rw [List.map_cons, List.nodup_cons] at hnodup
      have hgrown : (table.insertIfNew (key v) v).size = table.size + 1 := by
        rw [Std.ExtTreeMap.size_insertIfNew, if_neg (hnew v (by simp))]
      have hrest : ∀ w ∈ items, key w ∉ table.insertIfNew (key v) v := by
        intro w hw hmem
        rw [Std.ExtTreeMap.mem_insertIfNew, Std.LawfulEqOrd.compare_eq_iff_eq] at hmem
        rcases hmem with heq | hmem
        · exact hnodup.1 (heq ▸ List.mem_map_of_mem hw)
        · exact hnew w (by simp [hw]) hmem
      rw [FoldAll, List.length_cons, List.forall_mem_cons]
      by_cases hroom : table.size < bound
      · rw [ih hnodup.2 _ hrest (by omega), hgrown]
        constructor
        · rintro ⟨⟨hv, -⟩, hlength, hitems⟩
          exact ⟨by omega, hv, hitems⟩
        · rintro ⟨hlength, hv, hitems⟩
          exact ⟨⟨hv, hroom⟩, by omega, hitems⟩
      · constructor
        · rintro ⟨⟨-, hlt⟩, -⟩
          exact absurd hlt hroom
        · rintro ⟨hlength, -⟩
          omega

end PriorityFabric.Lib.KeyedTable
