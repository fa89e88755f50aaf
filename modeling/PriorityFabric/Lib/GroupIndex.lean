import Mathlib.Data.List.Sort
import Mathlib.Data.List.TakeWhile
import Std.Data.ExtTreeMap

/-!
Indexes that group the keys of an ordered table.

An index is exact when every group holds the keys of its members in order, each
once, and no group is empty.  There is one exact index for a table; building the
index from the table gives it, and so does maintaining it under insertions of new
keys.
-/

namespace PriorityFabric.Lib.GroupIndex

variable {K G V : Type} [Ord K] [Std.TransOrd K] [Std.LawfulEqOrd K]
variable [Ord G] [Std.TransOrd G] [Std.LawfulEqOrd G]

def Increasing (keys : List K) : Prop := keys.Pairwise fun a b => compare a b = .lt

omit [Std.LawfulEqOrd K] in
theorem not_lt_of_lt {a b : K} (h : compare a b = .lt) : compare b a ≠ .lt := by
  rw [Std.OrientedOrd.eq_swap (a := b) (b := a), h]
  decide

omit [Std.LawfulEqOrd K] in
theorem Increasing.nodup {keys : List K} (h : Increasing keys) : keys.Nodup := by
  refine h.imp ?_
  rintro a b hlt rfl
  exact not_lt_of_lt hlt hlt

omit [Std.LawfulEqOrd K] in
theorem Increasing.eq_of_mem_iff {left right : List K} (hleft : Increasing left)
    (hright : Increasing right) (h : ∀ k, k ∈ left ↔ k ∈ right) : left = right := by
  have hperm : left.Perm right :=
    (List.perm_ext_iff_of_nodup hleft.nodup hright.nodup).mpr h
  refine hperm.eq_of_pairwise ?_ hleft hright
  intro a b ha hb hab hba
  exact absurd hba (not_lt_of_lt hab)

/-- Put a key before the first one that is not smaller. -/
def insertOrdered (k : K) (keys : List K) : List K :=
  keys.takeWhile (fun other => (compare other k).isLT) ++
    k :: keys.dropWhile (fun other => (compare other k).isLT)

omit [Std.TransOrd K] [Std.LawfulEqOrd K] in
theorem mem_insertOrdered {k other : K} {keys : List K} :
    other ∈ insertOrdered k keys ↔ other = k ∨ other ∈ keys := by
  have hsplit := List.takeWhile_append_dropWhile
    (p := fun other => (compare other k).isLT) (l := keys)
  conv_rhs => rw [← hsplit]
  simp only [insertOrdered, List.mem_append, List.mem_cons]
  tauto

theorem lt_of_mem_dropWhile {k other : K} {keys : List K} (h : Increasing keys)
    (hnew : k ∉ keys)
    (hmem : other ∈ keys.dropWhile (fun other => (compare other k).isLT)) :
    compare k other = .lt := by
  have hother : other ∈ keys := (List.dropWhile_sublist _).subset hmem
  induction keys with
  | nil => cases hmem
  | cons first keys ih =>
      rw [Increasing, List.pairwise_cons] at h
      rw [List.dropWhile_cons] at hmem
      split at hmem
      · exact ih h.2 (fun hk => hnew (by simp [hk])) hmem
          ((List.dropWhile_sublist _).subset hmem)
      · rename_i hfirst
        have hkfirst : compare k first = .lt := by
          rw [Std.OrientedOrd.eq_swap (a := k) (b := first)]
          cases hcompare : compare first k with
          | lt => simp [hcompare] at hfirst
          | eq => exact absurd (by simp [Std.LawfulEqOrd.eq_of_compare hcompare]) hnew
          | gt => rfl
        rcases List.mem_cons.mp hmem with rfl | hrest
        · exact hkfirst
        · exact Std.TransCmp.lt_trans hkfirst (h.1 other hrest)

theorem Increasing.insertOrdered {k : K} {keys : List K} (h : Increasing keys)
    (hnew : k ∉ keys) : Increasing (insertOrdered k keys) := by
  have hbefore (other : K)
      (hother : other ∈ keys.takeWhile (fun other => (compare other k).isLT)) :
      compare other k = .lt := by
    have := List.mem_takeWhile_imp hother
    simpa [Ordering.isLT_iff_eq_lt] using this
  have hafter (other : K)
      (hother : other ∈ keys.dropWhile (fun other => (compare other k).isLT)) :=
    lt_of_mem_dropWhile h hnew hother
  refine List.pairwise_append.mpr ⟨h.sublist (List.takeWhile_sublist _),
    List.pairwise_cons.mpr ⟨hafter, h.sublist (List.dropWhile_sublist _)⟩, ?_⟩
  intro a ha b hb
  rcases List.mem_cons.mp hb with rfl | hb
  · exact hbefore a ha
  · exact Std.TransCmp.lt_trans (hbefore a ha) (hafter b hb)

/-- The index groups the keys of the table: `k` stands in the group of its entry and
in no other. -/
structure Exact (group : V → G) (table : Std.ExtTreeMap K V)
    (index : Std.ExtTreeMap G (List K)) : Prop where
  nonempty : ∀ g : G, index[g]? ≠ some []
  increasing : ∀ g : G, Increasing (index.getD g [])
  mem_iff : ∀ (g : G) (k : K), k ∈ index.getD g [] ↔ ∃ v, table[k]? = some v ∧ group v = g

namespace Exact

variable {group : V → G} {table : Std.ExtTreeMap K V} {index other : Std.ExtTreeMap G (List K)}

omit [Std.LawfulEqOrd K] [Std.LawfulEqOrd G] in
theorem empty : Exact group (∅ : Std.ExtTreeMap K V) (∅ : Std.ExtTreeMap G (List K)) where
  nonempty g := by simp
  increasing g := by simp [Increasing]
  mem_iff g k := by simp

omit [Std.LawfulEqOrd K] in
theorem unique (h : Exact group table index) (h' : Exact group table other) :
    index = other := by
  apply Std.ExtTreeMap.ext_getElem?
  intro g
  have heq : index.getD g [] = other.getD g [] := by
    refine (h.increasing g).eq_of_mem_iff (h'.increasing g) fun k => ?_
    rw [h.mem_iff, h'.mem_iff]
  have hleft := h.nonempty g
  have hright := h'.nonempty g
  rw [Std.ExtTreeMap.getD_eq_getD_getElem?, Std.ExtTreeMap.getD_eq_getD_getElem?] at heq
  cases hindex : index[g]? with
  | none =>
      cases hother : other[g]? with
      | none => rfl
      | some keys =>
          rw [hindex, hother, Option.getD_none, Option.getD_some] at heq
          exact absurd (heq ▸ hother) hright
  | some keys =>
      cases hother : other[g]? with
      | none =>
          rw [hindex, hother, Option.getD_none, Option.getD_some] at heq
          exact absurd (heq ▸ hindex) hleft
      | some keys' =>
          rw [hindex, hother] at heq
          exact congrArg some heq

theorem insert_new (h : Exact group table index) {k : K} (v : V) (hnew : table[k]? = none) :
    Exact group (table.insert k v)
      (index.insert (group v) (insertOrdered k (index.getD (group v) []))) := by
  classical
  have habsent (g : G) : k ∉ index.getD g [] := by
    rw [h.mem_iff]
    rintro ⟨v, hv, -⟩
    rw [hnew] at hv
    cases hv
  refine ⟨?_, ?_, ?_⟩
  · intro g
    rw [Std.ExtTreeMap.getElem?_insert]
    split
    · simp [insertOrdered]
    · exact h.nonempty g
  · intro g
    rw [Std.ExtTreeMap.getD_insert]
    split
    · exact (h.increasing _).insertOrdered (habsent _)
    · exact h.increasing g
  · intro g k'
    rw [Std.ExtTreeMap.getD_insert, Std.ExtTreeMap.getElem?_insert]
    simp only [Std.LawfulEqOrd.compare_eq_iff_eq]
    by_cases hk : k = k'
    · subst hk
      by_cases hg : group v = g
      · simp [hg, mem_insertOrdered]
      · simp [hg, habsent]
    · by_cases hg : group v = g
      · subst hg
        simp [hk, mem_insertOrdered, Ne.symm hk, h.mem_iff]
      · simp [hk, hg, h.mem_iff]

omit [Std.LawfulEqOrd G] in
theorem insert_same (h : Exact group table index) {k : K} {old v : V}
    (hold : table[k]? = some old) (hgroup : group v = group old) :
    Exact group (table.insert k v) index where
  nonempty := h.nonempty
  increasing := h.increasing
  mem_iff g k' := by
    classical
    rw [h.mem_iff, Std.ExtTreeMap.getElem?_insert]
    simp only [Std.LawfulEqOrd.compare_eq_iff_eq]
    by_cases hk : k = k'
    · subst hk
      simp [hold, hgroup]
    · simp [hk]

end Exact

/-- Append each key to the group of its entry, in table order. -/
def regroup (group : V → G) (table : Std.ExtTreeMap K V) : Std.ExtTreeMap G (List K) :=
  table.toList.foldl (fun index entry =>
    index.insert (group entry.2) (index.getD (group entry.2) [] ++ [entry.1])) ∅

def keysIn [DecidableEq G] (group : V → G) (g : G) (items : List (K × V)) : List K :=
  (items.filter fun entry => group entry.2 = g).map (·.1)

omit [Ord K] [Std.TransOrd K] [Std.LawfulEqOrd K] in
theorem getElem?_foldl_append [DecidableEq G] (group : V → G) (items : List (K × V))
    (index : Std.ExtTreeMap G (List K)) (g : G) :
    (items.foldl (fun index entry =>
        index.insert (group entry.2) (index.getD (group entry.2) [] ++ [entry.1])) index)[g]? =
      if keysIn group g items = [] then index[g]?
      else some (index.getD g [] ++ keysIn group g items) := by
  induction items generalizing index with
  | nil => simp [keysIn]
  | cons entry items ih =>
      rw [List.foldl_cons, ih, Std.ExtTreeMap.getElem?_insert, Std.ExtTreeMap.getD_insert]
      simp only [Std.LawfulEqOrd.compare_eq_iff_eq]
      by_cases hg : group entry.2 = g
      · subst hg
        have hkeys : keysIn group (group entry.2) (entry :: items) =
            entry.1 :: keysIn group (group entry.2) items := by
          simp [keysIn]
        rw [hkeys]
        by_cases hempty : keysIn group (group entry.2) items = []
        · simp [hempty]
        · simp [hempty]
      · have hkeys : keysIn group g (entry :: items) = keysIn group g items := by
          simp [keysIn, hg]
        simp [hkeys, hg]

theorem exact_regroup [DecidableEq G] (group : V → G) (table : Std.ExtTreeMap K V) :
    Exact group table (regroup group table) := by
  have hget (g : G) : (regroup group table)[g]? =
      if keysIn group g table.toList = [] then none
      else some (keysIn group g table.toList) := by
    rw [regroup, getElem?_foldl_append]
    simp
  have hgetD (g : G) : (regroup group table).getD g [] = keysIn group g table.toList := by
    rw [Std.ExtTreeMap.getD_eq_getD_getElem?, hget]
    split
    · rename_i hempty
      exact hempty.symm
    · rfl
  refine ⟨?_, ?_, ?_⟩
  · intro g
    rw [hget]
    split
    · simp
    · rename_i hne
      intro hsome
      exact hne (Option.some.inj hsome)
  · intro g
    rw [hgetD, keysIn, Increasing, List.pairwise_map]
    have hordered := Std.ExtTreeMap.ordered_keys_toList (t := table)
    exact hordered.sublist List.filter_sublist
  · intro g k
    rw [hgetD, keysIn]
    simp only [List.mem_map, List.mem_filter, decide_eq_true_eq, Prod.exists,
      Std.ExtTreeMap.mem_toList_iff_getElem?_eq_some]
    constructor
    · rintro ⟨k', v, ⟨hv, hg⟩, rfl⟩
      exact ⟨v, hv, hg⟩
    · rintro ⟨v, hv, hg⟩
      exact ⟨k, v, ⟨hv, hg⟩, rfl⟩

end PriorityFabric.Lib.GroupIndex
