import PriorityFabric.Lib.KeyedTable
import PriorityFabric.Lib.GroupIndex
import PriorityFabric.Lib.Rewriting

/-!
Tables that are read entry by entry.

The reader takes the entries in any order and lets the first of a key stay, while the table
is written in key order.  The stricter reader takes entries whose keys increase.
-/

namespace PriorityFabric.Lib.SortedTables

open PriorityFabric.Lib.LittleEndian
open PriorityFabric.Lib.ByteReader
open PriorityFabric.Lib.KeyedTable
open PriorityFabric.Lib.GroupIndex
open PriorityFabric.Lib.Rewriting

variable {ε K V : Type} [Ord K] [Std.TransOrd K]

def tableStep (decode : Reader ε V) (key : V → K) (full : Nat → Bool) (e : ε)
    (table : Std.ExtTreeMap K V) : Reader ε (Std.ExtTreeMap K V) := do
  let v ← decode
  refuseIf (full table.size) e
  return table.insertIfNew (key v) v

def below (table : Std.ExtTreeMap K V) (k : K) : Bool :=
  table.keys.all fun other => (compare other k).isLT

def orderedStep (decode : Reader ε V) (key : V → K) (full : Nat → Bool) (e unordered : ε)
    (table : Std.ExtTreeMap K V) : Reader ε (Std.ExtTreeMap K V) := do
  let v ← decode
  refuseIf (full table.size) e
  refuseIf (!below table (key v)) unordered
  return table.insertIfNew (key v) v

/-- A number that is read before the entries; smaller ones could stand there, too. -/
def Counts (counter : Reader ε Nat) (enc : Nat → Bytes) : Prop :=
  ∀ input n rest, counter input = .ok (n, rest) → input = enc n ++ rest ∧
    ∀ m ≤ n, (enc m).length = (enc n).length ∧ ∀ x, counter (enc m ++ x) = .ok (m, x)

section Keys

variable [Std.LawfulEqOrd K] {key : V → K} {items : List V}

theorem below_eq_true {table : Std.ExtTreeMap K V} {k : K} :
    below table k = true ↔ ∀ other ∈ table, compare other k = .lt := by
  simp [below, Ordering.isLT_iff_eq_lt]

theorem keyed_foldl {good : V → Prop} {table : Std.ExtTreeMap K V} (h : Keyed key good table)
    (hitems : ∀ v ∈ items, good v) :
    Keyed key good (items.foldl (fun table v => table.insertIfNew (key v) v) table) := by
  induction items generalizing table with
  | nil => exact h
  | cons v items ih =>
      exact ih (h.insertIfNew (hitems v (by simp))) fun w hw => hitems w (by simp [hw])

theorem keyed_collect (key : V → K) (items : List V) : Keyed key (· ∈ items) (collect key items) :=
  keyed_foldl Keyed.empty fun _ hv => hv

theorem increasing_values {good : V → Prop} {table : Std.ExtTreeMap K V}
    (h : Keyed key good table) : Increasing ((values table).map key) := by
  rw [map_key_values h, Increasing, List.pairwise_map]
  exact Std.ExtTreeMap.ordered_keys_toList

theorem mem_values_collect {v : V} (h : v ∈ values (collect key items)) : v ∈ items := by
  obtain ⟨k, hk⟩ := mem_values.mp h
  exact (keyed_collect key items).good k v hk

variable [DecidableEq K]

theorem values_collect (h : Increasing (items.map key)) :
    values (collect key items) = items := by
  have hmem : ∀ v ∈ items, v ∈ values (collect key items) := by
    intro v hv
    refine mem_values.mpr ⟨key v, ?_⟩
    rw [collect, getElem?_foldl_insertIfNew h.nodup, Std.ExtTreeMap.getElem?_empty,
      Option.none_or]
    refine List.find?_eq_some_iff_append.mpr ?_
    obtain ⟨front, back, rfl⟩ := List.append_of_mem hv
    refine ⟨by simp, front, back, rfl, ?_⟩
    intro w hw
    have hnodup := h.nodup
    rw [List.map_append, List.map_cons, List.nodup_append] at hnodup
    simp only [Bool.not_eq_true', decide_eq_false_iff_not]
    exact hnodup.2.2 _ (List.mem_map_of_mem hw) _ (by simp)
  have hsorted := increasing_values (keyed_collect key items)
  have hperm : (values (collect key items)).Perm items := by
    refine (List.perm_ext_iff_of_nodup hsorted.nodup.of_map h.nodup.of_map).mpr fun v => ?_
    exact ⟨mem_values_collect, hmem v⟩
  refine hperm.eq_of_pairwise ?_ (List.pairwise_map.mp hsorted) (List.pairwise_map.mp h)
  intro a b _ _ hab hba
  exact absurd hba (not_lt_of_lt hab)

omit [DecidableEq K] in
theorem length_values_collect_le (key : V → K) (items : List V) (enc : V → Bytes) :
    ((values (collect key items)).flatMap enc).length ≤ (items.flatMap enc).length := by
  have hnodup := (increasing_values (keyed_collect key items)).nodup.of_map
  obtain ⟨part, hperm, hsublist⟩ := List.subperm_of_subset hnodup fun _ => mem_values_collect
  rw [← (hperm.flatMap_right enc).length_eq]
  exact (hsublist.flatMap enc).length_le

omit [DecidableEq K] in
theorem size_collect_le : (collect key items).size ≤ items.length := by
  have hnodup := (increasing_values (keyed_collect key items)).nodup.of_map
  have hlength := (List.subperm_of_subset hnodup fun _ => mem_values_collect).length_le
  rwa [length_values] at hlength

end Keys

section Reading

variable [Std.LawfulEqOrd K] {decode strict : Reader ε V} {key : V → K} {enc : V → Bytes}
variable {full : Nat → Bool} {e unordered : ε}

omit [Std.LawfulEqOrd K] in
theorem items_of_tableStep (hdecode : Faithful decode strict fun v w => w = enc v)
    {count : Nat} {table table' : Std.ExtTreeMap K V} {input rest : Bytes}
    (h : readFold count (tableStep decode key full e) table input = .ok (table', rest)) :
    ∃ items : List V, items.length = count ∧
      table' = items.foldl (fun table v => table.insertIfNew (key v) v) table ∧
      (∀ v ∈ items, ∀ x, decode (enc v ++ x) = .ok (v, x)) ∧
      (items.flatMap enc).length + rest.length ≤ input.length ∧
      (table.size < table'.size → full (table'.size - 1) = false) := by
  induction count generalizing table input with
  | zero =>
      cases h
      refine ⟨[], rfl, rfl, by simp, by simp, fun hlt => absurd hlt (lt_irrefl _)⟩
  | succ count ih =>
      obtain ⟨next, middle, hstep, h⟩ := read_bind_eq_ok.mp h
      obtain ⟨v, left, hv, hstep⟩ := read_bind_eq_ok.mp hstep
      obtain ⟨u, left', hcheck, hstep⟩ := read_bind_eq_ok.mp hstep
      cases hstep
      obtain ⟨w, rfl, hrewrites⟩ := hdecode.written input v left hv
      obtain ⟨items, hlength, rfl, hstable, hshorter, hroom⟩ := ih h
      obtain ⟨hfull, rfl⟩ := refuseIf_eq_ok.mp hcheck
      refine ⟨v :: items, by simp [hlength], rfl, ?_, ?_, ?_⟩
      · rintro other (_ | ⟨_, hother⟩)
        · exact hrewrites.stable
        · exact hstable other hother
      · have hfirst := hrewrites.shorter
        rw [List.flatMap_cons, List.length_append]
        omega
      · intro hgrown
        by_cases hlater : (table.insertIfNew (key v) v).size <
            (items.foldl (fun table v => table.insertIfNew (key v) v)
              (table.insertIfNew (key v) v)).size
        · exact hroom hlater
        · have hsize := Std.ExtTreeMap.size_insertIfNew_le (t := table) (k := key v) (v := v)
          have hlast : (items.foldl (fun table v => table.insertIfNew (key v) v)
              (table.insertIfNew (key v) v)).size - 1 = table.size := by
            omega
          rw [hlast]
          exact hfull

theorem items_of_orderedStep (hdecode : Faithful decode strict fun v w => w = enc v)
    {count : Nat} {table table' : Std.ExtTreeMap K V} {input rest : Bytes}
    (h : readFold count (orderedStep strict key full e unordered) table input =
      .ok (table', rest)) :
    ∃ items : List V, items.length = count ∧
      table' = items.foldl (fun table v => table.insertIfNew (key v) v) table ∧
      input = items.flatMap enc ++ rest ∧ Increasing (items.map key) ∧
      ∀ k ∈ table, ∀ v ∈ items, compare k (key v) = .lt := by
  induction count generalizing table input with
  | zero =>
      cases h
      exact ⟨[], rfl, rfl, rfl, List.Pairwise.nil, by simp⟩
  | succ count ih =>
      obtain ⟨next, middle, hstep, h⟩ := read_bind_eq_ok.mp h
      obtain ⟨v, left, hv, hstep⟩ := read_bind_eq_ok.mp hstep
      obtain ⟨u, left', hcheck, hstep⟩ := read_bind_eq_ok.mp hstep
      obtain ⟨u', left'', hbelow, hstep⟩ := read_bind_eq_ok.mp hstep
      cases hstep
      have hread := hdecode.sound input _ hv
      obtain ⟨w, rfl, hrewrites⟩ := hdecode.written input v left hread
      have hexact := hrewrites.exact.mpr ⟨_, hv⟩
      obtain ⟨items, hlength, rfl, hinput, hincreasing, hkeys⟩ := ih h
      obtain ⟨-, rfl⟩ := refuseIf_eq_ok.mp hcheck
      obtain ⟨hless, rfl⟩ := refuseIf_eq_ok.mp hbelow
      rw [Bool.not_eq_false'] at hless
      refine ⟨v :: items, by simp [hlength], rfl, ?_, ?_, ?_⟩
      · rw [hexact, hinput, List.flatMap_cons, List.append_assoc]
      · rw [List.map_cons]
        refine List.Pairwise.cons ?_ hincreasing
        intro k hk
        obtain ⟨other, hother, rfl⟩ := List.mem_map.mp hk
        refine hkeys (key v) ?_ other hother
        rw [Std.ExtTreeMap.mem_insertIfNew]
        exact .inl Std.ReflOrd.compare_self
      · rintro k hk other (_ | ⟨_, hother⟩)
        · exact below_eq_true.mp hless k hk
        · refine hkeys k ?_ other hother
          rw [Std.ExtTreeMap.mem_insertIfNew]
          exact .inr hk

omit [Std.LawfulEqOrd K] in
theorem sound_orderedStep (hsound : ∀ input r, strict input = .ok r → decode input = .ok r)
    {count : Nat} {table : Std.ExtTreeMap K V} {input : Bytes}
    {r : Std.ExtTreeMap K V × Bytes}
    (h : readFold count (orderedStep strict key full e unordered) table input = .ok r) :
    readFold count (tableStep decode key full e) table input = .ok r := by
  induction count generalizing table input with
  | zero => exact h
  | succ count ih =>
      obtain ⟨next, middle, hstep, h⟩ := read_bind_eq_ok.mp h
      obtain ⟨v, left, hv, hstep⟩ := read_bind_eq_ok.mp hstep
      obtain ⟨u, left', hcheck, hstep⟩ := read_bind_eq_ok.mp hstep
      obtain ⟨u', left'', hbelow, hstep⟩ := read_bind_eq_ok.mp hstep
      obtain ⟨-, rfl⟩ := refuseIf_eq_ok.mp hbelow
      exact read_bind_eq_ok.mpr ⟨next, middle, read_bind_eq_ok.mpr ⟨v, left, hsound _ _ hv,
        read_bind_eq_ok.mpr ⟨u, left', hcheck, hstep⟩⟩, ih h⟩

omit [Std.LawfulEqOrd K] in
theorem foldAll_room (key : V → K) {bound : Nat} (hfull : ∀ n < bound, full n = false)
    (items : List V) (table : Std.ExtTreeMap K V) (hsize : table.size + items.length ≤ bound) :
    FoldAll (fun (table : Std.ExtTreeMap K V) _ => full table.size = false)
      (fun table v => table.insertIfNew (key v) v) table items := by
  induction items generalizing table with
  | nil => trivial
  | cons v items ih =>
      rw [List.length_cons] at hsize
      have hgrown := Std.ExtTreeMap.size_insertIfNew_le (t := table) (k := key v) (v := v)
      have hroom : (table.insertIfNew (key v) v).size + items.length ≤ bound := by omega
      exact ⟨hfull _ (by omega), ih _ hroom⟩

theorem foldAll_below {items : List V} (hincreasing : Increasing (items.map key))
    {table : Std.ExtTreeMap K V} (hkeys : ∀ k ∈ table, ∀ v ∈ items, compare k (key v) = .lt)
    (hroom : FoldAll (fun (table : Std.ExtTreeMap K V) _ => full table.size = false)
      (fun table v => table.insertIfNew (key v) v) table items) :
    FoldAll (fun (table : Std.ExtTreeMap K V) v =>
        full table.size = false ∧ (!below table (key v)) = false)
      (fun table v => table.insertIfNew (key v) v) table items := by
  induction items generalizing table with
  | nil => trivial
  | cons v items ih =>
      rw [List.map_cons, Increasing, List.pairwise_cons] at hincreasing
      refine ⟨⟨hroom.1, ?_⟩, ih hincreasing.2 ?_ hroom.2⟩
      · rw [Bool.not_eq_false']
        exact below_eq_true.mpr fun k hk => hkeys k hk v (by simp)
      · intro k hk other hother
        rw [Std.ExtTreeMap.mem_insertIfNew, Std.LawfulEqOrd.compare_eq_iff_eq] at hk
        rcases hk with rfl | hk
        · exact hincreasing.1 _ (List.mem_map_of_mem hother)
        · exact hkeys k hk other (by simp [hother])

omit [Std.LawfulEqOrd K] in
theorem readsIff_tableStep (key : V → K) (full : Nat → Bool) (e : ε) {v : V}
    (hread : ∀ x, decode (enc v ++ x) = .ok (v, x)) (table : Std.ExtTreeMap K V) :
    ReadsIff (tableStep decode key full e table) (enc v) (table.insertIfNew (key v) v)
      (full table.size = false) := by
  have hdecode : ReadsIff decode (enc v) v True :=
    fun x => ⟨fun _ => hread x, fun h => absurd trivial h⟩
  refine ReadsIff.congr (ReadsIff.bind_last hdecode fun _ =>
    ReadsIff.guard fun _ => ReadsIff.pure _) ?_
  simp

omit [Std.LawfulEqOrd K] in
theorem readsIff_orderedStep (key : V → K) (full : Nat → Bool) (e unordered : ε) {v : V}
    (hread : ∀ x, strict (enc v ++ x) = .ok (v, x)) (table : Std.ExtTreeMap K V) :
    ReadsIff (orderedStep strict key full e unordered table) (enc v)
      (table.insertIfNew (key v) v)
      (full table.size = false ∧ (!below table (key v)) = false) := by
  have hdecode : ReadsIff strict (enc v) v True :=
    fun x => ⟨fun _ => hread x, fun h => absurd trivial h⟩
  refine ReadsIff.congr (ReadsIff.bind_last hdecode fun _ =>
    ReadsIff.guard fun _ => ReadsIff.guard fun _ => ReadsIff.pure _) ?_
  simp

omit [Ord K] [Std.TransOrd K] [Std.LawfulEqOrd K] in
/-- A value that reads back from its bytes does so under the stricter reader, too. -/
theorem strict_of_stable (hdecode : Faithful decode strict fun v w => w = enc v) {v : V}
    (hread : ∀ x, decode (enc v ++ x) = .ok (v, x)) (x : Bytes) :
    strict (enc v ++ x) = .ok (v, x) := by
  obtain ⟨w, rfl, hrewrites⟩ := hdecode.written _ v x (hread x)
  obtain ⟨r, hr⟩ := hrewrites.exact.mp rfl
  have hsame := hdecode.sound _ r hr
  rw [hread x] at hsame
  cases hsame
  exact hr

variable [DecidableEq K] {counter : Reader ε Nat} {encCount : Nat → Bytes}

/-- A table is written in key order, which gives the bytes it was read from if and only if
the keys increased there and every entry was written as the stricter reader wants it. -/
theorem faithful_table (hcounter : Counts counter encCount)
    (hfull : ∀ m n, m ≤ n → full n = false → full m = false)
    (hdecode : Faithful decode strict fun v w => w = enc v) :
    Faithful (counter >>= fun count => readFold count (tableStep decode key full e) ∅)
      (counter >>= fun count => readFold count (orderedStep strict key full e unordered) ∅)
      fun table w => w = encCount table.size ++ (values table).flatMap enc := by
  refine ⟨?_, ?_⟩
  · intro input table rest h
    obtain ⟨count, middle, hcount, h⟩ := read_bind_eq_ok.mp h
    obtain ⟨hinput, hsmaller⟩ := hcounter input count middle hcount
    obtain ⟨items, hlength, htable, hstable, hshorter, hroom⟩ := items_of_tableStep hdecode h
    change table = collect key items at htable
    subst htable
    have hkeyed := keyed_collect key items
    have hreads : ∀ v ∈ values (collect key items), ∀ x, decode (enc v ++ x) = .ok (v, x) :=
      fun v hv => hstable v (mem_values_collect hv)
    have hlt : ∀ n < (collect key items).size, full n = false := by
      intro n hn
      refine hfull n _ (by omega) (hroom ?_)
      rw [Std.ExtTreeMap.size_empty]
      omega
    have hfits := foldAll_room key hlt (values (collect key items)) ∅ (by simp)
    have hagain : (values (collect key items)).foldl
        (fun table v => table.insertIfNew (key v) v) ∅ = collect key items :=
      collect_values hkeyed
    have hsize : (collect key items).size ≤ count := hlength ▸ size_collect_le
    refine ⟨_, rfl, ?_, ?_, ?_⟩
    · intro x
      have hfold := (ReadsIff.fold (values (collect key items))
        (fun table v hv => readsIff_tableStep key full e (hreads v hv) table) ∅ x).1 hfits
      rw [hagain, length_values] at hfold
      rw [List.append_assoc]
      exact read_bind_eq_ok.mpr ⟨_, _, (hsmaller _ hsize).2 _, hfold⟩
    · have hle := length_values_collect_le key items enc
      have hwidth := (hsmaller _ hsize).1
      rw [hinput, List.length_append, List.length_append]
      omega
    · constructor
      · intro hwritten
        have hcount' := (hsmaller _ hsize).2
          ((values (collect key items)).flatMap enc ++ rest)
        rw [← List.append_assoc, ← hwritten, hcount] at hcount'
        cases hcount'
        have hfold := (ReadsIff.fold (values (collect key items))
          (fun table v hv => readsIff_orderedStep key full e unordered
            (strict_of_stable hdecode (hreads v hv)) table) ∅ rest).1
          (foldAll_below (increasing_values hkeyed) (by simp) hfits)
        rw [length_values] at hfold
        exact ⟨_, read_bind_eq_ok.mpr ⟨_, _, hcount, hfold⟩⟩
      · rintro ⟨⟨table', rest'⟩, hstrict⟩
        obtain ⟨count', middle', hcount', hstrict⟩ := read_bind_eq_ok.mp hstrict
        rw [hcount] at hcount'
        cases hcount'
        have hsame := sound_orderedStep hdecode.sound hstrict
        rw [h] at hsame
        cases hsame
        obtain ⟨items', hlength', htable', hmiddle, hincreasing, -⟩ :=
          items_of_orderedStep hdecode hstrict
        change collect key items = collect key items' at htable'
        have hvalues : values (collect key items) = items' := by
          rw [htable', values_collect hincreasing]
        have hcounted : (collect key items).size = count := by
          rw [← length_values, hvalues, hlength']
        rw [hinput, hmiddle, hvalues, hcounted, List.append_assoc]
  · intro input r h
    obtain ⟨count, middle, hcount, h⟩ := read_bind_eq_ok.mp h
    exact read_bind_eq_ok.mpr ⟨count, middle, hcount, sound_orderedStep hdecode.sound h⟩

end Reading

end PriorityFabric.Lib.SortedTables
