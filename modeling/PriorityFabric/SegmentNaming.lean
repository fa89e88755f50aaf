import PriorityFabric.StateDirectory

/-!
Segment names and segment indexes.

The parser takes the printed name of every index back to it, and refuses the number
zero, which has a spelling of its own.  It does not refuse leading zeros: a padded name
claims the segment of another name.
-/

namespace PriorityFabric.SegmentNaming

open PriorityFabric.Lib.LittleEndian
open PriorityFabric.Basics
open PriorityFabric.Durability
open PriorityFabric.Store
open PriorityFabric.StoreFiles
open PriorityFabric.StateDirectory (mem_segmentIndices)

theorem digitBytes_injective {first second : List Nat} (hfirst : ∀ d ∈ first, d < 10)
    (hsecond : ∀ d ∈ second, d < 10) (h : digitBytes first = digitBytes second) :
    first = second := by
  have hvalue (digits : List Nat) (hdigits : ∀ d ∈ digits, d < 10) :
      (digitBytes digits).map (·.toNat - 48) = digits := by
    rw [digitBytes, List.map_map]
    conv_rhs => rw [← List.map_id digits]
    apply List.map_congr_left
    intro d hd
    have hd := hdigits d hd
    simp only [Function.comp_apply, UInt8.toNat_ofNat', id]
    omega
  rw [← hvalue first hfirst, h, hvalue second hsecond]

theorem parseDigits_eq_some {bytes : Bytes} {start value : Nat}
    (h : parseDigits start bytes = some value) :
    ∃ digits, (∀ d ∈ digits, d < 10) ∧ bytes = digitBytes digits := by
  induction bytes generalizing start with
  | nil => exact ⟨[], by simp, rfl⟩
  | cons c rest ih =>
      rw [parseDigits] at h
      split at h
      · cases h
      · rename_i hrange
        simp only [UInt8.lt_iff_toNat_lt, UInt8.reduceToNat, not_or, not_lt] at hrange
        obtain ⟨digits, hdigits, rfl⟩ := ih h
        refine ⟨(c.toNat - 48) :: digits, ?_, ?_⟩
        · intro d hd
          rcases List.mem_cons.mp hd with rfl | hd
          · omega
          · exact hdigits d hd
        · have hc : UInt8.ofNat (48 + (c.toNat - 48)) = c := by
            rw [show 48 + (c.toNat - 48) = c.toNat by omega, UInt8.ofNat_toNat]
          simp only [digitBytes, List.map_cons, hc]

/-- Digits without a leading zero are what the printer writes for their value. -/
theorem digitBytes_eq_decimal {head : Nat} {digits : List Nat}
    (hdigits : ∀ d ∈ head :: digits, d < 10) (hhead : head ≠ 0) :
    digitBytes (head :: digits) = decimal (digitsValue (head :: digits)) := by
  have hread : Nat.digits 10 (digitsValue (head :: digits)) = (head :: digits).reverse := by
    rw [digitsValue_eq_ofDigits]
    apply Nat.digits_ofDigits 10 (by norm_num)
    · intro d hd
      exact hdigits d (List.mem_reverse.mp hd)
    · intro _
      simpa using hhead
  have hne : digitsValue (head :: digits) ≠ 0 := by
    intro h
    rw [h] at hread
    simp at hread
  rw [decimal, if_neg hne, hread, List.reverse_reverse, digitBytes]

theorem decimal_ne_padded {index : Nat} (hindex : index ≠ 0) {digits : List Nat}
    (hdigits : ∀ d ∈ digits, d < 10) : decimal index ≠ digitBytes (0 :: digits) := by
  intro h
  rw [decimal, if_neg hindex] at h
  have hrows : (Nat.digits 10 index).reverse = 0 :: digits := by
    refine digitBytes_injective ?_ ?_ h
    · intro d hd
      exact Nat.digits_lt_base (by norm_num) (List.mem_reverse.mp hd)
    · intro d hd
      rcases List.mem_cons.mp hd with rfl | hd
      · norm_num
      · exact hdigits d hd
  have hrow : Nat.digits 10 index = digits.reverse ++ [0] := by
    rw [← List.reverse_reverse (Nat.digits 10 index), hrows, List.reverse_cons]
  have hlast := Nat.getLast_digit_ne_zero 10 hindex
  simp [hrow] at hlast

theorem digitsValue_lt {digits : List Nat} (hdigits : ∀ d ∈ digits, d < 10) :
    digitsValue digits < 10 ^ digits.length := by
  rw [digitsValue_eq_ofDigits, ← List.length_reverse]
  apply Nat.ofDigits_lt_base_pow_length (by norm_num)
  intro d hd
  exact hdigits d (List.mem_reverse.mp hd)

theorem digitsValue_eq_zero_iff {digits : List Nat} :
    digitsValue digits = 0 ↔ ∀ d ∈ digits, d = 0 := by
  rw [digitsValue_eq_ofDigits]
  constructor
  · intro hzero d hd
    exact Nat.digits_zero_of_eq_zero (by norm_num) hzero d (List.mem_reverse.mpr hd)
  · intro hall
    have hrow : digits.reverse = List.replicate digits.length 0 := by
      rw [List.eq_replicate_iff]
      exact ⟨List.length_reverse, fun d hd => hall d (List.mem_reverse.mp hd)⟩
    rw [hrow, Nat.ofDigits_replicate_zero]

/-- A name the parser accepts is that of segment 0 or carries a row of digits. -/
theorem parseJournalSegmentName_eq_some {name : Bytes} {index : Nat}
    (h : parseJournalSegmentName name = some index) :
    name = journalSegmentName 0 ∧ index = 0 ∨
      ∃ digits, (∀ d ∈ digits, d < 10) ∧ digits ≠ [] ∧ digits.length ≤ 10 ∧
        name = journalBaseName ++ 46 :: digitBytes digits ++ journalExtension ∧
        index = digitsValue digits ∧ index ≠ 0 := by
  unfold parseJournalSegmentName at h
  split at h
  · cases h
  · split at h
    · cases h
    · rename_i hlong hbase
      split at h
      · cases h
      · rename_i hext
        rw [not_not] at hbase hext
        -- what stands between the base name and the extension
        have hsplit (middle : Bytes) (hmiddle : (name.take (name.length -
            journalExtension.length)).drop journalBaseName.length = middle) :
            name = journalBaseName ++ middle ++ journalExtension := by
          have hfront : (name.take (name.length - journalExtension.length)).take
              journalBaseName.length = journalBaseName := by
            rw [List.take_take, Nat.min_eq_left (by omega), hbase]
          rw [← hmiddle]
          conv_rhs => rw [← hfront]
          rw [List.length_take_of_le (by rw [List.length_take]; omega),
            List.take_append_drop]
          conv_rhs => rw [← hext]
          rw [List.length_drop, Nat.sub_sub_self (by omega), List.take_append_drop]
        dsimp only at h
        split at h
        · rename_i hmiddle
          cases h
          exact .inl ⟨hsplit _ hmiddle, rfl⟩
        · rename_i dot digits hmiddle
          split at h
          · cases h
          · rename_i hdot
            split at h
            · cases h
            · rename_i hlength
              split at h
              · cases h
              · rename_i value hvalue
                split at h
                · cases h
                · rename_i hrange
                  cases h
                  rw [not_not] at hdot
                  obtain ⟨row, hrow, rfl⟩ := parseDigits_eq_some hvalue
                  rw [parseDigits_digitBytes hrow] at hvalue
                  simp only [Bool.or_eq_true, List.isEmpty_iff, decide_eq_true_eq, not_or,
                    digitBytes, List.map_eq_nil_iff, List.length_map] at hlength
                  refine .inr ⟨row, hrow, hlength.1, by omega, ?_,
                    (Option.some.inj hvalue).symm, by omega⟩
                  rw [hsplit _ hmiddle, hdot]

/-- The number is written with a leading zero, and fits in ten digits. -/
def Padded (name : Bytes) : Prop :=
  ∃ digits : List Nat,
    name = journalBaseName ++ 46 :: digitBytes (0 :: digits) ++ journalExtension ∧
      (∀ d ∈ digits, d < 10) ∧ digits.length ≤ 9 ∧ ¬ ∀ d ∈ digits, d = 0

theorem Padded.claims {name : Bytes} (h : Padded name) :
    ∃ index < 2 ^ 32, parseJournalSegmentName name = some index ∧
      name ≠ journalSegmentName index := by
  obtain ⟨digits, rfl, hdigits, hlength, hsome⟩ := h
  have hrow : ∀ d ∈ 0 :: digits, d < 10 := by
    intro d hd
    rcases List.mem_cons.mp hd with rfl | hd
    · norm_num
    · exact hdigits d hd
  have hvalue : digitsValue (0 :: digits) = digitsValue digits := rfl
  have hzero : digitsValue (0 :: digits) ≠ 0 := by
    rw [hvalue]
    exact mt digitsValue_eq_zero_iff.mp hsome
  have hbound : digitsValue (0 :: digits) < 2 ^ 32 := by
    have hlt := digitsValue_lt hdigits
    have hpow : 10 ^ digits.length ≤ 10 ^ 9 := Nat.pow_le_pow_right (by norm_num) hlength
    rw [hvalue]
    omega
  refine ⟨digitsValue (0 :: digits), hbound,
    parse_digitBytes hrow (by simp) (by simp only [List.length_cons]; omega) hzero hbound, ?_⟩
  rw [journalSegmentName_of_ne_zero hzero]
  intro h
  have htail := List.append_cancel_left (List.append_cancel_right h)
  exact decimal_ne_padded hzero hdigits (List.cons.inj htail).2.symm

theorem eq_journalSegmentName {name : Bytes} {index : Nat} (hname : ¬ Padded name)
    (h : parseJournalSegmentName name = some index) : name = journalSegmentName index := by
  obtain ⟨rfl, rfl⟩ | ⟨digits, hdigits, hne, hlength, rfl, rfl, hzero⟩ :=
    parseJournalSegmentName_eq_some h
  · rfl
  · rw [journalSegmentName_of_ne_zero hzero]
    cases digits with
    | nil => exact absurd rfl hne
    | cons head digits =>
        by_cases hhead : head = 0
        · subst hhead
          have hshort : digits.length ≤ 9 := by
            rw [List.length_cons] at hlength
            omega
          exact absurd ⟨digits, rfl, fun d hd => hdigits d (by simp [hd]), hshort,
            mt digitsValue_eq_zero_iff.mpr hzero⟩ hname
        · rw [digitBytes_eq_decimal hdigits hhead]

theorem own_name_iff (name : Bytes) :
    (∀ index, parseJournalSegmentName name = some index →
      name = journalSegmentName index) ↔ ¬ Padded name := by
  constructor
  · intro hown hpadded
    obtain ⟨index, -, hparse, hne⟩ := hpadded.claims
    exact hne (hown index hparse)
  · intro hname index hparse
    exact eq_journalSegmentName hname hparse

/-- Two files of the directory never claim one segment, and the file replay opens for a
claimed segment is there. -/
def OwnFiles (dir : Directory) : Prop :=
  (∀ name ∈ dir, ∀ other ∈ dir, ∀ index, parseJournalSegmentName name = some index →
      parseJournalSegmentName other = some index → name = other) ∧
    ∀ name ∈ dir, ∀ index, parseJournalSegmentName name = some index →
      journalSegmentName index ∈ dir

theorem ownFiles_iff (dir : Directory) :
    OwnFiles dir ↔ ∀ name ∈ dir, ¬ Padded name := by
  constructor
  · rintro ⟨hone, hthere⟩ name hname hpadded
    obtain ⟨index, hindex, hparse, hne⟩ := hpadded.claims
    exact hne (hone name hname _ (hthere name hname index hparse) index hparse
      (parseJournalSegmentName_journalSegmentName hindex))
  · intro hnone
    constructor
    · intro name hname other hother index hparse hclaim
      rw [eq_journalSegmentName (hnone name hname) hparse,
        eq_journalSegmentName (hnone other hother) hclaim]
    · intro name hname index hparse
      exact eq_journalSegmentName (hnone name hname) hparse ▸ hname

/-- The segments replay reads are distinct, and each is read from the file that was
discovered. -/
theorem discoverSegments_own {dir : Directory} (h : ∀ name ∈ dir, ¬ Padded name)
    (first : Nat) :
    (discoverSegments dir first).Nodup ∧
      ∀ index ∈ discoverSegments dir first, journalSegmentName index ∈ dir ∧
        ∀ name ∈ dir, parseJournalSegmentName name = some index →
          name = journalSegmentName index := by
  obtain ⟨hone, hthere⟩ := (ownFiles_iff dir).mpr h
  constructor
  · rw [discoverSegments, (List.mergeSort_perm _ _).nodup_iff]
    apply List.Nodup.filter
    rw [List.Nodup, segmentIndices, List.pairwise_filterMap]
    refine List.Pairwise.imp_of_mem ?_ (Std.ExtTreeMap.nodup_keys (t := dir))
    intro name other hname hother hne index hparse index' hclaim hindex
    subst hindex
    rw [Std.ExtTreeMap.mem_keys] at hname hother
    exact hne (hone name hname other hother index hparse hclaim)
  · intro index hindex
    rw [discoverSegments, List.mem_mergeSort, List.mem_filter, mem_segmentIndices] at hindex
    obtain ⟨⟨name, hname, hparse⟩, -⟩ := hindex
    refine ⟨hthere name hname index hparse, fun other hother hclaim => ?_⟩
    exact eq_journalSegmentName (h other hother) hclaim

/-- Names and indexes correspond one to one, padded names apart. -/
theorem segment_names_correspond (name : Bytes) (dir : Directory) :
    (∀ index < 2 ^ 32, parseJournalSegmentName (journalSegmentName index) = some index) ∧
      ((∀ index, parseJournalSegmentName name = some index →
        name = journalSegmentName index) ↔ ¬ Padded name) ∧
      (OwnFiles dir ↔ ∀ file ∈ dir, ¬ Padded file) ∧
      ((∀ file ∈ dir, ¬ Padded file) → ∀ first,
        (discoverSegments dir first).Nodup ∧
          ∀ index ∈ discoverSegments dir first, journalSegmentName index ∈ dir ∧
            ∀ file ∈ dir, parseJournalSegmentName file = some index →
              file = journalSegmentName index) := by
  refine ⟨fun index hindex => parseJournalSegmentName_journalSegmentName hindex,
    own_name_iff name, ownFiles_iff dir, ?_⟩
  intro h first
  exact discoverSegments_own h first

/-- `journal.01.pfj` claims segment 1, which is `journal.1.pfj`. -/
theorem padded_name_claims_segment :
    parseJournalSegmentName (text "journal.01.pfj") = some 1 ∧
      text "journal.01.pfj" ≠ journalSegmentName 1 := by
  decide

end PriorityFabric.SegmentNaming
