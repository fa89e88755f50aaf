import Mathlib.Data.List.Basic

/-!
Rows cut into blocks of one width.

A row is absorbed block by block from its front; what is left is shorter than a block
and waits for more.  Absorbing a row in pieces comes to absorbing it whole.
-/

namespace PriorityFabric.Lib.Blocks

variable {A S : Type} {width : Nat}

def takeBlocks (width : Nat) : (count : Nat) → List A → List (List A)
  | 0, _ => []
  | count + 1, row => row.take width :: takeBlocks width count (row.drop width)

def blocks (width : Nat) (row : List A) : List (List A) :=
  takeBlocks width (row.length / width) row

def remainder (width : Nat) (row : List A) : List A :=
  row.drop (width * (row.length / width))

theorem blocks_of_lt {row : List A} (h : row.length < width) : blocks width row = [] := by
  rw [blocks, Nat.div_eq_of_lt h, takeBlocks]

theorem blocks_of_le (hwidth : 0 < width) {row : List A} (h : width ≤ row.length) :
    blocks width row = row.take width :: blocks width (row.drop width) := by
  rw [blocks, blocks, List.length_drop, Nat.div_eq_sub_div hwidth h, takeBlocks]

theorem remainder_of_lt {row : List A} (h : row.length < width) :
    remainder width row = row := by
  rw [remainder, Nat.div_eq_of_lt h, Nat.mul_zero, List.drop_zero]

theorem remainder_of_le (hwidth : 0 < width) {row : List A} (h : width ≤ row.length) :
    remainder width row = remainder width (row.drop width) := by
  rw [remainder, remainder, List.length_drop, Nat.div_eq_sub_div hwidth h, List.drop_drop,
    Nat.mul_add, Nat.mul_one, Nat.add_comm]

theorem length_remainder (row : List A) :
    (remainder width row).length = row.length % width := by
  have hsplit := Nat.div_add_mod row.length width
  rw [remainder, List.length_drop]
  omega

theorem block_induction (hwidth : 0 < width) {motive : List A → Prop}
    (short : ∀ row, row.length < width → motive row)
    (block : ∀ row, width ≤ row.length → motive (row.drop width) → motive row)
    (row : List A) : motive row := by
  induction hn : row.length using Nat.strongRecOn generalizing row with
  | _ n ih =>
      by_cases h : width ≤ row.length
      · refine block row h (ih _ ?_ _ rfl)
        rw [List.length_drop]
        omega
      · exact short row (by omega)

theorem blocks_append (hwidth : 0 < width) (row more : List A) :
    blocks width (row ++ more) =
      blocks width row ++ blocks width (remainder width row ++ more) := by
  induction row using block_induction hwidth with
  | short row h => rw [blocks_of_lt h, remainder_of_lt h, List.nil_append]
  | block row h ih =>
      have hlong : width ≤ (row ++ more).length := by
        rw [List.length_append]
        omega
      rw [blocks_of_le hwidth hlong, List.take_append_of_le_length h,
        List.drop_append_of_le_length h, ih, blocks_of_le hwidth h,
        remainder_of_le hwidth h, List.cons_append]

theorem remainder_append (hwidth : 0 < width) (row more : List A) :
    remainder width (row ++ more) = remainder width (remainder width row ++ more) := by
  induction row using block_induction hwidth with
  | short row h => rw [remainder_of_lt h]
  | block row h ih =>
      have hlong : width ≤ (row ++ more).length := by
        rw [List.length_append]
        omega
      rw [remainder_of_le hwidth hlong, List.drop_append_of_le_length h, ih,
        remainder_of_le hwidth h]

theorem flatten_blocks (hwidth : 0 < width) (row : List A) :
    (blocks width row).flatten ++ remainder width row = row := by
  induction row using block_induction hwidth with
  | short row h => rw [blocks_of_lt h, remainder_of_lt h, List.flatten_nil, List.nil_append]
  | block row h ih =>
      rw [blocks_of_le hwidth h, remainder_of_le hwidth h, List.flatten_cons,
        List.append_assoc, ih, List.take_append_drop]

theorem length_of_mem_blocks (hwidth : 0 < width) (row : List A) :
    ∀ block ∈ blocks width row, block.length = width := by
  induction row using block_induction hwidth with
  | short row h => simp [blocks_of_lt h]
  | block row h ih =>
      rw [blocks_of_le hwidth h]
      intro block hblock
      rcases List.mem_cons.mp hblock with rfl | hblock
      · exact List.length_take_of_le h
      · exact ih block hblock

theorem flatten_blocks_of_dvd (hwidth : 0 < width) {row : List A} (h : width ∣ row.length) :
    (blocks width row).flatten = row := by
  have hflat := flatten_blocks hwidth row
  have hrest := @length_remainder A width row
  rw [Nat.mod_eq_zero_of_dvd h, List.length_eq_zero_iff] at hrest
  rwa [hrest, List.append_nil] at hflat

variable (fold : S → List A → S)

/-- Fold the full blocks of a row and keep the rest. -/
def absorb (width : Nat) (state : S) (row : List A) : S × List A :=
  ((blocks width row).foldl fold state, remainder width row)

theorem absorb_of_lt (state : S) {row : List A} (h : row.length < width) :
    absorb fold width state row = (state, row) := by
  rw [absorb, blocks_of_lt h, remainder_of_lt h, List.foldl_nil]

theorem absorb_of_le (hwidth : 0 < width) (state : S) {row : List A}
    (h : width ≤ row.length) :
    absorb fold width state row =
      absorb fold width (fold state (row.take width)) (row.drop width) := by
  rw [absorb, absorb, blocks_of_le hwidth h, remainder_of_le hwidth h, List.foldl_cons]

theorem absorb_append (hwidth : 0 < width) (state : S) (row more : List A) :
    absorb fold width state (row ++ more) =
      absorb fold width (absorb fold width state row).1
        ((absorb fold width state row).2 ++ more) := by
  simp only [absorb]
  rw [blocks_append hwidth, remainder_append hwidth, List.foldl_append]

end PriorityFabric.Lib.Blocks
