import Mathlib.Data.List.Basic

/-!
A bounded list that forgets its oldest entries.

Such a ring is the end of a log that forgets nothing.
-/

namespace PriorityFabric.Lib.Rings

variable {α : Type} {bound : Nat} {log : List α}

/-- The last entries of a log, at most `bound` of them. -/
def latest (bound : Nat) (log : List α) : List α := log.drop (log.length - bound)

/-- Put an entry at the end and drop from the front what is beyond the bound. -/
def push (bound : Nat) (ring : List α) (entry : α) : List α :=
  if bound = 0 then ring
  else if ring.length ≥ bound then ring.drop (ring.length - bound + 1) ++ [entry]
  else ring ++ [entry]

theorem latest_of_length_le (h : log.length ≤ bound) : latest bound log = log := by
  rw [latest, Nat.sub_eq_zero_of_le h, List.drop_zero]

theorem length_latest (bound : Nat) (log : List α) :
    (latest bound log).length = min bound log.length := by
  rw [latest, List.length_drop]
  omega

theorem latest_latest {shorter : Nat} (h : shorter ≤ bound) (log : List α) :
    latest shorter (latest bound log) = latest shorter log := by
  unfold latest
  rw [List.drop_drop, List.length_drop]
  congr 1
  omega

theorem push_latest (bound : Nat) (log : List α) (entry : α) :
    push bound (latest bound log) entry = latest bound (log ++ [entry]) := by
  have hlength := length_latest bound log
  unfold push
  split
  · rename_i hzero
    subst hzero
    simp [latest]
  · rename_i hpositive
    split
    · rename_i hfull
      have hlong : log.length + 1 - bound ≤ log.length := by omega
      rw [latest, latest, List.drop_drop, List.length_drop, List.length_append,
        List.length_singleton, List.drop_append_of_le_length hlong]
      congr 2
      omega
    · rename_i hroom
      rw [latest_of_length_le (by omega), latest_of_length_le]
      rw [List.length_append, List.length_singleton]
      omega

theorem foldl_push_latest (bound : Nat) (whole log : List α) :
    log.foldl (push bound) (latest bound whole) = latest bound (whole ++ log) := by
  induction log generalizing whole with
  | nil => rw [List.foldl_nil, List.append_nil]
  | cons entry log ih =>
      rw [List.foldl_cons, push_latest, ih, List.append_assoc, List.singleton_append]

end PriorityFabric.Lib.Rings
