import Mathlib.Logic.Function.Basic
import Mathlib.Data.List.Basic

/-!
Registers driven by symbols.

A register is folded over a row of symbols.  Where each symbol moves the register
injectively, two rows that differ in one window are told apart as soon as their windows
are.
-/

namespace PriorityFabric.Lib.Registers

variable {R A : Type} (step : R → A → R)

/-- Rows of at most `width` symbols lead one register to different ones. -/
def Distinguishes (width : Nat) : Prop :=
  ∀ (start : R) (first second : List A), first.length = second.length →
    first.length ≤ width → first.foldl step start = second.foldl step start →
    first = second

/-- Two different rows of one length agree outside some window of `width` symbols. -/
def AlteredWithin (width : Nat) (first second : List A) : Prop :=
  first.length = second.length ∧ first ≠ second ∧
    ∃ start, ∀ i, i < start ∨ start + width ≤ i → first[i]? = second[i]?

variable {step}

theorem foldl_injective (hstep : ∀ symbol, Function.Injective (step · symbol))
    (symbols : List A) : Function.Injective (symbols.foldl step ·) := by
  induction symbols with
  | nil => exact fun _ _ h => h
  | cons symbol symbols ih => exact fun _ _ h => hstep symbol (ih h)

theorem AlteredWithin.split {width : Nat} {first second : List A}
    (h : AlteredWithin width first second) :
    ∃ before window window' after, first = before ++ (window ++ after) ∧
      second = before ++ (window' ++ after) ∧ window.length = window'.length ∧
      window.length ≤ width ∧ window ≠ window' := by
  obtain ⟨hlength, hne, start, hagree⟩ := h
  have hbefore : first.take start = second.take start := by
    apply List.ext_getElem?
    intro i
    rw [List.getElem?_take, List.getElem?_take]
    split
    · exact hagree i (.inl ‹_›)
    · rfl
  have hafter : first.drop (start + width) = second.drop (start + width) := by
    apply List.ext_getElem?
    intro i
    rw [List.getElem?_drop, List.getElem?_drop]
    exact hagree _ (.inr (by omega))
  have hsplit (row : List A) : row =
      row.take start ++ ((row.drop start).take width ++ row.drop (start + width)) := by
    rw [← List.drop_drop, List.take_append_drop, List.take_append_drop]
  refine ⟨first.take start, (first.drop start).take width, (second.drop start).take width,
    first.drop (start + width), hsplit first, ?_, ?_, ?_, ?_⟩
  · rw [hbefore, hafter]
    exact hsplit second
  · simp only [List.length_take, List.length_drop, hlength]
  · exact List.length_take_le _ _
  · intro hwindow
    apply hne
    rw [hsplit first, hsplit second, hbefore, hafter, hwindow]

theorem foldl_ne_of_alteredWithin (hstep : ∀ symbol, Function.Injective (step · symbol))
    {width : Nat} (hwidth : Distinguishes step width) {first second : List A}
    (h : AlteredWithin width first second) (start : R) :
    first.foldl step start ≠ second.foldl step start := by
  obtain ⟨before, window, window', after, rfl, rfl, hlength, hle, hne⟩ := h.split
  simp only [List.foldl_append]
  intro heq
  exact hne (hwidth _ window window' hlength hle (foldl_injective hstep after heq))

end PriorityFabric.Lib.Registers
