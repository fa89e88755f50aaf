import PriorityFabric.Lib.ByteReader

/-!
What a reader that succeeds has established, whatever its input.
-/

namespace PriorityFabric.Lib.ReaderResults

open PriorityFabric.Lib.LittleEndian
open PriorityFabric.Lib.ByteReader

variable {ε α β σ : Type}

/-- Whatever the reader returns satisfies `Q`. -/
def Yields (p : Reader ε α) (Q : α → Prop) : Prop :=
  ∀ input a rest, p input = .ok (a, rest) → Q a

namespace Yields

theorem pure {Q : α → Prop} {a : α} (h : Q a) : Yields (Pure.pure a : Reader ε α) Q := by
  rintro input _ rest ⟨⟩
  exact h

theorem bind {p : Reader ε α} {f : α → Reader ε β} {P : α → Prop} {Q : β → Prop}
    (hp : Yields p P) (hf : ∀ a, P a → Yields (f a) Q) : Yields (p >>= f) Q := by
  intro input b rest h
  have hbind : (p >>= f) input = (p input >>= fun r => f r.1 r.2) := rfl
  rw [hbind] at h
  cases hread : p input with
  | error e =>
      rw [hread] at h
      cases h
  | ok read =>
      rw [hread] at h
      exact hf read.1 (hp input read.1 read.2 hread) read.2 b rest h

theorem any {p : Reader ε α} {f : α → Reader ε β} {Q : β → Prop}
    (hf : ∀ a, Yields (f a) Q) : Yields (p >>= f) Q :=
  bind (P := fun _ => True) (fun _ _ _ _ => trivial) fun a _ => hf a

theorem refuseIf (bad : Bool) (e : ε) :
    Yields (ByteReader.refuseIf bad e) fun _ => bad = false := by
  intro input u rest h
  cases bad with
  | false => rfl
  | true => cases h

theorem takeBytes (count : Nat) (e : Nat → ε) :
    Yields (ByteReader.takeBytes count e) fun bytes => bytes.length = count := by
  intro input bytes rest h
  unfold ByteReader.takeBytes at h
  split at h
  · cases h
  · rename_i hlength
    cases h
    rw [List.length_take]
    omega

/-- An invariant of the accumulator that each step keeps, with the number of steps. -/
theorem fold {step : σ → Reader ε σ} {I : Nat → σ → Prop}
    (hstep : ∀ n s, I n s → Yields (step s) (I (n + 1))) (count n : Nat) (s : σ) (h : I n s) :
    Yields (readFold count step s) (I (n + count)) := by
  induction count generalizing n s with
  | zero => exact pure h
  | succ count ih =>
      have harith : n + (count + 1) = n + 1 + count := by omega
      rw [harith]
      exact bind (hstep n s h) fun s' hs' => ih (n + 1) s' hs'

theorem readAll {p : Reader ε α} {Q : α → Prop} (h : Yields p Q) {bytes : Bytes} {a : α}
    (hread : ByteReader.readAll p bytes = .ok a) : Q a := by
  unfold ByteReader.readAll at hread
  cases hp : p bytes with
  | error e =>
      rw [hp] at hread
      cases hread
  | ok read =>
      rw [hp] at hread
      cases hread
      exact h bytes read.1 read.2 hp

end Yields

end PriorityFabric.Lib.ReaderResults
