import PriorityFabric.Lib.LittleEndian

/-!
Sequential readers over byte strings.

A reader consumes a prefix of its input or refuses.  `ReadsIff p bytes value C`
says everything about how `p` treats an input that starts with `bytes`: it
returns `value` and leaves the rest exactly when `C` holds, and refuses
otherwise.  The rules below build such a statement for a composite reader from
the statements of its parts, so that a decoder and the condition under which it
inverts its encoder are obtained together.
-/

namespace PriorityFabric.Lib.ByteReader

open PriorityFabric.Lib.LittleEndian

variable {ε α β σ : Type}

/-- A computation that consumes bytes and may refuse with an `ε`. -/
abbrev Reader (ε α : Type) := StateT Bytes (Except ε) α

def refuse (e : ε) : Reader ε α := fun _ => .error e

def refuseIf (bad : Bool) (e : ε) : Reader ε Unit :=
  if bad then refuse e else pure ()

/-- Consume exactly `count` bytes; `e` says why the input is too short. -/
def takeBytes (count : Nat) (e : Nat → ε) : Reader ε Bytes := fun input =>
  if input.length < count then .error (e input.length)
  else .ok (input.take count, input.drop count)

/-- Require that the input is used up; `e` says what is left. -/
def finish (e : Nat → ε) : Reader ε Unit := fun input =>
  if input.isEmpty then .ok ((), input) else .error (e input.length)

/-- Run `step` `count` times, threading an accumulator through. -/
def readFold : (count : Nat) → (σ → Reader ε σ) → σ → Reader ε σ
  | 0, _, s => pure s
  | count + 1, step, s => do
      let s' ← step s
      readFold count step s'

/-- Run a reader on a whole input and keep its value. -/
def readAll (p : Reader ε α) (input : Bytes) : Except ε α :=
  (p input).map Prod.fst

/-- On an input that starts with `bytes` the reader returns `value` and leaves
the rest if and only if `C` holds; otherwise it refuses. -/
def ReadsIff (p : Reader ε α) (bytes : Bytes) (value : α) (C : Prop) : Prop :=
  ∀ rest, (C → p (bytes ++ rest) = .ok (value, rest)) ∧
    (¬ C → ∃ e, p (bytes ++ rest) = .error e)

namespace ReadsIff

theorem congr {p : Reader ε α} {bytes : Bytes} {value : α} {C D : Prop}
    (h : ReadsIff p bytes value C) (hCD : C ↔ D) : ReadsIff p bytes value D := by
  rwa [propext hCD] at h

theorem pure (value : α) : ReadsIff (ε := ε) (Pure.pure value) [] value True :=
  fun _ => ⟨fun _ => rfl, fun h => absurd trivial h⟩

theorem pure_of_eq {value value' : α} (h : value = value') :
    ReadsIff (ε := ε) (Pure.pure value) [] value' True :=
  h ▸ pure value

theorem bind {p : Reader ε α} {f : α → Reader ε β} {front back : Bytes}
    {a : α} {b : β} {C D : Prop} (hp : ReadsIff p front a C)
    (hf : C → ReadsIff (f a) back b D) :
    ReadsIff (p >>= f) (front ++ back) b (C ∧ D) := by
  intro rest
  have hbind : (p >>= f) (front ++ back ++ rest) =
      (p (front ++ (back ++ rest)) >>= fun r => f r.1 r.2) := by
    rw [List.append_assoc]
    rfl
  rw [hbind]
  by_cases hC : C
  · rw [(hp (back ++ rest)).1 hC]
    have htail := hf hC rest
    refine ⟨fun h => htail.1 h.2, fun h => htail.2 fun hD => h ⟨hC, hD⟩⟩
  · obtain ⟨e, he⟩ := (hp (back ++ rest)).2 hC
    rw [he]
    exact ⟨fun h => absurd h.1 hC, fun _ => ⟨e, rfl⟩⟩

theorem bind_true {p : Reader ε α} {f : α → Reader ε β} {front back : Bytes}
    {a : α} {b : β} {D : Prop} (hp : ReadsIff p front a True)
    (hf : ReadsIff (f a) back b D) :
    ReadsIff (p >>= f) (front ++ back) b D :=
  (bind hp fun _ => hf).congr (by simp)

theorem bind_last {p : Reader ε α} {f : α → Reader ε β} {bytes : Bytes}
    {a : α} {b : β} {C D : Prop} (hp : ReadsIff p bytes a C)
    (hf : C → ReadsIff (f a) [] b D) :
    ReadsIff (p >>= f) bytes b (C ∧ D) := by
  have h := bind hp hf
  rwa [List.append_nil] at h

theorem map {p : Reader ε α} {bytes : Bytes} {a : α} {C : Prop} {f : α → β}
    (hp : ReadsIff p bytes a C) :
    ReadsIff (p >>= fun x => Pure.pure (f x)) bytes (f a) C := by
  have h := bind_last (f := fun x => Pure.pure (f x)) hp fun _ => pure (f a)
  exact h.congr (by simp)

theorem refuseIf (bad : Bool) (e : ε) :
    ReadsIff (ByteReader.refuseIf bad e) [] () (bad = false) := by
  intro rest
  cases bad with
  | false => exact ⟨fun _ => rfl, fun h => absurd rfl h⟩
  | true => exact ⟨fun h => Bool.noConfusion h, fun _ => ⟨e, rfl⟩⟩

theorem guard {f : Unit → Reader ε β} {bytes : Bytes} {b : β} {bad : Bool}
    {e : ε} {D : Prop} (hf : bad = false → ReadsIff (f ()) bytes b D) :
    ReadsIff (ByteReader.refuseIf bad e >>= f) bytes b (bad = false ∧ D) := by
  have h := bind (refuseIf bad e) hf
  rwa [List.nil_append] at h

theorem takeBytes {count : Nat} {bytes : Bytes} (e : Nat → ε)
    (hlength : bytes.length = count) :
    ReadsIff (ByteReader.takeBytes count e) bytes bytes True := by
  intro rest
  refine ⟨fun _ => ?_, fun h => absurd trivial h⟩
  have hnot : ¬ (bytes ++ rest).length < count := by
    simp only [List.length_append, hlength]
    omega
  simp only [ByteReader.takeBytes, if_neg hnot]
  rw [List.take_left' hlength, List.drop_left' hlength]

end ReadsIff

/-- Every item of the list meets the condition at the state it is met in. -/
def FoldAll (C : σ → α → Prop) (next : σ → α → σ) : σ → List α → Prop
  | _, [] => True
  | s, x :: xs => C s x ∧ FoldAll C next (next s x) xs

theorem foldAll_iff_forall (C : α → Prop) (next : σ → α → σ) (s : σ)
    (xs : List α) : FoldAll (fun _ => C) next s xs ↔ ∀ x ∈ xs, C x := by
  induction xs generalizing s with
  | nil => simp [FoldAll]
  | cons x xs ih => simp [FoldAll, ih]

theorem ReadsIff.fold {step : σ → Reader ε σ} {enc : α → Bytes}
    {next : σ → α → σ} {C : σ → α → Prop} (items : List α)
    (hstep : ∀ s, ∀ x ∈ items, ReadsIff (step s) (enc x) (next s x) (C s x))
    (s : σ) :
    ReadsIff (readFold items.length step s) (items.flatMap enc)
      (items.foldl next s) (FoldAll C next s items) := by
  induction items generalizing s with
  | nil => exact ReadsIff.pure s
  | cons x xs ih =>
      simp only [List.length_cons, readFold, List.flatMap_cons, List.foldl_cons]
      refine ReadsIff.bind (hstep s x (by simp)) fun _ => ih ?_ (next s x)
      intro s' y hy
      exact hstep s' y (by simp [hy])

theorem readAll_of_readsIff {p : Reader ε α} {bytes : Bytes} {value : α}
    {C : Prop} (h : ReadsIff p bytes value C) (hC : C) :
    readAll p bytes = .ok value := by
  have hrun := (h []).1 hC
  rw [List.append_nil] at hrun
  simp [readAll, hrun, Except.map]

theorem readAll_refuses_of_readsIff {p : Reader ε α} {bytes : Bytes}
    {value : α} {C : Prop} (h : ReadsIff p bytes value C) (hC : ¬ C) :
    ∃ e, readAll p bytes = .error e := by
  obtain ⟨e, he⟩ := (h []).2 hC
  rw [List.append_nil] at he
  exact ⟨e, by simp [readAll, he, Except.map]⟩

theorem readAll_finish_of_readsIff {p : Reader ε α} {bytes : Bytes} {value : α}
    {C : Prop} (e : Nat → ε) (h : ReadsIff p bytes value C) (hC : C) :
    readAll (do let a ← p; finish e; pure a) bytes = .ok value := by
  have hrun := (h []).1 hC
  rw [List.append_nil] at hrun
  have hdone : ∀ a : α, (pure a : Reader ε α) [] = .ok (a, []) := fun _ => rfl
  simp [readAll, bind, StateT.bind, hrun, finish, hdone, Except.bind, Except.map]

theorem readAll_finish_refuses_of_readsIff {p : Reader ε α} {bytes : Bytes}
    {value : α} {C : Prop} (e : Nat → ε) (h : ReadsIff p bytes value C)
    (hC : ¬ C) :
    ∃ e', readAll (do let a ← p; finish e; pure a) bytes = .error e' := by
  obtain ⟨e', he⟩ := (h []).2 hC
  rw [List.append_nil] at he
  exact ⟨e', by simp [readAll, bind, StateT.bind, he, Except.bind, Except.map]⟩

end PriorityFabric.Lib.ByteReader
