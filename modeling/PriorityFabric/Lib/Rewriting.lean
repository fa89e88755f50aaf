import PriorityFabric.Lib.ByteReader

/-!
Readers beside stricter ones.

Writing out again what a reader returned gives bytes that read back to the same value.  They
are the bytes that were read if and only if the stricter reader accepts those, too.  The
rules below build such a statement for a composite reader from the statements of its parts.
-/

namespace PriorityFabric.Lib.Rewriting

open PriorityFabric.Lib.LittleEndian
open PriorityFabric.Lib.ByteReader

variable {ε α β σ : Type}

/-- The bytes `w` written for `a` against the input it was read from. -/
structure Rewrites (p s : Reader ε α) (input : Bytes) (a : α) (rest w : Bytes) : Prop where
  stable : ∀ x, p (w ++ x) = .ok (a, x)
  shorter : w.length + rest.length ≤ input.length
  exact : input = w ++ rest ↔ ∃ r, s input = .ok r

/-- Whatever `p` returns is written as `W` says and reads back, and `s` accepts exactly the
inputs that are written so. -/
structure Faithful (p s : Reader ε α) (W : α → Bytes → Prop) : Prop where
  written : ∀ input a rest, p input = .ok (a, rest) → ∃ w, W a w ∧ Rewrites p s input a rest w
  sound : ∀ input r, s input = .ok r → p input = .ok r

theorem read_bind_eq_ok {p : Reader ε α} {f : α → Reader ε β} {input : Bytes} {r : β × Bytes} :
    (p >>= f) input = .ok r ↔ ∃ a rest, p input = .ok (a, rest) ∧ f a rest = .ok r := by
  have hbind : (p >>= f) input = (p input >>= fun r => f r.1 r.2) := rfl
  rw [hbind]
  cases hread : p input with
  | error e =>
      simp only [bind, Except.bind, reduceCtorEq, false_and, exists_false]
  | ok read =>
      obtain ⟨a, rest⟩ := read
      simp only [bind, Except.bind, Except.ok.injEq, Prod.mk.injEq]
      constructor
      · intro h
        exact ⟨a, rest, ⟨rfl, rfl⟩, h⟩
      · rintro ⟨a', rest', ⟨rfl, rfl⟩, h⟩
        exact h

theorem refuseIf_eq_ok {bad : Bool} {e : ε} {input rest : Bytes} {u : Unit} :
    ByteReader.refuseIf bad e input = .ok (u, rest) ↔ bad = false ∧ input = rest := by
  cases bad with
  | true =>
      constructor
      · intro h
        cases h
      · rintro ⟨h, -⟩
        cases h
  | false =>
      constructor
      · intro h
        cases h
        exact ⟨rfl, rfl⟩
      · rintro ⟨-, rfl⟩
        rfl

namespace Faithful

variable {p s : Reader ε α} {W W' : α → Bytes → Prop}

theorem mono (h : Faithful p s W) (hW : ∀ a w, W a w → W' a w) : Faithful p s W' := by
  refine ⟨?_, h.sound⟩
  intro input a rest hread
  obtain ⟨w, hw, hrewrites⟩ := h.written input a rest hread
  exact ⟨w, hW a w hw, hrewrites⟩

theorem pure (value : α) :
    Faithful (ε := ε) (Pure.pure value) (Pure.pure value) fun a w => a = value ∧ w = [] := by
  refine ⟨?_, fun _ _ h => h⟩
  rintro input _ rest ⟨⟩
  exact ⟨[], ⟨rfl, rfl⟩, fun x => rfl, by simp, iff_of_true rfl ⟨_, rfl⟩⟩

theorem refuseIf (bad : Bool) (e : ε) :
    Faithful (ByteReader.refuseIf bad e) (ByteReader.refuseIf bad e)
      fun _ w => bad = false ∧ w = [] := by
  cases bad with
  | true =>
      refine ⟨?_, fun _ _ h => h⟩
      rintro input a rest ⟨⟩
  | false =>
      refine (pure ()).mono ?_
      rintro a w ⟨-, hw⟩
      exact ⟨rfl, hw⟩

theorem takeBytes (count : Nat) (e : Nat → ε) :
    Faithful (ByteReader.takeBytes count e) (ByteReader.takeBytes count e)
      fun a w => w = a ∧ a.length = count := by
  refine ⟨?_, fun _ _ h => h⟩
  intro input a rest h
  have hread := h
  unfold ByteReader.takeBytes at h
  split at h
  · cases h
  · rename_i hlength
    cases h
    have htake : (input.take count).length = count := by
      rw [List.length_take]
      omega
    refine ⟨input.take count, ⟨rfl, htake⟩, fun x => ?_, ?_, ?_⟩
    · exact (ReadsIff.takeBytes e htake x).1 trivial
    · rw [htake, List.length_drop]
      omega
    · exact iff_of_true (List.take_append_drop count input).symm ⟨_, hread⟩

/-- A read and what follows it; the second may rely on what is known of the first value. -/
theorem bindOf {q t : α → Reader ε β} {V : α → β → Bytes → Prop} (hp : Faithful p s W)
    (hq : ∀ a, (∃ w, W a w) → Faithful (q a) (t a) (V a)) :
    Faithful (p >>= q) (s >>= t) fun b w =>
      ∃ a front back, W a front ∧ V a b back ∧ w = front ++ back := by
  refine ⟨?_, ?_⟩
  · intro input b rest h
    obtain ⟨a, middle, hfirst, hsecond⟩ := read_bind_eq_ok.mp h
    obtain ⟨front, hfront, hf⟩ := hp.written input a middle hfirst
    obtain ⟨back, hback, hb⟩ := (hq a ⟨front, hfront⟩).written middle b rest hsecond
    refine ⟨front ++ back, ⟨a, front, back, hfront, hback, rfl⟩, ?_, ?_, ?_⟩
    · intro x
      rw [List.append_assoc]
      exact read_bind_eq_ok.mpr ⟨a, back ++ x, hf.stable _, hb.stable x⟩
    · have hshorter := hf.shorter
      have hshorter' := hb.shorter
      rw [List.length_append]
      omega
    · rw [List.append_assoc]
      constructor
      · intro hinput
        have hagain := hf.stable (back ++ rest)
        rw [← hinput, hfirst] at hagain
        cases hagain
        obtain ⟨r, hr⟩ := hf.exact.mp hinput
        obtain ⟨r', hr'⟩ := hb.exact.mp rfl
        have hsame := hp.sound input r hr
        rw [hfirst] at hsame
        cases hsame
        exact ⟨r', read_bind_eq_ok.mpr ⟨a, back ++ rest, hr, hr'⟩⟩
      · rintro ⟨r, hr⟩
        obtain ⟨a', middle', hr, hr'⟩ := read_bind_eq_ok.mp hr
        have hsame := hp.sound input _ hr
        rw [hfirst] at hsame
        cases hsame
        rw [← hb.exact.mpr ⟨r, hr'⟩]
        exact hf.exact.mpr ⟨_, hr⟩
  · intro input r h
    obtain ⟨a, middle, hr, hr'⟩ := read_bind_eq_ok.mp h
    have hread := hp.sound input _ hr
    obtain ⟨w, hw, -⟩ := hp.written input a middle hread
    exact read_bind_eq_ok.mpr ⟨a, middle, hread, (hq a ⟨w, hw⟩).sound middle r hr'⟩

theorem bind {q t : α → Reader ε β} {V : α → β → Bytes → Prop} (hp : Faithful p s W)
    (hq : ∀ a, Faithful (q a) (t a) (V a)) :
    Faithful (p >>= q) (s >>= t) fun b w =>
      ∃ a front back, W a front ∧ V a b back ∧ w = front ++ back :=
  hp.bindOf fun a _ => hq a

theorem checked {bad : Bool} {e : ε} {q t : Unit → Reader ε β} {V : β → Bytes → Prop}
    (hq : bad = false → Faithful (q ()) (t ()) V) :
    Faithful (ByteReader.refuseIf bad e >>= q) (ByteReader.refuseIf bad e >>= t) V := by
  refine ((refuseIf bad e).bindOf (V := fun _ => V) fun u hbad => ?_).mono ?_
  · obtain ⟨w, hbad, -⟩ := hbad
    exact hq hbad
  · rintro b w ⟨u, front, back, ⟨-, rfl⟩, hback, rfl⟩
    exact hback

theorem last (hp : Faithful p s W) (f : α → β) :
    Faithful (p >>= fun a => Pure.pure (f a)) (s >>= fun a => Pure.pure (f a)) fun b w =>
      ∃ a, b = f a ∧ W a w := by
  refine (hp.bind fun a => pure (f a)).mono ?_
  rintro b w ⟨a, front, back, hfront, ⟨rfl, rfl⟩, rfl⟩
  refine ⟨a, rfl, ?_⟩
  rw [List.append_nil]
  exact hfront

/-- A read in a row of them: `F` puts what is written before around what is written now. -/
theorem next {q t : α → Reader ε β} {enc : α → Bytes} {F : Bytes → Bytes} {E : β → Bytes}
    (hp : Faithful p s fun a w => w = enc a)
    (hq : ∀ a, Faithful (q a) (t a) fun b w => F (enc a ++ w) = E b) :
    Faithful (p >>= q) (s >>= t) fun b w => F w = E b := by
  refine (hp.bind hq).mono ?_
  rintro b w ⟨a, front, back, rfl, hback, rfl⟩
  exact hback

theorem nextOf {q t : α → Reader ε β} {enc : α → Bytes} {C : α → Prop} {F : Bytes → Bytes}
    {E : β → Bytes} (hp : Faithful p s fun a w => w = enc a ∧ C a)
    (hq : ∀ a, C a → Faithful (q a) (t a) fun b w => F (enc a ++ w) = E b) :
    Faithful (p >>= q) (s >>= t) fun b w => F w = E b := by
  refine (hp.bindOf (V := fun a b w => F (enc a ++ w) = E b) fun a ha => ?_).mono ?_
  · obtain ⟨w, -, ha⟩ := ha
    exact hq a ha
  · rintro b w ⟨a, front, back, ⟨rfl, -⟩, hback, rfl⟩
    exact hback

theorem ends {enc : α → Bytes} {F : Bytes → Bytes} {E : β → Bytes} {f : α → β}
    (hp : Faithful p s fun a w => w = enc a) (hf : ∀ a, F (enc a) = E (f a)) :
    Faithful (p >>= fun a => Pure.pure (f a)) (s >>= fun a => Pure.pure (f a)) fun b w =>
      F w = E b := by
  refine (hp.last f).mono ?_
  rintro b w ⟨a, rfl, rfl⟩
  exact hf a

theorem forget [DecidableEq α] {enc : α → Bytes} (hp : Faithful p p fun a w => w = enc a)
    {zero : α} (hzero : ∀ x, p (enc zero ++ x) = .ok (zero, x))
    (hlength : ∀ a, (enc a).length = (enc zero).length) (value : β) (e : ε) :
    Faithful (p >>= fun _ => Pure.pure value)
      (p >>= fun a => ByteReader.refuseIf (a ≠ zero) e >>= fun _ => Pure.pure value)
      fun b w => b = value ∧ w = enc zero := by
  refine ⟨?_, ?_⟩
  · intro input b rest h
    obtain ⟨a, middle, hread, h⟩ := read_bind_eq_ok.mp h
    cases h
    obtain ⟨w, rfl, hrewrites⟩ := hp.written input a rest hread
    refine ⟨enc zero, ⟨rfl, rfl⟩, ?_, ?_, ?_⟩
    · intro x
      exact read_bind_eq_ok.mpr ⟨zero, x, hzero x, rfl⟩
    · rw [← hlength a]
      exact hrewrites.shorter
    · constructor
      · rintro rfl
        have hcheck : ByteReader.refuseIf (decide (zero ≠ zero)) e rest = .ok ((), rest) :=
          refuseIf_eq_ok.mpr ⟨by simp, rfl⟩
        exact ⟨_, read_bind_eq_ok.mpr ⟨zero, rest, hzero rest,
          read_bind_eq_ok.mpr ⟨(), rest, hcheck, rfl⟩⟩⟩
      · rintro ⟨r, hr⟩
        obtain ⟨a', middle, hread', hr⟩ := read_bind_eq_ok.mp hr
        rw [hread] at hread'
        cases hread'
        obtain ⟨u, left, hcheck, -⟩ := read_bind_eq_ok.mp hr
        have hsame : a = zero := by simpa using (refuseIf_eq_ok.mp hcheck).1
        rw [← hsame]
        exact hrewrites.exact.mpr ⟨_, hread⟩
  · intro input r hr
    obtain ⟨a, middle, hread, hr⟩ := read_bind_eq_ok.mp hr
    obtain ⟨u, left, hcheck, hr⟩ := read_bind_eq_ok.mp hr
    obtain ⟨-, rfl⟩ := refuseIf_eq_ok.mp hcheck
    exact read_bind_eq_ok.mpr ⟨a, middle, hread, hr⟩

theorem fold {step strict : σ → Reader ε σ} {next : σ → α → σ} {W : α → Bytes → Prop}
    (hstep : ∀ acc, Faithful (step acc) (strict acc) fun acc' w =>
      ∃ item, acc' = next acc item ∧ W item w) (count : Nat) (acc : σ) :
    Faithful (readFold count step acc) (readFold count strict acc) fun acc' w =>
      ∃ items : List (α × Bytes), items.length = count ∧
        acc' = (items.map (·.1)).foldl next acc ∧ (∀ item ∈ items, W item.1 item.2) ∧
        w = items.flatMap (·.2) := by
  induction count generalizing acc with
  | zero =>
      refine (pure acc).mono ?_
      rintro acc' w ⟨rfl, rfl⟩
      exact ⟨[], rfl, rfl, by simp, rfl⟩
  | succ count ih =>
      refine ((hstep acc).bind fun acc' => ih acc').mono ?_
      rintro acc'' w ⟨acc', front, back, ⟨item, rfl, hitem⟩, ⟨items, hlength, rfl, hitems, rfl⟩,
        rfl⟩
      refine ⟨(item, front) :: items, by simp [hlength], rfl, ?_, rfl⟩
      rintro other (_ | ⟨_, hother⟩)
      · exact hitem
      · exact hitems other hother

end Faithful

/-- The same for functions that decode a whole input. -/
structure Whole (decode strict : Bytes → Except ε α) (W : α → Bytes → Prop) : Prop where
  written : ∀ payload a, decode payload = .ok a → ∃ w, W a w ∧ decode w = .ok a ∧
    w.length ≤ payload.length ∧ (payload = w ↔ ∃ r, strict payload = .ok r)
  sound : ∀ payload r, strict payload = .ok r → decode payload = .ok r

theorem readAll_eq_ok {p : Reader ε α} {payload : Bytes} {a : α} :
    readAll p payload = .ok a ↔ ∃ rest, p payload = .ok (a, rest) := by
  unfold readAll
  cases hread : p payload with
  | error e => simp [Except.map]
  | ok read =>
      obtain ⟨b, rest⟩ := read
      simp [Except.map]

theorem readAll_finish_eq_ok {p : Reader ε α} {e : Nat → ε} {payload : Bytes} {a : α} :
    readAll (do let a ← p; finish e; Pure.pure a) payload = .ok a ↔
      p payload = .ok (a, []) := by
  rw [readAll_eq_ok]
  constructor
  · rintro ⟨rest, h⟩
    obtain ⟨b, middle, hread, h⟩ := read_bind_eq_ok.mp h
    obtain ⟨u, left, hfinish, h⟩ := read_bind_eq_ok.mp h
    cases h
    unfold finish at hfinish
    split at hfinish
    · rename_i hempty
      cases hfinish
      rw [List.isEmpty_iff.mp hempty] at hread
      exact hread
    · cases hfinish
  · intro h
    exact ⟨[], read_bind_eq_ok.mpr ⟨a, [], h, rfl⟩⟩

section WholeRules

variable {p s : Reader ε α} {W W' : α → Bytes → Prop}

theorem Whole.mono {decode strict : Bytes → Except ε α} (h : Whole decode strict W)
    (hW : ∀ a w, W a w → W' a w) : Whole decode strict W' := by
  refine ⟨?_, h.sound⟩
  intro payload a hdecode
  obtain ⟨w, hw, hrest⟩ := h.written payload a hdecode
  exact ⟨w, hW a w hw, hrest⟩

theorem Faithful.finished (h : Faithful p s W) (e : Nat → ε) :
    Whole (readAll (do let a ← p; finish e; Pure.pure a))
      (readAll (do let a ← s; finish e; Pure.pure a)) W := by
  refine ⟨?_, ?_⟩
  · intro payload a hdecode
    have hread := readAll_finish_eq_ok.mp hdecode
    obtain ⟨w, hw, hrewrites⟩ := h.written payload a [] hread
    have hagain := hrewrites.stable []
    have hexact := hrewrites.exact
    rw [List.append_nil] at hagain hexact
    refine ⟨w, hw, readAll_finish_eq_ok.mpr hagain, hrewrites.shorter, hexact.trans ?_⟩
    constructor
    · rintro ⟨r, hr⟩
      have hsame := h.sound payload r hr
      rw [hread] at hsame
      cases hsame
      exact ⟨a, readAll_finish_eq_ok.mpr hr⟩
    · rintro ⟨r, hr⟩
      exact ⟨(r, []), readAll_finish_eq_ok.mp hr⟩
  · intro payload r hr
    exact readAll_finish_eq_ok.mpr (h.sound payload _ (readAll_finish_eq_ok.mp hr))

theorem Faithful.unfinished (h : Faithful p s W) (e : Nat → ε) :
    Whole (readAll p) (readAll (do let a ← s; finish e; Pure.pure a)) W := by
  refine ⟨?_, ?_⟩
  · intro payload a hdecode
    obtain ⟨rest, hread⟩ := readAll_eq_ok.mp hdecode
    obtain ⟨w, hw, hrewrites⟩ := h.written payload a rest hread
    have hagain := hrewrites.stable []
    rw [List.append_nil] at hagain
    have hshorter := hrewrites.shorter
    refine ⟨w, hw, readAll_eq_ok.mpr ⟨[], hagain⟩, by omega, ?_⟩
    constructor
    · rintro rfl
      rw [hread] at hagain
      cases hagain
      obtain ⟨r, hr⟩ := hrewrites.exact.mp (List.append_nil payload).symm
      have hsame := h.sound payload r hr
      rw [hread] at hsame
      cases hsame
      exact ⟨a, readAll_finish_eq_ok.mpr hr⟩
    · rintro ⟨r, hr⟩
      have hstrict := readAll_finish_eq_ok.mp hr
      have hsame := h.sound payload _ hstrict
      rw [hread] at hsame
      cases hsame
      have hexact := hrewrites.exact.mpr ⟨_, hstrict⟩
      rwa [List.append_nil] at hexact
  · intro payload r hr
    exact readAll_eq_ok.mpr ⟨[], h.sound payload _ (readAll_finish_eq_ok.mp hr)⟩

/-- What is written is the input if and only if the stricter function accepts it. -/
theorem Whole.encode_eq_iff {decode strict : Bytes → Except ε α} {encode : α → Bytes}
    (h : Whole decode strict fun a w => w = encode a) {payload : Bytes} {a : α}
    (hdecode : decode payload = .ok a) :
    encode a = payload ↔ ∃ r, strict payload = .ok r := by
  obtain ⟨w, rfl, -, -, hexact⟩ := h.written payload a hdecode
  exact eq_comm.trans hexact

end WholeRules

end PriorityFabric.Lib.Rewriting
