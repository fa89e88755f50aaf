import PriorityFabric.Basics

/-!
Printable text and UTF-8.

The text check accepts any lead byte followed by as many continuation bytes as it
announces.  UTF-8 admits fewer: no overlong forms, no surrogates, nothing above
U+10FFFF; and the two-byte forms begin with the control characters up to U+009F.
-/

namespace PriorityFabric.Texts

open PriorityFabric.Lib.LittleEndian
open PriorityFabric.Basics

def Control (c : Char) : Prop :=
  c.val.toNat ≤ 0x1F ∨ (0x7F ≤ c.val.toNat ∧ c.val.toNat ≤ 0x9F)

/-- The text is the UTF-8 encoding of code points none of which is a control code point. -/
def Printable (s : Bytes) : Prop :=
  ∃ chars : List Char, s = chars.flatMap String.utf8EncodeChar ∧ ∀ c ∈ chars, ¬ Control c

def Continues (byte : UInt8) : Prop := 0x80 ≤ byte.toNat ∧ byte.toNat ≤ 0xBF

/-- A printable ASCII character, or a lead byte with the continuation bytes it announces. -/
inductive Announced : Bytes → Prop
  | ascii {a : UInt8} (ha : 0x20 ≤ a.toNat ∧ a.toNat ≤ 0x7E) : Announced [a]
  | two {a b : UInt8} (ha : 0xC2 ≤ a.toNat ∧ a.toNat ≤ 0xDF) (hb : Continues b) :
      Announced [a, b]
  | three {a b c : UInt8} (ha : 0xE0 ≤ a.toNat ∧ a.toNat ≤ 0xEF) (hb : Continues b)
      (hc : Continues c) : Announced [a, b, c]
  | four {a b c d : UInt8} (ha : 0xF0 ≤ a.toNat ∧ a.toNat ≤ 0xF4) (hb : Continues b)
      (hc : Continues c) (hd : Continues d) : Announced [a, b, c, d]

/-- The first two bytes of a sequence that stands for a control character, is overlong, is a
surrogate, or is above U+10FFFF. -/
def Misused : Bytes → Prop
  | a :: b :: _ =>
      (a.toNat = 0xC2 ∧ b.toNat < 0xA0) ∨
      (a.toNat = 0xE0 ∧ b.toNat < 0xA0) ∨ (a.toNat = 0xED ∧ 0xA0 ≤ b.toNat) ∨
      (a.toNat = 0xF0 ∧ b.toNat < 0x90) ∨ (a.toNat = 0xF4 ∧ 0x90 ≤ b.toNat)
  | _ => False

/-- The text is made of announced sequences, and one of them is misused. -/
def Misleading (s : Bytes) : Prop :=
  ∃ parts : List Bytes, s = parts.flatten ∧ (∀ part ∈ parts, Announced part) ∧
    ∃ part ∈ parts, Misused part

theorem exists_char {v : Nat} (h : v.isValidChar) : ∃ c : Char, c.val.toNat = v :=
  ⟨Char.ofNatAux v h, rfl⟩

theorem ofNat_eq {n : Nat} {b : UInt8} (h : n = b.toNat) : UInt8.ofNat n = b := by
  rw [h, UInt8.ofNat_toNat]

/-- The encoding of a character that is no control character is announced and not misused. -/
theorem announced_utf8EncodeChar {c : Char} (hcontrol : ¬ Control c) :
    Announced (String.utf8EncodeChar c) ∧ ¬ Misused (String.utf8EncodeChar c) := by
  have hvalid : c.val.toNat < 0xD800 ∨ 0xDFFF < c.val.toNat ∧ c.val.toNat < 0x110000 :=
    c.valid
  simp only [Control, not_or, not_and, not_le] at hcontrol
  unfold String.utf8EncodeChar
  dsimp only
  split
  · refine ⟨.ascii ?_, by simp [Misused]⟩
    simp only [UInt8.toNat_ofNat']
    omega
  · split
    · refine ⟨.two ?_ ?_, ?_⟩ <;>
        simp only [Continues, Misused, UInt8.toNat_ofNat'] <;> omega
    · split
      · refine ⟨.three ?_ ?_ ?_, ?_⟩ <;>
          simp only [Continues, Misused, UInt8.toNat_ofNat'] <;> omega
      · refine ⟨.four ?_ ?_ ?_ ?_, ?_⟩ <;>
          simp only [Continues, Misused, UInt8.toNat_ofNat'] <;> omega

theorem exists_utf8EncodeChar {part : Bytes} (h : Announced part) (hmisused : ¬ Misused part) :
    ∃ c, ¬ Control c ∧ part = String.utf8EncodeChar c := by
  cases h with
  | @ascii a ha =>
      obtain ⟨c, hc⟩ := exists_char (.inl (show a.toNat < 0xD800 by omega))
      refine ⟨c, by simp only [Control]; omega, ?_⟩
      simp [String.utf8EncodeChar, hc, show a.toNat ≤ 0x7F by omega]
  | @two a b ha hb =>
      simp only [Continues, Misused] at hb hmisused
      obtain ⟨c, hc⟩ := exists_char (.inl
        (show (a.toNat - 0xC0) * 64 + (b.toNat - 0x80) < 0xD800 by omega))
      refine ⟨c, by simp only [Control]; omega, ?_⟩
      unfold String.utf8EncodeChar
      dsimp only
      rw [hc, if_neg (by omega), if_pos (by omega), ofNat_eq (b := a) (by omega),
        ofNat_eq (b := b) (by omega)]
  | @three a b c ha hb hc =>
      simp only [Continues, Misused] at hb hc hmisused
      obtain ⟨char, hchar⟩ : ∃ char : Char, char.val.toNat =
          (a.toNat - 0xE0) * 4096 + (b.toNat - 0x80) * 64 + (c.toNat - 0x80) := by
        apply exists_char
        simp only [Nat.isValidChar]
        omega
      refine ⟨char, by simp only [Control]; omega, ?_⟩
      unfold String.utf8EncodeChar
      dsimp only
      rw [hchar, if_neg (by omega), if_neg (by omega), if_pos (by omega),
        ofNat_eq (b := a) (by omega), ofNat_eq (b := b) (by omega),
        ofNat_eq (b := c) (by omega)]
  | @four a b c d ha hb hc hd =>
      simp only [Continues, Misused] at hb hc hd hmisused
      obtain ⟨char, hchar⟩ : ∃ char : Char, char.val.toNat =
          (a.toNat - 0xF0) * 262144 + (b.toNat - 0x80) * 4096 + (c.toNat - 0x80) * 64 +
            (d.toNat - 0x80) := by
        apply exists_char
        simp only [Nat.isValidChar]
        omega
      refine ⟨char, by simp only [Control]; omega, ?_⟩
      unfold String.utf8EncodeChar
      dsimp only
      rw [hchar, if_neg (by omega), if_neg (by omega), if_neg (by omega),
        ofNat_eq (b := a) (by omega), ofNat_eq (b := b) (by omega),
        ofNat_eq (b := c) (by omega), ofNat_eq (b := d) (by omega)]

theorem length_of_announced {part : Bytes} (h : Announced part) :
    ∃ a rest, part = a :: rest ∧ part.length =
      if a.toNat < 0x80 then 1 else if a.toNat < 0xE0 then 2
      else if a.toNat < 0xF0 then 3 else 4 := by
  cases h with
  | ascii ha => exact ⟨_, _, rfl, by rw [if_pos (by omega)]; rfl⟩
  | two ha => exact ⟨_, _, rfl, by rw [if_neg (by omega), if_pos (by omega)]; rfl⟩
  | three ha =>
      exact ⟨_, _, rfl, by rw [if_neg (by omega), if_neg (by omega), if_pos (by omega)]; rfl⟩
  | four ha =>
      exact ⟨_, _, rfl, by rw [if_neg (by omega), if_neg (by omega), if_neg (by omega)]; rfl⟩

theorem announced_unique {parts parts' : List Bytes} (h : ∀ part ∈ parts, Announced part)
    (h' : ∀ part ∈ parts', Announced part) (heq : parts.flatten = parts'.flatten) :
    parts = parts' := by
  induction parts generalizing parts' with
  | nil =>
      cases parts' with
      | nil => rfl
      | cons part' parts' =>
          obtain ⟨a, rest, rfl, -⟩ := length_of_announced (h' part' (by simp))
          simp at heq
  | cons part parts ih =>
      obtain ⟨a, rest, rfl, hlength⟩ := length_of_announced (h part (by simp))
      cases parts' with
      | nil => simp at heq
      | cons part' parts' =>
          obtain ⟨a', rest', rfl, hlength'⟩ := length_of_announced (h' part' (by simp))
          rw [List.flatten_cons, List.flatten_cons] at heq
          obtain rfl : a = a' := by
            simp only [List.cons_append, List.cons.injEq] at heq
            exact heq.1
          obtain ⟨hpart, hparts⟩ := List.append_inj heq (hlength.trans hlength'.symm)
          rw [hpart, ih (fun p hp => h p (by simp [hp])) (fun p hp => h' p (by simp [hp])) hparts]

theorem isContinuation_iff (b : UInt8) : isContinuation b = true ↔ Continues b := by
  have hall : ∀ n : Fin 256, isContinuation (UInt8.ofNat n) = true ↔
      0x80 ≤ n.val ∧ n.val ≤ 0xBF := by
    decide +kernel
  have hb := hall ⟨b.toNat, b.toNat_lt⟩
  rwa [UInt8.ofNat_toNat] at hb

theorem utf8SequenceLength_eq (lead : UInt8) :
    utf8SequenceLength lead =
      if lead.toNat < 0x80 then 1
      else if 0xC2 ≤ lead.toNat ∧ lead.toNat ≤ 0xDF then 2
      else if 0xE0 ≤ lead.toNat ∧ lead.toNat ≤ 0xEF then 3
      else if 0xF0 ≤ lead.toNat ∧ lead.toNat ≤ 0xF4 then 4
      else 0 := by
  simp only [utf8SequenceLength, UInt8.lt_iff_toNat_lt, UInt8.le_iff_toNat_le,
    UInt8.reduceToNat]

theorem printable_ascii_iff (a : UInt8) :
    a < 0x80 ∧ ¬ (a < 0x20 ∨ a = 0x7F) ↔ 0x20 ≤ a.toNat ∧ a.toNat ≤ 0x7E := by
  simp only [UInt8.lt_iff_toNat_lt, ← UInt8.toNat_inj, UInt8.reduceToNat]
  omega

theorem not_ascii {a : UInt8} (h : 0x80 ≤ a.toNat) : ¬ a < 0x80 := by
  simp only [UInt8.lt_iff_toNat_lt, UInt8.reduceToNat]
  omega

theorem isPrintableText_append {part rest : Bytes} (h : Announced part)
    (hrest : isPrintableText rest = true) : isPrintableText (part ++ rest) = true := by
  cases h with
  | ascii ha =>
      obtain ⟨hascii, hcontrol⟩ := (printable_ascii_iff _).mpr ha
      simp only [List.cons_append, List.nil_append]
      unfold isPrintableText
      rw [if_pos hascii, if_neg hcontrol, hrest]
  | @two a b ha hb =>
      have hlength : utf8SequenceLength a = 2 := by
        rw [utf8SequenceLength_eq, if_neg (by omega), if_pos (by omega)]
      simp only [List.cons_append, List.nil_append]
      unfold isPrintableText
      rw [if_neg (not_ascii (by omega))]
      simp only [hlength, (isContinuation_iff b).mpr hb, hrest, Bool.and_self]
  | @three a b c ha hb hc =>
      have hlength : utf8SequenceLength a = 3 := by
        rw [utf8SequenceLength_eq, if_neg (by omega), if_neg (by omega), if_pos (by omega)]
      simp only [List.cons_append, List.nil_append]
      unfold isPrintableText
      rw [if_neg (not_ascii (by omega))]
      simp only [hlength, (isContinuation_iff _).mpr hb, (isContinuation_iff _).mpr hc, hrest,
        Bool.and_self]
  | @four a b c d ha hb hc hd =>
      have hlength : utf8SequenceLength a = 4 := by
        rw [utf8SequenceLength_eq, if_neg (by omega), if_neg (by omega), if_neg (by omega),
          if_pos (by omega)]
      simp only [List.cons_append, List.nil_append]
      unfold isPrintableText
      rw [if_neg (not_ascii (by omega))]
      simp only [hlength, (isContinuation_iff _).mpr hb, (isContinuation_iff _).mpr hc,
        (isContinuation_iff _).mpr hd, hrest, Bool.and_self]

theorem range_of_length {lead : UInt8} :
    (utf8SequenceLength lead = 2 → 0xC2 ≤ lead.toNat ∧ lead.toNat ≤ 0xDF) ∧
      (utf8SequenceLength lead = 3 → 0xE0 ≤ lead.toNat ∧ lead.toNat ≤ 0xEF) ∧
      (utf8SequenceLength lead = 4 → 0xF0 ≤ lead.toNat ∧ lead.toNat ≤ 0xF4) := by
  rw [utf8SequenceLength_eq]
  refine ⟨fun h => ?_, fun h => ?_, fun h => ?_⟩ <;> split_ifs at h <;> omega

theorem isPrintableText_iff (s : Bytes) : isPrintableText s = true ↔
    ∃ parts : List Bytes, s = parts.flatten ∧ ∀ part ∈ parts, Announced part := by
  constructor
  · intro h
    have hcons {part rest : Bytes} (hpart : Announced part)
        (hrest : ∃ parts : List Bytes, rest = parts.flatten ∧ ∀ p ∈ parts, Announced p) :
        ∃ parts : List Bytes, part ++ rest = parts.flatten ∧ ∀ p ∈ parts, Announced p := by
      obtain ⟨parts, rfl, hparts⟩ := hrest
      exact ⟨part :: parts, rfl, by simpa [hpart] using hparts⟩
    induction s using isPrintableText.induct with
    | case1 => exact ⟨[], rfl, by simp⟩
    | case2 lead rest hascii hcontrol =>
        unfold isPrintableText at h
        rw [if_pos hascii, if_pos hcontrol] at h
        cases h
    | case3 lead rest hascii hcontrol ih =>
        unfold isPrintableText at h
        rw [if_pos hascii, if_neg hcontrol] at h
        exact hcons (.ascii ((printable_ascii_iff lead).mp ⟨hascii, hcontrol⟩)) (ih h)
    | case4 lead hlead a rest hlength ih =>
        unfold isPrintableText at h
        rw [if_neg hlead] at h
        simp only [hlength, Bool.and_eq_true, isContinuation_iff] at h
        exact hcons (.two (range_of_length.1 hlength) h.1) (ih h.2)
    | case5 lead hlead a b rest hlength ih =>
        unfold isPrintableText at h
        rw [if_neg hlead] at h
        simp only [hlength, Bool.and_eq_true, isContinuation_iff] at h
        exact hcons (.three (range_of_length.2.1 hlength) h.1.1 h.1.2) (ih h.2)
    | case6 lead hlead a b c rest hlength ih =>
        unfold isPrintableText at h
        rw [if_neg hlead] at h
        simp only [hlength, Bool.and_eq_true, isContinuation_iff] at h
        exact hcons (.four (range_of_length.2.2 hlength) h.1.1.1 h.1.1.2 h.1.2) (ih h.2)
    | case7 lead rest hlead htwo hthree hfour =>
        unfold isPrintableText at h
        rw [if_neg hlead] at h
        split at h
        · exact (htwo _ _ ‹_› rfl).elim
        · exact (hthree _ _ _ ‹_› rfl).elim
        · exact (hfour _ _ _ _ ‹_› rfl).elim
        · cases h
  · rintro ⟨parts, rfl, h⟩
    induction parts with
    | nil => rfl
    | cons part parts ih =>
        exact isPrintableText_append (h part (by simp)) (ih fun p hp => h p (by simp [hp]))

theorem printable_iff (s : Bytes) : Printable s ↔
    ∃ parts : List Bytes, s = parts.flatten ∧
      ∀ part ∈ parts, Announced part ∧ ¬ Misused part := by
  constructor
  · rintro ⟨chars, rfl, hchars⟩
    refine ⟨chars.map String.utf8EncodeChar, List.flatMap_def, ?_⟩
    intro part hpart
    obtain ⟨c, hc, rfl⟩ := List.mem_map.mp hpart
    exact announced_utf8EncodeChar (hchars c hc)
  · rintro ⟨parts, rfl, hparts⟩
    induction parts with
    | nil => exact ⟨[], rfl, by simp⟩
    | cons part parts ih =>
        obtain ⟨hannounced, hmisused⟩ := hparts part (by simp)
        obtain ⟨c, hc, rfl⟩ := exists_utf8EncodeChar hannounced hmisused
        obtain ⟨chars, hflat, hchars⟩ := ih fun p hp => hparts p (by simp [hp])
        refine ⟨c :: chars, ?_, by simpa [hc] using hchars⟩
        rw [List.flatten_cons, hflat, List.flatMap_cons]

/-- The check agrees with UTF-8 on exactly the texts that are not made of announced
sequences with a misused one among them. -/
theorem text_check_exact_iff (s : Bytes) :
    (isPrintableText s = true ↔ Printable s) ↔ ¬ Misleading s := by
  rw [isPrintableText_iff, printable_iff]
  constructor
  · rintro h ⟨parts, hflat, hannounced, part, hpart, hmisused⟩
    obtain ⟨parts', hflat', hclean⟩ := h.mp ⟨parts, hflat, hannounced⟩
    have hsame := announced_unique hannounced (fun p hp => (hclean p hp).1)
      (hflat.symm.trans hflat')
    subst hsame
    exact (hclean part hpart).2 hmisused
  · intro h
    constructor
    · rintro ⟨parts, hflat, hannounced⟩
      refine ⟨parts, hflat, fun part hpart => ⟨hannounced part hpart, fun hmisused => ?_⟩⟩
      exact h ⟨parts, hflat, hannounced, part, hpart, hmisused⟩
    · rintro ⟨parts, hflat, hclean⟩
      exact ⟨parts, hflat, fun part hpart => (hclean part hpart).1⟩

/-- The encoding of U+009B, the control sequence introducer, passes the check. -/
theorem control_sequence_accepted :
    ¬ ∀ s : Bytes, isPrintableText s = true ↔ Printable s := by
  intro h
  obtain ⟨parts, hflat, hclean⟩ :=
    (printable_iff _).mp ((h [0xC2, 0x9B]).mp (by decide))
  have hannounced : ∀ part ∈ [([0xC2, 0x9B] : Bytes)], Announced part := by
    intro part hpart
    rw [List.mem_singleton.mp hpart]
    exact .two (by decide) (by simp [Continues])
  have hsame := announced_unique hannounced (fun p hp => (hclean p hp).1) (by simpa using hflat)
  subst hsame
  exact (hclean [0xC2, 0x9B] (by simp)).2 (by simp [Misused])

end PriorityFabric.Texts
