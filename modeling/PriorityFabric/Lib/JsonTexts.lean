import Mathlib.Algebra.Field.Rat
import PriorityFabric.Lib.LittleEndian

/-!
JSON texts as bytes.

`parse` follows the grammar of RFC 8259.  Inside strings every byte from `0x20` up is
taken as it is, apart from the quote and the backslash.  `Spells n s v` says that the
parser reads `v` off `s` wherever a value of at most `n` levels may stand; the rules build
such a statement for a composite text from those of its parts.
-/

namespace PriorityFabric.Lib.JsonTexts

open PriorityFabric.Lib.LittleEndian

inductive Json where
  | null
  | bool (value : Bool)
  | number (value : ℚ)
  | string (value : Bytes)
  | array (items : List Json)
  | object (members : List (Bytes × Json))

def isSpace (b : UInt8) : Bool := b = 32 || b = 9 || b = 10 || b = 13

def isDigit (b : UInt8) : Bool := 48 ≤ b && b ≤ 57

def skipSpace (s : Bytes) : Bytes := s.dropWhile isSpace

/-- What follows a byte that has to come next. -/
def expect (b : UInt8) : Bytes → Option Bytes
  | [] => none
  | c :: rest => if c = b then some rest else none

def hexValue (b : UInt8) : Option Nat :=
  if 48 ≤ b ∧ b ≤ 57 then some (b.toNat - 48)
  else if 65 ≤ b ∧ b ≤ 70 then some (b.toNat - 55)
  else if 97 ≤ b ∧ b ≤ 102 then some (b.toNat - 87)
  else none

/-- Four hexadecimal digits: one unit of UTF-16. -/
def readUnit : Bytes → Option (Nat × Bytes)
  | a :: b :: c :: d :: rest => do
      let a ← hexValue a
      let b ← hexValue b
      let c ← hexValue c
      let d ← hexValue d
      return (((a * 16 + b) * 16 + c) * 16 + d, rest)
  | _ => none

def utf8 (n : Nat) : Bytes :=
  if n < 0x80 then [UInt8.ofNat n]
  else if n < 0x800 then [UInt8.ofNat (0xC0 + n / 0x40), UInt8.ofNat (0x80 + n % 0x40)]
  else if n < 0x10000 then
    [UInt8.ofNat (0xE0 + n / 0x1000), UInt8.ofNat (0x80 + n / 0x40 % 0x40),
      UInt8.ofNat (0x80 + n % 0x40)]
  else
    [UInt8.ofNat (0xF0 + n / 0x40000), UInt8.ofNat (0x80 + n / 0x1000 % 0x40),
      UInt8.ofNat (0x80 + n / 0x40 % 0x40), UInt8.ofNat (0x80 + n % 0x40)]

/-- A high surrogate, together with the low one if that comes next. -/
def readPair (high : Nat) (s : Bytes) : Bytes × Bytes :=
  match (expect 92 s).bind fun rest => (expect 117 rest).bind readUnit with
  | none => (utf8 high, s)
  | some (low, rest) =>
      if 0xDC00 ≤ low ∧ low < 0xE000 then
        (utf8 (0x10000 + (high - 0xD800) * 0x400 + (low - 0xDC00)), rest)
      else (utf8 high, s)

def readEscape : Bytes → Option (Bytes × Bytes)
  | [] => none
  | b :: rest =>
      if b = 34 ∨ b = 92 ∨ b = 47 then some ([b], rest)
      else if b = 98 then some ([8], rest)
      else if b = 102 then some ([12], rest)
      else if b = 110 then some ([10], rest)
      else if b = 114 then some ([13], rest)
      else if b = 116 then some ([9], rest)
      else if b = 117 then
        (readUnit rest).map fun unit =>
          if 0xD800 ≤ unit.1 ∧ unit.1 < 0xDC00 then readPair unit.1 unit.2
          else (utf8 unit.1, unit.2)
      else none

def readChar : Bytes → Option (Bytes × Bytes)
  | [] => none
  | b :: rest =>
      if b = 92 then readEscape rest
      else if b = 34 ∨ b < 32 then none
      else some ([b], rest)

def readChars : (fuel : Nat) → Bytes → Option (Bytes × Bytes)
  | 0, _ => none
  | fuel + 1, s =>
      match expect 34 s with
      | some rest => some ([], rest)
      | none => do
          let (char, rest) ← readChar s
          let (chars, rest) ← readChars fuel rest
          return (char ++ chars, rest)

def readString (s : Bytes) : Option (Bytes × Bytes) := do
  let rest ← expect 34 s
  readChars rest.length rest

def natOf (digits : Bytes) : Nat := digits.foldl (fun n b => 10 * n + (b.toNat - 48)) 0

def readDigits (s : Bytes) : Option (Bytes × Bytes) :=
  if s.takeWhile isDigit = [] then none
  else some (s.takeWhile isDigit, s.dropWhile isDigit)

/-- A zero, or digits that do not begin with one. -/
def readInt (s : Bytes) : Option (Nat × Bytes) :=
  match expect 48 s with
  | some rest => some (0, rest)
  | none => (readDigits s).map fun found => (natOf found.1, found.2)

def readFraction (s : Bytes) : Option (ℚ × Bytes) :=
  match expect 46 s with
  | none => some (0, s)
  | some rest => (readDigits rest).map fun found =>
      ((natOf found.1 : ℚ) / 10 ^ found.1.length, found.2)

def readExponent (s : Bytes) : Option (ℤ × Bytes) :=
  match (expect 101 s).or (expect 69 s) with
  | none => some (0, s)
  | some rest =>
      match expect 45 rest with
      | some rest => (readDigits rest).map fun found => (-(natOf found.1 : ℤ), found.2)
      | none => (readDigits ((expect 43 rest).getD rest)).map fun found =>
          ((natOf found.1 : ℤ), found.2)

def readNumber (s : Bytes) : Option (ℚ × Bytes) := do
  let (whole, rest) ← readInt ((expect 45 s).getD s)
  let (fraction, rest) ← readFraction rest
  let (exponent, rest) ← readExponent rest
  let size := ((whole : ℚ) + fraction) * 10 ^ exponent
  return (if (expect 45 s).isSome then -size else size, rest)

/-- Items between commas, up to the closing byte. -/
def readItems {α : Type} (item : Bytes → Option (α × Bytes)) (close : UInt8) :
    (fuel : Nat) → Bytes → Option (List α × Bytes)
  | 0, _ => none
  | fuel + 1, s => do
      let (first, rest) ← item (skipSpace s)
      match expect 44 (skipSpace rest) with
      | some rest => do
          let (others, rest) ← readItems item close fuel rest
          return (first :: others, rest)
      | none => do
          let rest ← expect close (skipSpace rest)
          return ([first], rest)

def readSequence {α : Type} (item : Bytes → Option (α × Bytes)) (close : UInt8) (s : Bytes) :
    Option (List α × Bytes) :=
  match expect close (skipSpace s) with
  | some rest => some ([], rest)
  | none => readItems item close s.length s

def readMember (value : Bytes → Option (Json × Bytes)) (s : Bytes) :
    Option ((Bytes × Json) × Bytes) := do
  let (key, rest) ← readString s
  let rest ← expect 58 (skipSpace rest)
  let (found, rest) ← value (skipSpace rest)
  return ((key, found), rest)

def readWord (word s : Bytes) : Option Bytes :=
  if word <+: s then some (s.drop word.length) else none

def readValue : (depth : Nat) → Bytes → Option (Json × Bytes)
  | 0, _ => none
  | _ + 1, [] => none
  | depth + 1, b :: s =>
      if b = 34 then (readString (b :: s)).map fun found => (.string found.1, found.2)
      else if b = 91 then
        (readSequence (readValue depth) 93 s).map fun found => (.array found.1, found.2)
      else if b = 123 then
        (readSequence (readMember (readValue depth)) 125 s).map fun found =>
          (.object found.1, found.2)
      else if b = 116 then (readWord [116, 114, 117, 101] (b :: s)).map (.bool true, ·)
      else if b = 102 then (readWord [102, 97, 108, 115, 101] (b :: s)).map (.bool false, ·)
      else if b = 110 then (readWord [110, 117, 108, 108] (b :: s)).map (.null, ·)
      else (readNumber (b :: s)).map fun found => (.number found.1, found.2)

/-- Read a whole text; nothing but space may follow its value. -/
def parse (s : Bytes) : Option Json := do
  let (value, rest) ← readValue s.length (skipSpace s)
  if skipSpace rest = [] then some value else none

/-- What may follow a number without becoming part of it. -/
def Delimited (rest : Bytes) : Prop :=
  ∀ b, rest.head? = some b → isDigit b = false ∧ b ≠ 46 ∧ b ≠ 101 ∧ b ≠ 69

/-- The text begins, neither with space nor with a closing bracket. -/
def Begins (s : Bytes) : Prop := ∃ b t, s = b :: t ∧ isSpace b = false ∧ b ≠ 93 ∧ b ≠ 125

/-- The reader takes the text for a value of at most `n` levels, whatever follows. -/
structure Spells (n : Nat) (s : Bytes) (v : Json) : Prop where
  begins : Begins s
  reads : ∀ depth, n ≤ depth → ∀ rest, Delimited rest → readValue depth (s ++ rest) = some (v, rest)

theorem Spells.mono {n m : Nat} {s : Bytes} {v : Json} (h : Spells n s v) (hle : n ≤ m) :
    Spells m s v :=
  ⟨h.begins, fun depth hdepth => h.reads depth (hle.trans hdepth)⟩

theorem skipSpace_of_begins {s : Bytes} (h : Begins s) (rest : Bytes) :
    skipSpace (s ++ rest) = s ++ rest := by
  obtain ⟨b, t, rfl, hspace, -⟩ := h
  simp [skipSpace, hspace]

theorem delimited_nil : Delimited [] := by
  intro b hb
  cases hb

theorem delimited_cons {b : UInt8} {rest : Bytes}
    (h : isDigit b = false ∧ b ≠ 46 ∧ b ≠ 101 ∧ b ≠ 69) : Delimited (b :: rest) := by
  intro c hc
  obtain rfl : b = c := by simpa using hc
  exact h

theorem expect_cons (b : UInt8) (rest : Bytes) : expect b (b :: rest) = some rest := by
  simp [expect]

theorem expect_of_ne {b c : UInt8} (h : c ≠ b) (rest : Bytes) : expect b (c :: rest) = none := by
  simp [expect, h]

section Strings

-- How a writer spells one byte inside a string.
variable {escape : UInt8 → Bytes}
  (hescape : ∀ b rest, readChar (escape b ++ rest) = some ([b], rest))

include hescape in
theorem escape_begins (b : UInt8) (rest : Bytes) : expect 34 (escape b ++ rest) = none := by
  have h := hescape b rest
  cases hs : escape b ++ rest with
  | nil => rfl
  | cons c t =>
      by_cases hc : c = 34
      · simp [hs, hc, readChar] at h
      · exact expect_of_ne hc t

include hescape in
theorem escape_ne_nil (b : UInt8) : escape b ≠ [] := by
  intro hnil
  have h := hescape b []
  rw [hnil] at h
  cases h

include hescape in
theorem length_le_flatMap (s : Bytes) : s.length ≤ (s.flatMap escape).length := by
  induction s with
  | nil => exact Nat.zero_le _
  | cons b s ih =>
      have hpos := List.length_pos_iff.mpr (escape_ne_nil hescape b)
      simp only [List.flatMap_cons, List.length_append, List.length_cons]
      omega

include hescape in
theorem readChars_flatMap (s rest : Bytes) {fuel : Nat} (hfuel : s.length < fuel) :
    readChars fuel (s.flatMap escape ++ 34 :: rest) = some (s, rest) := by
  induction s generalizing fuel with
  | nil =>
      obtain ⟨fuel, rfl⟩ := Nat.exists_eq_add_of_lt hfuel
      simp [readChars, expect_cons]
  | cons b s ih =>
      obtain ⟨k, rfl⟩ : ∃ k, fuel = k + 1 := ⟨fuel - 1, by simp at hfuel; omega⟩
      have hrest := @ih k (by simpa using hfuel)
      simp only [List.flatMap_cons, List.append_assoc, readChars, escape_begins hescape,
        hescape, Option.bind_eq_bind, Option.bind_some, hrest]
      rfl

include hescape in
theorem readString_flatMap (s rest : Bytes) :
    readString (34 :: s.flatMap escape ++ 34 :: rest) = some (s, rest) := by
  simp only [readString, List.cons_append, expect_cons, Option.bind_eq_bind, Option.bind_some]
  refine readChars_flatMap hescape s rest ?_
  have hlength := length_le_flatMap hescape s
  simp only [List.length_append, List.length_cons]
  omega

include hescape in
theorem spells_string (s : Bytes) : Spells 1 (34 :: s.flatMap escape ++ [34]) (.string s) := by
  refine ⟨⟨34, s.flatMap escape ++ [34], by simp, by decide, by decide, by decide⟩, ?_⟩
  intro depth hdepth rest _
  obtain ⟨depth, rfl⟩ : ∃ k, depth = k + 1 := ⟨depth - 1, by omega⟩
  have hread := readString_flatMap hescape s rest
  simp only [List.cons_append, List.append_assoc, List.nil_append] at hread ⊢
  simp only [readValue, if_true, hread, Option.map_some]

end Strings

def Plain (key : Bytes) : Prop := ∀ b ∈ key, b ≠ 92 ∧ b ≠ 34 ∧ ¬ b < 32

instance (key : Bytes) : Decidable (Plain key) :=
  List.decidableBAll (fun b => b ≠ 92 ∧ b ≠ 34 ∧ ¬ b < 32) key

theorem readChars_plain {key : Bytes} (h : Plain key) (rest : Bytes) {fuel : Nat}
    (hfuel : key.length < fuel) : readChars fuel (key ++ 34 :: rest) = some (key, rest) := by
  induction key generalizing fuel with
  | nil =>
      obtain ⟨fuel, rfl⟩ := Nat.exists_eq_add_of_lt hfuel
      simp [readChars, expect_cons]
  | cons b key ih =>
      obtain ⟨k, rfl⟩ : ∃ k, fuel = k + 1 := ⟨fuel - 1, by simp at hfuel; omega⟩
      obtain ⟨hslash, hquote, hcontrol⟩ := h b (by simp)
      have hrest := @ih (fun c hc => h c (by simp [hc])) k (by simpa using hfuel)
      simp only [List.cons_append, readChars, expect_of_ne hquote, readChar, hslash, hquote,
        hcontrol, if_false, or_self, Option.bind_eq_bind, Option.bind_some, hrest]
      rfl

theorem readString_plain {key : Bytes} (h : Plain key) (rest : Bytes) :
    readString (34 :: key ++ 34 :: rest) = some (key, rest) := by
  simp only [readString, List.cons_append, expect_cons, Option.bind_eq_bind, Option.bind_some]
  refine readChars_plain h rest ?_
  simp only [List.length_append, List.length_cons]
  omega

/-- Digits as they are written: without a leading zero, or zero itself. -/
structure Digits (s : Bytes) : Prop where
  digits : ∀ b ∈ s, isDigit b = true
  nonempty : s ≠ []
  leading : s = [48] ∨ s.head? ≠ some 48

theorem takeWhile_digits {s rest : Bytes} (hs : ∀ b ∈ s, isDigit b = true)
    (hrest : Delimited rest) :
    (s ++ rest).takeWhile isDigit = s ∧ (s ++ rest).dropWhile isDigit = rest := by
  induction s with
  | nil =>
      cases rest with
      | nil => exact ⟨rfl, rfl⟩
      | cons b rest =>
          have hb := (hrest b rfl).1
          simp [hb]
  | cons b s ih =>
      obtain ⟨htake, hdrop⟩ := ih fun c hc => hs c (by simp [hc])
      have hb := hs b (by simp)
      simp only [List.cons_append, List.takeWhile_cons, List.dropWhile_cons, hb, if_true]
      exact ⟨by rw [htake], hdrop⟩

theorem readInt_digits {s rest : Bytes} (hs : Digits s) (hrest : Delimited rest) :
    readInt (s ++ rest) = some (natOf s, rest) := by
  obtain ⟨htake, hdrop⟩ := takeWhile_digits hs.digits hrest
  rcases hs.leading with rfl | hhead
  · rfl
  · cases s with
    | nil => exact absurd rfl hs.nonempty
    | cons b s =>
        have hb : b ≠ 48 := by simpa using hhead
        simp only [readInt, List.cons_append, expect_of_ne hb]
        simp only [List.cons_append] at htake hdrop
        simp only [readDigits, htake, hdrop, reduceCtorEq, if_false, Option.map_some]

theorem expect_of_delimited {b : UInt8} {rest : Bytes}
    (h : ∀ c, rest.head? = some c → c ≠ b) : expect b rest = none := by
  cases rest with
  | nil => rfl
  | cons c rest => exact expect_of_ne (h c rfl) rest

theorem readNumber_digits {s rest : Bytes} (hs : Digits s) (hrest : Delimited rest) :
    readNumber (s ++ rest) = some ((natOf s : ℚ), rest) := by
  have hminus : expect 45 (s ++ rest) = none := by
    refine expect_of_delimited fun c hc => ?_
    cases s with
    | nil => exact absurd rfl hs.nonempty
    | cons b s =>
        obtain rfl : b = c := by simpa using hc
        rintro rfl
        exact absurd (hs.digits 45 (by simp)) (by decide)
  have hpoint : expect 46 rest = none := expect_of_delimited fun c hc => (hrest c hc).2.1
  have hlower : expect 101 rest = none := expect_of_delimited fun c hc => (hrest c hc).2.2.1
  have hupper : expect 69 rest = none := expect_of_delimited fun c hc => (hrest c hc).2.2.2
  simp [readNumber, hminus, readInt_digits hs hrest, readFraction, hpoint, readExponent, hlower,
    hupper]

theorem spells_number {s : Bytes} (hs : Digits s) : Spells 1 s (.number (natOf s)) := by
  cases s with
  | nil => exact absurd rfl hs.nonempty
  | cons b s =>
      have hdigit := hs.digits b (by simp)
      have hrange : 48 ≤ b ∧ b ≤ 57 := by simpa [isDigit] using hdigit
      have hother (c : UInt8) (hc : isDigit c = false) : b ≠ c := by
        rintro rfl
        rw [hdigit] at hc
        cases hc
      refine ⟨⟨b, s, rfl, ?_, hother 93 (by decide), hother 125 (by decide)⟩, ?_⟩
      · simp [isSpace, hother 32 (by decide), hother 9 (by decide), hother 10 (by decide),
          hother 13 (by decide)]
      · intro depth hdepth rest hrest
        obtain ⟨depth, rfl⟩ : ∃ k, depth = k + 1 := ⟨depth - 1, by omega⟩
        have hread := readNumber_digits hs hrest
        simp only [List.cons_append] at hread ⊢
        simp only [readValue, hother 34 (by decide), hother 91 (by decide), hother 123 (by decide),
          hother 116 (by decide), hother 102 (by decide), hother 110 (by decide), if_false, hread,
          Option.map_some]

theorem readWord_append (word rest : Bytes) : readWord word (word ++ rest) = some rest := by
  simp [readWord]

theorem spells_true : Spells 1 [116, 114, 117, 101] (.bool true) := by
  refine ⟨⟨116, [114, 117, 101], rfl, by decide, by decide, by decide⟩, ?_⟩
  intro depth hdepth rest _
  obtain ⟨depth, rfl⟩ : ∃ k, depth = k + 1 := ⟨depth - 1, by omega⟩
  have hread := readWord_append [116, 114, 117, 101] rest
  simp only [List.cons_append, List.nil_append] at hread ⊢
  simp [readValue, hread]

theorem spells_false : Spells 1 [102, 97, 108, 115, 101] (.bool false) := by
  refine ⟨⟨102, [97, 108, 115, 101], rfl, by decide, by decide, by decide⟩, ?_⟩
  intro depth hdepth rest _
  obtain ⟨depth, rfl⟩ : ∃ k, depth = k + 1 := ⟨depth - 1, by omega⟩
  have hread := readWord_append [102, 97, 108, 115, 101] rest
  simp only [List.cons_append, List.nil_append] at hread ⊢
  simp [readValue, hread]

theorem spells_null : Spells 1 [110, 117, 108, 108] .null := by
  refine ⟨⟨110, [117, 108, 108], rfl, by decide, by decide, by decide⟩, ?_⟩
  intro depth hdepth rest _
  obtain ⟨depth, rfl⟩ : ∃ k, depth = k + 1 := ⟨depth - 1, by omega⟩
  have hread := readWord_append [110, 117, 108, 108] rest
  simp only [List.cons_append, List.nil_append] at hread ⊢
  simp [readValue, hread]

def commaSeparated : List Bytes → Bytes
  | [] => []
  | [s] => s
  | s :: rest => s ++ 44 :: commaSeparated rest

theorem commaSeparated_cons {s : Bytes} {texts : List Bytes} (h : texts ≠ []) :
    commaSeparated (s :: texts) = s ++ 44 :: commaSeparated texts := by
  cases texts with
  | nil => exact absurd rfl h
  | cons t texts => rfl

theorem commaSeparated_append {texts : List Bytes} (h : texts ≠ []) (s : Bytes) :
    commaSeparated (texts ++ [s]) = commaSeparated texts ++ 44 :: s := by
  induction texts with
  | nil => exact absurd rfl h
  | cons t texts ih =>
      cases texts with
      | nil => rfl
      | cons u texts =>
          have hmore : u :: texts ≠ [] := List.cons_ne_nil u texts
          rw [List.cons_append, commaSeparated_cons (by simp), ih hmore,
            commaSeparated_cons hmore, List.append_assoc, List.cons_append]

theorem length_le_commaSeparated {texts : List Bytes} (h : ∀ s ∈ texts, s ≠ []) :
    texts.length ≤ (commaSeparated texts).length := by
  induction texts with
  | nil => exact Nat.zero_le _
  | cons s texts ih =>
      have hpos := List.length_pos_iff.mpr (h s (by simp))
      have hrest := ih fun other hother => h other (by simp [hother])
      cases texts with
      | nil => exact hpos
      | cons other texts =>
          rw [commaSeparated_cons (by simp)]
          simp only [List.length_append, List.length_cons] at hrest ⊢
          omega

section Sequences

variable {α : Type} {item : Bytes → Option (α × Bytes)} {close : UInt8}

/-- A text and what an item reader makes of it. -/
def ReadsItem (item : Bytes → Option (α × Bytes)) (pair : Bytes × α) : Prop :=
  Begins pair.1 ∧ ∀ rest, Delimited rest → item (pair.1 ++ rest) = some (pair.2, rest)

theorem readItems_commaSeparated
    (hclose : isSpace close = false ∧ close ≠ 44 ∧ Delimited [close])
    {items : List (Bytes × α)} (h : ∀ pair ∈ items, ReadsItem item pair) (hne : items ≠ [])
    {fuel : Nat} (hfuel : items.length ≤ fuel) (rest : Bytes) :
    readItems item close fuel (commaSeparated (items.map (·.1)) ++ close :: rest) =
      some (items.map (·.2), rest) := by
  induction items generalizing fuel with
  | nil => exact absurd rfl hne
  | cons pair items ih =>
      obtain ⟨k, rfl⟩ : ∃ k, fuel = k + 1 := ⟨fuel - 1, by simp at hfuel; omega⟩
      obtain ⟨hbegin, hreads⟩ := h pair (by simp)
      cases items with
      | nil =>
          have hitem := hreads (close :: rest) (delimited_cons (hclose.2.2 close rfl))
          simp only [List.map_cons, List.map_nil, commaSeparated, readItems,
            skipSpace_of_begins hbegin, hitem, Option.bind_eq_bind, Option.bind_some]
          simp [skipSpace, hclose.1, expect_of_ne hclose.2.1, expect_cons]
      | cons other items =>
          have hitem := hreads
            (44 :: (commaSeparated ((other :: items).map (·.1)) ++ close :: rest))
            (delimited_cons (by decide))
          have hrest := @ih (fun pair hpair => h pair (by simp [hpair])) (by simp) k
            (by simpa using hfuel)
          rw [List.map_cons, commaSeparated_cons (by simp), List.append_assoc, List.cons_append]
          simp only [readItems, skipSpace_of_begins hbegin, hitem, Option.bind_eq_bind,
            Option.bind_some]
          have hcomma (t : Bytes) : skipSpace (44 :: t) = 44 :: t := rfl
          simp only [hcomma, expect_cons, hrest]
          rfl

theorem readSequence_commaSeparated
    (hclose : isSpace close = false ∧ close ≠ 44 ∧ Delimited [close])
    {items : List (Bytes × α)} (h : ∀ pair ∈ items, ReadsItem item pair)
    (hother : ∀ pair ∈ items, ∀ rest, expect close (pair.1 ++ rest) = none) (rest : Bytes) :
    readSequence item close (commaSeparated (items.map (·.1)) ++ close :: rest) =
      some (items.map (·.2), rest) := by
  cases items with
  | nil => simp [readSequence, commaSeparated, skipSpace, hclose.1, expect_cons]
  | cons pair items =>
      have hnonempty : ∀ s ∈ (pair :: items).map (·.1), s ≠ [] := by
        intro s hs
        obtain ⟨found, hfound, rfl⟩ := List.mem_map.mp hs
        obtain ⟨⟨b, t, hbegin, -⟩, -⟩ := h found hfound
        simp [hbegin]
      have hlength := length_le_commaSeparated hnonempty
      rw [List.length_map] at hlength
      have hshape : ∃ t, commaSeparated ((pair :: items).map (·.1)) ++ close :: rest =
          pair.1 ++ t := by
        cases items with
        | nil => exact ⟨close :: rest, rfl⟩
        | cons other items =>
            rw [List.map_cons, commaSeparated_cons (by simp), List.append_assoc]
            exact ⟨_, rfl⟩
      obtain ⟨t, ht⟩ := hshape
      rw [readSequence, ht, skipSpace_of_begins (h pair (by simp)).1, hother pair (by simp) t,
        ← ht]
      refine readItems_commaSeparated hclose h (by simp) ?_ rest
      rw [List.length_append]
      omega

end Sequences

theorem expect_of_begins {s : Bytes} (h : Begins s) {close : UInt8}
    (hclose : close = 93 ∨ close = 125) (rest : Bytes) : expect close (s ++ rest) = none := by
  obtain ⟨b, t, rfl, -, hbracket, hbrace⟩ := h
  rcases hclose with rfl | rfl
  · exact expect_of_ne hbracket _
  · exact expect_of_ne hbrace _

theorem spells_array {n : Nat} {items : List (Bytes × Json)}
    (h : ∀ pair ∈ items, Spells n pair.1 pair.2) :
    Spells (n + 1) (91 :: commaSeparated (items.map (·.1)) ++ [93])
      (.array (items.map (·.2))) := by
  refine ⟨⟨91, commaSeparated (items.map (·.1)) ++ [93], by simp, by decide, by decide,
    by decide⟩, ?_⟩
  intro depth hdepth rest _
  obtain ⟨depth, rfl⟩ : ∃ k, depth = k + 1 := ⟨depth - 1, by omega⟩
  have hread : readSequence (readValue depth) 93
      (commaSeparated (items.map (·.1)) ++ 93 :: rest) = some (items.map (·.2), rest) := by
    refine readSequence_commaSeparated ⟨by decide, by decide, delimited_cons (by decide)⟩ ?_ ?_
      rest
    · exact fun pair hpair => ⟨(h pair hpair).begins, (h pair hpair).reads depth (by omega)⟩
    · exact fun pair hpair => expect_of_begins (h pair hpair).begins (.inl rfl)
  simp only [List.cons_append, List.append_assoc, List.nil_append]
  simp only [readValue, show ((91 : UInt8) = 34) = False by decide, if_false, if_true, hread,
    Option.map_some]

/-- A member: its key, the text of its value, the value. -/
structure Member where
  key : Bytes
  text : Bytes
  value : Json

def Member.spelled (member : Member) : Bytes := 34 :: member.key ++ 34 :: 58 :: member.text

theorem spells_object {n : Nat} {members : List Member}
    (h : ∀ member ∈ members, Plain member.key ∧ Spells n member.text member.value) :
    Spells (n + 1) (123 :: commaSeparated (members.map Member.spelled) ++ [125])
      (.object (members.map fun member => (member.key, member.value))) := by
  refine ⟨⟨123, commaSeparated (members.map Member.spelled) ++ [125], by simp, by decide,
    by decide, by decide⟩, ?_⟩
  intro depth hdepth rest _
  obtain ⟨depth, rfl⟩ : ∃ k, depth = k + 1 := ⟨depth - 1, by omega⟩
  have hbegins (member : Member) : Begins member.spelled :=
    ⟨34, member.key ++ 34 :: 58 :: member.text, rfl, by decide, by decide, by decide⟩
  have hmember (member : Member) (hmem : member ∈ members) (rest : Bytes)
      (hrest : Delimited rest) : readMember (readValue depth) (member.spelled ++ rest) =
        some ((member.key, member.value), rest) := by
    obtain ⟨hplain, hspells⟩ := h member hmem
    have hkey := readString_plain hplain (58 :: (member.text ++ rest))
    have hvalue := hspells.reads depth (by omega) rest hrest
    have hcolon (t : Bytes) : skipSpace (58 :: t) = 58 :: t := rfl
    simp only [Member.spelled, List.append_assoc, List.cons_append] at hkey ⊢
    simp only [readMember, hkey, Option.bind_eq_bind, Option.bind_some, hcolon, expect_cons,
      skipSpace_of_begins hspells.begins, hvalue]
    rfl
  have hread : readSequence (readMember (readValue depth)) 125
      (commaSeparated (members.map Member.spelled) ++ 125 :: rest) =
        some (members.map fun member => (member.key, member.value), rest) := by
    let items := members.map fun member => (member.spelled, (member.key, member.value))
    have htexts : members.map Member.spelled = items.map (·.1) := by simp [items]
    have hvalues : members.map (fun member => (member.key, member.value)) = items.map (·.2) := by
      simp [items]
    rw [htexts, hvalues]
    refine readSequence_commaSeparated ⟨by decide, by decide, delimited_cons (by decide)⟩ ?_ ?_
      rest
    · intro pair hpair
      obtain ⟨member, hmem, rfl⟩ := List.mem_map.mp hpair
      exact ⟨hbegins member, hmember member hmem⟩
    · intro pair hpair
      obtain ⟨member, hmem, rfl⟩ := List.mem_map.mp hpair
      exact expect_of_begins (hbegins member) (.inr rfl)
  simp only [List.cons_append, List.append_assoc, List.nil_append]
  simp only [readValue, show ((123 : UInt8) = 34) = False by decide,
    show ((123 : UInt8) = 91) = False by decide, if_false, if_true, hread, Option.map_some]

/-- A text that spells a value parses to it, if it is not nested too deeply for its length. -/
theorem parse_of_spells {n : Nat} {s : Bytes} {v : Json} (h : Spells n s v)
    (hlength : n ≤ s.length) : parse s = some v := by
  have hread := h.reads s.length hlength [] delimited_nil
  have hskip := skipSpace_of_begins h.begins []
  rw [List.append_nil] at hread hskip
  simp only [parse, hskip, hread, Option.bind_eq_bind, Option.bind_some]
  rfl

/-- No object inside the value has a key twice. -/
inductive KeysOnce : Json → Prop
  | null : KeysOnce .null
  | bool (b : Bool) : KeysOnce (.bool b)
  | number (q : ℚ) : KeysOnce (.number q)
  | string (s : Bytes) : KeysOnce (.string s)
  | array {items : List Json} (h : ∀ item ∈ items, KeysOnce item) : KeysOnce (.array items)
  | object {members : List (Bytes × Json)} (hkeys : (members.map (·.1)).Nodup)
      (h : ∀ member ∈ members, KeysOnce member.2) : KeysOnce (.object members)

end PriorityFabric.Lib.JsonTexts
