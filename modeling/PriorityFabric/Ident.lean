import PriorityFabric.Basics
import Mathlib.Data.List.DropRight
import Mathlib.Data.Vector.Defs

/-!
Identifiers, boot ids and the monotonic counters of the fabric.

An identifier is empty (never set) or in canonical form; the type carries that
fact, because every way the source has of making one checks it.
-/

namespace PriorityFabric.Ident

open PriorityFabric.Lib.LittleEndian
open PriorityFabric.Basics

/-- Monotonic generation counter; zero is the reserved unset value. -/
structure Generation where
  value : UInt64 := 0
  deriving DecidableEq, Repr

def Generation.unset : Generation := ⟨0⟩
def Generation.first : Generation := ⟨1⟩
def Generation.isSet (g : Generation) : Bool := g.value != 0

/-- The successor generation, or nothing at the maximum. -/
def Generation.next (g : Generation) : Option Generation :=
  if g.value = UInt64.ofNat (2 ^ 64 - 1) then none else some ⟨g.value + 1⟩

/-- Node-scoped monotonic authority fence; zero means never established. -/
structure FabricEpoch where
  value : UInt64 := 0
  deriving DecidableEq, Repr

def FabricEpoch.unestablished : FabricEpoch := ⟨0⟩
def FabricEpoch.isEstablished (e : FabricEpoch) : Bool := e.value != 0

/-- The successor epoch, or nothing at the maximum. -/
def FabricEpoch.next (e : FabricEpoch) : Option FabricEpoch :=
  if e.value = UInt64.ofNat (2 ^ 64 - 1) then none else some ⟨e.value + 1⟩

/-- Token issued with an authority grant; zero is no token. -/
structure FencingToken where
  value : UInt64 := 0
  deriving DecidableEq, Repr

def FencingToken.none : FencingToken := ⟨0⟩
def FencingToken.isValid (t : FencingToken) : Bool := t.value != 0

/-- Explicit precedence rank: a value and whether it was declared at all. -/
structure PrecedenceRank where
  value : UInt32 := 0
  assigned : Bool := false
  deriving DecidableEq, Repr

def PrecedenceRank.maxRank : Nat := 1000000
def PrecedenceRank.make (v : UInt32) : PrecedenceRank := ⟨v, true⟩
def PrecedenceRank.undeclared : PrecedenceRank := ⟨0, false⟩
def PrecedenceRank.isDeclared (r : PrecedenceRank) : Bool := r.assigned

/-- The source's `operator==`: two undeclared ranks are equal whatever value
they carry. -/
def PrecedenceRank.same (a b : PrecedenceRank) : Bool :=
  a.assigned == b.assigned && (!a.assigned || a.value == b.value)

def isAsciiSpace (c : UInt8) : Bool :=
  c == 32 || c == 9 || c == 10 || c == 13 || c == 11 || c == 12

def isLowerAlnum (c : UInt8) : Bool :=
  (97 ≤ c && c ≤ 122) || (48 ≤ c && c ≤ 57)

def isSeparator (c : UInt8) : Bool :=
  c == 46 || c == 95 || c == 58 || c == 45

/-- The longest raw text canonicalization looks at. -/
def maxRawIdBytes : Nat := 4096

/-- `'/'` becomes `'.'` and ASCII upper case becomes lower case. -/
def foldIdChar (c : UInt8) : UInt8 :=
  if c = 47 then 46
  else if 65 ≤ c ∧ c ≤ 90 then c - 65 + 97
  else c

/-- The scan over a folded identifier: letters, digits and single separators,
not ending in a separator.  `previous` says whether the last character was a
separator. -/
def checkSegments (offset : Nat) (previous : Bool) : Bytes → Result Unit
  | [] =>
      failIf (previous = true) .malformedId
        (text "identifier may not end with a separator")
  | c :: rest =>
      if isLowerAlnum c then checkSegments (offset + 1) false rest
      else do
        failIf (isSeparator c = false) .malformedId
          (text "identifier contains an unsupported character at offset " ++
            decimal offset)
        failIf (previous = true) .malformedId
          (text "identifier contains an empty segment at offset " ++
            decimal offset)
        checkSegments (offset + 1) true rest

/-- The canonical spelling of a raw identifier, if it has one. -/
def canonicalizeId (raw : Bytes) (limits : Limits) : Result Bytes := do
  failIf (raw = []) .malformedId (text "identifier is empty")
  failIf (raw.length > maxRawIdBytes) .limitExceeded
    (text "identifier exceeds the maximum raw length of " ++
      decimal maxRawIdBytes ++ text " bytes")
  failIf (isPrintableText raw = false) .malformedId
    (text "identifier contains control or non-UTF-8 bytes")
  let trimmed := (raw.dropWhile isAsciiSpace).rdropWhile isAsciiSpace
  failIf (trimmed = []) .malformedId (text "identifier is empty after trimming")
  let body := if trimmed.head? = some 47 then trimmed.tail else trimmed
  failIf (body = []) .malformedId
    (text "identifier is empty after removing '/'")
  let canonical := body.map foldIdChar
  failIf (canonical.length > limits.maxIdLength) .limitExceeded
    (text "canonical identifier is " ++ decimal canonical.length ++
      text " bytes, limit is " ++ decimal limits.maxIdLength)
  failIf (canonical.head?.any isLowerAlnum = false) .malformedId
    (text "identifier must start with a lowercase letter or digit")
  checkSegments 0 false canonical
  return canonical

/-- The rest of a canonical identifier, given whether the last character was a
separator: at most one separator at a time, and none at the end. -/
def segmentsOk (previous : Bool) : Bytes → Bool
  | [] => !previous
  | c :: rest =>
      if isLowerAlnum c then segmentsOk false rest
      else isSeparator c && !previous && segmentsOk true rest

def idGrammar : Bytes → Bool
  | [] => false
  | c :: rest => isLowerAlnum c && segmentsOk false rest

theorem checkSegments_eq_ok_iff (offset : Nat) (previous : Bool) (s : Bytes) :
    checkSegments offset previous s = .ok () ↔ segmentsOk previous s = true := by
  induction s generalizing offset previous with
  | nil => simp [checkSegments, segmentsOk]
  | cons c rest ih =>
      simp only [checkSegments, segmentsOk]
      split
      · exact ih _ _
      · simp [ih, and_assoc]

theorem idGrammar_iff (s : Bytes) :
    idGrammar s = true ↔
      s.head?.any isLowerAlnum = true ∧ segmentsOk false s = true := by
  cases s with
  | nil => simp [idGrammar]
  | cons c rest =>
      by_cases hc : isLowerAlnum c = true <;> simp [idGrammar, segmentsOk, hc]

/-- What canonicalization returns is in canonical form and no longer than its
raw input was allowed to be. -/
theorem canonicalizeId_grammar {raw out : Bytes} {limits : Limits}
    (h : canonicalizeId raw limits = .ok out) :
    idGrammar out = true ∧ out.length ≤ 4096 := by
  simp only [canonicalizeId, bind_eq_ok, failIf_eq_ok, exists_const,
    pure, Except.pure, Except.ok.injEq, gt_iff_lt, not_lt, maxRawIdBytes,
    Bool.not_eq_false] at h
  obtain ⟨-, hraw, -, -, -, -, hhead, u, hsegments, rfl⟩ := h
  refine ⟨(idGrammar_iff _).mpr ⟨hhead, ?_⟩, ?_⟩
  · exact (checkSegments_eq_ok_iff 0 false _).mp hsegments
  · have hdrop : (raw.dropWhile isAsciiSpace).length ≤ raw.length :=
      (List.dropWhile_suffix isAsciiSpace).length_le
    have hrdrop := (List.rdropWhile_prefix isAsciiSpace
      (raw.dropWhile isAsciiSpace)).length_le
    simp only [List.length_map]
    split
    · simp only [List.length_tail]
      omega
    · omega

theorem isLowerAlnum_iff (c : UInt8) :
    isLowerAlnum c = true ↔
      (97 ≤ c.toNat ∧ c.toNat ≤ 122) ∨ (48 ≤ c.toNat ∧ c.toNat ≤ 57) := by
  simp [isLowerAlnum, UInt8.le_iff_toNat_le]

theorem isSeparator_iff (c : UInt8) :
    isSeparator c = true ↔
      c.toNat = 46 ∨ c.toNat = 95 ∨ c.toNat = 58 ∨ c.toNat = 45 := by
  simp [isSeparator, ← UInt8.toNat_inj, or_assoc]

/-- A character that may stand in a canonical identifier. -/
def isIdChar (c : UInt8) : Bool := isLowerAlnum c || isSeparator c

theorem foldIdChar_of_isIdChar {c : UInt8} (h : isIdChar c = true) :
    foldIdChar c = c := by
  simp only [isIdChar, Bool.or_eq_true, isLowerAlnum_iff, isSeparator_iff] at h
  have hslash : c ≠ 47 := by
    intro hc
    subst hc
    simp at h
  have hupper : ¬ (65 ≤ c ∧ c ≤ 90) := by
    simp only [UInt8.le_iff_toNat_le, UInt8.reduceToNat]
    omega
  simp [foldIdChar, hslash, hupper]

theorem isAsciiSpace_of_isIdChar {c : UInt8} (h : isIdChar c = true) :
    isAsciiSpace c = false := by
  simp only [isIdChar, Bool.or_eq_true, isLowerAlnum_iff, isSeparator_iff] at h
  simp only [isAsciiSpace, Bool.or_eq_false_iff, beq_eq_false_iff_ne, ne_eq,
    ← UInt8.toNat_inj, UInt8.reduceToNat]
  omega

theorem isIdChar_of_segmentsOk {previous : Bool} {s : Bytes}
    (h : segmentsOk previous s = true) : ∀ c ∈ s, isIdChar c = true := by
  induction s generalizing previous with
  | nil => simp
  | cons c rest ih =>
      simp only [segmentsOk] at h
      split at h
      · rename_i hc
        intro d hd
        rcases List.mem_cons.mp hd with rfl | hd
        · simp [isIdChar, hc]
        · exact ih h d hd
      · simp only [Bool.and_eq_true] at h
        intro d hd
        rcases List.mem_cons.mp hd with rfl | hd
        · simp [isIdChar, h.1.1]
        · exact ih h.2 d hd

theorem isIdChar_of_idGrammar {s : Bytes} (h : idGrammar s = true) :
    ∀ c ∈ s, isIdChar c = true :=
  isIdChar_of_segmentsOk ((idGrammar_iff s).mp h).2

theorem isPrintableText_of_isIdChar {s : Bytes} (h : ∀ c ∈ s, isIdChar c = true) :
    isPrintableText s = true := by
  induction s with
  | nil => rfl
  | cons c rest ih =>
      have hc := h c (by simp)
      simp only [isIdChar, Bool.or_eq_true, isLowerAlnum_iff, isSeparator_iff] at hc
      have hascii : c < 0x80 := by
        simp only [UInt8.lt_iff_toNat_lt, UInt8.reduceToNat]
        omega
      have hcontrol : ¬ (c < 0x20 ∨ c = 0x7F) := by
        simp only [UInt8.lt_iff_toNat_lt, ← UInt8.toNat_inj, UInt8.reduceToNat]
        omega
      unfold isPrintableText
      rw [if_pos hascii, if_neg hcontrol]
      exact ih fun d hd => h d (by simp [hd])

/-- Canonicalization of an identifier already in canonical form only checks its
length. -/
theorem canonicalizeId_of_grammar {s : Bytes} (limits : Limits)
    (hgrammar : idGrammar s = true) (hraw : s.length ≤ 4096) :
    canonicalizeId s limits =
      if s.length ≤ limits.maxIdLength then .ok s
      else .error (makeError .limitExceeded
        (text "canonical identifier is " ++ decimal s.length ++
          text " bytes, limit is " ++ decimal limits.maxIdLength)) := by
  have hchars := isIdChar_of_idGrammar hgrammar
  obtain ⟨hhead, hsegments⟩ := (idGrammar_iff s).mp hgrammar
  have hne : s ≠ [] := by
    rintro rfl
    simp [idGrammar] at hgrammar
  have hdrop : s.dropWhile isAsciiSpace = s := by
    cases s with
    | nil => rfl
    | cons c rest =>
        exact List.dropWhile_cons_of_neg
          (by simp [isAsciiSpace_of_isIdChar (hchars c (by simp))])
  have hrdrop : s.rdropWhile isAsciiSpace = s := by
    apply (List.rdropWhile_eq_self_iff).mpr
    intro hl
    simp [isAsciiSpace_of_isIdChar (hchars _ (List.getLast_mem hl))]
  have hslash : s.head? ≠ some 47 := by
    intro hs
    have h47 := hchars 47 (List.mem_of_mem_head? hs)
    simp [isIdChar, isLowerAlnum, isSeparator] at h47
  have hfold : s.map foldIdChar = s := by
    rw [List.map_congr_left fun c hc => foldIdChar_of_isIdChar (hchars c hc)]
    exact List.map_id' s
  have hcheck := (checkSegments_eq_ok_iff 0 false s).mpr hsegments
  unfold canonicalizeId
  simp only [hdrop, hrdrop, if_neg hslash, hfold, hhead, hcheck, hne,
    isPrintableText_of_isIdChar hchars, maxRawIdBytes, failIf,
    gt_iff_lt, not_lt.mpr hraw, if_false, Bool.true_eq_false]
  by_cases hlen : s.length ≤ limits.maxIdLength
  · simp only [if_pos hlen, if_neg (not_lt.mpr hlen)]
    rfl
  · simp only [if_neg hlen, if_pos (not_le.mp hlen)]
    rfl

/-- The kinds of identifier; distinct kinds are distinct types. -/
inductive IdTag where
  | priorityClass | priorityAssignment | subject | policyScope | policy | publisher

theorem wellFormed_nil :
    ([] : Bytes) = [] ∨ (idGrammar [] = true ∧ ([] : Bytes).length ≤ 4096) := .inl rfl

/-- A strongly typed identifier: unset, or in canonical form. -/
structure BasicId (tag : IdTag) where
  value : Bytes := []
  wellFormed : value = [] ∨ (idGrammar value = true ∧ value.length ≤ 4096) := by
    exact wellFormed_nil
  deriving DecidableEq, Repr

abbrev PriorityClassId := BasicId .priorityClass
abbrev PriorityAssignmentId := BasicId .priorityAssignment
abbrev SubjectId := BasicId .subject
abbrev PolicyScopeId := BasicId .policyScope
abbrev PolicyId := BasicId .policy
abbrev PublisherId := BasicId .publisher

namespace BasicId

variable {tag : IdTag}

instance instLawfulBEq : LawfulBEq (BasicId tag) := inferInstance

@[ext] theorem ext {a b : BasicId tag} (h : a.value = b.value) : a = b := by
  cases a
  cases b
  simp_all

def valid (id : BasicId tag) : Bool := !id.value.isEmpty

theorem length_value_le (id : BasicId tag) : id.value.length ≤ 4096 := by
  rcases id.wellFormed with h | h
  · simp [h]
  · exact h.2

theorem valid_iff (id : BasicId tag) : id.valid = true ↔ id.value ≠ [] := by
  simp [valid]

def parse (raw : Bytes) (limits : Limits) : Result (BasicId tag) :=
  match h : canonicalizeId raw limits with
  | .ok canonical => .ok ⟨canonical, Or.inr (canonicalizeId_grammar h)⟩
  | .error e => .error e

/-- Build from an already canonical string; any other spelling is refused. -/
def fromCanonical (canonical : Bytes) (limits : Limits) : Result (BasicId tag) :=
  match h : canonicalizeId canonical limits with
  | .ok reparsed =>
      if reparsed ≠ canonical then
        .error (makeError .malformedId
          (text "identifier is not in canonical form: '" ++ canonical ++
            text "' (canonical spelling is '" ++ reparsed ++ text "')"))
      else .ok ⟨reparsed, Or.inr (canonicalizeId_grammar h)⟩
  | .error e => .error e

theorem fromCanonical_of_error {canonical : Bytes} {limits : Limits} {e : Status}
    (h : canonicalizeId canonical limits = .error e) :
    (fromCanonical canonical limits : Result (BasicId tag)) = .error e := by
  unfold fromCanonical
  split
  · rename_i h'
    rw [h] at h'
    cases h'
  · rename_i h'
    rw [h] at h'
    exact congrArg Except.error (Except.error.inj h').symm

theorem fromCanonical_of_fixed {id : BasicId tag} {limits : Limits}
    (h : canonicalizeId id.value limits = .ok id.value) :
    fromCanonical id.value limits = .ok id := by
  unfold fromCanonical
  split
  · rename_i reparsed h'
    rw [h] at h'
    cases h'
    simp
  · rename_i h'
    rw [h] at h'
    cases h'

/-- An identifier the type admits is accepted back exactly when it is set and
within the length limit. -/
theorem fromCanonical_value (id : BasicId tag) (limits : Limits) :
    ((id.value ≠ [] ∧ id.value.length ≤ limits.maxIdLength) →
      fromCanonical id.value limits = .ok id) ∧
    (¬ (id.value ≠ [] ∧ id.value.length ≤ limits.maxIdLength) →
      ∃ e, (fromCanonical id.value limits : Result (BasicId tag)) = .error e) := by
  rcases id.wellFormed with hempty | ⟨hgrammar, hraw⟩
  · refine ⟨fun h => absurd hempty h.1, fun _ => ?_⟩
    rw [hempty]
    exact ⟨_, fromCanonical_of_error rfl⟩
  · have hne : id.value ≠ [] := by
      intro hempty
      rw [hempty] at hgrammar
      simp [idGrammar] at hgrammar
    have hcanonical := canonicalizeId_of_grammar limits hgrammar hraw
    by_cases hlen : id.value.length ≤ limits.maxIdLength
    · rw [if_pos hlen] at hcanonical
      exact ⟨fun _ => fromCanonical_of_fixed hcanonical,
        fun h => absurd ⟨hne, hlen⟩ h⟩
    · rw [if_neg hlen] at hcanonical
      exact ⟨fun h => absurd h.2 hlen,
        fun _ => ⟨_, fromCanonical_of_error hcanonical⟩⟩

instance : Ord (BasicId tag) := ⟨fun a b => compare a.value b.value⟩

instance : Std.TransOrd (BasicId tag) where
  eq_swap := Std.OrientedOrd.eq_swap (α := Bytes)
  isLE_trans := Std.TransOrd.isLE_trans (α := Bytes)

instance : Std.LawfulEqOrd (BasicId tag) where
  compare_self := Std.ReflOrd.compare_self (α := Bytes)
  eq_of_compare h := ext (Std.LawfulEqOrd.eq_of_compare (α := Bytes) h)

end BasicId

theorem wellFormed_a :
    ([97] : Bytes) = [] ∨ (idGrammar [97] = true ∧ ([97] : Bytes).length ≤ 4096) := by decide

theorem wellFormed_b :
    ([98] : Bytes) = [] ∨ (idGrammar [98] = true ∧ ([98] : Bytes).length ≤ 4096) := by decide

theorem wellFormed_l :
    ([108] : Bytes) = [] ∨ (idGrammar [108] = true ∧ ([108] : Bytes).length ≤ 4096) := by decide

theorem wellFormed_p :
    ([112] : Bytes) = [] ∨ (idGrammar [112] = true ∧ ([112] : Bytes).length ≤ 4096) := by decide

structure BootId where
  bytes : List.Vector UInt8 16 := List.Vector.replicate 16 0
  deriving DecidableEq

namespace BootId

def zero : BootId := {}

def isZero (boot : BootId) : Bool := boot.bytes.toList.all (· == 0)

def valid (boot : BootId) : Bool := !boot.isZero

/-- Lower-case hexadecimal digit of a number below sixteen. -/
def hexDigit (n : Nat) : UInt8 :=
  if n < 10 then UInt8.ofNat (48 + n) else UInt8.ofNat (87 + n)

def hex (boot : BootId) : Bytes :=
  boot.bytes.toList.flatMap fun b => [hexDigit (b.toNat / 16), hexDigit (b.toNat % 16)]

@[ext] theorem ext {a b : BootId} (h : a.bytes.toList = b.bytes.toList) : a = b := by
  cases a
  cases b
  exact congrArg BootId.mk (Subtype.ext h)

@[simp] theorem length_toList (boot : BootId) : boot.bytes.toList.length = 16 :=
  boot.bytes.2

instance : Ord BootId := ⟨fun a b => compare a.bytes.toList b.bytes.toList⟩

instance : Std.TransOrd BootId where
  eq_swap := Std.OrientedOrd.eq_swap (α := Bytes)
  isLE_trans := Std.TransOrd.isLE_trans (α := Bytes)

instance : Std.LawfulEqOrd BootId where
  compare_self := Std.ReflOrd.compare_self (α := Bytes)
  eq_of_compare h := ext (Std.LawfulEqOrd.eq_of_compare (α := Bytes) h)

end BootId

end PriorityFabric.Ident
