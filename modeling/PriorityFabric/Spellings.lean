import PriorityFabric.Ident
import Mathlib.Computability.Language

/-!
Identifiers have one spelling.

The grammar of identifiers is a regular language; canonicalization ends in it,
leaves its words alone, and accepts nothing else as canonical.
-/

namespace PriorityFabric.Spellings

open PriorityFabric.Lib.LittleEndian
open PriorityFabric.Basics
open PriorityFabric.Ident
open scoped Computability

/-- The words of one byte that satisfies a predicate. -/
def oneOf (p : UInt8 → Bool) : Language UInt8 := {word | ∃ c, word = [c] ∧ p c = true}

def letter : Language UInt8 := oneOf isLowerAlnum

/-- One of the separators `.`, `_`, `:` and `-`. -/
def separator : Language UInt8 := oneOf isSeparator

/-- At most one separator, and the letter or digit it leads to. -/
def group : Language UInt8 := (1 + separator) * letter

def identifiers : Language UInt8 := letter * group∗

theorem mem_oneOf_mul {p : UInt8 → Bool} {L : Language UInt8} {word : Bytes} :
    word ∈ oneOf p * L ↔ ∃ c rest, word = c :: rest ∧ p c = true ∧ rest ∈ L := by
  rw [Language.mem_mul]
  constructor
  · rintro ⟨first, ⟨c, rfl, hc⟩, rest, hrest, rfl⟩
    exact ⟨c, rest, rfl, hc, hrest⟩
  · rintro ⟨c, rest, rfl, hc, hrest⟩
    exact ⟨[c], ⟨c, rfl, hc⟩, rest, hrest, rfl⟩

/-- A word of groups is empty, or goes on with a letter, or with a separator and a letter. -/
theorem groups_eq : group∗ = 1 + letter * group∗ + separator * (letter * group∗) := by
  conv_lhs => rw [← Language.one_add_self_mul_kstar_eq_kstar]
  rw [group, add_mul, one_mul, add_mul, mul_assoc, add_assoc]

theorem not_isSeparator {c : UInt8} (h : isLowerAlnum c = true) : isSeparator c = false := by
  rw [isLowerAlnum_iff] at h
  rw [← Bool.not_eq_true, isSeparator_iff]
  omega

/-- After a letter the scan accepts groups; after a separator it wants a letter first. -/
theorem segmentsOk_iff (s : Bytes) :
    (segmentsOk false s = true ↔ s ∈ group∗) ∧
      (segmentsOk true s = true ↔ s ∈ letter * group∗) := by
  induction s with
  | nil =>
      constructor
      · simp [segmentsOk, Language.nil_mem_kstar]
      · simp [segmentsOk, letter, mem_oneOf_mul]
  | cons c rest ih =>
      have hletter : c :: rest ∈ letter * group∗ ↔
          isLowerAlnum c = true ∧ segmentsOk false rest = true := by
        rw [letter, mem_oneOf_mul, ih.1]
        simp
      have hseparator : c :: rest ∈ separator * (letter * group∗) ↔
          isSeparator c = true ∧ segmentsOk true rest = true := by
        rw [separator, mem_oneOf_mul, ih.2]
        simp
      constructor
      · rw [groups_eq, Language.mem_add, Language.mem_add, Language.mem_one, hletter, hseparator]
        by_cases hc : isLowerAlnum c = true
        · simp [segmentsOk, hc, not_isSeparator hc]
        · simp [segmentsOk, hc]
      · rw [hletter]
        by_cases hc : isLowerAlnum c = true <;> simp [segmentsOk, hc]

theorem idGrammar_iff_mem (s : Bytes) : idGrammar s = true ↔ s ∈ identifiers := by
  rw [identifiers, letter, mem_oneOf_mul]
  cases s with
  | nil => simp [idGrammar]
  | cons c rest => simp [idGrammar, (segmentsOk_iff rest).1]

theorem length_le_of_canonicalizeId {raw out : Bytes} {limits : Limits}
    (h : canonicalizeId raw limits = .ok out) : out.length ≤ limits.maxIdLength := by
  simp only [canonicalizeId, bind_eq_ok, failIf_eq_ok, exists_const,
    pure, Except.pure, Except.ok.injEq, gt_iff_lt, not_lt] at h
  obtain ⟨-, -, -, -, -, hlength, -, -, -, rfl⟩ := h
  exact hlength

theorem canonicalizeId_idem {raw out : Bytes} {limits : Limits}
    (h : canonicalizeId raw limits = .ok out) : canonicalizeId out limits = .ok out := by
  obtain ⟨hgrammar, hraw⟩ := canonicalizeId_grammar h
  rw [canonicalizeId_of_grammar limits hgrammar hraw, if_pos (length_le_of_canonicalizeId h)]

theorem fromCanonical_eq_ok_iff {tag : IdTag} {s : Bytes} {limits : Limits} {id : BasicId tag} :
    BasicId.fromCanonical s limits = .ok id ↔
      canonicalizeId s limits = .ok s ∧ id.value = s := by
  constructor
  · intro h
    unfold BasicId.fromCanonical at h
    split at h
    · rename_i reparsed hreparsed
      split at h
      · cases h
      · rename_i hsame
        rw [not_not] at hsame
        subst hsame
        cases h
        exact ⟨hreparsed, rfl⟩
    · cases h
  · rintro ⟨h, rfl⟩
    exact BasicId.fromCanonical_of_fixed h

/-- Canonicalization returns a word of the grammar within the length limit, and returns it
again; `from_canonical` accepts exactly these words, unchanged. -/
theorem identifiers_have_one_spelling (limits : Limits) :
    (∀ raw out : Bytes, canonicalizeId raw limits = .ok out →
      out.length ≤ limits.maxIdLength ∧ out ∈ identifiers ∧
        canonicalizeId out limits = .ok out) ∧
    ∀ (tag : IdTag) (s : Bytes), s.length ≤ 4096 →
      ((∃ id : BasicId tag, BasicId.fromCanonical s limits = .ok id) ↔
        s ∈ identifiers ∧ s.length ≤ limits.maxIdLength) ∧
      ∀ id : BasicId tag, BasicId.fromCanonical s limits = .ok id → id.value = s := by
  refine ⟨fun raw out h => ⟨length_le_of_canonicalizeId h, ?_, canonicalizeId_idem h⟩, ?_⟩
  · exact (idGrammar_iff_mem out).mp (canonicalizeId_grammar h).1
  · intro tag s hraw
    refine ⟨⟨?_, ?_⟩, fun id h => (fromCanonical_eq_ok_iff.mp h).2⟩
    · rintro ⟨id, h⟩
      obtain ⟨hfixed, -⟩ := fromCanonical_eq_ok_iff.mp h
      exact ⟨(idGrammar_iff_mem s).mp (canonicalizeId_grammar hfixed).1,
        length_le_of_canonicalizeId hfixed⟩
    · rintro ⟨hmem, hlength⟩
      have hgrammar := (idGrammar_iff_mem s).mpr hmem
      have hfixed := canonicalizeId_of_grammar limits hgrammar hraw
      rw [if_pos hlength] at hfixed
      exact ⟨⟨s, .inr ⟨hgrammar, hraw⟩⟩, fromCanonical_eq_ok_iff.mpr ⟨hfixed, rfl⟩⟩

end PriorityFabric.Spellings
