import PriorityFabric.Texts
import Mathlib.Data.List.GetD

/-!
Truncation of text.

The cut moves back from the limit to a byte that continues nothing.  In accepted text
such a byte starts a sequence, so what is kept is a run of whole sequences.
-/

namespace PriorityFabric.Truncation

open PriorityFabric.Lib.LittleEndian
open PriorityFabric.Basics
open PriorityFabric.Texts

theorem continues_of_announced {part : Bytes} (h : Announced part) {i : Nat} (hi : i ≠ 0)
    (hlength : i < part.length) : isContinuation (part.getD i 0) = true := by
  rw [isContinuation_iff]
  obtain ⟨j, rfl⟩ := Nat.exists_eq_succ_of_ne_zero hi
  cases h with
  | ascii ha => simp at hlength
  | two ha hb =>
      simp only [List.length_cons, List.length_nil] at hlength
      obtain rfl : j = 0 := by omega
      exact hb
  | three ha hb hc =>
      simp only [List.length_cons, List.length_nil] at hlength
      obtain rfl | rfl : j = 0 ∨ j = 1 := by omega
      · exact hb
      · exact hc
  | four ha hb hc hd =>
      simp only [List.length_cons, List.length_nil] at hlength
      obtain rfl | rfl | rfl : j = 0 ∨ j = 1 ∨ j = 2 := by omega
      · exact hb
      · exact hc
      · exact hd

theorem take_of_not_continuation {parts : List Bytes} (hparts : ∀ part ∈ parts, Announced part)
    {cut : Nat} (hcut : cut = 0 ∨ isContinuation (parts.flatten.getD cut 0) = false) :
    ∃ front, front <+: parts ∧ parts.flatten.take cut = front.flatten := by
  induction parts generalizing cut with
  | nil => exact ⟨[], List.nil_prefix, by simp⟩
  | cons part parts ih =>
      rcases hcut with rfl | hstop
      · exact ⟨[], List.nil_prefix, by simp⟩
      · rw [List.flatten_cons] at hstop
        by_cases hinside : cut < part.length
        · by_cases hzero : cut = 0
          · subst hzero
            exact ⟨[], List.nil_prefix, by simp⟩
          · have hcontinues := continues_of_announced (hparts part (by simp)) hzero hinside
            rw [List.getD_append _ _ _ _ hinside, hcontinues] at hstop
            cases hstop
        · rw [List.getD_append_right _ _ _ _ (by omega)] at hstop
          obtain ⟨front, hfront, htake⟩ :=
            ih (fun p hp => hparts p (by simp [hp])) (.inr hstop)
          refine ⟨part :: front, (List.prefix_cons_inj part).mpr hfront, ?_⟩
          rw [List.flatten_cons, List.flatten_cons, List.take_append,
            List.take_of_length_le (by omega), htake]

/-- The cut stops at the start of the text or at a byte that continues nothing. -/
theorem backToLead_stops (input : Bytes) (cut : Nat) :
    backToLead input cut = 0 ∨
      isContinuation (input.getD (backToLead input cut) 0) = false := by
  induction cut with
  | zero => exact .inl rfl
  | succ cut ih =>
      simp only [backToLead]
      split
      · exact ih
      · rename_i hlead
        exact .inr (by simpa using hlead)

theorem boundText_of_parts {parts : List Bytes} (hparts : ∀ part ∈ parts, Announced part)
    {limit : Nat} (hlong : limit < parts.flatten.length) (hlimit : 3 < limit) :
    ∃ front, front <+: parts ∧ boundText parts.flatten limit = front.flatten ++ text "..." := by
  obtain ⟨front, hfront, htake⟩ := take_of_not_continuation hparts
    (backToLead_stops parts.flatten (limit - 3))
  refine ⟨front, hfront, ?_⟩
  simp only [boundText, length_ellipsis]
  rw [if_neg (by omega), if_neg (by omega), htake]

theorem boundText_of_le {input : Bytes} {limit : Nat} (h : input.length ≤ limit) :
    boundText input limit = input := by
  simp only [boundText, if_pos h]

theorem boundText_of_limit_le {input : Bytes} {limit : Nat} (hlong : limit < input.length)
    (hlimit : limit ≤ 3) : boundText input limit = List.replicate limit 46 := by
  have hdots : text "..." = List.replicate 3 46 := by decide
  simp only [boundText, length_ellipsis]
  rw [if_neg (by omega), if_pos hlimit, hdots, List.take_replicate, Nat.min_eq_left hlimit]

theorem isPrintableText_dots (count : Nat) :
    isPrintableText (List.replicate count 46) = true := by
  rw [isPrintableText_iff]
  refine ⟨List.replicate count [46], by simp, ?_⟩
  intro part hpart
  rw [(List.mem_replicate.mp hpart).2]
  exact .ascii (by decide)

theorem isPrintableText_boundText {input : Bytes} (h : isPrintableText input = true)
    (limit : Nat) : isPrintableText (boundText input limit) = true := by
  by_cases hfits : input.length ≤ limit
  · rw [boundText_of_le hfits]
    exact h
  · by_cases hlimit : limit ≤ 3
    · rw [boundText_of_limit_le (by omega) hlimit]
      exact isPrintableText_dots limit
    · obtain ⟨parts, rfl, hparts⟩ := (isPrintableText_iff input).mp h
      obtain ⟨front, hfront, hbound⟩ := @boundText_of_parts parts hparts limit
        (by omega) (by omega)
      rw [hbound]
      have hdots : isPrintableText (text "...") = true := by decide
      have hkept : ∀ part ∈ front, Announced part := fun part hpart =>
        hparts part (hfront.subset hpart)
      clear hfront hbound
      induction front with
      | nil => exact hdots
      | cons part front ih =>
          rw [List.flatten_cons, List.append_assoc]
          exact isPrintableText_append (hkept part (by simp))
            (ih fun p hp => hkept p (by simp [hp]))

/-- Truncation stays within its limit, keeps what fits, and keeps text printable. -/
theorem bound_text_safe (input : Bytes) (limit : Nat) :
    (boundText input limit).length ≤ limit ∧
      (input.length ≤ limit → boundText input limit = input) ∧
      (isPrintableText input = true → isPrintableText (boundText input limit) = true) :=
  ⟨length_boundText_le input limit, boundText_of_le,
    fun h => isPrintableText_boundText h limit⟩

end PriorityFabric.Truncation
