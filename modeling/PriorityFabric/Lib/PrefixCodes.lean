import PriorityFabric.Lib.KeyedTable

/-!
Encodings that can be read off the front of a byte string.

`Shows encode good same` says that two good values whose encodings start the same string
are related by `same` and leave the same rest.  A prefix code shows the value itself.  The
rules below build such a statement for a composite encoding from those of its parts.
-/

namespace PriorityFabric.Lib.PrefixCodes

open PriorityFabric.Lib.LittleEndian
open PriorityFabric.Lib.KeyedTable

variable {A B C : Type}

/-- What two good values share when the encodings of both start one string. -/
def Shows (encode : A → List B) (good : A → Prop) (same : A → A → Prop) : Prop :=
  ∀ first second, good first → good second → ∀ rest rest',
    encode first ++ rest = encode second ++ rest' → same first second ∧ rest = rest'

/-- The encoding shows the value. -/
abbrev PrefixCode (encode : A → List B) (good : A → Prop) : Prop := Shows encode good Eq

namespace Shows

variable {encode encode' : A → List B} {good good' : A → Prop} {same same' : A → A → Prop}

theorem mono (h : Shows encode good same) (hgood : ∀ a, good' a → good a)
    (hsame : ∀ a b, same a b → same' a b) : Shows encode good' same' := by
  intro first second hfirst hsecond rest rest' heq
  obtain ⟨hshown, hrest⟩ := h _ _ (hgood _ hfirst) (hgood _ hsecond) rest rest' heq
  exact ⟨hsame _ _ hshown, hrest⟩

theorem congr (h : Shows encode good same) (heq : ∀ a, good a → encode' a = encode a) :
    Shows encode' good same := by
  intro first second hfirst hsecond rest rest' hstring
  rw [heq first hfirst, heq second hsecond] at hstring
  exact h _ _ hfirst hsecond rest rest' hstring

theorem append (h : Shows encode good same) (h' : Shows encode' good' same') :
    Shows (fun a => encode a ++ encode' a) (fun a => good a ∧ good' a)
      (fun a b => same a b ∧ same' a b) := by
  intro first second hfirst hsecond rest rest' heq
  rw [List.append_assoc, List.append_assoc] at heq
  obtain ⟨hfront, heq⟩ := h _ _ hfirst.1 hsecond.1 _ _ heq
  obtain ⟨hback, hrest⟩ := h' _ _ hfirst.2 hsecond.2 _ _ heq
  exact ⟨⟨hfront, hback⟩, hrest⟩

theorem field {code : C → List B} {fits : C → Prop} (h : PrefixCode code fits) (part : A → C) :
    Shows (fun a => code (part a)) (fun a => fits (part a))
      (fun a b => part a = part b) :=
  fun _ _ hfirst hsecond rest rest' heq => h _ _ hfirst hsecond rest rest' heq

theorem const (bytes : List B) :
    Shows (fun _ : A => bytes) (fun _ => True) (fun _ _ => True) :=
  fun _ _ _ _ _ _ heq => ⟨trivial, List.append_cancel_left heq⟩

end Shows

namespace PrefixCode

variable {encode : A → List B} {good : A → Prop}

theorem injective (h : PrefixCode encode good) {first second : A} (hfirst : good first)
    (hsecond : good second) (heq : encode first = encode second) : first = second :=
  (h _ _ hfirst hsecond [] [] (congrArg (· ++ []) heq)).1

theorem of_length (width : Nat) (hlength : ∀ a, (encode a).length = width)
    (hinjective : ∀ a b, good a → good b → encode a = encode b → a = b) :
    PrefixCode encode good := by
  intro first second hfirst hsecond rest rest' heq
  obtain ⟨hcode, hrest⟩ := List.append_inj heq ((hlength first).trans (hlength second).symm)
  exact ⟨hinjective _ _ hfirst hsecond hcode, hrest⟩

theorem of_field {code : C → List B} {fits : C → Prop} (h : PrefixCode code fits)
    {part : A → C} (hgood : ∀ a, good a → fits (part a))
    (hinjective : ∀ a b, part a = part b → a = b) :
    PrefixCode (fun a => code (part a)) good :=
  (Shows.field h part).mono hgood hinjective

theorem optional {flag : Bool → List B} (hflag : PrefixCode flag fun _ => True)
    (h : PrefixCode encode good) {code : Option A → List B} (hnone : code none = flag false)
    (hsome : ∀ a, code (some a) = flag true ++ encode a) :
    PrefixCode code (fun o => ∀ a, o = some a → good a) := by
  intro first second hfirst hsecond rest rest' heq
  cases first with
  | none =>
      cases second with
      | none =>
          rw [hnone] at heq
          exact ⟨rfl, List.append_cancel_left heq⟩
      | some b =>
          rw [hnone, hsome, List.append_assoc] at heq
          cases (hflag _ _ trivial trivial _ _ heq).1
  | some a =>
      cases second with
      | none =>
          rw [hnone, hsome, List.append_assoc] at heq
          cases (hflag _ _ trivial trivial _ _ heq).1
      | some b =>
          rw [hsome, hsome, List.append_assoc, List.append_assoc] at heq
          obtain ⟨-, heq⟩ := hflag _ _ trivial trivial _ _ heq
          obtain ⟨hvalue, hrest⟩ := h a b (hfirst a rfl) (hsecond b rfl) _ _ heq
          exact ⟨congrArg some hvalue, hrest⟩

theorem flatMap (h : PrefixCode encode good) {first second : List A}
    (hfirst : ∀ a ∈ first, good a) (hsecond : ∀ a ∈ second, good a)
    (hlength : first.length = second.length) {rest rest' : List B}
    (heq : first.flatMap encode ++ rest = second.flatMap encode ++ rest') :
    first = second ∧ rest = rest' := by
  induction first generalizing second with
  | nil =>
      obtain rfl : second = [] := List.length_eq_zero_iff.mp hlength.symm
      exact ⟨rfl, heq⟩
  | cons a first ih =>
      cases second with
      | nil => cases hlength
      | cons b second =>
          rw [List.flatMap_cons, List.flatMap_cons, List.append_assoc,
            List.append_assoc] at heq
          obtain ⟨hhead, htail⟩ := h a b (hfirst a (by simp)) (hsecond b (by simp)) _ _ heq
          obtain ⟨hmembers, hrest⟩ := ih (fun x hx => hfirst x (by simp [hx]))
            (fun x hx => hsecond x (by simp [hx])) (Nat.succ.inj hlength) htail
          exact ⟨by rw [hhead, hmembers], hrest⟩

section Sized

variable {size : Nat → List B} {fits : Nat → Prop} (hsize : PrefixCode size fits)

include hsize

theorem sized : PrefixCode (fun row : List B => size row.length ++ row)
    (fun row => fits row.length) := by
  intro first second hfirst hsecond rest rest' heq
  rw [List.append_assoc, List.append_assoc] at heq
  obtain ⟨hlength, heq⟩ := hsize _ _ hfirst hsecond _ _ heq
  exact List.append_inj heq hlength

theorem counted (h : PrefixCode encode good) :
    PrefixCode (fun items : List A => size items.length ++ items.flatMap encode)
      (fun items => fits items.length ∧ ∀ a ∈ items, good a) := by
  intro first second hfirst hsecond rest rest' heq
  rw [List.append_assoc, List.append_assoc] at heq
  obtain ⟨hlength, heq⟩ := hsize _ _ hfirst.1 hsecond.1 _ _ heq
  exact flatMap h hfirst.2 hsecond.2 hlength heq

end Sized

theorem table {K : Type} [Ord K] [Std.TransOrd K] [Std.LawfulEqOrd K] [DecidableEq K]
    {key : A → K} {code : List A → List B} {fits : List A → Prop} (h : PrefixCode code fits)
    {entry : A → Prop} :
    PrefixCode (fun table : Std.ExtTreeMap K A => code (values table))
      (fun table => Keyed key entry table ∧ fits (values table)) := by
  intro first second hfirst hsecond rest rest' heq
  obtain ⟨hvalues, hrest⟩ := h _ _ hfirst.2 hsecond.2 _ _ heq
  refine ⟨?_, hrest⟩
  rw [← collect_values hfirst.1, ← collect_values hsecond.1, hvalues]

theorem appendLe (width : Nat) : PrefixCode (appendLe width) (· < 256 ^ width) :=
  of_length width (length_appendLe width) fun a b ha hb heq => by
    rw [← readLe_appendLe ha, heq, readLe_appendLe hb]

end PrefixCode

end PriorityFabric.Lib.PrefixCodes
