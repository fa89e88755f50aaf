import PriorityFabric.Model

/-!
The canonical little-endian encoding shared by the journal and the snapshot.

An encoder writes exactly the bytes it is given; a decoder re-imposes lengths
and the identifier grammar.  Each decoder below comes with a statement of when
it inverts its encoder and what it returns then.
-/

namespace PriorityFabric.Codec

open PriorityFabric.Lib.LittleEndian
open PriorityFabric.Lib.ByteReader
open PriorityFabric.Basics
open PriorityFabric.Ident
open PriorityFabric.Hashing

def formatVersion : Nat := 1

namespace Encoder

def u8 (v : Nat) : Bytes := appendLe 1 v
def u16 (v : Nat) : Bytes := appendLe 2 v
def u32 (v : Nat) : Bytes := appendLe 4 v
def u64 (v : UInt64) : Bytes := appendLe 8 v.toNat
def boolean (v : Bool) : Bytes := u8 v.toNat

/-- Length-prefixed byte string; a text whose length does not fit the prefix is
written as the empty one. -/
def str (s : Bytes) : Bytes :=
  if s.length < 2 ^ 32 then u32 s.length ++ s else u32 0

/-- A flag followed by the value when there is one. -/
def optional {α : Type} (enc : α → Bytes) : Option α → Bytes
  | none => boolean false
  | some a => boolean true ++ enc a

@[simp] theorem length_u8 (v : Nat) : (u8 v).length = 1 := length_appendLe 1 v
@[simp] theorem length_u16 (v : Nat) : (u16 v).length = 2 := length_appendLe 2 v
@[simp] theorem length_u32 (v : Nat) : (u32 v).length = 4 := length_appendLe 4 v
@[simp] theorem length_u64 (v : UInt64) : (u64 v).length = 8 := length_appendLe 8 _
@[simp] theorem length_boolean (v : Bool) : (boolean v).length = 1 := length_u8 _

end Encoder

/-- What the length prefix lets a reader see of a text. -/
def storedText (s : Bytes) : Bytes := if s.length < 2 ^ 32 then s else []

theorem storedText_of_lt {s : Bytes} (h : s.length < 2 ^ 32) : storedText s = s :=
  if_pos h

@[simp] theorem storedText_value {tag : IdTag} (id : BasicId tag) :
    storedText id.value = id.value :=
  storedText_of_lt (lt_of_le_of_lt id.length_value_le (by norm_num))

theorem length_storedText_lt (s : Bytes) : (storedText s).length < 2 ^ 32 := by
  unfold storedText
  split
  · assumption
  · norm_num

theorem Encoder.str_eq (s : Bytes) :
    Encoder.str s = Encoder.u32 (storedText s).length ++ storedText s := by
  unfold Encoder.str storedText
  split <;> simp

theorem Encoder.length_str (s : Bytes) :
    (Encoder.str s).length = 4 + (storedText s).length := by
  rw [Encoder.str_eq]
  simp

/-- Bounds-checked decoder: every read stays within the available bytes or
refuses. -/
abbrev Decoder (α : Type) := Reader Status α

namespace Decoder

def take (n : Nat) : Decoder Bytes :=
  takeBytes n fun remaining =>
    makeError .truncated
      (text "decoder underrun: wanted " ++ decimal n ++ text " bytes, " ++
        decimal remaining ++ text " remain")

def u8 : Decoder Nat := do return readLe (← take 1)
def u16 : Decoder Nat := do return readLe (← take 2)
def u32 : Decoder Nat := do return readLe (← take 4)
def u64 : Decoder UInt64 := do return UInt64.ofNat (readLe (← take 8))

def boolean : Decoder Bool := do
  let value ← u8
  refuseIf (value > 1)
    (makeError .protocolError
      (text "boolean field carried the invalid value " ++ decimal value))
  return value == 1

def raw (size : Nat) : Decoder Bytes := take size

/-- Reads a length-prefixed byte string of at most `bound` bytes. -/
def str (bound : Nat) : Decoder Bytes := do
  let length ← u32
  refuseIf (length > bound)
    (makeError .limitExceeded
      (text "length-prefixed field declares " ++ decimal length ++
        text " bytes, limit is " ++ decimal bound))
  raw length

def ofResult {α : Type} : Result α → Decoder α
  | .ok a => pure a
  | .error e => refuse e

/-- Reads a length-prefixed identifier; only the canonical spelling is
accepted. -/
def id {tag : IdTag} (limits : Limits) : Decoder (BasicId tag) := do
  let value ← str limits.maxIdLength
  ofResult (BasicId.fromCanonical value limits)

/-- Requires that every byte has been consumed. -/
def finish : Decoder Unit :=
  Lib.ByteReader.finish fun remaining =>
    makeError .protocolError
      (text "trailing bytes after a complete value: " ++ decimal remaining ++
        text " unexpected byte(s)")

/-- A flag followed by the value when there is one. -/
def optional {α : Type} (dec : Decoder α) : Decoder (Option α) := do
  if ← boolean then
    let a ← dec
    return some a
  else return none

/-- One byte that names a member of an enumeration. -/
def enum {α : Type} (ofNat? : Nat → Option α) (label : Bytes) : Decoder α := do
  let value ← u8
  match ofNat? value with
  | some a => return a
  | none =>
      refuse (makeError .protocolError
        (label ++ text " " ++ decimal value ++ text " is not defined"))

/-- Decode a whole byte string with a reader. -/
def run {α : Type} (dec : Decoder α) (payload : Bytes) : Result α :=
  readAll (do let a ← dec; finish; return a) payload

/-- A length-prefixed payload decoded on its own. -/
def blob {α : Type} (bound : Nat) (decode : Bytes → Result α) : Decoder α := do
  let payload ← str bound
  ofResult (decode payload)

theorem readsIff_take {n : Nat} {bytes : Bytes} (h : bytes.length = n) :
    ReadsIff (take n) bytes bytes True :=
  ReadsIff.takeBytes _ h

theorem readsIff_u8 {v : Nat} (h : v < 256) : ReadsIff u8 (Encoder.u8 v) v True := by
  have hread := (readsIff_take (Encoder.length_u8 v)).map (f := readLe)
  rwa [Encoder.u8, readLe_appendLe (by norm_num; omega)] at hread

theorem readsIff_u16 {v : Nat} (h : v < 65536) :
    ReadsIff u16 (Encoder.u16 v) v True := by
  have hread := (readsIff_take (Encoder.length_u16 v)).map (f := readLe)
  rwa [Encoder.u16, readLe_appendLe (by norm_num; omega)] at hread

theorem readsIff_u32 {v : Nat} (h : v < 2 ^ 32) :
    ReadsIff u32 (Encoder.u32 v) v True := by
  have hread := (readsIff_take (Encoder.length_u32 v)).map (f := readLe)
  rwa [Encoder.u32, readLe_appendLe (by norm_num at h ⊢; omega)] at hread

theorem readsIff_u64 (v : UInt64) : ReadsIff u64 (Encoder.u64 v) v True := by
  have hv : v.toNat < 256 ^ 8 := lt_of_lt_of_eq v.toNat_lt (by norm_num)
  have hread := (readsIff_take (Encoder.length_u64 v)).map
    (f := fun b => UInt64.ofNat (readLe b))
  rwa [Encoder.u64, readLe_appendLe hv, UInt64.ofNat_toNat] at hread

theorem readsIff_boolean (v : Bool) :
    ReadsIff boolean (Encoder.boolean v) v True := by
  have hlt : v.toNat < 256 := by cases v <;> decide
  have hvalue : (v.toNat == 1) = v := by cases v <;> rfl
  refine ReadsIff.congr (ReadsIff.bind_last (readsIff_u8 hlt) fun _ =>
    ReadsIff.guard fun _ => ReadsIff.pure_of_eq hvalue) ?_
  cases v <;> decide

theorem readsIff_raw {n : Nat} {bytes : Bytes} (h : bytes.length = n) :
    ReadsIff (raw n) bytes bytes True :=
  readsIff_take h

theorem readsIff_str (bound : Nat) (s : Bytes) :
    ReadsIff (str bound) (Encoder.str s) (storedText s)
      ((storedText s).length ≤ bound) := by
  rw [Encoder.str_eq]
  refine ReadsIff.congr (ReadsIff.bind_true (readsIff_u32 (length_storedText_lt s))
    (ReadsIff.guard fun _ => readsIff_raw rfl)) ?_
  simp

theorem readsIff_str_of_lt {bound : Nat} {s : Bytes} (h : s.length < 2 ^ 32) :
    ReadsIff (str bound) (Encoder.str s) s (s.length ≤ bound) := by
  have hread := readsIff_str bound s
  rwa [storedText_of_lt h] at hread

theorem readsIff_ofResult {α : Type} {r : Result α} {value : α} {C : Prop}
    (hok : C → r = .ok value) (herror : ¬ C → ∃ e, r = .error e) :
    ReadsIff (ofResult r) [] value C := by
  intro rest
  refine ⟨fun hC => ?_, fun hC => ?_⟩
  · rw [hok hC]
    rfl
  · obtain ⟨e, he⟩ := herror hC
    rw [he]
    exact ⟨e, rfl⟩

/-- An identifier reads back exactly when it is set and short enough. -/
def IdReadable {tag : IdTag} (limits : Limits) (id : BasicId tag) : Prop :=
  id.value ≠ [] ∧ id.value.length ≤ limits.maxIdLength

theorem readsIff_id {tag : IdTag} (limits : Limits) (id : BasicId tag) :
    ReadsIff (Decoder.id limits) (Encoder.str id.value) id (IdReadable limits id) := by
  have hstr := readsIff_str limits.maxIdLength id.value
  rw [storedText_value] at hstr
  refine ReadsIff.congr (ReadsIff.bind_last hstr fun _ =>
    readsIff_ofResult (BasicId.fromCanonical_value id limits).1
      (BasicId.fromCanonical_value id limits).2) ?_
  unfold IdReadable
  tauto

theorem readsIff_optional {α : Type} {enc : α → Bytes} {dec : Decoder α}
    {value : Option α} {C : α → Prop}
    (h : ∀ a, value = some a → ReadsIff dec (enc a) a (C a)) :
    ReadsIff (optional dec) (Encoder.optional enc value) value
      (∀ a, value = some a → C a) := by
  cases value with
  | none =>
      refine ReadsIff.congr (ReadsIff.bind_last (readsIff_boolean false)
        fun _ => ReadsIff.pure none) (by simp)
  | some a =>
      refine ReadsIff.congr (ReadsIff.bind_true (readsIff_boolean true)
        (h a rfl).map) (by simp)

theorem readsIff_enum {α : Type} {ofNat? : Nat → Option α} {n : Nat} {a : α}
    (label : Bytes) (hlt : n < 256) (h : ofNat? n = some a) :
    ReadsIff (enum ofNat? label) (Encoder.u8 n) a True := by
  have htail : ReadsIff (match ofNat? n with
      | some a => Pure.pure a
      | none => refuse (makeError .protocolError
          (label ++ text " " ++ decimal n ++ text " is not defined"))) [] a True := by
    rw [h]
    exact ReadsIff.pure a
  exact ReadsIff.congr (ReadsIff.bind_last (readsIff_u8 hlt) fun _ => htail)
    and_self_iff

theorem run_of_readsIff {α : Type} {dec : Decoder α} {bytes : Bytes} {value : α}
    {C : Prop} (h : ReadsIff dec bytes value C) (hC : C) :
    run dec bytes = .ok value :=
  readAll_finish_of_readsIff _ h hC

theorem run_refuses_of_readsIff {α : Type} {dec : Decoder α} {bytes : Bytes}
    {value : α} {C : Prop} (h : ReadsIff dec bytes value C) (hC : ¬ C) :
    ∃ e, run dec bytes = .error e :=
  readAll_finish_refuses_of_readsIff _ h hC

theorem readsIff_blob {α : Type} {bound : Nat} {decode : Bytes → Result α}
    {bytes : Bytes} {value : α} {C : Prop} (hlength : bytes.length < 2 ^ 32)
    (hok : C → decode bytes = .ok value)
    (herror : ¬ C → ∃ e, decode bytes = .error e) :
    ReadsIff (blob bound decode) (Encoder.str bytes) value
      (bytes.length ≤ bound ∧ C) :=
  ReadsIff.bind_last (readsIff_str_of_lt hlength) fun _ =>
    readsIff_ofResult hok herror

end Decoder

end PriorityFabric.Codec
