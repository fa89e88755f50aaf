import PriorityFabric.Lib.SortedTables
import PriorityFabric.QueryCodec
import PriorityFabric.StateRoundTrip

/-!
What is lost between decoding and encoding again.

Every decoder stands beside a stricter one.  What a decoder returns encodes to the bytes it
was given if and only if the stricter one accepts them.
-/

namespace PriorityFabric.Rewritten

open PriorityFabric.Lib.LittleEndian
open PriorityFabric.Lib.ByteReader
open PriorityFabric.Lib.KeyedTable
open PriorityFabric.Lib.Rewriting
open PriorityFabric.Lib.SortedTables
open PriorityFabric.Basics
open PriorityFabric.Ident
open PriorityFabric.Hashing
open PriorityFabric.Model
open PriorityFabric.Codec
open PriorityFabric.ModelCodec
open PriorityFabric.State
open PriorityFabric.StateCodec
open PriorityFabric.QueryCodec

def Exact {α : Type} (dec : Decoder α) (W : α → Bytes → Prop) : Prop := Faithful dec dec W

theorem toList_bytes_ofFn {n : Nat} {bytes : Bytes} (h : bytes.length = n) :
    (List.Vector.ofFn fun i : Fin n => bytes.getD i 0).toList = bytes := by
  subst h
  apply List.ext_getElem
  · simp
  · intro i hi hi'
    simp

theorem exact_le (width : Nat) :
    Exact (do return readLe (← Decoder.take width)) fun v w =>
      w = appendLe width v ∧ v < 256 ^ width := by
  refine ((Faithful.takeBytes width _).last readLe).mono ?_
  rintro v w ⟨a, rfl, rfl, hlength⟩
  have hlt := readLe_lt w
  rw [hlength] at hlt
  rw [← hlength, appendLe_readLe, hlength]
  exact ⟨rfl, hlt⟩

theorem exact_u8 : Exact Decoder.u8 fun v w => w = Encoder.u8 v ∧ v < 256 := exact_le 1

theorem exact_u16 : Exact Decoder.u16 fun v w => w = Encoder.u16 v :=
  (exact_le 2).mono fun _ _ h => h.1

theorem exact_boundedU32 :
    Exact Decoder.u32 fun v w => w = Encoder.u32 v ∧ v < 2 ^ 32 := exact_le 4

theorem exact_u32 : Exact Decoder.u32 fun v w => w = Encoder.u32 v :=
  exact_boundedU32.mono fun _ _ h => h.1

theorem exact_u64 : Exact Decoder.u64 fun v w => w = Encoder.u64 v := by
  refine ((Faithful.takeBytes 8 _).last fun b => UInt64.ofNat (readLe b)).mono ?_
  rintro v w ⟨a, rfl, rfl, hlength⟩
  have hlt := readLe_lt w
  rw [hlength] at hlt
  have hback : (UInt64.ofNat (readLe w)).toNat = readLe w :=
    UInt64.toNat_ofNat_of_lt (lt_of_lt_of_eq hlt (by norm_num))
  rw [Encoder.u64, hback, ← hlength, appendLe_readLe]

theorem exact_boolean : Exact Decoder.boolean fun v w => w = Encoder.boolean v := by
  refine (exact_u8.bind fun value => ((Faithful.refuseIf _ _).last fun _ => value == 1)).mono ?_
  rintro v w ⟨value, front, back, ⟨rfl, -⟩, ⟨u, rfl, hle, rfl⟩, rfl⟩
  have hvalue : value = (value == 1).toNat := by
    have hsmall : value ≤ 1 := by simpa using hle
    interval_cases value <;> rfl
  rw [List.append_nil, Encoder.boolean, ← hvalue]

theorem exact_raw (n : Nat) : Exact (Decoder.raw n) fun v w => w = v ∧ v.length = n :=
  Faithful.takeBytes n fun remaining =>
    makeError .truncated
      (text "decoder underrun: wanted " ++ decimal n ++ text " bytes, " ++
        decimal remaining ++ text " remain")

theorem exact_boundedStr (bound : Nat) :
    Exact (Decoder.str bound) fun s w =>
      w = Encoder.str s ∧ s.length < 2 ^ 32 ∧ s.length ≤ bound := by
  refine (exact_boundedU32.bind fun length =>
    (Faithful.refuseIf _ _).bind fun _ => exact_raw length).mono ?_
  rintro s w ⟨length, front, back, ⟨rfl, hlt⟩, ⟨u, front', back', ⟨hle, rfl⟩, ⟨rfl, rfl⟩, rfl⟩,
    rfl⟩
  refine ⟨?_, hlt, by simpa using hle⟩
  rw [Encoder.str, if_pos hlt]

theorem exact_str (bound : Nat) : Exact (Decoder.str bound) fun s w => w = Encoder.str s :=
  (exact_boundedStr bound).mono fun _ _ h => h.1

theorem exact_ofResult {α : Type} (r : Result α) :
    Exact (Decoder.ofResult r) fun a w => r = .ok a ∧ w = [] := by
  cases r with
  | error e =>
      refine ⟨?_, fun _ _ h => h⟩
      rintro input a rest ⟨⟩
  | ok value =>
      refine (Faithful.pure value).mono ?_
      rintro a w ⟨rfl, rfl⟩
      exact ⟨rfl, rfl⟩

theorem value_of_fromCanonical {tag : IdTag} {value : Bytes} {limits : Limits}
    {id : BasicId tag} (h : BasicId.fromCanonical value limits = .ok id) :
    id.value = value ∧ id.valid = true := by
  unfold BasicId.fromCanonical at h
  split at h
  · rename_i reparsed hcanonical
    split at h
    · cases h
    · rename_i hsame
      cases h
      refine ⟨not_not.mp hsame, (BasicId.valid_iff _).mpr ?_⟩
      intro hempty
      have hgrammar := canonicalizeId_grammar hcanonical
      simp only at hempty
      rw [hempty] at hgrammar
      simp [idGrammar] at hgrammar
  · cases h

theorem exact_validId {tag : IdTag} (limits : Limits) :
    Exact (Decoder.id limits : Decoder (BasicId tag)) fun id w =>
      w = encodeId id ∧ id.valid = true := by
  refine ((exact_str _).bind fun value => exact_ofResult _).mono ?_
  rintro id w ⟨value, front, back, rfl, ⟨hid, rfl⟩, rfl⟩
  obtain ⟨rfl, hvalid⟩ := value_of_fromCanonical hid
  exact ⟨List.append_nil _, hvalid⟩

theorem exact_id {tag : IdTag} (limits : Limits) :
    Exact (Decoder.id limits : Decoder (BasicId tag)) fun id w => w = encodeId id :=
  (exact_validId limits).mono fun _ _ h => h.1

theorem exact_checkedOptional {α : Type} {dec : Decoder α} {enc : α → Bytes} {C : α → Prop}
    (h : Exact dec fun a w => w = enc a ∧ C a) :
    Exact (Decoder.optional dec) fun value w =>
      w = Encoder.optional enc value ∧ ∀ a, value = some a → C a := by
  have hflag : ∀ flag : Bool, Exact (do
      if flag then
        let a ← dec
        return some a
      else return none : Decoder (Option α)) fun value w =>
        Encoder.boolean flag ++ w = Encoder.optional enc value ∧
          ∀ a, value = some a → C a := by
    rintro (_ | _)
    · refine (Faithful.pure none).mono ?_
      rintro value w ⟨rfl, rfl⟩
      exact ⟨List.append_nil _, by simp⟩
    · refine (h.last some).mono ?_
      rintro value w ⟨a, rfl, rfl, ha⟩
      refine ⟨rfl, ?_⟩
      rintro b ⟨⟩
      exact ha
  refine (exact_boolean.bind hflag).mono ?_
  rintro value w ⟨flag, front, back, rfl, hvalue, rfl⟩
  exact hvalue

theorem exact_optional {α : Type} {dec : Decoder α} {enc : α → Bytes}
    (h : Exact dec fun a w => w = enc a) :
    Exact (Decoder.optional dec) fun value w => w = Encoder.optional enc value := by
  have htrue : Exact dec fun a w => w = enc a ∧ True := h.mono fun a w hw => ⟨hw, trivial⟩
  exact (exact_checkedOptional htrue).mono fun _ _ hw => hw.1

theorem exact_refuse {α : Type} (e : Status) (W : α → Bytes → Prop) :
    Exact (refuse e : Decoder α) W := by
  refine ⟨?_, fun _ _ h => h⟩
  rintro input a rest ⟨⟩

section Enumerations

variable {α : Type} {toNat : α → Nat}

theorem toNat_of_getElem? {names : List α} (h : names.map toNat = List.range names.length)
    {n : Nat} {a : α} (hn : names[n]? = some a) : toNat a = n := by
  obtain ⟨hlt, -⟩ := List.getElem?_eq_some_iff.mp hn
  have hname : (names.map toNat)[n]? = some (toNat a) := by
    rw [List.getElem?_map, hn]
    rfl
  rw [h, List.getElem?_range hlt] at hname
  exact (Option.some.inj hname).symm

variable {ofNat? : Nat → Option α} (hback : ∀ n a, ofNat? n = some a → toNat a = n)
include hback

theorem exact_member (value : Nat) {read : Decoder α}
    (hknown : ∀ a, ofNat? value = some a → read = pure a)
    (hunknown : ofNat? value = none → ∃ e, read = refuse e) :
    Exact read fun a w => toNat a = value ∧ w = [] := by
  cases hvalue : ofNat? value with
  | none =>
      obtain ⟨e, rfl⟩ := hunknown hvalue
      exact exact_refuse e _
  | some a =>
      rw [hknown a hvalue]
      refine (Faithful.pure a).mono ?_
      rintro b w ⟨rfl, rfl⟩
      exact ⟨hback value b hvalue, rfl⟩

theorem exact_enum (label : Bytes) :
    Exact (Decoder.enum ofNat? label) fun a w => w = Encoder.u8 (toNat a) := by
  refine (exact_u8.bind fun value => exact_member hback value
    (fun a h => by rw [h]) fun h => ⟨_, by rw [h]⟩).mono ?_
  rintro a w ⟨value, front, back, ⟨rfl, -⟩, ⟨rfl, rfl⟩, rfl⟩
  exact List.append_nil _

theorem exact_stateEnum (message : Bytes) :
    Exact (readStateEnum ofNat? message) fun a w => w = Encoder.u8 (toNat a) := by
  refine (exact_u8.bind fun value => exact_member hback value
    (fun a h => by rw [h]) fun h => ⟨_, by rw [h]⟩).mono ?_
  rintro a w ⟨value, front, back, ⟨rfl, -⟩, ⟨rfl, rfl⟩, rfl⟩
  exact List.append_nil _

end Enumerations

theorem exact_statusCode : Exact decodeStatusCode fun code w => w = Encoder.u16 code.toNat := by
  have hback : ∀ n code, StatusCode.ofNat? n = some code → code.toNat = n :=
    fun n code h => toNat_of_getElem? (by decide) h
  refine (exact_u16.bind fun value => exact_member hback value
    (fun a h => by rw [h]) fun h => ⟨_, by rw [h]⟩).mono ?_
  rintro a w ⟨value, front, back, rfl, ⟨rfl, rfl⟩, rfl⟩
  exact List.append_nil _

theorem exact_idList {tag : IdTag} (limits : Limits) (maxEntries : Nat) :
    Exact (decodeIdList limits maxEntries : Decoder (List (BasicId tag))) fun ids w =>
      w = encodeIdList ids := by
  refine (exact_u32.bind fun count => (Faithful.refuseIf _ _).bind fun _ =>
    Faithful.fold (fun out => (exact_id limits).last fun id => out ++ [id]) count []).mono ?_
  rintro ids w ⟨count, front, back, rfl,
    ⟨u, front', back', ⟨-, rfl⟩, ⟨items, rfl, rfl, hitems, rfl⟩, rfl⟩, rfl⟩
  have hflat : items.flatMap (·.2) = (items.map (·.1)).flatMap encodeId := by
    rw [List.flatMap_map]
    exact List.flatMap_congr hitems
  rw [foldl_push, List.nil_append, List.nil_append, encodeIdList, List.length_map, hflat]

theorem exact_boot : Exact decodeBoot fun boot w => w = encodeBoot boot := by
  refine ((exact_raw 16).last _).mono ?_
  rintro boot w ⟨bytes, rfl, rfl, hlength⟩
  exact (toList_bytes_ofFn hlength).symm

theorem exact_digest : Exact decodeDigest fun digest w => w = encodeDigest digest := by
  refine ((exact_raw 32).last _).mono ?_
  rintro digest w ⟨bytes, rfl, rfl, hlength⟩
  exact (toList_bytes_ofFn hlength).symm

def canonicalPrecedence : Decoder PrecedenceRank := do
  let assigned ← Decoder.boolean
  let value ← Decoder.u32
  if assigned = false then
    refuseIf (value ≠ 0)
      (makeError .invalidArgument (text "undeclared precedence rank carries a value"))
    return .undeclared
  else
    refuseIf (value > PrecedenceRank.maxRank)
      (makeError .invalidArgument
        (text "precedence rank " ++ decimal value ++ text " exceeds the " ++
          decimal PrecedenceRank.maxRank ++ text " ceiling"))
    return .make (UInt32.ofNat value)

theorem faithful_precedence :
    Faithful decodePrecedence canonicalPrecedence fun rank w => w = encodePrecedence rank := by
  refine (exact_boolean.bind (V := fun assigned rank w =>
    Encoder.boolean assigned ++ w = encodePrecedence rank) fun assigned => ?_).mono ?_
  · cases assigned with
    | false =>
        refine (exact_u32.forget (fun x => (Decoder.readsIff_u32 (by norm_num) x).1 trivial)
          (fun a => by simp) PrecedenceRank.undeclared _).mono ?_
        rintro rank w ⟨rfl, rfl⟩
        rfl
    | true =>
        refine (exact_boundedU32.bind fun value => (Faithful.refuseIf _ _).last
          fun _ => PrecedenceRank.make (UInt32.ofNat value)).mono ?_
        rintro rank w ⟨value, front, back, ⟨rfl, hlt⟩, ⟨u, rfl, -, rfl⟩, rfl⟩
        have hvalue : (UInt32.ofNat value).toNat = value := UInt32.toNat_ofNat_of_lt hlt
        rw [encodePrecedence, PrecedenceRank.make, List.append_nil, hvalue]
  · rintro rank w ⟨assigned, front, back, rfl, hrank, rfl⟩
    exact hrank

theorem exact_publisher (limits : Limits) :
    Exact (Decoder.optional (Decoder.id limits)) fun (publisher : Option PublisherId) w =>
      w = Encoder.optional encodeId
        (if (publisher.getD {}).valid then some (publisher.getD {}) else none) := by
  refine (exact_checkedOptional (exact_validId limits)).mono ?_
  rintro (_ | id) w ⟨rfl, hvalid⟩
  · rfl
  · rw [Option.getD_some, if_pos (hvalid id rfl)]

theorem exact_provenance (limits : Limits) :
    Exact (decodeProvenance limits) fun provenance w => w = encodeProvenance provenance :=
  (exact_publisher limits).next fun _ => exact_boot.next fun _ =>
    exact_u64.next fun _ => exact_u64.next fun _ => exact_u64.next fun _ =>
    exact_u64.next fun _ => exact_u64.next fun _ =>
    (exact_str _).ends fun _ => rfl

def canonicalClassDefinition (limits : Limits) : Decoder PriorityClassDef := do
  let id ← Decoder.id limits
  let generation ← Decoder.u64
  let precedence ← canonicalPrecedence
  let kind ← Decoder.enum ClassKind.ofNat? (text "class kind")
  let parents ← decodeIdList limits limits.maxInheritsFrom
  let description ← Decoder.str limits.maxDescriptionLength
  let privileged ← Decoder.boolean
  return { id := id, generation := ⟨generation⟩, precedence := precedence,
           kind := kind, inheritsFrom := parents, description := description,
           privileged := privileged }

theorem faithful_classDefinition (limits : Limits) :
    Faithful (readClassDefinition limits) (canonicalClassDefinition limits) fun d w =>
      w = encodeClassDefinition d := by
  have hkind : ∀ n kind, ClassKind.ofNat? n = some kind → kind.toNat = n :=
    fun n kind h => toNat_of_getElem? (by decide) h
  exact (exact_id limits).next fun _ => exact_u64.next fun _ =>
    faithful_precedence.next fun _ => (exact_enum hkind _).next fun _ =>
    (exact_idList limits _).next fun _ => (exact_str _).next fun _ =>
    exact_boolean.ends fun _ => rfl

theorem exact_conflictResolution :
    Exact readConflictResolution fun mode w => w = Encoder.u8 mode.toNat := by
  have hmode : ∀ n mode, ConflictResolution.ofNat? n = some mode → mode.toNat = n :=
    fun n mode h => toNat_of_getElem? (by decide) h
  exact exact_enum hmode _

theorem exact_scopeDefinition (limits : Limits) :
    Exact (readScopeDefinition limits) fun d w => w = encodeScopeDefinition d := by
  exact (exact_id limits).next fun _ => exact_u64.next fun _ =>
    (exact_optional (exact_id limits)).next fun _ =>
    exact_conflictResolution.next fun _ =>
    (exact_optional (exact_id limits)).next fun _ =>
    exact_boolean.next fun _ => (exact_str _).ends fun _ => rfl

theorem exact_policyDefinition (limits : Limits) :
    Exact (readPolicyDefinition limits) fun d w => w = encodePolicyDefinition d := by
  exact (exact_id limits).next fun _ => exact_u64.next fun _ =>
    (exact_id limits).next fun _ => exact_u64.next fun _ =>
    (exact_idList limits _).next fun _ =>
    (exact_optional exact_conflictResolution).next fun _ =>
    (exact_optional (exact_id limits)).next fun _ =>
    exact_boolean.next fun _ => (exact_str _).ends fun _ => rfl

theorem exact_subjectDefinition (limits : Limits) :
    Exact (readSubjectDefinition limits) fun d w => w = encodeSubjectDefinition d := by
  exact (exact_id limits).next fun _ => exact_u64.next fun _ =>
    (exact_idList limits _).next fun _ => (exact_str _).ends fun _ => rfl

theorem exact_assignment (limits : Limits) :
    Exact (readAssignment limits) fun a w => w = encodeAssignment a := by
  have hkind : ∀ n kind, AssignmentKind.ofNat? n = some kind → kind.toNat = n :=
    fun n kind h => toNat_of_getElem? (by decide) h
  exact (exact_id limits).next fun _ => exact_u64.next fun _ =>
    (exact_id limits).next fun _ => exact_u64.next fun _ =>
    (exact_id limits).next fun _ => exact_u64.next fun _ =>
    (exact_id limits).next fun _ => exact_u64.next fun _ =>
    (exact_enum hkind _).next fun _ => (exact_optional (exact_id limits)).next fun _ =>
    (exact_optional (exact_id limits)).next fun _ =>
    exact_u64.next fun _ => (exact_str _).ends fun _ => rfl

end PriorityFabric.Rewritten
