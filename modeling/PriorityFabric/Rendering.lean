import PriorityFabric.Lib.JsonTexts
import PriorityFabric.Model

/-!
Decisions as JSON.

The writer puts the text together by hand; whatever bytes the texts of a decision hold, a
parser takes it apart again.
-/

namespace PriorityFabric.Rendering

open PriorityFabric.Lib.LittleEndian
open PriorityFabric.Lib.JsonTexts
open PriorityFabric.Basics
open PriorityFabric.Ident
open PriorityFabric.Hashing
open PriorityFabric.Model

/-! ## The writer -/

def escapeByte (b : UInt8) : Bytes :=
  if b = 34 then text "\\\""
  else if b = 92 then text "\\\\"
  else if b = 10 then text "\\n"
  else if b = 13 then text "\\r"
  else if b = 9 then text "\\t"
  else if b < 32 then
    text "\\u00" ++ [BootId.hexDigit (b.toNat / 16), BootId.hexDigit (b.toNat % 16)]
  else [b]

def appendJsonString (out s : Bytes) : Bytes :=
  s.foldl (fun out b => out ++ escapeByte b) (out ++ [34]) ++ [34]

/-- The text of an object under construction, and whether it has no key yet. -/
structure ObjectWriter where
  out : Bytes := []
  first : Bool := true

namespace ObjectWriter

def appendKey (w : ObjectWriter) (key : Bytes) : ObjectWriter where
  out := (if w.first then w.out else w.out ++ [44]) ++ [34] ++ key ++ [34, 58]
  first := false

def appendString (w : ObjectWriter) (s : Bytes) : ObjectWriter :=
  { w with out := appendJsonString w.out s }

def append (w : ObjectWriter) (s : Bytes) : ObjectWriter := { w with out := w.out ++ s }

def appendBy (w : ObjectWriter) (write : Bytes → Bytes) : ObjectWriter :=
  { w with out := write w.out }

def appendOptional {α : Type} (w : ObjectWriter) (field : Option α)
    (write : ObjectWriter → α → ObjectWriter) : ObjectWriter :=
  field.elim w (write w)

end ObjectWriter

def appendProvenanceJson (out : Bytes) (provenance : Provenance) : Bytes :=
  let inner : ObjectWriter := {}
  let inner := inner.appendKey (text "publisher")
  let inner := inner.appendString provenance.publisher.value
  let inner := inner.appendKey (text "boot")
  let inner := inner.appendString provenance.boot.hex
  let inner := inner.appendKey (text "epoch")
  let inner := inner.append (decimal provenance.epoch.value.toNat)
  let inner := inner.appendKey (text "fencing_token")
  let inner := inner.append (decimal provenance.token.value.toNat)
  let inner := inner.appendKey (text "state_generation")
  let inner := inner.append (decimal provenance.stateGeneration.value.toNat)
  let inner := inner.appendKey (text "audit_sequence")
  let inner := inner.append (decimal provenance.auditSequence.toNat)
  let inner := inner.appendKey (text "recorded_at_ms")
  let inner := inner.append (decimal provenance.recordedAtMs.toNat)
  let inner := inner.appendKey (text "op")
  let inner := inner.appendString provenance.op
  out ++ [123] ++ inner.out ++ [125]

def appendEvidenceJson (out : Bytes) (note : EvidenceNote) : Bytes :=
  let inner : ObjectWriter := {}
  let inner := inner.appendKey (text "assignment")
  let inner := inner.appendString note.assignment.value
  let inner := inner.appendKey (text "assignment_generation")
  let inner := inner.append (decimal note.assignmentGeneration.value.toNat)
  let inner := inner.appendKey (text "class")
  let inner := inner.appendString note.cls.value
  let inner := inner.appendKey (text "class_generation")
  let inner := inner.append (decimal note.classGeneration.value.toNat)
  let inner := inner.appendKey (text "scope")
  let inner := inner.appendString note.scope.value
  let inner := inner.appendOptional note.viaSubject fun inner subject =>
    (inner.appendKey (text "via_subject")).appendString subject.value
  let inner := inner.appendKey (text "reason_code")
  let inner := inner.appendString note.reasonCode
  let inner := inner.appendKey (text "reason")
  let inner := inner.appendString note.reason
  let inner := inner.appendKey (text "provenance")
  let inner := inner.appendBy fun out => appendProvenanceJson out note.provenance
  out ++ [123] ++ inner.out ++ [125]

def appendStepJson (out : Bytes) (step : ExplanationStep) : Bytes :=
  let inner : ObjectWriter := {}
  let inner := inner.appendKey (text "stage")
  let inner := inner.appendString step.stage
  let inner := inner.appendKey (text "code")
  let inner := inner.appendString step.code
  let inner := inner.appendKey (text "detail")
  let inner := inner.appendString step.detail
  let inner := inner.appendOptional step.assignment fun inner assignment =>
    let inner := inner.appendKey (text "assignment")
    let inner := inner.appendString assignment.value
    let inner := inner.appendKey (text "assignment_generation")
    inner.append (decimal step.assignmentGeneration.value.toNat)
  let inner := inner.appendOptional step.cls fun inner cls =>
    let inner := inner.appendKey (text "class")
    let inner := inner.appendString cls.value
    let inner := inner.appendKey (text "class_generation")
    inner.append (decimal step.classGeneration.value.toNat)
  let inner := inner.appendOptional step.scope fun inner scope =>
    (inner.appendKey (text "scope")).appendString scope.value
  let inner := inner.appendOptional step.policy fun inner policy =>
    (inner.appendKey (text "policy")).appendString policy.value
  let inner := inner.appendKey (text "provenance")
  let inner := inner.appendBy fun out => appendProvenanceJson out step.provenance
  out ++ [123] ++ inner.out ++ [125]

/-- The items between brackets, with a comma before every one but the first. -/
def appendList {α : Type} (append : Bytes → α → Bytes) (out : Bytes) (items : List α) : Bytes :=
  items.zipIdx.foldl (fun out item =>
    append (if item.2 ≠ 0 then out ++ [44] else out) item.1) (out ++ [91]) ++ [93]

def outcomeName : Outcome → Bytes
  | .assigned => text "ASSIGNED"
  | .inherited => text "INHERITED"
  | .overridden => text "OVERRIDDEN"
  | .conflict => text "CONFLICT"
  | .unknown => text "UNKNOWN"
  | .stale => text "STALE"
  | .fenced => text "FENCED"
  | .rejected => text "REJECTED"

def boolName (b : Bool) : Bytes := if b then text "true" else text "false"

def digestHex (digest : Digest) : Bytes :=
  digest.bytes.toList.flatMap fun b =>
    [BootId.hexDigit (b.toNat / 16), BootId.hexDigit (b.toNat % 16)]

def toJson (decision : PriorityDecision) : Bytes :=
  let w : ObjectWriter := { out := [123] }
  let w := w.appendKey (text "outcome")
  let w := w.appendString (outcomeName decision.outcome)
  let w := w.appendKey (text "authoritative")
  let w := w.append (boolName decision.authoritative)
  let w := w.appendKey (text "class")
  let w := w.appendString decision.cls.value
  let w := w.appendKey (text "class_generation")
  let w := w.append (decimal decision.classGeneration.value.toNat)
  let w := w.appendKey (text "precedence")
  let w := w.append (if decision.precedence.isDeclared then
      decimal decision.precedence.value.toNat
    else text "null")
  let w := w.appendKey (text "privileged_class")
  let w := w.append (boolName decision.privilegedClass)
  let w := w.appendKey (text "reason_code")
  let w := w.appendString decision.reasonCode
  let w := w.appendKey (text "reason")
  let w := w.appendString decision.reason
  let w := w.appendKey (text "resolution")
  let w := w.appendString decision.resolution
  let w := w.appendKey (text "epoch")
  let w := w.append (decimal decision.epoch.value.toNat)
  let w := w.appendKey (text "state_generation")
  let w := w.append (decimal decision.stateGeneration.value.toNat)
  let w := w.appendKey (text "policy_generation")
  let w := w.append (decimal decision.policyGeneration.value.toNat)
  let w := w.appendKey (text "scope_generation")
  let w := w.append (decimal decision.scopeGeneration.value.toNat)
  let w := w.appendKey (text "decision_digest")
  let w := w.appendString (digestHex decision.digest)
  let w := w.appendKey (text "chain")
  let w := w.appendBy fun out => appendList appendStepJson out decision.chain
  let w := w.appendKey (text "superseded")
  let w := w.appendBy fun out => appendList appendEvidenceJson out decision.superseded
  let w := w.appendKey (text "rejected_evidence")
  let w := w.appendBy fun out => appendList appendEvidenceJson out decision.rejectedEvidence
  let w := w.appendKey (text "conflicts")
  let w := w.appendBy fun out => appendList appendJsonString out decision.conflicts
  w.out ++ [125]

/-! ## What the text says -/

def provenanceJson (provenance : Provenance) : Json :=
  .object
    [(text "publisher", .string provenance.publisher.value),
      (text "boot", .string provenance.boot.hex),
      (text "epoch", .number provenance.epoch.value.toNat),
      (text "fencing_token", .number provenance.token.value.toNat),
      (text "state_generation", .number provenance.stateGeneration.value.toNat),
      (text "audit_sequence", .number provenance.auditSequence.toNat),
      (text "recorded_at_ms", .number provenance.recordedAtMs.toNat),
      (text "op", .string provenance.op)]

/-- The members that stand there only if a field is set. -/
def optionalMembers {α : Type} (field : Option α) (members : α → List (Bytes × Json)) :
    List (Bytes × Json) :=
  field.elim [] members

def evidenceJson (note : EvidenceNote) : Json :=
  .object <| List.flatten
    [[(text "assignment", .string note.assignment.value),
      (text "assignment_generation", .number note.assignmentGeneration.value.toNat),
      (text "class", .string note.cls.value),
      (text "class_generation", .number note.classGeneration.value.toNat),
      (text "scope", .string note.scope.value)],
    optionalMembers note.viaSubject fun subject => [(text "via_subject", .string subject.value)],
    [(text "reason_code", .string note.reasonCode),
      (text "reason", .string note.reason),
      (text "provenance", provenanceJson note.provenance)]]

def stepJson (step : ExplanationStep) : Json :=
  .object <| List.flatten
    [[(text "stage", .string step.stage),
      (text "code", .string step.code),
      (text "detail", .string step.detail)],
    optionalMembers step.assignment fun assignment =>
      [(text "assignment", .string assignment.value),
        (text "assignment_generation", .number step.assignmentGeneration.value.toNat)],
    optionalMembers step.cls fun cls =>
      [(text "class", .string cls.value),
        (text "class_generation", .number step.classGeneration.value.toNat)],
    optionalMembers step.scope fun scope => [(text "scope", .string scope.value)],
    optionalMembers step.policy fun policy => [(text "policy", .string policy.value)],
    [(text "provenance", provenanceJson step.provenance)]]

def decisionJson (decision : PriorityDecision) : Json :=
  .object
    [(text "outcome", .string (outcomeName decision.outcome)),
      (text "authoritative", .bool decision.authoritative),
      (text "class", .string decision.cls.value),
      (text "class_generation", .number decision.classGeneration.value.toNat),
      (text "precedence",
        if decision.precedence.isDeclared then .number decision.precedence.value.toNat
        else .null),
      (text "privileged_class", .bool decision.privilegedClass),
      (text "reason_code", .string decision.reasonCode),
      (text "reason", .string decision.reason),
      (text "resolution", .string decision.resolution),
      (text "epoch", .number decision.epoch.value.toNat),
      (text "state_generation", .number decision.stateGeneration.value.toNat),
      (text "policy_generation", .number decision.policyGeneration.value.toNat),
      (text "scope_generation", .number decision.scopeGeneration.value.toNat),
      (text "decision_digest", .string (digestHex decision.digest)),
      (text "chain", .array (decision.chain.map stepJson)),
      (text "superseded", .array (decision.superseded.map evidenceJson)),
      (text "rejected_evidence", .array (decision.rejectedEvidence.map evidenceJson)),
      (text "conflicts", .array (decision.conflicts.map .string))]

/-! ## Strings and numbers -/

theorem hexValue_hexDigit {n : Nat} (h : n < 16) : hexValue (BootId.hexDigit n) = some n := by
  interval_cases n <;> rfl

theorem readChar_escapeByte (b : UInt8) (rest : Bytes) :
    readChar (escapeByte b ++ rest) = some ([b], rest) := by
  unfold escapeByte
  split
  · rename_i h
    subst h
    rfl
  · split
    · rename_i h
      subst h
      rfl
    · split
      · rename_i h
        subst h
        rfl
      · split
        · rename_i h
          subst h
          rfl
        · split
          · rename_i h
            subst h
            rfl
          · rename_i hquote hslash _ _ _
            split
            · rename_i hcontrol
              have hsmall : b.toNat < 32 := UInt8.lt_iff_toNat_lt.mp hcontrol
              have hhigh := hexValue_hexDigit (show b.toNat / 16 < 16 by omega)
              have hlow := hexValue_hexDigit (show b.toNat % 16 < 16 by omega)
              have htext : text "\\u00" = [92, 117, 48, 48] := by decide
              have hzero : hexValue 48 = some 0 := rfl
              have hvalue : ((0 * 16 + 0) * 16 + b.toNat / 16) * 16 + b.toNat % 16 = b.toNat := by
                omega
              have hunit : readUnit (48 :: 48 :: BootId.hexDigit (b.toNat / 16) ::
                  BootId.hexDigit (b.toNat % 16) :: rest) = some (b.toNat, rest) := by
                simp only [readUnit, hzero, hhigh, hlow, Option.bind_eq_bind, Option.bind_some,
                  hvalue]
                rfl
              have hutf8 : utf8 b.toNat = [b] := by
                rw [utf8, if_pos (by omega), UInt8.ofNat_toNat]
              rw [htext]
              simp only [List.cons_append, List.nil_append, readChar, if_true, readEscape]
              simp [hunit, hutf8, show ¬ (55296 ≤ b.toNat ∧ b.toNat < 56320) by omega]
            · rename_i hcontrol
              simp [readChar, hquote, hslash, hcontrol]

theorem appendJsonString_eq (out s : Bytes) :
    appendJsonString out s = out ++ (34 :: s.flatMap escapeByte ++ [34]) := by
  have hfold (out : Bytes) : s.foldl (fun out b => out ++ escapeByte b) out =
      out ++ s.flatMap escapeByte := by
    induction s generalizing out with
    | nil => simp
    | cons b s ih => simp [ih]
  simp [appendJsonString, hfold]

theorem natOf_map {digits : List Nat} (h : ∀ d ∈ digits, d < 10) (n : Nat) :
    (digits.map fun digit => UInt8.ofNat (48 + digit)).foldl
        (fun n b => 10 * n + (b.toNat - 48)) n =
      digits.foldl (fun n d => 10 * n + d) n := by
  induction digits generalizing n with
  | nil => rfl
  | cons d digits ih =>
      have hd := h d (by simp)
      have hvalue : (UInt8.ofNat (48 + d)).toNat - 48 = d := by
        rw [UInt8.toNat_ofNat']
        omega
      simp only [List.map_cons, List.foldl_cons, hvalue]
      exact ih (fun e he => h e (by simp [he])) _

theorem natOf_decimal (n : Nat) : natOf (decimal n) = n := by
  unfold decimal
  split
  · rename_i hzero
    rw [hzero]
    rfl
  · have hdigits : ∀ d ∈ (Nat.digits 10 n).reverse, d < 10 := by
      intro d hd
      exact Nat.digits_lt_base (by norm_num) (List.mem_reverse.mp hd)
    have hvalue := Nat.ofDigits_digits 10 n
    rw [Nat.ofDigits_eq_foldr] at hvalue
    simp only [Nat.cast_id] at hvalue
    rw [natOf, natOf_map hdigits, List.foldl_reverse]
    conv_rhs => rw [← hvalue]
    congr 1
    funext d k
    omega

theorem digits_decimal (n : Nat) : Digits (decimal n) := by
  unfold decimal
  split
  · refine ⟨?_, by simp, .inl rfl⟩
    intro b hb
    obtain rfl := List.mem_singleton.mp hb
    rfl
  · rename_i hn
    have hne : Nat.digits 10 n ≠ [] := Nat.digits_ne_nil_iff_ne_zero.mpr hn
    refine ⟨?_, by simpa using hne, .inr ?_⟩
    · intro b hb
      obtain ⟨d, hd, rfl⟩ := List.mem_map.mp hb
      have hlt : d < 10 := Nat.digits_lt_base (by norm_num) (List.mem_reverse.mp hd)
      interval_cases d <;> rfl
    · have hlast := Nat.getLast_digit_ne_zero 10 hn
      have hlt : (Nat.digits 10 n).getLast hne < 10 :=
        Nat.digits_lt_base (by norm_num) (List.getLast_mem hne)
      rw [List.head?_map, List.head?_reverse, List.getLast?_eq_getLast_of_ne_nil hne]
      intro hzero
      have hbyte : UInt8.ofNat (48 + (Nat.digits 10 n).getLast hne) = 48 := by simpa using hzero
      have hvalue := congrArg UInt8.toNat hbyte
      rw [UInt8.toNat_ofNat'] at hvalue
      have h48 : (48 : UInt8).toNat = 48 := rfl
      omega

theorem spells_decimal (n : Nat) : Spells 1 (decimal n) (.number n) := by
  have hspells := spells_number (digits_decimal n)
  rwa [natOf_decimal] at hspells

theorem spells_boolName (b : Bool) : Spells 1 (boolName b) (.bool b) := by
  cases b with
  | false => exact spells_false
  | true => exact spells_true

/-! ## Objects and lists -/

/-- Behind `start` the writer has put these members, whose values are of at most `n`
levels. -/
structure Writing (start : Bytes) (n : Nat) (w : ObjectWriter) (members : List (Bytes × Json)) :
    Prop where
  spelled : ∃ found : List Member, found.map (fun member => (member.key, member.value)) = members ∧
    (∀ member ∈ found, Plain member.key ∧ Spells n member.text member.value) ∧
    w.out = start ++ commaSeparated (found.map Member.spelled)
  first : w.first = members.isEmpty

section Writing

variable {start key : Bytes} {n : Nat} {w : ObjectWriter} {members : List (Bytes × Json)}

theorem writing_start (start : Bytes) (n : Nat) : Writing start n { out := start } [] :=
  ⟨⟨[], rfl, by simp, by simp [commaSeparated]⟩, rfl⟩

theorem Writing.member (h : Writing start n w members) (hkey : Plain key) {s : Bytes} {v : Json}
    (hspells : Spells n s v) :
    Writing start n { out := (w.appendKey key).out ++ s, first := false }
      (members ++ [(key, v)]) := by
  obtain ⟨⟨found, rfl, hfound, hout⟩, hfirst⟩ := h
  refine ⟨⟨found ++ [⟨key, s, v⟩], by simp, ?_, ?_⟩, by simp⟩
  · intro member hmember
    rcases List.mem_append.mp hmember with hold | hlast
    · exact hfound member hold
    · obtain rfl := List.mem_singleton.mp hlast
      exact ⟨hkey, hspells⟩
  · cases found with
    | nil => simp [ObjectWriter.appendKey, hfirst, hout, commaSeparated, Member.spelled]
    | cons head found =>
        rw [List.map_append, List.map_singleton, commaSeparated_append (by simp)]
        simp [ObjectWriter.appendKey, hfirst, hout, Member.spelled]

theorem Writing.string (h : Writing start n w members) (key s : Bytes)
    (hkey : Plain key := by decide) (hn : 1 ≤ n := by decide) :
    Writing start n ((w.appendKey key).appendString s) (members ++ [(key, .string s)]) := by
  have hspells := (spells_string readChar_escapeByte s).mono hn
  have hmember := h.member hkey hspells
  rwa [← appendJsonString_eq] at hmember

theorem Writing.value (h : Writing start n w members) (key : Bytes) {s : Bytes} {v : Json}
    (hspells : Spells 1 s v) (hkey : Plain key := by decide) (hn : 1 ≤ n := by decide) :
    Writing start n ((w.appendKey key).append s) (members ++ [(key, v)]) :=
  h.member hkey (hspells.mono hn)

theorem Writing.optional {α : Type} (h : Writing start n w members)
    {write : ObjectWriter → α → ObjectWriter} {found : α → List (Bytes × Json)}
    (hwrite : ∀ {w members}, Writing start n w members →
      ∀ a, Writing start n (write w a) (members ++ found a)) (field : Option α) :
    Writing start n (w.appendOptional field write) (members ++ optionalMembers field found) := by
  cases field with
  | none => simpa [ObjectWriter.appendOptional, optionalMembers] using h
  | some a => exact hwrite h a

theorem Writing.assoc {xs ys : List (Bytes × Json)} (h : Writing start n w (members ++ xs ++ ys)) :
    Writing start n w (members ++ (xs ++ ys)) := by
  rwa [List.append_assoc] at h

theorem Writing.object (h : Writing start n w members) :
    ∃ s, w.out = start ++ s ∧ members.length ≤ s.length ∧
      Spells (n + 1) (123 :: s ++ [125]) (.object members) := by
  obtain ⟨⟨found, rfl, hfound, hout⟩, -⟩ := h
  refine ⟨_, hout, ?_, spells_object hfound⟩
  have hnonempty : ∀ s ∈ found.map Member.spelled, s ≠ [] := by
    intro s hs
    obtain ⟨member, -, rfl⟩ := List.mem_map.mp hs
    simp [Member.spelled]
  have hlength := length_le_commaSeparated hnonempty
  rwa [List.length_map] at hlength ⊢

theorem Writing.spells (h : Writing [] n w members) {expected : List (Bytes × Json)}
    (hmembers : members = expected) :
    Spells (n + 1) (123 :: w.out ++ [125]) (.object expected) := by
  obtain ⟨s, hout, -, hspells⟩ := h.object
  rwa [hout, ← hmembers]

end Writing

theorem appendList_eq {α : Type} {append : Bytes → α → Bytes} {spell : α → Bytes}
    (happend : ∀ out a, append out a = out ++ spell a) (out : Bytes) (items : List α) :
    appendList append out items =
      out ++ (91 :: commaSeparated (items.map spell) ++ [93]) := by
  have hlater (k : Nat) (hk : k ≠ 0) (items : List α) (out : Bytes) :
      (items.zipIdx k).foldl (fun out item =>
        append (if item.2 ≠ 0 then out ++ [44] else out) item.1) out =
        out ++ items.flatMap fun a => 44 :: spell a := by
    induction items generalizing k out with
    | nil => simp
    | cons a items ih =>
        rw [List.zipIdx_cons, List.foldl_cons, ih (k + 1) (by omega)]
        simp [happend, hk]
  have hseparated (a : α) (items : List α) : commaSeparated ((a :: items).map spell) =
      spell a ++ items.flatMap fun a => 44 :: spell a := by
    induction items generalizing a with
    | nil => simp [commaSeparated]
    | cons b items ih =>
        rw [List.map_cons, commaSeparated_cons (by simp), ih b]
        simp
  cases items with
  | nil => simp [appendList, commaSeparated]
  | cons a items =>
      rw [hseparated]
      simp only [appendList, List.zipIdx_cons, List.foldl_cons]
      rw [hlater _ (by decide)]
      simp [happend]

theorem spells_list {α : Type} {n : Nat} {spell : α → Bytes} {json : α → Json}
    (h : ∀ a, Spells n (spell a) (json a)) (items : List α) :
    Spells (n + 1) (91 :: commaSeparated (items.map spell) ++ [93])
      (.array (items.map json)) := by
  have hpairs : ∀ pair ∈ items.map fun a => (spell a, json a), Spells n pair.1 pair.2 := by
    intro pair hpair
    obtain ⟨a, -, rfl⟩ := List.mem_map.mp hpair
    exact h a
  have hspells := spells_array hpairs
  rwa [List.map_map, List.map_map] at hspells

theorem Writing.list {α : Type} {start : Bytes} {n : Nat} {w : ObjectWriter}
    {members : List (Bytes × Json)} (h : Writing start (n + 1) w members) (key : Bytes)
    {append : Bytes → α → Bytes} {spell : α → Bytes} {json : α → Json}
    (happend : ∀ out a, append out a = out ++ spell a) (hspells : ∀ a, Spells n (spell a) (json a))
    (items : List α) (hkey : Plain key := by decide) :
    Writing start (n + 1)
      ((w.appendKey key).appendBy fun out => appendList append out items)
      (members ++ [(key, .array (items.map json))]) := by
  have hmember := h.member hkey (spells_list hspells items)
  rwa [← appendList_eq happend] at hmember

/-! ## The parts of a decision -/

theorem appendProvenanceJson_eq (out : Bytes) (provenance : Provenance) :
    appendProvenanceJson out provenance = out ++ appendProvenanceJson [] provenance := by
  simp only [appendProvenanceJson, List.append_assoc, List.nil_append]

theorem spells_provenance (provenance : Provenance) :
    Spells 2 (appendProvenanceJson [] provenance) (provenanceJson provenance) := by
  have hstart := writing_start [] 1
  have hpublisher := hstart.string (text "publisher") provenance.publisher.value
  have hboot := hpublisher.string (text "boot") provenance.boot.hex
  have hepoch := hboot.value (text "epoch") (spells_decimal provenance.epoch.value.toNat)
  have hfencingToken := hepoch.value (text "fencing_token")
    (spells_decimal provenance.token.value.toNat)
  have hstateGeneration := hfencingToken.value (text "state_generation")
    (spells_decimal provenance.stateGeneration.value.toNat)
  have hauditSequence := hstateGeneration.value (text "audit_sequence")
    (spells_decimal provenance.auditSequence.toNat)
  have hrecordedAtMs := hauditSequence.value (text "recorded_at_ms")
    (spells_decimal provenance.recordedAtMs.toNat)
  have hop := hrecordedAtMs.string (text "op") provenance.op
  exact hop.spells rfl

theorem Writing.provenance {start : Bytes} {n : Nat} {w : ObjectWriter}
    {members : List (Bytes × Json)} (h : Writing start n w members) (provenance : Provenance)
    (hn : 2 ≤ n) :
    Writing start n
      ((w.appendKey (text "provenance")).appendBy fun out => appendProvenanceJson out provenance)
      (members ++ [(text "provenance", provenanceJson provenance)]) := by
  have hspells := (spells_provenance provenance).mono hn
  have hmember := h.member (show Plain (text "provenance") by decide) hspells
  rwa [← appendProvenanceJson_eq] at hmember

theorem appendEvidenceJson_eq (out : Bytes) (note : EvidenceNote) :
    appendEvidenceJson out note = out ++ appendEvidenceJson [] note := by
  simp only [appendEvidenceJson, List.append_assoc, List.nil_append]

theorem spells_evidence (note : EvidenceNote) :
    Spells 3 (appendEvidenceJson [] note) (evidenceJson note) := by
  have hstart := writing_start [] 2
  have hassignment := hstart.string (text "assignment") note.assignment.value
  have hassignmentGeneration := hassignment.value (text "assignment_generation")
    (spells_decimal note.assignmentGeneration.value.toNat)
  have hclass := hassignmentGeneration.string (text "class") note.cls.value
  have hclassGeneration := hclass.value (text "class_generation")
    (spells_decimal note.classGeneration.value.toNat)
  have hscope := hclassGeneration.string (text "scope") note.scope.value
  have hviaSubject := hscope.optional
    (fun h subject => h.string (text "via_subject") subject.value) note.viaSubject
  have hreasonCode := hviaSubject.string (text "reason_code") note.reasonCode
  have hreason := hreasonCode.string (text "reason") note.reason
  have hprovenance := hreason.provenance note.provenance le_rfl
  refine hprovenance.spells ?_
  simp only [List.flatten_cons, List.flatten_nil, List.nil_append, List.append_nil,
    List.append_assoc, List.cons_append]

theorem appendStepJson_eq (out : Bytes) (step : ExplanationStep) :
    appendStepJson out step = out ++ appendStepJson [] step := by
  simp only [appendStepJson, List.append_assoc, List.nil_append]

theorem spells_step (step : ExplanationStep) :
    Spells 3 (appendStepJson [] step) (stepJson step) := by
  have hstart := writing_start [] 2
  have hstage := hstart.string (text "stage") step.stage
  have hcode := hstage.string (text "code") step.code
  have hdetail := hcode.string (text "detail") step.detail
  have hassignment := hdetail.optional (fun h assignment =>
    ((h.string (text "assignment") assignment.value).value (text "assignment_generation")
      (spells_decimal step.assignmentGeneration.value.toNat)).assoc) step.assignment
  have hclass := hassignment.optional (fun h cls =>
    ((h.string (text "class") cls.value).value (text "class_generation")
      (spells_decimal step.classGeneration.value.toNat)).assoc) step.cls
  have hscope := hclass.optional
    (fun h scope => h.string (text "scope") scope.value) step.scope
  have hpolicy := hscope.optional
    (fun h policy => h.string (text "policy") policy.value) step.policy
  have hprovenance := hpolicy.provenance step.provenance le_rfl
  refine hprovenance.spells ?_
  simp only [List.flatten_cons, List.flatten_nil, List.nil_append, List.append_nil,
    List.append_assoc, List.cons_append]

/-! ## Decisions -/

theorem spells_precedence (precedence : PrecedenceRank) :
    Spells 1 (if precedence.isDeclared then decimal precedence.value.toNat else text "null")
      (if precedence.isDeclared then .number precedence.value.toNat else .null) := by
  split
  · exact spells_decimal _
  · exact spells_null

theorem spells_toJson (decision : PriorityDecision) :
    Spells 5 (toJson decision) (decisionJson decision) ∧ 5 ≤ (toJson decision).length := by
  have hstart := writing_start [123] 4
  have houtcome := hstart.string (text "outcome") (outcomeName decision.outcome)
  have hauthoritative := houtcome.value (text "authoritative")
    (spells_boolName decision.authoritative)
  have hclass := hauthoritative.string (text "class") decision.cls.value
  have hclassGeneration := hclass.value (text "class_generation")
    (spells_decimal decision.classGeneration.value.toNat)
  have hprecedence := hclassGeneration.value (text "precedence")
    (spells_precedence decision.precedence)
  have hprivilegedClass := hprecedence.value (text "privileged_class")
    (spells_boolName decision.privilegedClass)
  have hreasonCode := hprivilegedClass.string (text "reason_code") decision.reasonCode
  have hreason := hreasonCode.string (text "reason") decision.reason
  have hresolution := hreason.string (text "resolution") decision.resolution
  have hepoch := hresolution.value (text "epoch") (spells_decimal decision.epoch.value.toNat)
  have hstateGeneration := hepoch.value (text "state_generation")
    (spells_decimal decision.stateGeneration.value.toNat)
  have hpolicyGeneration := hstateGeneration.value (text "policy_generation")
    (spells_decimal decision.policyGeneration.value.toNat)
  have hscopeGeneration := hpolicyGeneration.value (text "scope_generation")
    (spells_decimal decision.scopeGeneration.value.toNat)
  have hdecisionDigest := hscopeGeneration.string (text "decision_digest")
    (digestHex decision.digest)
  have hchain := hdecisionDigest.list (text "chain") appendStepJson_eq spells_step decision.chain
  have hsuperseded := hchain.list (text "superseded") appendEvidenceJson_eq spells_evidence
    decision.superseded
  have hrejected := hsuperseded.list (text "rejected_evidence") appendEvidenceJson_eq
    spells_evidence decision.rejectedEvidence
  have hconflicts := hrejected.list (text "conflicts") appendJsonString_eq
    (fun s => (spells_string readChar_escapeByte s).mono (by decide)) decision.conflicts
  obtain ⟨s, hout, hlength, hspells⟩ := hconflicts.object
  simp only [List.nil_append, List.cons_append, List.length_cons] at hlength hspells
  have htext : toJson decision = 123 :: s ++ [125] := congrArg (· ++ [125]) hout
  rw [htext]
  refine ⟨hspells, ?_⟩
  simp only [List.length_append, List.length_cons]
  omega

/-! ## Keys -/

/-- Some of an object's members: their keys are among these, in this order. -/
structure Part (members : List (Bytes × Json)) (keys : List Bytes) : Prop where
  keys : (members.map (·.1)).Sublist keys
  values : ∀ member ∈ members, KeysOnce member.2

theorem part_of_forall {members : List (Bytes × Json)} {keys : List Bytes}
    (hkeys : members.map (·.1) = keys) (hvalues : members.Forall fun member => KeysOnce member.2) :
    Part members keys :=
  ⟨hkeys ▸ List.Sublist.refl _, List.forall_iff_forall_mem.mp hvalues⟩

theorem part_optionalMembers {α : Type} {members : α → List (Bytes × Json)} {keys : List Bytes}
    (h : ∀ a, Part (members a) keys) (field : Option α) :
    Part (optionalMembers field members) keys := by
  cases field with
  | none => exact ⟨List.nil_sublist keys, by simp [optionalMembers]⟩
  | some a => exact h a

theorem part_flatten {parts : List (List (Bytes × Json))} {keys : List (List Bytes)}
    (h : List.Forall₂ Part parts keys) : Part parts.flatten keys.flatten := by
  induction h with
  | nil => exact ⟨List.Sublist.refl [], by simp⟩
  | cons hpart hparts ih =>
      refine ⟨?_, ?_⟩
      · rw [List.flatten_cons, List.flatten_cons, List.map_append]
        exact hpart.keys.append ih.keys
      · intro member hmember
        rw [List.flatten_cons, List.mem_append] at hmember
        exact hmember.elim (hpart.values member) (ih.values member)

theorem Part.keysOnce {members : List (Bytes × Json)} {keys : List Bytes} (h : Part members keys)
    (hkeys : keys.Nodup) : KeysOnce (.object members) :=
  .object (hkeys.sublist h.keys) h.values

def provenanceKeys : List Bytes :=
  ["publisher", "boot", "epoch", "fencing_token", "state_generation", "audit_sequence",
    "recorded_at_ms", "op"].map text

def evidenceKeys : List (List Bytes) :=
  [["assignment", "assignment_generation", "class", "class_generation", "scope"].map text,
    ["via_subject"].map text,
    ["reason_code", "reason", "provenance"].map text]

def stepKeys : List (List Bytes) :=
  [["stage", "code", "detail"].map text,
    ["assignment", "assignment_generation"].map text,
    ["class", "class_generation"].map text,
    ["scope"].map text,
    ["policy"].map text,
    ["provenance"].map text]

def decisionKeys : List Bytes :=
  ["outcome", "authoritative", "class", "class_generation", "precedence", "privileged_class",
    "reason_code", "reason", "resolution", "epoch", "state_generation", "policy_generation",
    "scope_generation", "decision_digest", "chain", "superseded", "rejected_evidence",
    "conflicts"].map text

theorem keysOnce_provenance (provenance : Provenance) : KeysOnce (provenanceJson provenance) := by
  have hkeys : provenanceKeys.Nodup := by decide
  refine (part_of_forall rfl ?_).keysOnce hkeys
  exact ⟨.string _, .string _, .number _, .number _, .number _, .number _, .number _, .string _⟩

theorem keysOnce_evidence (note : EvidenceNote) : KeysOnce (evidenceJson note) := by
  have hkeys : evidenceKeys.flatten.Nodup := by decide
  refine (part_flatten ?_).keysOnce hkeys
  refine .cons (part_of_forall rfl ?_) (.cons (part_optionalMembers ?_ _)
    (.cons (part_of_forall rfl ?_) .nil))
  · exact ⟨.string _, .number _, .string _, .number _, .string _⟩
  · exact fun _ => part_of_forall rfl (.string _)
  · exact ⟨.string _, .string _, keysOnce_provenance note.provenance⟩

theorem keysOnce_step (step : ExplanationStep) : KeysOnce (stepJson step) := by
  have hkeys : stepKeys.flatten.Nodup := by decide
  refine (part_flatten ?_).keysOnce hkeys
  refine .cons (part_of_forall rfl ?_) (.cons (part_optionalMembers ?_ _)
    (.cons (part_optionalMembers ?_ _) (.cons (part_optionalMembers ?_ _)
      (.cons (part_optionalMembers ?_ _) (.cons (part_of_forall rfl ?_) .nil)))))
  · exact ⟨.string _, .string _, .string _⟩
  · exact fun _ => part_of_forall rfl ⟨.string _, .number _⟩
  · exact fun _ => part_of_forall rfl ⟨.string _, .number _⟩
  · exact fun _ => part_of_forall rfl (.string _)
  · exact fun _ => part_of_forall rfl (.string _)
  · exact keysOnce_provenance step.provenance

theorem keysOnce_list {α : Type} {json : α → Json} (h : ∀ a, KeysOnce (json a)) (items : List α) :
    KeysOnce (.array (items.map json)) := by
  refine .array fun item hitem => ?_
  obtain ⟨a, -, rfl⟩ := List.mem_map.mp hitem
  exact h a

theorem keysOnce_precedence (precedence : PrecedenceRank) :
    KeysOnce (if precedence.isDeclared then .number precedence.value.toNat else .null) := by
  split
  · exact .number _
  · exact .null

theorem keysOnce_decision (decision : PriorityDecision) : KeysOnce (decisionJson decision) := by
  have hkeys : decisionKeys.Nodup := by decide
  refine (part_of_forall rfl ?_).keysOnce hkeys
  exact ⟨.string _, .bool _, .string _, .number _, keysOnce_precedence decision.precedence,
    .bool _, .string _, .string _, .string _, .number _, .number _, .number _, .number _,
    .string _, keysOnce_list keysOnce_step decision.chain,
    keysOnce_list keysOnce_evidence decision.superseded,
    keysOnce_list keysOnce_evidence decision.rejectedEvidence,
    keysOnce_list .string decision.conflicts⟩

/-- Whatever bytes a decision holds, its text parses to the document of the decision, in
which no key stands twice. -/
theorem toJson_faithful (decision : PriorityDecision) :
    parse (toJson decision) = some (decisionJson decision) ∧ KeysOnce (decisionJson decision) := by
  obtain ⟨hspells, hlength⟩ := spells_toJson decision
  exact ⟨parse_of_spells hspells hlength, keysOnce_decision decision⟩

end PriorityFabric.Rendering
