import PriorityFabric.Lib.ByteReader

/-!
Limits, human-readable text and failure statuses.

Strings are byte strings, as in the source: texts may hold any bytes, and their
bounds are bounds on bytes.
-/

namespace PriorityFabric.Basics

open PriorityFabric.Lib.LittleEndian

/-- The bytes of a source-code text literal. -/
def text (s : String) : Bytes := s.toUTF8.data.toList

/-- Decimal rendering of a number, as `std::to_string` prints it. -/
def decimal (n : Nat) : Bytes :=
  if n = 0 then [48]
  else (Nat.digits 10 n).reverse.map fun digit => UInt8.ofNat (48 + digit)

/-- Every externally influenced size, count and depth is bounded here. -/
structure Limits where
  maxIdLength : Nat := 128
  maxDescriptionLength : Nat := 1024
  maxNoteLength : Nat := 512
  maxClasses : Nat := 65536
  maxScopes : Nat := 16384
  maxPolicies : Nat := 16384
  maxSubjects : Nat := 262144
  maxAssignments : Nat := 1048576
  maxAuditEntries : Nat := 65536
  maxPublishers : Nat := 4096
  maxBootsPerPublisher : Nat := 64
  maxScopeDepth : Nat := 32
  maxInheritanceDepth : Nat := 32
  maxInheritsFrom : Nat := 16
  maxPolicyClasses : Nat := 4096
  maxExplanationSteps : Nat := 64
  maxQuerySteps : Nat := 256
  maxRecordPayload : Nat := 1048576
  maxFramePayload : Nat := 4194304
  maxStateBytes : Nat := 268435456
  maxJournalSegments : Nat := 1024
  maxConnections : Nat := 64
  maxRequestsPerConnection : Nat := 1048576
  maxAuditReturn : Nat := 4096
  maxConnectAttempts : Nat := 400
  maxReopenAttempts : Nat := 8
  deriving DecidableEq, Repr

def compiledLimitsCeiling : Limits := {}

/-- No limit is above its compiled ceiling, and the limits that must admit
something are positive.  The note, audit, publisher, boot, parent, segment and
growth bounds may be zero. -/
def limitsWithinCompiledCeiling (l : Limits) : Bool :=
  let ceiling := compiledLimitsCeiling
  decide (l.maxIdLength ≤ ceiling.maxIdLength) &&
  decide (l.maxDescriptionLength ≤ ceiling.maxDescriptionLength) &&
  decide (l.maxNoteLength ≤ ceiling.maxNoteLength) &&
  decide (l.maxClasses ≤ ceiling.maxClasses) &&
  decide (l.maxScopes ≤ ceiling.maxScopes) &&
  decide (l.maxPolicies ≤ ceiling.maxPolicies) &&
  decide (l.maxSubjects ≤ ceiling.maxSubjects) &&
  decide (l.maxAssignments ≤ ceiling.maxAssignments) &&
  decide (l.maxAuditEntries ≤ ceiling.maxAuditEntries) &&
  decide (l.maxPublishers ≤ ceiling.maxPublishers) &&
  decide (l.maxBootsPerPublisher ≤ ceiling.maxBootsPerPublisher) &&
  decide (l.maxScopeDepth ≤ ceiling.maxScopeDepth) &&
  decide (l.maxInheritanceDepth ≤ ceiling.maxInheritanceDepth) &&
  decide (l.maxInheritsFrom ≤ ceiling.maxInheritsFrom) &&
  decide (l.maxPolicyClasses ≤ ceiling.maxPolicyClasses) &&
  decide (l.maxExplanationSteps ≤ ceiling.maxExplanationSteps) &&
  decide (l.maxQuerySteps ≤ ceiling.maxQuerySteps) &&
  decide (l.maxRecordPayload ≤ ceiling.maxRecordPayload) &&
  decide (l.maxFramePayload ≤ ceiling.maxFramePayload) &&
  decide (l.maxStateBytes ≤ ceiling.maxStateBytes) &&
  decide (l.maxJournalSegments ≤ ceiling.maxJournalSegments) &&
  decide (l.maxConnections ≤ ceiling.maxConnections) &&
  decide (l.maxRequestsPerConnection ≤ ceiling.maxRequestsPerConnection) &&
  decide (l.maxAuditReturn ≤ ceiling.maxAuditReturn) &&
  decide (l.maxConnectAttempts ≤ ceiling.maxConnectAttempts) &&
  decide (l.maxReopenAttempts ≤ ceiling.maxReopenAttempts) &&
  decide (l.maxIdLength > 0) && decide (l.maxClasses > 0) &&
  decide (l.maxScopes > 0) && decide (l.maxPolicies > 0) &&
  decide (l.maxSubjects > 0) && decide (l.maxAssignments > 0) &&
  decide (l.maxScopeDepth > 0) && decide (l.maxInheritanceDepth > 0) &&
  decide (l.maxExplanationSteps > 0) && decide (l.maxQuerySteps > 0) &&
  decide (l.maxRecordPayload > 0) && decide (l.maxFramePayload > 0) &&
  decide (l.maxConnections > 0)

theorem limits_bounds_of_within {l : Limits}
    (h : limitsWithinCompiledCeiling l = true) :
    l.maxIdLength ≤ 128 ∧ l.maxDescriptionLength ≤ 1024 ∧
      l.maxNoteLength ≤ 512 ∧ l.maxRecordPayload ≤ 1048576 ∧
      l.maxStateBytes ≤ 268435456 ∧ l.maxJournalSegments ≤ 1024 := by
  simp only [limitsWithinCompiledCeiling, Bool.and_eq_true,
    decide_eq_true_eq] at h
  change _ ∧ _ at h
  simp only [compiledLimitsCeiling] at h
  omega

/-- Length of a UTF-8 sequence starting with `lead`, or 0 when the lead byte is
invalid. -/
def utf8SequenceLength (lead : UInt8) : Nat :=
  if lead < 0x80 then 1
  else if 0xC2 ≤ lead ∧ lead ≤ 0xDF then 2
  else if 0xE0 ≤ lead ∧ lead ≤ 0xEF then 3
  else if 0xF0 ≤ lead ∧ lead ≤ 0xF4 then 4
  else 0

def isContinuation (byte : UInt8) : Bool := byte &&& 0xC0 == 0x80

/-- The text has no control byte and every lead byte is followed by as many
continuation bytes as it announces. -/
def isPrintableText : Bytes → Bool
  | [] => true
  | lead :: rest =>
      if lead < 0x80 then
        if lead < 0x20 ∨ lead = 0x7F then false else isPrintableText rest
      else
        match utf8SequenceLength lead, rest with
        | 2, a :: rest => isContinuation a && isPrintableText rest
        | 3, a :: b :: rest =>
            isContinuation a && isContinuation b && isPrintableText rest
        | 4, a :: b :: c :: rest =>
            isContinuation a && isContinuation b && isContinuation c &&
              isPrintableText rest
        | _, _ => false

/-- Step a cut position back while it points at a continuation byte. -/
def backToLead (input : Bytes) : Nat → Nat
  | 0 => 0
  | cut + 1 =>
      if isContinuation (input.getD (cut + 1) 0) then backToLead input cut
      else cut + 1

/-- Bound a text to `limit` bytes, marking the cut with an ellipsis. -/
def boundText (input : Bytes) (limit : Nat) : Bytes :=
  let ellipsis := text "..."
  if input.length ≤ limit then input
  else if limit ≤ ellipsis.length then ellipsis.take limit
  else input.take (backToLead input (limit - ellipsis.length)) ++ ellipsis

theorem backToLead_le (input : Bytes) (cut : Nat) : backToLead input cut ≤ cut := by
  induction cut with
  | zero => simp [backToLead]
  | succ cut ih =>
      simp only [backToLead]
      split
      · omega
      · exact le_refl _

theorem length_ellipsis : (text "...").length = 3 := by decide

theorem length_boundText_le (input : Bytes) (limit : Nat) :
    (boundText input limit).length ≤ limit := by
  have hcut := backToLead_le input (limit - 3)
  simp only [boundText, length_ellipsis]
  split
  · assumption
  · split
    · exact List.length_take_le _ _
    · simp only [List.length_append, List.length_take, length_ellipsis]
      omega

/-- Machine-readable failure classification. -/
inductive StatusCode where
  | ok | invalidArgument | malformedId | notFound | alreadyExists
  | duplicatePrecedence | cycleDetected | generationMismatch | staleGeneration
  | staleEpoch | fenced | unauthorized | conflict | limitExceeded | overflow
  | corrupt | truncated | integrityFailure | ioError | unsupported | notReady
  | degraded | cancelled | internal | transportError | protocolError
  | boundaryViolation
  deriving DecidableEq, Repr

def StatusCode.toNat (code : StatusCode) : Nat := code.ctorIdx

/-- The code with a given number, if there is one. -/
def StatusCode.ofNat? (n : Nat) : Option StatusCode :=
  [ok, invalidArgument, malformedId, notFound, alreadyExists,
    duplicatePrecedence, cycleDetected, generationMismatch, staleGeneration,
    staleEpoch, fenced, unauthorized, conflict, limitExceeded, overflow,
    corrupt, truncated, integrityFailure, ioError, unsupported, notReady,
    degraded, cancelled, internal, transportError, protocolError,
    boundaryViolation][n]?

@[simp] theorem StatusCode.ofNat?_toNat (code : StatusCode) :
    StatusCode.ofNat? code.toNat = some code := by
  cases code <;> rfl

theorem StatusCode.toNat_lt (code : StatusCode) : code.toNat < 27 := by
  cases code <;> decide

@[reducible] def StatusCode.isFailure : StatusCode → Bool
  | .ok => false
  | _ => true

def maxStatusMessage : Nat := 1024

/-- A failure: a code that is not `ok` and a bounded message. -/
structure Status where
  code : StatusCode
  failed : code.isFailure = true
  message : Bytes
  bounded : message.length ≤ maxStatusMessage
  deriving DecidableEq, Repr

abbrev Result := Except Status

/-- Build a failure status; the message is bounded before it is stored. -/
def makeError (code : StatusCode) (message : Bytes)
    (failed : code.isFailure = true := by exact @rfl Bool true) : Status :=
  ⟨code, failed, boundText message maxStatusMessage, length_boundText_le message maxStatusMessage⟩

def failIf (bad : Prop) [Decidable bad] (code : StatusCode) (message : Bytes)
    (failed : code.isFailure = true := by exact @rfl Bool true) : Result Unit :=
  if bad then .error (makeError code message failed) else .ok ()

@[simp] theorem failIf_eq_ok {bad : Prop} [Decidable bad] {code : StatusCode}
    {message : Bytes} {failed : code.isFailure = true} {u : Unit} :
    failIf bad code message failed = .ok u ↔ ¬ bad := by
  unfold failIf
  split <;> simp_all

theorem map_failIf_pure {α β : Type} {bad : Prop} [Decidable bad] {code : StatusCode}
    {message : Bytes} {failed : code.isFailure = true} (a : α) (f : α → β) :
    (do failIf bad code message failed; return a : Result α).map f =
      (do failIf bad code message failed; return f a) := by
  unfold failIf
  split <;> rfl

@[simp] theorem bind_eq_ok {α β : Type} {x : Result α} {f : α → Result β} {b : β} :
    (x >>= f) = .ok b ↔ ∃ a, x = .ok a ∧ f a = .ok b := by
  cases x <;> simp [bind, Except.bind]

end PriorityFabric.Basics
