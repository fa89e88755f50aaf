import PriorityFabric.Readable

/-!
The encoding of queries, and the forward round trip of the model's encodings.
-/

namespace PriorityFabric.QueryCodec

open PriorityFabric.Lib.LittleEndian
open PriorityFabric.Lib.ByteReader
open PriorityFabric.Basics
open PriorityFabric.Ident
open PriorityFabric.Model
open PriorityFabric.Codec
open PriorityFabric.Codec.Decoder (IdReadable readsIff_id readsIff_u32 readsIff_u64
  readsIff_boolean run_of_readsIff)
open PriorityFabric.ModelCodec
open PriorityFabric.Readable

def encodeQuery (query : PriorityQuery) : Bytes :=
  encodeId query.subject ++
    (Encoder.u64 query.subjectGeneration.value ++
    (encodeId query.scope ++
    (Encoder.boolean query.asOfEpoch.isSome ++
    (Encoder.u64 (query.asOfEpoch.elim 0 (·.value)) ++
    (Encoder.u64 query.requirePolicyGeneration.value ++
    (Encoder.u64 query.requireScopeGeneration.value ++
    (Encoder.boolean query.strictConflicts ++
    (Encoder.u32 query.maxExplanationSteps ++
    Encoder.u64 query.correlation))))))))

def readQuery (limits : Limits) : Decoder PriorityQuery := do
  let subject ← Decoder.id limits
  let subjectGeneration ← Decoder.u64
  let scope ← Decoder.id limits
  let hasEpoch ← Decoder.boolean
  let epoch ← Decoder.u64
  let policyGeneration ← Decoder.u64
  let scopeGeneration ← Decoder.u64
  let strict ← Decoder.boolean
  let steps ← Decoder.u32
  let correlation ← Decoder.u64
  return { subject, subjectGeneration := ⟨subjectGeneration⟩, scope,
           asOfEpoch := if hasEpoch then some ⟨epoch⟩ else none,
           requirePolicyGeneration := ⟨policyGeneration⟩,
           requireScopeGeneration := ⟨scopeGeneration⟩,
           strictConflicts := strict, maxExplanationSteps := steps, correlation }

def decodeQuery (payload : Bytes) (limits : Limits) : Result PriorityQuery :=
  Decoder.run (readQuery limits) payload

def QueryReadable (limits : Limits) (query : PriorityQuery) : Prop :=
  IdReadable limits query.subject ∧ IdReadable limits query.scope

theorem readsIff_readQuery (limits : Limits) {query : PriorityQuery}
    (hsteps : query.maxExplanationSteps < 2 ^ 32) :
    ReadsIff (readQuery limits) (encodeQuery query) query (QueryReadable limits query) := by
  have hepoch : (if query.asOfEpoch.isSome then
      some (⟨query.asOfEpoch.elim 0 (·.value)⟩ : FabricEpoch) else none) = query.asOfEpoch := by
    cases query.asOfEpoch <;> rfl
  refine ReadsIff.congr (ReadsIff.bind (readsIff_id limits _) fun _ =>
    ReadsIff.bind_true (readsIff_u64 _) <|
    ReadsIff.bind (readsIff_id limits _) fun _ =>
    ReadsIff.bind_true (readsIff_boolean _) <|
    ReadsIff.bind_true (readsIff_u64 _) <|
    ReadsIff.bind_true (readsIff_u64 _) <|
    ReadsIff.bind_true (readsIff_u64 _) <|
    ReadsIff.bind_true (readsIff_boolean _) <|
    ReadsIff.bind_true (readsIff_u32 hsteps) <|
    ReadsIff.bind_last (readsIff_u64 _) fun _ => ReadsIff.pure_of_eq ?_) ?_
  · rw [hepoch]
  · simp [QueryReadable]

/-- A rank that is undeclared with value zero, or declared within the ceiling. -/
def RankProper (rank : PrecedenceRank) : Prop :=
  rank.assigned = false ∧ rank.value = 0 ∨
    rank.assigned = true ∧ rank.value.toNat ≤ PrecedenceRank.maxRank

theorem RankProper.stored {rank : PrecedenceRank} (h : RankProper rank) :
    storedRank rank = rank := by
  obtain ⟨value, assigned⟩ := rank
  rcases h with ⟨hassigned, hvalue⟩ | ⟨hassigned, -⟩
  · simp only at hassigned hvalue
    subst hassigned hvalue
    rfl
  · simp only at hassigned
    subst hassigned
    rfl

theorem list_bounds_of_within {limits : Limits}
    (h : limitsWithinCompiledCeiling limits = true) :
    limits.maxInheritsFrom < 2 ^ 32 ∧ limits.maxPolicyClasses < 2 ^ 32 := by
  simp only [limitsWithinCompiledCeiling, Bool.and_eq_true, decide_eq_true_eq] at h
  change _ ∧ _ at h
  simp only [compiledLimitsCeiling] at h
  omega

section RoundTrip

variable {limits : Limits} (hlimits : limitsWithinCompiledCeiling limits = true)
include hlimits

theorem decodeClassDefinition_encode {d : PriorityClassDef} (hrank : RankProper d.precedence)
    (h : ClassReadable limits d) :
    decodeClassDefinition (encodeClassDefinition d) limits = .ok d := by
  obtain ⟨-, hdescription, -⟩ := limits_bounds_of_within hlimits
  have hcount : d.inheritsFrom.length < 2 ^ 32 :=
    lt_of_le_of_lt h.2.2.1.1 (list_bounds_of_within hlimits).1
  have hstored : storedClass d = d := by
    simp only [storedClass, hrank.stored, storedText_of_le hdescription h.2.2.2]
  have hread := readsIff_readClassDefinition limits hcount
  rw [hstored] at hread
  exact run_of_readsIff hread h

theorem decodeScopeDefinition_encode {d : PolicyScopeDef} (h : ScopeReadable limits d) :
    decodeScopeDefinition (encodeScopeDefinition d) limits = .ok d := by
  obtain ⟨-, hdescription, -⟩ := limits_bounds_of_within hlimits
  have hstored : storedScope d = d := by
    simp only [storedScope, storedText_of_le hdescription h.2.2.2]
  have hread := readsIff_readScopeDefinition limits d
  rw [hstored] at hread
  exact run_of_readsIff hread h

theorem decodePolicyDefinition_encode {d : PolicyDef} (h : PolicyReadable limits d) :
    decodePolicyDefinition (encodePolicyDefinition d) limits = .ok d := by
  obtain ⟨-, hdescription, -⟩ := limits_bounds_of_within hlimits
  have hcount : d.visibleClasses.length < 2 ^ 32 :=
    lt_of_le_of_lt h.2.2.1.1 (list_bounds_of_within hlimits).2
  have hstored : storedPolicy d = d := by
    simp only [storedPolicy, storedText_of_le hdescription h.2.2.2.2]
  have hread := readsIff_readPolicyDefinition limits hcount
  rw [hstored] at hread
  exact run_of_readsIff hread h

theorem decodeSubjectDefinition_encode {d : SubjectDef} (h : SubjectReadable limits d) :
    decodeSubjectDefinition (encodeSubjectDefinition d) limits = .ok d := by
  obtain ⟨-, hdescription, -⟩ := limits_bounds_of_within hlimits
  have hcount : d.inheritsFrom.length < 2 ^ 32 :=
    lt_of_le_of_lt h.2.1.1 (list_bounds_of_within hlimits).1
  have hstored : storedSubject d = d := by
    simp only [storedSubject, storedText_of_le hdescription h.2.2]
  have hread := readsIff_readSubjectDefinition limits hcount
  rw [hstored] at hread
  exact run_of_readsIff hread h

theorem decodeAssignment_encode {a : PriorityAssignment} (h : AssignmentReadable limits a) :
    decodeAssignment (encodeAssignment a) limits = .ok a := by
  obtain ⟨-, -, hnote, -⟩ := limits_bounds_of_within hlimits
  have hstored : storedAssignment a = a := by
    simp only [storedAssignment, storedText_of_le (hnote.trans (by norm_num))
      h.2.2.2.2.2.2]
  have hread := readsIff_readAssignment limits a
  rw [hstored] at hread
  exact run_of_readsIff hread h

end RoundTrip

/-- Under admissible limits every definition, assignment and query whose identifiers are set
and short enough and whose texts, lists and rank are within bounds reads back as it was
written.  The step budget of a query is a 32-bit number. -/
theorem definitions_round_trip {limits : Limits}
    (hlimits : limitsWithinCompiledCeiling limits = true) :
    (∀ d, RankProper d.precedence → ClassReadable limits d →
        decodeClassDefinition (encodeClassDefinition d) limits = .ok d) ∧
      (∀ d, ScopeReadable limits d →
        decodeScopeDefinition (encodeScopeDefinition d) limits = .ok d) ∧
      (∀ d, PolicyReadable limits d →
        decodePolicyDefinition (encodePolicyDefinition d) limits = .ok d) ∧
      (∀ d, SubjectReadable limits d →
        decodeSubjectDefinition (encodeSubjectDefinition d) limits = .ok d) ∧
      (∀ a, AssignmentReadable limits a →
        decodeAssignment (encodeAssignment a) limits = .ok a) ∧
      (∀ query : PriorityQuery, query.maxExplanationSteps < 2 ^ 32 →
        QueryReadable limits query → decodeQuery (encodeQuery query) limits = .ok query) := by
  refine ⟨?_, ?_, ?_, ?_, ?_, ?_⟩
  · intro d hrank hreadable
    exact decodeClassDefinition_encode hlimits hrank hreadable
  · intro d hreadable
    exact decodeScopeDefinition_encode hlimits hreadable
  · intro d hreadable
    exact decodePolicyDefinition_encode hlimits hreadable
  · intro d hreadable
    exact decodeSubjectDefinition_encode hlimits hreadable
  · intro a hreadable
    exact decodeAssignment_encode hlimits hreadable
  · intro query hsteps hreadable
    exact run_of_readsIff (readsIff_readQuery limits hsteps) hreadable

def someClass : PriorityClassDef :=
  { id := ⟨[97], wellFormed_a⟩, precedence := .make 7, inheritsFrom := [⟨[98], wellFormed_b⟩] }

theorem definitions_round_trip_default :
    decodeClassDefinition (encodeClassDefinition someClass) {} = .ok someClass := by
  have hreadable : ClassReadable {} someClass := by
    refine ⟨⟨by decide, by decide⟩, fun _ => by decide, ⟨by decide, ?_⟩, by decide⟩
    intro id hid
    rw [List.mem_singleton.mp hid]
    exact ⟨by decide, by decide⟩
  exact (definitions_round_trip (by decide)).1 someClass (.inr ⟨rfl, by decide⟩) hreadable

end PriorityFabric.QueryCodec
