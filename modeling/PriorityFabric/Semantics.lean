import PriorityFabric.Holdings
import PriorityFabric.Ancestry

/-!
The written semantics of evaluation, over sets of assignments, and that evaluation
follows it wherever the scan reaches all evidence.
-/

namespace PriorityFabric.Semantics

open Relation
open PriorityFabric.Lib.LittleEndian
open PriorityFabric.Lib.GroupIndex
open PriorityFabric.Lib.Walks
open PriorityFabric.Basics
open PriorityFabric.Ident
open PriorityFabric.Model
open PriorityFabric.State
open PriorityFabric.Inheritance
open PriorityFabric.Ancestry
open PriorityFabric.Evaluate
open PriorityFabric.UsableEvidence
open PriorityFabric.Decisions
open PriorityFabric.Holdings

/-- An assignment of `holder` that may speak for a subject `distance` below it. -/
structure Offered (image : StateImage) (chain : List PolicyScopeId) (holder : SubjectId)
    (distance : Nat) (entry : AssignmentEntry) : Prop where
  stored : ∃ id, image.assignments[(id : PriorityAssignmentId)]? = some entry
  subject : entry.assignment.subject = holder
  propagates : 0 < distance → entry.assignment.kind = .inherited
  onChain : entry.assignment.scope ∈ chain

def Usable (image : StateImage) (chain : List PolicyScopeId) (holder : SubjectId)
    (distance : Nat) (entry : AssignmentEntry) : Prop :=
  Offered image chain holder distance entry ∧ Bound image entry

def Refused (image : StateImage) (chain : List PolicyScopeId) (holder : SubjectId)
    (distance : Nat) (entry : AssignmentEntry) : Prop :=
  Offered image chain holder distance entry ∧ ¬ Bound image entry

/-- The evidence was not retired, but the authority behind it is gone. -/
def AuthorityLost (image : StateImage) (entry : AssignmentEntry) : Prop :=
  entry.active = true ∧ (stillGranted image entry = false ∨ entry.provenance.epoch ≠ image.epoch)

/-- Whose evidence counts, and from how far away: the subject's own where any of it is
usable, else that of the first ancestor, by distance and id, that offers any. -/
inductive Tier (image : StateImage) (chain : List PolicyScopeId) (subject : SubjectId) :
    Option (SubjectId × Nat) → Prop
  | own (h : ∃ entry, Usable image chain subject 0 entry) :
      Tier image chain subject (some (subject, 0))
  | inherited {holder : SubjectId} {distance : Nat}
      (hown : ¬ ∃ entry, Usable image chain subject 0 entry) (hne : holder ≠ subject)
      (hdistance : Distance (SubjectEdge image) distance subject holder)
      (hoffered : ∃ entry, Offered image chain holder distance entry)
      (hfirst : ∀ holder' distance', holder' ≠ subject →
        Distance (SubjectEdge image) distance' subject holder' →
        (distance' < distance ∨ distance' = distance ∧ compare holder' holder = .lt) →
        ¬ ∃ entry, Offered image chain holder' distance' entry) :
      Tier image chain subject (some (holder, distance))
  | none (hown : ¬ ∃ entry, Usable image chain subject 0 entry)
      (hnone : ∀ holder distance, holder ≠ subject →
        Distance (SubjectEdge image) distance subject holder →
        ¬ ∃ entry, Offered image chain holder distance entry) :
      Tier image chain subject none

section Tiers

variable (image : StateImage) (chain : List PolicyScopeId) (subject : SubjectId)
  (tier : Option (SubjectId × Nat))

def TierUsable (entry : AssignmentEntry) : Prop :=
  ∃ holder distance, tier = some (holder, distance) ∧ Usable image chain holder distance entry

/-- Refused evidence of the subject itself or of the tier. -/
def TierRefused (entry : AssignmentEntry) : Prop :=
  Refused image chain subject 0 entry ∨
    ∃ holder distance, tier = some (holder, distance) ∧ Refused image chain holder distance entry

/-- Usable evidence that is left after the exceptions: an exception names a class, and
whatever names one displaces it only where broader evidence offers it. -/
structure Applies (entry : AssignmentEntry) : Prop where
  usable : TierUsable image chain tier entry
  named : entry.assignment.displaces = none → entry.assignment.kind ≠ .exception
  offered : ∀ target, entry.assignment.displaces = some target → ∃ other,
    TierUsable image chain tier other ∧
      levelOf chain entry.assignment.scope < levelOf chain other.assignment.scope ∧
      other.assignment.cls = target

def Rejected (entry : AssignmentEntry) : Prop :=
  TierRefused image chain subject tier entry ∨
    (TierUsable image chain tier entry ∧ ¬ Applies image chain tier entry)

/-- The narrowest level of what applies that does not allow overrides, or else the
narrowest one. -/
structure Deciding (level : Nat) : Prop where
  held : ∃ entry, Applies image chain tier entry ∧ levelOf chain entry.assignment.scope = level
  narrowest : (Firm image (scopeAt chain level) ∧ ∀ entry, Applies image chain tier entry →
      Firm image entry.assignment.scope → level ≤ levelOf chain entry.assignment.scope) ∨
    ((∀ entry, Applies image chain tier entry → ¬ Firm image entry.assignment.scope) ∧
      ∀ entry, Applies image chain tier entry → level ≤ levelOf chain entry.assignment.scope)

def Decisive (level : Nat) (entry : AssignmentEntry) : Prop :=
  Applies image chain tier entry ∧ levelOf chain entry.assignment.scope = level

end Tiers

/-- The smallest policy of the scope that declares a default declares this class. -/
def PolicyDefault (image : StateImage) (scope : PolicyScopeId) (cls : PriorityClassId) : Prop :=
  ∃ id entry, image.policies[(id : PolicyId)]? = some entry ∧ entry.definition.scope = scope ∧
    entry.definition.unknownDefault = some cls ∧
    ∀ id' entry', image.policies[(id' : PolicyId)]? = some entry' →
      entry'.definition.scope = scope → entry'.definition.unknownDefault ≠ none →
      compare id' id ≠ .lt

/-- The default of one scope, a policy's before the scope's own. -/
def ScopeDefault (image : StateImage) (scope : PolicyScopeId) (cls : PriorityClassId) : Prop :=
  PolicyDefault image scope cls ∨
    ((¬ ∃ other, PolicyDefault image scope other) ∧
      (image.scopes[scope]?).bind (·.definition.unknownDefault) = some cls)

def NearestDefault (image : StateImage) (chain : List PolicyScopeId) (cls : PriorityClassId) :
    Prop :=
  ∃ before scope after, chain = before ++ scope :: after ∧
    (∀ narrower ∈ before, ¬ ∃ other, ScopeDefault image narrower other) ∧
    ScopeDefault image scope cls

def rankOf (image : StateImage) (entry : AssignmentEntry) : UInt32 :=
  ((image.classes[entry.assignment.cls]?).map (·.definition.precedence.value)).getD 0

section Follows

variable (image : StateImage) (query : PriorityQuery) (chain : List PolicyScopeId)
  (tier : Option (SubjectId × Nat)) (decision : PriorityDecision)

/-- One class at the deciding level. -/
structure Agreed (level : Nat) (cls : PriorityClassId) : Prop where
  authoritative : decision.authoritative = true
  cls : decision.cls = cls
  overridden : (∃ entry, Applies image chain tier entry ∧
    levelOf chain entry.assignment.scope ≠ level) → decision.outcome = .overridden
  alone : (∀ entry, Applies image chain tier entry →
      levelOf chain entry.assignment.scope = level) →
    ∀ holder distance, tier = some (holder, distance) →
      decision.outcome = if 0 < distance then .inherited else .assigned

/-- Several classes at the deciding level. -/
structure Contradicted (level : Nat) : Prop where
  outcome : decision.outcome = .conflict
  denied : query.strictConflicts = true ∨
      (effectiveConflictMode image (scopeAt chain level)).mode = .deny →
    decision.authoritative = false
  higher : query.strictConflicts = false →
    (effectiveConflictMode image (scopeAt chain level)).mode = .higherPrecedence →
    decision.authoritative = true ∧ ∃ entry, Decisive image chain tier level entry ∧
      decision.cls = entry.assignment.cls ∧
      ∀ other, Decisive image chain tier level other → rankOf image other ≤ rankOf image entry
  ordered : query.strictConflicts = false →
    (effectiveConflictMode image (scopeAt chain level)).mode = .assignmentIdOrder →
    decision.authoritative = true ∧ ∃ entry, Decisive image chain tier level entry ∧
      decision.cls = entry.assignment.cls ∧
      ∀ other, Decisive image chain tier level other →
        compare other.assignment.id entry.assignment.id ≠ .lt

/-- What the evidence of a tier makes of a query. -/
structure Follows : Prop where
  fenced : (∀ entry, ¬ Applies image chain tier entry) →
    (∃ entry, Rejected image chain query.subject tier entry ∧ AuthorityLost image entry) →
    decision.outcome = .fenced ∧ decision.authoritative = false
  stale : (∀ entry, ¬ Applies image chain tier entry) →
    (∃ entry, Rejected image chain query.subject tier entry) →
    (∀ entry, Rejected image chain query.subject tier entry → ¬ AuthorityLost image entry) →
    decision.outcome = .stale ∧ decision.authoritative = false
  default : (∀ entry, ¬ Applies image chain tier entry) →
    (∀ entry, ¬ Rejected image chain query.subject tier entry) →
    ∀ cls, NearestDefault image chain cls → cls ∈ image.classes →
      classVisible image query.scope cls = true →
      decision.outcome = .assigned ∧ decision.authoritative = true ∧ decision.cls = cls ∧
        decision.resolution = text "policy_default"
  unknown : (∀ entry, ¬ Applies image chain tier entry) →
    (∀ entry, ¬ Rejected image chain query.subject tier entry) →
    (∀ cls, NearestDefault image chain cls → cls ∈ image.classes →
      classVisible image query.scope cls = false) →
    decision.outcome = .unknown ∧ decision.authoritative = false
  decided : (∃ entry, Applies image chain tier entry) →
    ∃ level, Deciding image chain tier level ∧
      (∀ cls, (∀ entry, Decisive image chain tier level entry → entry.assignment.cls = cls) →
        Agreed image chain tier decision level cls) ∧
      ((∃ a b, Decisive image chain tier level a ∧ Decisive image chain tier level b ∧
          a.assignment.cls ≠ b.assignment.cls) →
        Contradicted image query chain tier decision level)

end Follows

def place (chain : List PolicyScopeId) (holder : SubjectId) (distance : Nat)
    (entry : AssignmentEntry) : Candidate :=
  ⟨levelOf chain entry.assignment.scope, entry, holder, distance⟩

theorem findIdx?_eq_some_iff {chain : List PolicyScopeId} {scope : PolicyScopeId} {level : Nat} :
    chain.findIdx? (· = scope) = some level ↔ scope ∈ chain ∧ levelOf chain scope = level := by
  rw [List.findIdx?_eq_some_iff_findIdx_eq]
  constructor
  · rintro ⟨hlt, rfl⟩
    obtain ⟨found, hmem, heq⟩ := List.findIdx_lt_length.mp hlt
    refine ⟨?_, rfl⟩
    rw [← of_decide_eq_true heq]
    exact hmem
  · rintro ⟨hmem, rfl⟩
    refine ⟨?_, rfl⟩
    apply List.findIdx_lt_length.mpr
    exact ⟨scope, hmem, by simp⟩

section Contributions

variable {image : StateImage} {chain : List PolicyScopeId} {holder : SubjectId} {distance : Nat}

theorem candidateOf_eq_place {entry : AssignmentEntry} {candidate : Candidate} :
    candidateOf image chain holder distance entry = some candidate ↔
      ((0 < distance → entry.assignment.kind = .inherited) ∧ entry.assignment.scope ∈ chain ∧
        Bound image entry) ∧ candidate = place chain holder distance entry := by
  rw [candidateOf_eq_some_iff, findIdx?_eq_some_iff]
  obtain ⟨level, entry', via, distance'⟩ := candidate
  simp only [place, Candidate.mk.injEq]
  constructor
  · rintro ⟨hkind, ⟨hmem, hlevel⟩, hbound, rfl, rfl, rfl⟩
    exact ⟨⟨hkind, hmem, hbound⟩, hlevel.symm, rfl, rfl, rfl⟩
  · rintro ⟨⟨hkind, hmem, hbound⟩, hlevel, rfl, rfl, rfl⟩
    exact ⟨hkind, ⟨hmem, hlevel.symm⟩, hbound, rfl, rfl, rfl⟩

theorem refusalOf_eq_some_iff {entry : AssignmentEntry} {refusal : RejectedEvidence} :
    refusalOf image chain holder distance entry = some refusal ↔
      ((0 < distance → entry.assignment.kind = .inherited) ∧ entry.assignment.scope ∈ chain) ∧
        checkBinding image holder entry = .error refusal := by
  unfold refusalOf verdictOn
  by_cases hskip : distance > 0 ∧ entry.assignment.kind ≠ .inherited
  · rw [if_pos hskip]
    simp only [reduceCtorEq, false_iff]
    rintro ⟨⟨hkind, -⟩, -⟩
    exact hskip.2 (hkind hskip.1)
  · have hkind : 0 < distance → entry.assignment.kind = .inherited := by
      intro hpos
      by_contra hne
      exact hskip ⟨hpos, hne⟩
    rw [if_neg hskip]
    cases hfound : chain.findIdx? (· = entry.assignment.scope) with
    | none =>
        have hout : entry.assignment.scope ∉ chain := by
          intro hmem
          have hsome := findIdx?_eq_some_iff.mpr ⟨hmem, rfl⟩
          rw [hfound] at hsome
          cases hsome
        simp [hout]
    | some level =>
        have hin := (findIdx?_eq_some_iff.mp hfound).1
        cases checkBinding image holder entry with
        | error rejected =>
            simp only [Option.map_some, Option.some.injEq, Except.error.injEq]
            exact ⟨fun heq => ⟨⟨hkind, hin⟩, heq⟩, fun h => h.2⟩
        | ok u => simp

theorem generationBinding_error {via : SubjectId} {entry : AssignmentEntry}
    {refusal : RejectedEvidence} (h : generationBinding image via entry = .error refusal) :
    refusal.authorityRelated = false := by
  simp only [generationBinding, except_bind_eq_error, rejectIf_eq_error] at h
  rcases h with ⟨-, rfl⟩ | ⟨_, -, ⟨-, rfl⟩ | ⟨_, -, hclass | ⟨_, -, hpolicy | ⟨_, -, -, rfl⟩⟩⟩⟩
  · rfl
  · rfl
  · unfold classBinding at hclass
    split at hclass
    · cases hclass
      rfl
    · rw [rejectIf_eq_error] at hclass
      rw [← hclass.2]
  · unfold policyBinding at hpolicy
    split at hpolicy
    · cases hpolicy
    · rw [rejectIf_eq_error] at hpolicy
      rw [← hpolicy.2]
  · rfl

theorem authorityRelated_iff {via : SubjectId} {entry : AssignmentEntry}
    {refusal : RejectedEvidence} (h : checkBinding image via entry = .error refusal) :
    refusal.authorityRelated = true ↔ AuthorityLost image entry := by
  unfold AuthorityLost
  unfold checkBinding authorityBinding at h
  by_cases hactive : entry.active = false
  · simp only [rejectIf, if_pos hactive] at h
    cases h
    simp [hactive]
  · rw [Bool.not_eq_false] at hactive
    by_cases hgranted : stillGranted image entry = false
    · simp only [rejectIf, hactive, if_pos hgranted] at h
      cases h
      simp [hactive, hgranted]
    · by_cases hepoch : entry.provenance.epoch ≠ image.epoch
      · simp only [rejectIf, hactive, if_neg hgranted, if_pos hepoch] at h
        cases h
        simp [hactive, hepoch]
      · have hgeneration : generationBinding image via entry = .error refusal := by
          simpa [rejectIf, hactive, hgranted, hepoch, Bind.bind, Except.bind] using h
        rw [generationBinding_error hgeneration]
        simp [hgranted, hepoch]

theorem not_bound_iff_refusal {entry : AssignmentEntry} :
    ¬ Bound image entry ↔ ∃ refusal, checkBinding image holder entry = .error refusal := by
  rw [← checkBinding_eq_ok_iff]
  cases checkBinding image holder entry with
  | error refusal => simp
  | ok u => simp

variable (hindex : Indexed image) (hscanned : Scanned image holder)
include hindex hscanned

theorem mem_accepted_iff {candidate : Candidate} :
    candidate ∈ (gathered image chain holder distance).accepted ↔
      ∃ entry, Usable image chain holder distance entry ∧
        candidate = place chain holder distance entry := by
  rw [gathered_of_scanned hscanned, List.mem_filterMap]
  apply exists_congr
  intro entry
  rw [mem_heldBy hindex, candidateOf_eq_place]
  constructor
  · rintro ⟨⟨hstored, hsubject⟩, ⟨hkind, hmem, hbound⟩, hplace⟩
    exact ⟨⟨⟨hstored, hsubject, hkind, hmem⟩, hbound⟩, hplace⟩
  · rintro ⟨⟨⟨hstored, hsubject, hkind, hmem⟩, hbound⟩, hplace⟩
    exact ⟨⟨hstored, hsubject⟩, ⟨hkind, hmem, hbound⟩, hplace⟩

theorem mem_rejected_iff {refusal : RejectedEvidence} :
    refusal ∈ (gathered image chain holder distance).rejected ↔
      ∃ entry, Offered image chain holder distance entry ∧
        checkBinding image holder entry = .error refusal := by
  rw [gathered_of_scanned hscanned, List.mem_filterMap]
  apply exists_congr
  intro entry
  rw [mem_heldBy hindex, refusalOf_eq_some_iff]
  constructor
  · rintro ⟨⟨hstored, hsubject⟩, ⟨hkind, hmem⟩, hcheck⟩
    exact ⟨⟨hstored, hsubject, hkind, hmem⟩, hcheck⟩
  · rintro ⟨⟨hstored, hsubject, hkind, hmem⟩, hcheck⟩
    exact ⟨⟨hstored, hsubject⟩, ⟨hkind, hmem⟩, hcheck⟩

theorem exists_accepted_iff :
    (gathered image chain holder distance).accepted ≠ [] ↔
      ∃ entry, Usable image chain holder distance entry := by
  constructor
  · intro hne
    obtain ⟨candidate, hmem⟩ := List.exists_mem_of_ne_nil _ hne
    obtain ⟨entry, husable, -⟩ := (mem_accepted_iff hindex hscanned).mp hmem
    exact ⟨entry, husable⟩
  · rintro ⟨entry, husable⟩
    exact List.ne_nil_of_mem ((mem_accepted_iff hindex hscanned).mpr ⟨entry, husable, rfl⟩)

theorem exists_rejected_iff :
    (gathered image chain holder distance).rejected ≠ [] ↔
      ∃ entry, Refused image chain holder distance entry := by
  constructor
  · intro hne
    obtain ⟨refusal, hmem⟩ := List.exists_mem_of_ne_nil _ hne
    obtain ⟨entry, hoffered, hcheck⟩ := (mem_rejected_iff hindex hscanned).mp hmem
    exact ⟨entry, hoffered, not_bound_iff_refusal.mpr ⟨refusal, hcheck⟩⟩
  · rintro ⟨entry, hoffered, hunbound⟩
    obtain ⟨refusal, hcheck⟩ := not_bound_iff_refusal.mp hunbound
    exact List.ne_nil_of_mem
      ((mem_rejected_iff hindex hscanned).mpr ⟨entry, hoffered, hcheck⟩)

theorem exists_authority_iff :
    (∃ refusal ∈ (gathered image chain holder distance).rejected,
        refusal.authorityRelated = true) ↔
      ∃ entry, Refused image chain holder distance entry ∧ AuthorityLost image entry := by
  constructor
  · rintro ⟨refusal, hmem, hrelated⟩
    obtain ⟨entry, hoffered, hcheck⟩ := (mem_rejected_iff hindex hscanned).mp hmem
    exact ⟨entry, ⟨hoffered, not_bound_iff_refusal.mpr ⟨refusal, hcheck⟩⟩,
      (authorityRelated_iff hcheck).mp hrelated⟩
  · rintro ⟨entry, ⟨hoffered, hunbound⟩, hlost⟩
    obtain ⟨refusal, hcheck⟩ := not_bound_iff_refusal.mp hunbound
    exact ⟨refusal, (mem_rejected_iff hindex hscanned).mpr ⟨entry, hoffered, hcheck⟩,
      (authorityRelated_iff hcheck).mpr hlost⟩

theorem contributes_iff :
    contributes (gathered image chain holder distance) = true ↔
      ∃ entry, Offered image chain holder distance entry := by
  have hcontributes : contributes (gathered image chain holder distance) = true ↔
      (gathered image chain holder distance).accepted ≠ [] ∨
        (gathered image chain holder distance).rejected ≠ [] := by
    simp [contributes]
  rw [hcontributes, exists_accepted_iff hindex hscanned, exists_rejected_iff hindex hscanned]
  constructor
  · rintro (⟨entry, hoffered, -⟩ | ⟨entry, hoffered, -⟩)
    · exact ⟨entry, hoffered⟩
    · exact ⟨entry, hoffered⟩
  · rintro ⟨entry, hoffered⟩
    by_cases hbound : Bound image entry
    · exact .inl ⟨entry, hoffered, hbound⟩
    · exact .inr ⟨entry, hoffered, hbound⟩

omit hindex in
theorem length_gathered_le :
    (gathered image chain holder distance).accepted.length +
        (gathered image chain holder distance).rejected.length ≤
      (heldBy image holder).length := by
  rw [gathered_of_scanned hscanned]
  simp only
  induction heldBy image holder with
  | nil => simp
  | cons entry rest ih =>
      have honce : candidateOf image chain holder distance entry = none ∨
          refusalOf image chain holder distance entry = none := by
        unfold candidateOf refusalOf
        cases verdictOn image chain holder distance entry with
        | none => exact .inl rfl
        | some verdict =>
            obtain ⟨level, ⟨refusal⟩ | ⟨⟩⟩ := verdict
            · exact .inl rfl
            · exact .inr rfl
      rw [filterMap_cons_toList, filterMap_cons_toList, List.length_append, List.length_append,
        List.length_cons]
      rcases honce with hnone | hnone
      · rw [hnone]
        cases refusalOf image chain holder distance entry <;> simp <;> omega
      · rw [hnone]
        cases candidateOf image chain holder distance entry <;> simp <;> omega

end Contributions

end PriorityFabric.Semantics
