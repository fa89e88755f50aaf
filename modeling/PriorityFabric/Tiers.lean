import PriorityFabric.Semantics

/-!
Where the scan reaches everything, what is collected is the evidence of a tier, and what
is left after the exceptions is what applies.
-/

namespace PriorityFabric.Tiers

open Relation
open PriorityFabric.Lib.LittleEndian
open PriorityFabric.Lib.GroupIndex
open PriorityFabric.Lib.Walks
open PriorityFabric.Basics
open PriorityFabric.Ident
open PriorityFabric.Model
open PriorityFabric.State
open PriorityFabric.Inheritance
open PriorityFabric.Ancestry
open PriorityFabric.Evaluate
open PriorityFabric.UsableEvidence
open PriorityFabric.Decisions
open PriorityFabric.Holdings
open PriorityFabric.Semantics

/-- The subject and all its ancestors together hold at most `bound` assignments. -/
def HoldsAtMost (image : StateImage) (subject : SubjectId) (bound : Nat) : Prop :=
  ∀ ids : List PriorityAssignmentId, ids.Nodup →
    (∀ id ∈ ids, ∃ entry, image.assignments[id]? = some entry ∧
      ReflTransGen (SubjectEdge image) subject entry.assignment.subject) →
    ids.length ≤ bound

section Budget

variable {image : StateImage} {subject holder other : SubjectId} {bound : Nat}
  (hindex : Indexed image) (hholds : HoldsAtMost image subject bound)
include hindex hholds

theorem held_add_held_le (hholder : ReflTransGen (SubjectEdge image) subject holder)
    (hother : ReflTransGen (SubjectEdge image) subject other) (hne : holder ≠ other) :
    (heldBy image holder).length + (heldBy image other).length ≤ bound := by
  rw [length_heldBy hindex, length_heldBy hindex, ← List.length_append]
  apply hholds
  · rw [List.nodup_append]
    refine ⟨(hindex.exact.increasing holder).nodup, (hindex.exact.increasing other).nodup, ?_⟩
    rintro id hid _ hid' rfl
    obtain ⟨entry, hentry, rfl⟩ := (hindex.exact.mem_iff holder id).mp hid
    exact hne (hindex.subject_eq hid' hentry)
  · intro id hid
    rcases List.mem_append.mp hid with hid | hid
    · obtain ⟨entry, hentry, rfl⟩ := (hindex.exact.mem_iff holder id).mp hid
      exact ⟨entry, hentry, hholder⟩
    · obtain ⟨entry, hentry, rfl⟩ := (hindex.exact.mem_iff other id).mp hid
      exact ⟨entry, hentry, hother⟩

theorem held_le (hholder : ReflTransGen (SubjectEdge image) subject holder) :
    (heldBy image holder).length ≤ bound := by
  rw [length_heldBy hindex]
  apply hholds _ (hindex.exact.increasing holder).nodup
  intro id hid
  obtain ⟨entry, hentry, rfl⟩ := (hindex.exact.mem_iff holder id).mp hid
  exact ⟨entry, hentry, hholder⟩

end Budget

def nearer (a b : SubjectId × Nat) : Bool :=
  a.2 < b.2 || (a.2 == b.2 && (compare a.1 b.1).isLE)

theorem nearer_iff {a b : SubjectId × Nat} :
    nearer a b = true ↔ a.2 < b.2 ∨ a.2 = b.2 ∧ (compare a.1 b.1).isLE = true := by
  simp [nearer]

theorem nearer_trans (a b c : SubjectId × Nat) (hab : nearer a b = true)
    (hbc : nearer b c = true) : nearer a c = true := by
  rw [nearer_iff] at hab hbc ⊢
  rcases hab with hab | ⟨hab, hab'⟩
  · rcases hbc with hbc | ⟨hbc, -⟩
    · exact .inl (hab.trans hbc)
    · exact .inl (hbc ▸ hab)
  · rcases hbc with hbc | ⟨hbc, hbc'⟩
    · exact .inl (hab ▸ hbc)
    · exact .inr ⟨hab.trans hbc, Std.TransCmp.isLE_trans hab' hbc'⟩

theorem nearer_total (a b : SubjectId × Nat) : (nearer a b || nearer b a) = true := by
  rw [Bool.or_eq_true, nearer_iff, nearer_iff]
  rcases Nat.lt_trichotomy a.2 b.2 with hlt | heq | hgt
  · exact .inl (.inl hlt)
  · have hswap : compare b.1 a.1 = (compare a.1 b.1).swap := Std.OrientedCmp.eq_swap
    rw [hswap]
    cases hcompare : compare a.1 b.1 with
    | lt => exact .inl (.inr ⟨heq, rfl⟩)
    | eq => exact .inl (.inr ⟨heq, rfl⟩)
    | gt => exact .inr (.inr ⟨heq.symm, rfl⟩)
  · exact .inr (.inl hgt)

theorem mem_before_of_nearer {image : StateImage} {subject : SubjectId}
    {before after : List (SubjectId × Nat)} {holder holder' : SubjectId} {distance distance' : Nat}
    (h : subjectAncestors image subject = .ok (before ++ (holder, distance) :: after))
    (hne : holder' ≠ subject)
    (hdistance : Distance (SubjectEdge image) distance' subject holder')
    (hnearer : distance' < distance ∨
      distance' = distance ∧ compare holder' holder = .lt) :
    (holder', distance') ∈ before := by
  have hmem := (subjectAncestors_complete h holder' distance').mpr ⟨hne, hdistance⟩
  have hsorted : (before ++ (holder, distance) :: after).Pairwise fun a b => nearer a b := by
    obtain ⟨-, out, -, hsort⟩ := subjectAncestors_eq_ok h
    rw [hsort]
    exact List.pairwise_mergeSort nearer_trans nearer_total out
  rcases List.mem_append.mp hmem with hbefore | htail
  · exact hbefore
  · exfalso
    have hback : nearer (holder, distance) (holder', distance') = true := by
      rcases List.mem_cons.mp htail with heq | hafter
      · rw [heq, nearer_iff]
        exact .inr ⟨rfl, by simp⟩
      · exact (List.pairwise_cons.mp (List.pairwise_append.mp hsorted).2.1).1 _ hafter
    rw [nearer_iff] at hback
    rcases hnearer with hlt | ⟨rfl, hlt⟩
    · simp only at hback
      omega
    · rcases hback with hlt' | ⟨-, hle⟩
      · exact Nat.lt_irrefl _ hlt'
      · have hswap : compare holder holder' = (compare holder' holder).swap :=
          Std.OrientedCmp.eq_swap
        rw [hswap, hlt] at hle
        cases hle

/-- The collected evidence is that of the tier. -/
structure Covers (image : StateImage) (chain : List PolicyScopeId) (subject : SubjectId)
    (tier : Option (SubjectId × Nat)) (collected : Evidence) : Prop where
  isTier : Tier image chain subject tier
  accepted : ∀ candidate, candidate ∈ collected.accepted ↔ ∃ holder distance entry,
    tier = some (holder, distance) ∧ Usable image chain holder distance entry ∧
      candidate = place chain holder distance entry
  refused : collected.rejected ≠ [] ↔ ∃ entry, TierRefused image chain subject tier entry
  authority : (∃ refusal ∈ collected.rejected, refusal.authorityRelated = true) ↔
    ∃ entry, TierRefused image chain subject tier entry ∧ AuthorityLost image entry
  size : collected.accepted.length + collected.rejected.length ≤ image.limits.maxQuerySteps

section Collected

variable {image : StateImage} {chain : List PolicyScopeId} {subject : SubjectId}

theorem accepted_of_tier {holder : SubjectId} {distance : Nat} {accepted : List Candidate}
    (h : ∀ candidate, candidate ∈ accepted ↔ ∃ entry,
      Usable image chain holder distance entry ∧ candidate = place chain holder distance entry)
    (candidate : Candidate) :
    candidate ∈ accepted ↔ ∃ holder' distance' entry,
      some (holder, distance) = some (holder', distance') ∧
        Usable image chain holder' distance' entry ∧
        candidate = place chain holder' distance' entry := by
  rw [h]
  constructor
  · rintro ⟨entry, husable, rfl⟩
    exact ⟨holder, distance, entry, rfl, husable, rfl⟩
  · rintro ⟨_, _, entry, heq, husable, rfl⟩
    cases heq
    exact ⟨entry, husable, rfl⟩

theorem tierRefused_some {holder : SubjectId} {distance : Nat} {entry : AssignmentEntry} :
    TierRefused image chain subject (some (holder, distance)) entry ↔
      Refused image chain subject 0 entry ∨ Refused image chain holder distance entry := by
  unfold TierRefused
  constructor
  · rintro (hown | ⟨_, _, heq, htier⟩)
    · exact .inl hown
    · cases heq
      exact .inr htier
  · rintro (hown | htier)
    · exact .inl hown
    · exact .inr ⟨holder, distance, rfl, htier⟩

theorem tierRefused_none {entry : AssignmentEntry} :
    TierRefused image chain subject none entry ↔ Refused image chain subject 0 entry := by
  simp [TierRefused]

variable (hindex : Indexed image) (hscanned : Scanned image subject)
include hindex hscanned

theorem covers_own (husable : ∃ entry, Usable image chain subject 0 entry) :
    Covers image chain subject (some (subject, 0)) (gathered image chain subject 0) := by
  refine ⟨.own husable, accepted_of_tier fun _ => mem_accepted_iff hindex hscanned, ?_, ?_, ?_⟩
  · rw [exists_rejected_iff hindex hscanned]
    simp only [tierRefused_some, or_self]
  · rw [exists_authority_iff hindex hscanned]
    simp only [tierRefused_some, or_self]
  · exact (length_gathered_le hscanned).trans hscanned

theorem covers_none (hown : ¬ ∃ entry, Usable image chain subject 0 entry)
    (hnone : ∀ holder distance, holder ≠ subject →
      Distance (SubjectEdge image) distance subject holder →
      ¬ ∃ entry, Offered image chain holder distance entry) :
    Covers image chain subject none (gathered image chain subject 0) := by
  refine ⟨.none hown hnone, ?_, ?_, ?_, ?_⟩
  · intro candidate
    constructor
    · intro hmem
      obtain ⟨entry, husable, -⟩ := (mem_accepted_iff hindex hscanned).mp hmem
      exact absurd ⟨entry, husable⟩ hown
    · rintro ⟨_, _, _, heq, -⟩
      cases heq
  · rw [exists_rejected_iff hindex hscanned]
    simp only [tierRefused_none]
  · rw [exists_authority_iff hindex hscanned]
    simp only [tierRefused_none]
  · exact (length_gathered_le hscanned).trans hscanned

theorem covers_inherited {holder : SubjectId} {distance : Nat}
    (hown : ¬ ∃ entry, Usable image chain subject 0 entry)
    (htier : Tier image chain subject (some (holder, distance)))
    (hholder : Scanned image holder)
    (htotal : (heldBy image subject).length + (heldBy image holder).length ≤
      image.limits.maxQuerySteps) :
    Covers image chain subject (some (holder, distance))
      (followedBy (gathered image chain subject 0) (gathered image chain holder distance)) := by
  have hempty : (gathered image chain subject 0).accepted = [] := by
    by_contra hne
    exact hown ((exists_accepted_iff hindex hscanned).mp hne)
  refine ⟨htier, ?_, ?_, ?_, ?_⟩
  · simp only [followedBy, hempty, List.nil_append]
    exact accepted_of_tier fun _ => mem_accepted_iff hindex hholder
  · simp only [followedBy, ne_eq, List.append_eq_nil_iff, not_and_or]
    rw [← ne_eq, ← ne_eq, exists_rejected_iff hindex hscanned, exists_rejected_iff hindex hholder,
      ← exists_or]
    simp only [tierRefused_some]
  · simp only [followedBy, List.mem_append, or_and_right, exists_or]
    rw [exists_authority_iff hindex hscanned, exists_authority_iff hindex hholder, ← exists_or]
    simp only [tierRefused_some, or_and_right]
  · have hself : (gathered image chain subject 0).accepted.length +
        (gathered image chain subject 0).rejected.length ≤ _ := length_gathered_le hscanned
    have hother : (gathered image chain holder distance).accepted.length +
        (gathered image chain holder distance).rejected.length ≤ _ := length_gathered_le hholder
    simp only [followedBy, List.length_append]
    omega

end Collected

section Tiers

variable {image : StateImage} {chain : List PolicyScopeId} {subject : SubjectId}
  (hindex : Indexed image) (hholds : HoldsAtMost image subject image.limits.maxQuerySteps)
include hindex hholds

/-- Past the subject itself, the first ancestor that offers any evidence is the tier. -/
theorem covers_ancestors {ancestors : List (SubjectId × Nat)}
    (hown : ¬ ∃ entry, Usable image chain subject 0 entry)
    (hancestors : subjectAncestors image subject = .ok ancestors) :
    ∃ tier, Covers image chain subject tier
      (followedBy (gathered image chain subject 0) (ancestorTier image chain ancestors)) := by
  have hself : Scanned image subject := held_le hindex hholds .refl
  have hcomplete := subjectAncestors_complete hancestors
  have hreach : ∀ holder distance, (holder, distance) ∈ ancestors →
      ReflTransGen (SubjectEdge image) subject holder := by
    intro holder distance hmem
    exact ((hcomplete holder distance).mp hmem).2.1.reflTransGen
  have hcontributes : ∀ holder distance, (holder, distance) ∈ ancestors →
      (contributes (gathered image chain holder distance) = true ↔
        ∃ entry, Offered image chain holder distance entry) := by
    intro holder distance hmem
    exact contributes_iff hindex (held_le hindex hholds (hreach holder distance hmem))
  unfold ancestorTier
  rw [List.find?_map]
  cases hfind : ancestors.find?
      (contributes ∘ fun ancestor => gathered image chain ancestor.1 ancestor.2) with
  | none =>
      rw [List.find?_eq_none] at hfind
      refine ⟨none, ?_⟩
      rw [Option.map_none, Option.getD_none, followedBy_empty]
      apply covers_none hindex hself hown
      intro holder distance hne hdistance hoffered
      have hmem := (hcomplete holder distance).mpr ⟨hne, hdistance⟩
      exact hfind _ hmem ((hcontributes holder distance hmem).mpr hoffered)
  | some ancestor =>
      obtain ⟨holder, distance⟩ := ancestor
      obtain ⟨hoffers, before, after, rfl, hbefore⟩ := List.find?_eq_some_iff_append.mp hfind
      have hmem : (holder, distance) ∈ before ++ (holder, distance) :: after := by simp
      obtain ⟨hne, hdistance⟩ := (hcomplete holder distance).mp hmem
      refine ⟨some (holder, distance), ?_⟩
      rw [Option.map_some, Option.getD_some]
      apply covers_inherited hindex hself hown
      · apply Tier.inherited hown hne hdistance ((hcontributes holder distance hmem).mp hoffers)
        intro holder' distance' hne' hdistance' hnearer hoffered
        have hmem' := mem_before_of_nearer hancestors hne' hdistance' hnearer
        have hnot := hbefore _ hmem'
        rw [Function.comp_apply,
          (hcontributes holder' distance' (List.mem_append_left _ hmem')).mpr hoffered] at hnot
        cases hnot
      · exact held_le hindex hholds (hreach holder distance hmem)
      · exact held_add_held_le hindex hholds .refl (hreach holder distance hmem) hne.symm

theorem covers_of_collectEvidence {collected : Evidence}
    (h : collectEvidence image chain subject = .ok collected) :
    ∃ tier, Covers image chain subject tier collected := by
  have hself : Scanned image subject := held_le hindex hholds .refl
  rw [collectEvidence_eq] at h
  by_cases husable : ∃ entry, Usable image chain subject 0 entry
  · have hne := (exists_accepted_iff hindex hself).mpr husable
    rw [if_neg (by simpa using hne)] at h
    cases h
    exact ⟨_, covers_own hindex hself husable⟩
  · have hempty : (gathered image chain subject 0).accepted = [] := by
      by_contra hne
      exact husable ((exists_accepted_iff hindex hself).mp hne)
    rw [if_pos (by simp [hempty])] at h
    cases hancestors : subjectAncestors image subject with
    | error e =>
        rw [hancestors] at h
        cases h
    | ok ancestors =>
        rw [hancestors] at h
        cases h
        exact covers_ancestors hindex hholds husable hancestors

/-- The evidence is not collected where the subject has none of its own and its ancestors
cannot be listed. -/
theorem collectEvidence_error {e : Status}
    (h : collectEvidence image chain subject = .error e) :
    (¬ ∃ entry, Usable image chain subject 0 entry) ∧
      subjectAncestors image subject = .error e := by
  have hself : Scanned image subject := held_le hindex hholds .refl
  rw [collectEvidence_eq] at h
  split at h
  · rename_i hempty
    rw [List.isEmpty_iff] at hempty
    constructor
    · intro husable
      exact (exists_accepted_iff hindex hself).mpr husable hempty
    · cases hancestors : subjectAncestors image subject with
      | error status =>
          rw [hancestors] at h
          cases h
          rfl
      | ok ancestors =>
          rw [hancestors] at h
          cases h
  · cases h

end Tiers

section Exceptions

variable {image : StateImage} {chain : List PolicyScopeId} {subject : SubjectId}
  {tier : Option (SubjectId × Nat)} {collected : Evidence}

theorem exceptionCheck_isOk_iff {accepted : List Candidate} {candidate : Candidate} :
    (exceptionCheck accepted candidate).isOk = true ↔
      (candidate.entry.assignment.displaces = none →
        candidate.entry.assignment.kind ≠ .exception) ∧
      ∀ target, candidate.entry.assignment.displaces = some target →
        ∃ other ∈ accepted, candidate.level < other.level ∧
          other.entry.assignment.cls = target := by
  unfold exceptionCheck displacesTarget rejectIf
  cases candidate.entry.assignment.displaces with
  | none =>
      by_cases hkind : candidate.entry.assignment.kind = .exception
      · simp [hkind, Except.isOk, Except.toBool]
      · simp [hkind, Except.isOk, Except.toBool]
  | some target =>
      simp only [Option.some.injEq, reduceCtorEq, false_implies, true_and, forall_eq']
      split
      · rename_i hnone
        simp only [Except.isOk, Except.toBool, Bool.false_eq_true, false_iff]
        rintro ⟨other, hmem, hlevel, hcls⟩
        rw [List.any_eq_false] at hnone
        exact hnone other hmem (by simp [hlevel, hcls])
      · rename_i hsome
        simp only [Except.isOk, Except.toBool, true_iff]
        rw [Bool.not_eq_false, List.any_eq_true] at hsome
        obtain ⟨other, hmem, hother⟩ := hsome
        rw [Bool.and_eq_true, decide_eq_true_eq, decide_eq_true_eq] at hother
        exact ⟨other, hmem, hother⟩

theorem exceptionCheck_error {accepted : List Candidate} {candidate : Candidate}
    {refusal : RejectedEvidence} (h : exceptionCheck accepted candidate = .error refusal) :
    refusal.authorityRelated = false := by
  unfold exceptionCheck at h
  split at h
  · rw [rejectIf_eq_error] at h
    rw [← h.2]
  · rw [rejectIf_eq_error] at h
    rw [← h.2]

theorem not_authorityLost {entry : AssignmentEntry} (h : Bound image entry) :
    ¬ AuthorityLost image entry := by
  rintro ⟨-, hgranted | hepoch⟩
  · rw [stillGranted_iff.mpr h.granted] at hgranted
    cases hgranted
  · exact hepoch h.epoch

variable (hcovers : Covers image chain subject tier collected)
include hcovers

theorem applies_iff {holder : SubjectId} {distance : Nat} {entry : AssignmentEntry}
    (htier : tier = some (holder, distance)) (husable : Usable image chain holder distance entry) :
    (exceptionCheck collected.accepted (place chain holder distance entry)).isOk = true ↔
      Applies image chain tier entry := by
  rw [exceptionCheck_isOk_iff]
  have hoffers : ∀ target, (∃ other ∈ collected.accepted,
      levelOf chain entry.assignment.scope < other.level ∧
        other.entry.assignment.cls = target) ↔
      ∃ other, TierUsable image chain tier other ∧
        levelOf chain entry.assignment.scope < levelOf chain other.assignment.scope ∧
        other.assignment.cls = target := by
    intro target
    constructor
    · rintro ⟨candidate, hmem, hlevel, hcls⟩
      obtain ⟨holder', distance', other, htier', hother, rfl⟩ :=
        (hcovers.accepted candidate).mp hmem
      exact ⟨other, ⟨holder', distance', htier', hother⟩, hlevel, hcls⟩
    · rintro ⟨other, ⟨holder', distance', htier', hother⟩, hlevel, hcls⟩
      exact ⟨place chain holder' distance' other,
        (hcovers.accepted _).mpr ⟨holder', distance', other, htier', hother, rfl⟩, hlevel, hcls⟩
  constructor
  · rintro ⟨hnamed, hoffered⟩
    exact ⟨⟨holder, distance, htier, husable⟩, hnamed,
      fun target htarget => (hoffers target).mp (hoffered target htarget)⟩
  · rintro ⟨-, hnamed, hoffered⟩
    exact ⟨hnamed, fun target htarget => (hoffers target).mpr (hoffered target htarget)⟩

theorem mem_filtered_iff {candidate : Candidate} :
    candidate ∈ (filterExceptions collected).accepted ↔ ∃ holder distance entry,
      tier = some (holder, distance) ∧ Applies image chain tier entry ∧
        candidate = place chain holder distance entry := by
  unfold filterExceptions
  rw [List.mem_filter, hcovers.accepted]
  constructor
  · rintro ⟨⟨holder, distance, entry, htier, husable, rfl⟩, hpasses⟩
    exact ⟨holder, distance, entry, htier, (applies_iff hcovers htier husable).mp hpasses, rfl⟩
  · rintro ⟨holder, distance, entry, htier, happlies, rfl⟩
    obtain ⟨_, _, htier', husable⟩ := happlies.usable
    rw [htier] at htier'
    cases htier'
    exact ⟨⟨holder, distance, entry, htier, husable, rfl⟩,
      (applies_iff hcovers htier husable).mpr happlies⟩

theorem filtered_nil_iff :
    (filterExceptions collected).accepted = [] ↔ ∀ entry, ¬ Applies image chain tier entry := by
  rw [List.eq_nil_iff_forall_not_mem]
  constructor
  · intro hnone entry happlies
    obtain ⟨holder, distance, htier, -⟩ := happlies.usable
    exact hnone _ ((mem_filtered_iff hcovers).mpr ⟨holder, distance, entry, htier, happlies, rfl⟩)
  · intro hnone candidate hmem
    obtain ⟨_, _, entry, -, happlies, -⟩ := (mem_filtered_iff hcovers).mp hmem
    exact hnone entry happlies

theorem exists_excepted_iff :
    (∃ candidate ∈ collected.accepted, ∃ refusal,
        exceptionCheck collected.accepted candidate = .error refusal) ↔
      ∃ entry, TierUsable image chain tier entry ∧ ¬ Applies image chain tier entry := by
  have hpasses : ∀ candidate, (∃ refusal,
      exceptionCheck collected.accepted candidate = .error refusal) ↔
        ¬ (exceptionCheck collected.accepted candidate).isOk = true := by
    intro candidate
    cases exceptionCheck collected.accepted candidate with
    | error refusal => simp [Except.isOk, Except.toBool]
    | ok u => simp [Except.isOk, Except.toBool]
  constructor
  · rintro ⟨candidate, hmem, hrefused⟩
    obtain ⟨holder, distance, entry, htier, husable, rfl⟩ := (hcovers.accepted candidate).mp hmem
    refine ⟨entry, ⟨holder, distance, htier, husable⟩, ?_⟩
    rw [← applies_iff hcovers htier husable]
    exact (hpasses _).mp hrefused
  · rintro ⟨entry, ⟨holder, distance, htier, husable⟩, hnot⟩
    refine ⟨place chain holder distance entry,
      (hcovers.accepted _).mpr ⟨holder, distance, entry, htier, husable, rfl⟩, ?_⟩
    rw [hpasses, applies_iff hcovers htier husable]
    exact hnot

omit hcovers in
theorem mem_refused_iff {refusal : RejectedEvidence} :
    refusal ∈ (filterExceptions collected).rejected ↔ refusal ∈ collected.rejected ∨
      ∃ candidate ∈ collected.accepted,
        exceptionCheck collected.accepted candidate = .error refusal := by
  unfold filterExceptions
  rw [List.mem_append, List.mem_filterMap]
  refine or_congr_right (exists_congr fun candidate => and_congr_right fun _ => ?_)
  cases exceptionCheck collected.accepted candidate with
  | error found => simp
  | ok u => simp

theorem refused_nil_iff :
    (filterExceptions collected).rejected = [] ↔
      ∀ entry, ¬ Rejected image chain subject tier entry := by
  rw [← not_iff_not, not_forall]
  simp only [not_not, Rejected]
  rw [exists_or, ← hcovers.refused, ← exists_excepted_iff hcovers]
  constructor
  · intro hne
    obtain ⟨refusal, hmem⟩ := List.exists_mem_of_ne_nil _ hne
    rcases mem_refused_iff.mp hmem with hold | ⟨candidate, hcandidate, hrefused⟩
    · exact .inl (List.ne_nil_of_mem hold)
    · exact .inr ⟨candidate, hcandidate, refusal, hrefused⟩
  · rintro (hne | ⟨candidate, hcandidate, refusal, hrefused⟩)
    · obtain ⟨refusal, hmem⟩ := List.exists_mem_of_ne_nil _ hne
      exact List.ne_nil_of_mem (mem_refused_iff.mpr (.inl hmem))
    · exact List.ne_nil_of_mem (mem_refused_iff.mpr (.inr ⟨candidate, hcandidate, hrefused⟩))

theorem refused_authority_iff :
    (filterExceptions collected).rejected.any (·.authorityRelated) = true ↔
      ∃ entry, Rejected image chain subject tier entry ∧ AuthorityLost image entry := by
  rw [List.any_eq_true]
  constructor
  · rintro ⟨refusal, hmem, hrelated⟩
    rcases mem_refused_iff.mp hmem with hold | ⟨candidate, -, hrefused⟩
    · obtain ⟨entry, hentry, hlost⟩ := hcovers.authority.mp ⟨refusal, hold, hrelated⟩
      exact ⟨entry, .inl hentry, hlost⟩
    · rw [exceptionCheck_error hrefused] at hrelated
      cases hrelated
  · rintro ⟨entry, hrefused | ⟨⟨_, _, -, husable⟩, -⟩, hlost⟩
    · obtain ⟨refusal, hmem, hrelated⟩ := hcovers.authority.mpr ⟨entry, hrefused, hlost⟩
      exact ⟨refusal, mem_refused_iff.mpr (.inl hmem), hrelated⟩
    · exact absurd hlost (not_authorityLost husable.2)

theorem take_refused :
    (filterExceptions collected).rejected.take image.limits.maxQuerySteps =
      (filterExceptions collected).rejected := by
  apply List.take_of_length_le
  have hsize := hcovers.size
  simp only [filterExceptions, List.length_append]
  refine (Nat.add_le_add_left (List.length_filterMap_le _ _) _).trans ?_
  omega

end Exceptions

end PriorityFabric.Tiers
