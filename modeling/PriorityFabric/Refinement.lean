import PriorityFabric.Tiers

/-!
Evaluation follows the written semantics: defaults, the deciding level and the decision
are those of the evidence that applies.
-/

namespace PriorityFabric.Refinement

open Relation
open PriorityFabric.Lib.LittleEndian
open PriorityFabric.Lib.GroupIndex
open PriorityFabric.Lib.Walks
open PriorityFabric.Basics
open PriorityFabric.Ident
open PriorityFabric.Model
open PriorityFabric.State
open PriorityFabric.Inheritance
open PriorityFabric.Ancestry
open PriorityFabric.Evaluate
open PriorityFabric.UsableEvidence
open PriorityFabric.Decisions
open PriorityFabric.Holdings
open PriorityFabric.Semantics
open PriorityFabric.Tiers

/-! ## Defaults -/

section Defaults

variable {image : StateImage} {chain : List PolicyScopeId} {scope : PolicyScopeId}
  {cls : PriorityClassId}

/-- The default an entry of the policy table declares for a scope. -/
def policyDefaultOf (scope : PolicyScopeId) (entry : PolicyId × PolicyEntry) :
    Option (PriorityClassId × Bytes) :=
  if entry.2.definition.scope = scope then
    entry.2.definition.unknownDefault.map fun cls => (cls, text "policy:" ++ entry.1.value)
  else none

theorem policyDefaultOf_eq_none {entry : PolicyId × PolicyEntry} :
    policyDefaultOf scope entry = none ↔
      (entry.2.definition.scope = scope → entry.2.definition.unknownDefault = none) := by
  unfold policyDefaultOf
  split <;> simp_all

theorem policyDefaultOf_eq_some {entry : PolicyId × PolicyEntry} :
    (∃ source, policyDefaultOf scope entry = some (cls, source)) ↔
      entry.2.definition.scope = scope ∧ entry.2.definition.unknownDefault = some cls := by
  unfold policyDefaultOf
  split <;> simp_all

theorem policyDefault_iff :
    (∃ source, image.policies.toList.findSome? (policyDefaultOf scope) = some (cls, source)) ↔
      PolicyDefault image scope cls := by
  have hordered := Std.ExtTreeMap.ordered_keys_toList (t := image.policies)
  constructor
  · rintro ⟨source, hfind⟩
    obtain ⟨before, entry, after, hlist, hentry, hbefore⟩ := List.findSome?_eq_some_iff.mp hfind
    obtain ⟨hscope, hdefault⟩ := policyDefaultOf_eq_some.mp ⟨source, hentry⟩
    have hmem : (entry.1, entry.2) ∈ image.policies.toList := by simp [hlist]
    refine ⟨entry.1, entry.2, Std.ExtTreeMap.mem_toList_iff_getElem?_eq_some.mp hmem, hscope,
      hdefault, ?_⟩
    intro id' entry' hentry' hscope' hdefault' hlt
    have hmem' := Std.ExtTreeMap.mem_toList_iff_getElem?_eq_some.mpr hentry'
    rw [hlist] at hordered hmem'
    rcases List.mem_append.mp hmem' with hin | hin
    · exact hdefault' (policyDefaultOf_eq_none.mp (hbefore _ hin) hscope')
    · rcases List.mem_cons.mp hin with rfl | hin
      · exact not_lt_of_lt hlt hlt
      · have hgt := (List.pairwise_cons.mp (List.pairwise_append.mp hordered).2.1).1 _ hin
        exact not_lt_of_lt hlt hgt
  · rintro ⟨id, entry, hentry, hscope, hdefault, hsmallest⟩
    have hmem := Std.ExtTreeMap.mem_toList_iff_getElem?_eq_some.mpr hentry
    obtain ⟨before, after, hlist⟩ := List.append_of_mem hmem
    have hfound : ∃ source, policyDefaultOf scope (id, entry) = some (cls, source) :=
      policyDefaultOf_eq_some.mpr ⟨hscope, hdefault⟩
    obtain ⟨source, hsource⟩ := hfound
    refine ⟨source, List.findSome?_eq_some_iff.mpr ⟨before, _, after, hlist, hsource, ?_⟩⟩
    intro earlier hearlier
    rw [policyDefaultOf_eq_none]
    intro hscope'
    by_contra hdefault'
    have hmem' : (earlier.1, earlier.2) ∈ image.policies.toList := by
      rw [hlist]
      exact List.mem_append_left _ hearlier
    rw [hlist] at hordered
    have hlt := (List.pairwise_append.mp hordered).2.2 earlier hearlier (id, entry) (by simp)
    exact hsmallest earlier.1 earlier.2 (Std.ExtTreeMap.mem_toList_iff_getElem?_eq_some.mp hmem')
      hscope' hdefault' hlt

theorem scopeDefault_iff :
    (∃ source, declaredDefault image scope = some (cls, source)) ↔
      ScopeDefault image scope cls := by
  have hdeclared : declaredDefault image scope =
      (image.policies.toList.findSome? (policyDefaultOf scope)).or
        ((image.scopes[scope]?).bind fun node =>
          node.definition.unknownDefault.map fun cls => (cls, text "scope")) := by
    unfold declaredDefault
    rw [Option.orElse_eq_orElse, Option.orElse_eq_or]
    rfl
  have hscope : (∃ source, ((image.scopes[scope]?).bind fun node =>
      node.definition.unknownDefault.map fun cls => (cls, text "scope")) =
        some (cls, source)) ↔
      (image.scopes[scope]?).bind (·.definition.unknownDefault) = some cls := by
    cases image.scopes[scope]? with
    | none => simp
    | some node => simp
  have hnone : image.policies.toList.findSome? (policyDefaultOf scope) = none ↔
      ¬ ∃ other, PolicyDefault image scope other := by
    simp only [← policyDefault_iff]
    cases image.policies.toList.findSome? (policyDefaultOf scope) with
    | none => simp
    | some found => simpa using ⟨found.1, found.2, rfl⟩
  rw [hdeclared]
  simp only [Option.or_eq_some_iff, exists_or]
  rw [policyDefault_iff]
  apply or_congr_right
  rw [exists_and_left, hnone, hscope]

theorem nearestDefault_iff :
    (∃ source, chain.findSome? (declaredDefault image) = some (cls, source)) ↔
      NearestDefault image chain cls := by
  have hnone : ∀ narrower, declaredDefault image narrower = none ↔
      ¬ ∃ other, ScopeDefault image narrower other := by
    intro narrower
    simp only [← scopeDefault_iff]
    cases declaredDefault image narrower with
    | none => simp
    | some found => simpa using ⟨found.1, found.2, rfl⟩
  simp only [List.findSome?_eq_some_iff, NearestDefault, hnone]
  constructor
  · rintro ⟨source, before, scope, after, hchain, hfound, hbefore⟩
    exact ⟨before, scope, after, hchain, hbefore, scopeDefault_iff.mp ⟨source, hfound⟩⟩
  · rintro ⟨before, scope, after, hchain, hbefore, hfound⟩
    obtain ⟨source, hsource⟩ := scopeDefault_iff.mpr hfound
    exact ⟨source, before, scope, after, hchain, hsource, hbefore⟩

def Served (image : StateImage) (chain : List PolicyScopeId) (scope : PolicyScopeId)
    (cls : PriorityClassId) : Prop :=
  NearestDefault image chain cls ∧ cls ∈ image.classes ∧ classVisible image scope cls = true

theorem served_iff (hchain : scopeChain image scope = .ok chain) :
    ((resolveUnknownDefault image scope).found = true ∧
        (resolveUnknownDefault image scope).available = true ∧
        (resolveUnknownDefault image scope).cls = cls) ↔
      Served image chain scope cls := by
  unfold resolveUnknownDefault Served
  rw [← nearestDefault_iff]
  simp only [hchain]
  cases hfind : chain.findSome? (declaredDefault image) with
  | none => simp
  | some found =>
      obtain ⟨found, source⟩ := found
      simp only [Option.some.injEq, Prod.mk.injEq, exists_and_left, exists_eq', and_true]
      cases hnode : image.classes[found]? with
      | none =>
          have hnot : found ∉ image.classes := by
            rw [Std.ExtTreeMap.mem_iff_contains, Std.ExtTreeMap.contains_eq_isSome_getElem?, hnode]
            simp
          constructor
          · rintro ⟨-, havailable, -⟩
            cases havailable
          · rintro ⟨rfl, hmem, -⟩
            exact absurd hmem hnot
      | some node =>
          have hmem : found ∈ image.classes := (getElem?_eq_some_iff.mp hnode).1
          constructor
          · rintro ⟨-, hvisible, rfl⟩
            exact ⟨rfl, hmem, hvisible⟩
          · rintro ⟨rfl, -, hvisible⟩
            exact ⟨rfl, hvisible, rfl⟩

end Defaults

/-! ## Answers without evidence -/

section Fallback

variable {image : StateImage} {query : PriorityQuery} {base : PriorityDecision}
  {rejected : List RejectedEvidence}

theorem fallback_refused (h : rejected ≠ []) :
    (fallbackDecision image query rejected base).outcome =
        (if rejected.any (·.authorityRelated) then .fenced else .stale) ∧
      (fallbackDecision image query rejected base).authoritative = base.authoritative := by
  cases rejected with
  | nil => exact absurd rfl h
  | cons first rest => exact ⟨rfl, rfl⟩

theorem fallback_served
    (h : (resolveUnknownDefault image query.scope).found = true ∧
      (resolveUnknownDefault image query.scope).available = true) :
    (fallbackDecision image query [] base).outcome = .assigned ∧
      (fallbackDecision image query [] base).authoritative = true ∧
      (fallbackDecision image query [] base).cls =
        (resolveUnknownDefault image query.scope).cls ∧
      (fallbackDecision image query [] base).resolution = text "policy_default" := by
  simp only [fallbackDecision, if_pos h, and_self]

theorem fallback_unknown
    (h : ¬ ((resolveUnknownDefault image query.scope).found = true ∧
      (resolveUnknownDefault image query.scope).available = true)) :
    (fallbackDecision image query [] base).outcome = .unknown ∧
      (fallbackDecision image query [] base).authoritative = base.authoritative := by
  simp only [fallbackDecision, if_neg h]
  split <;> exact ⟨rfl, rfl⟩

end Fallback

section Following

variable {image : StateImage} {query : PriorityQuery} {admitted : Admitted}
  {tier : Option (SubjectId × Nat)} {collected : Evidence}

theorem follows_fallback
    (hcovers : Covers image admitted.scopes query.subject tier collected)
    (hchain : scopeChain image query.scope = .ok admitted.scopes)
    (hnone : ∀ entry, ¬ Applies image admitted.scopes tier entry) :
    Follows image query admitted.scopes tier (answer image query admitted collected) := by
  have hempty := (filtered_nil_iff hcovers).mpr hnone
  have hlevel : (filterExceptions collected).accepted.filter (·.level =
      decidingLevel image admitted.scopes (filterExceptions collected).accepted) = [] := by
    rw [hempty]
    rfl
  obtain ⟨base, steps, hbase, hanswer⟩ := answer_fallback hlevel
  rw [hanswer, take_refused hcovers]
  constructor
  · intro _ hlost
    have hany := (refused_authority_iff hcovers).mpr hlost
    have hne : (filterExceptions collected).rejected ≠ [] := by
      intro hnil
      rw [hnil] at hany
      cases hany
    obtain ⟨houtcome, hauthoritative⟩ := fallback_refused hne
    rw [sealed_outcome, sealed_authoritative]
    exact ⟨by rw [houtcome, if_pos hany], by rw [hauthoritative, hbase]⟩
  · rintro - ⟨entry, hentry⟩ hkept
    have hne : (filterExceptions collected).rejected ≠ [] := by
      intro hnil
      exact (refused_nil_iff hcovers).mp hnil entry hentry
    have hany : ¬ (filterExceptions collected).rejected.any (·.authorityRelated) = true := by
      rw [refused_authority_iff hcovers]
      rintro ⟨lost, hlost, hauthority⟩
      exact hkept lost hlost hauthority
    obtain ⟨houtcome, hauthoritative⟩ := fallback_refused hne
    rw [sealed_outcome, sealed_authoritative]
    exact ⟨by rw [houtcome, if_neg hany], by rw [hauthoritative, hbase]⟩
  · intro _ hrejected cls hnearest hmem hvisible
    obtain ⟨hfound, havailable, hcls⟩ := (served_iff hchain).mpr ⟨hnearest, hmem, hvisible⟩
    rw [(refused_nil_iff hcovers).mpr hrejected, ← hcls]
    exact fallback_served ⟨hfound, havailable⟩
  · intro _ hrejected hunserved
    rw [(refused_nil_iff hcovers).mpr hrejected, sealed_outcome, sealed_authoritative, ← hbase]
    apply fallback_unknown
    rintro ⟨hfound, havailable⟩
    obtain ⟨hnearest, hmem, hvisible⟩ := (served_iff hchain).mp ⟨hfound, havailable, rfl⟩
    rw [hunserved _ hnearest hmem] at hvisible
    cases hvisible
  · rintro ⟨entry, happlies⟩
    exact absurd happlies (hnone entry)

end Following

/-! ## The deciding level -/

section Deciding

variable {image : StateImage} {chain : List PolicyScopeId} {subject : SubjectId}
  {tier : Option (SubjectId × Nat)} {collected : Evidence}

theorem Applies.scopeAt_level {entry : AssignmentEntry} (h : Applies image chain tier entry) :
    scopeAt chain (levelOf chain entry.assignment.scope) = entry.assignment.scope := by
  obtain ⟨_, _, -, husable⟩ := h.usable
  exact scopeAt_of_findIdx? (findIdx?_eq_some_iff.mpr ⟨husable.1.onChain, rfl⟩)

variable (hcovers : Covers image chain subject tier collected)
include hcovers

theorem mem_levels_iff {level : Nat} :
    level ∈ (filterExceptions collected).accepted.map (·.level) ↔
      ∃ entry, Applies image chain tier entry ∧ levelOf chain entry.assignment.scope = level := by
  rw [List.mem_map]
  constructor
  · rintro ⟨candidate, hmem, rfl⟩
    obtain ⟨_, _, entry, -, happlies, rfl⟩ := (mem_filtered_iff hcovers).mp hmem
    exact ⟨entry, happlies, rfl⟩
  · rintro ⟨entry, happlies, rfl⟩
    obtain ⟨holder, distance, htier, -⟩ := happlies.usable
    exact ⟨place chain holder distance entry,
      (mem_filtered_iff hcovers).mpr ⟨holder, distance, entry, htier, happlies, rfl⟩, rfl⟩

theorem mem_firm_levels_iff {level : Nat} :
    level ∈ ((filterExceptions collected).accepted.map (·.level)).filter
        (nonOverridable image chain) ↔
      (∃ entry, Applies image chain tier entry ∧
        levelOf chain entry.assignment.scope = level) ∧ Firm image (scopeAt chain level) := by
  rw [List.mem_filter, mem_levels_iff hcovers, nonOverridable_iff]

theorem deciding_decidingLevel (hsome : ∃ entry, Applies image chain tier entry) :
    Deciding image chain tier
      (decidingLevel image chain (filterExceptions collected).accepted) := by
  unfold decidingLevel
  cases hfirm : authoritativeLevel image chain (filterExceptions collected).accepted with
  | some level =>
      unfold authoritativeLevel at hfirm
      obtain ⟨hmem, hleast⟩ := List.min?_eq_some_iff.mp hfirm
      obtain ⟨hheld, hlevel⟩ := (mem_firm_levels_iff hcovers).mp hmem
      refine ⟨hheld, .inl ⟨hlevel, ?_⟩⟩
      intro entry happlies hscope
      rw [← Applies.scopeAt_level happlies] at hscope
      exact hleast _ ((mem_firm_levels_iff hcovers).mpr ⟨⟨entry, happlies, rfl⟩, hscope⟩)
  | none =>
      unfold authoritativeLevel at hfirm
      rw [List.min?_eq_none_iff, List.eq_nil_iff_forall_not_mem] at hfirm
      obtain ⟨entry, happlies⟩ := hsome
      have hmem := (mem_levels_iff hcovers).mpr ⟨entry, happlies, rfl⟩
      cases hmin : ((filterExceptions collected).accepted.map (·.level)).min? with
      | none =>
          rw [List.min?_eq_none_iff] at hmin
          rw [hmin] at hmem
          cases hmem
      | some level =>
          obtain ⟨hheld, hleast⟩ := List.min?_eq_some_iff.mp hmin
          refine ⟨(mem_levels_iff hcovers).mp hheld, .inr ⟨?_, ?_⟩⟩
          · intro other hother hscope
            rw [← Applies.scopeAt_level hother] at hscope
            exact hfirm _ ((mem_firm_levels_iff hcovers).mpr ⟨⟨other, hother, rfl⟩, hscope⟩)
          · intro other hother
            exact hleast _ ((mem_levels_iff hcovers).mpr ⟨other, hother, rfl⟩)

theorem mem_level_iff {level : Nat} {candidate : Candidate} :
    candidate ∈ (filterExceptions collected).accepted.filter (·.level = level) ↔
      ∃ holder distance entry, tier = some (holder, distance) ∧
        Decisive image chain tier level entry ∧ candidate = place chain holder distance entry := by
  rw [List.mem_filter, mem_filtered_iff hcovers, decide_eq_true_eq]
  constructor
  · rintro ⟨⟨holder, distance, entry, htier, happlies, rfl⟩, hlevel⟩
    exact ⟨holder, distance, entry, htier, ⟨happlies, hlevel⟩, rfl⟩
  · rintro ⟨holder, distance, entry, htier, ⟨happlies, hlevel⟩, rfl⟩
    exact ⟨⟨holder, distance, entry, htier, happlies, rfl⟩, hlevel⟩

end Deciding

/-! ## Winners -/

/-- A fold that keeps the better of its best so far and the next item ends on the best. -/
theorem le_foldl_choice {α : Type} (le : α → α → Prop) (P : α → Prop) {f : α → α → α}
    (htrans : ∀ a b c, le a b → le b c → le a c)
    (hf : ∀ a b, P a → P b → P (f a b) ∧ le a (f a b) ∧ le b (f a b)) {first : α}
    {items : List α} (hrefl : ∀ a, le a a) (hfirst : P first) (hitems : ∀ a ∈ items, P a) :
    ∀ a ∈ first :: items, le a (items.foldl f first) := by
  induction items generalizing first with
  | nil =>
      intro a ha
      obtain rfl := List.mem_singleton.mp ha
      exact hrefl a
  | cons item items ih =>
      obtain ⟨hkept, hle, hle'⟩ := hf first item hfirst (hitems item List.mem_cons_self)
      have hrest := ih hkept fun a ha => hitems a (List.mem_cons_of_mem _ ha)
      have hbest := hrest _ List.mem_cons_self
      intro a ha
      rw [List.foldl_cons]
      rcases List.mem_cons.mp ha with rfl | ha
      · exact htrans _ _ _ hle hbest
      · rcases List.mem_cons.mp ha with rfl | ha
        · exact htrans _ _ _ hle' hbest
        · exact hrest a (List.mem_cons_of_mem _ ha)

section Winners

variable {image : StateImage} {first : Placed} {winning : List Placed}

theorem rank_higherPrecedence
    (hregistered : ∀ placed ∈ first :: winning, ∃ node,
      image.classes[placed.1.entry.assignment.cls]? = some node) :
    ∀ placed ∈ first :: winning, rankOf image placed.1.entry ≤
      rankOf image (higherPrecedence image first winning).1.entry := by
  refine le_foldl_choice (fun a b : Placed => rankOf image a.1.entry ≤ rankOf image b.1.entry)
    (fun placed : Placed => ∃ node,
      image.classes[placed.1.entry.assignment.cls]? = some node)
    (fun _ _ _ => UInt32.le_trans) ?_ (fun _ => UInt32.le_refl _)
    (hregistered first List.mem_cons_self)
    (fun placed hplaced => hregistered placed (List.mem_cons_of_mem _ hplaced))
  rintro best candidate ⟨leader, hleader⟩ ⟨node, hnode⟩
  simp only [hleader, hnode]
  split
  · rename_i hgt
    refine ⟨⟨node, hnode⟩, ?_, UInt32.le_refl _⟩
    simp only [rankOf, hleader, hnode, Option.map_some, Option.getD_some]
    exact UInt32.le_of_lt hgt
  · rename_i hle
    refine ⟨⟨leader, hleader⟩, UInt32.le_refl _, ?_⟩
    simp only [rankOf, hleader, hnode, Option.map_some, Option.getD_some]
    exact UInt32.not_lt.mp hle

theorem id_assignmentIdOrder :
    ∀ placed ∈ first :: winning, compare placed.1.entry.assignment.id
      (assignmentIdOrder first winning).1.entry.assignment.id ≠ .lt := by
  have hswap : ∀ a b : PriorityAssignmentId, compare a b = (compare b a).swap :=
    fun _ _ => Std.OrientedCmp.eq_swap
  have hleast : ∀ placed ∈ first :: winning,
      (compare (assignmentIdOrder first winning).1.entry.assignment.id
        placed.1.entry.assignment.id).isLE = true := by
    refine le_foldl_choice
      (fun a b : Placed =>
        (compare b.1.entry.assignment.id a.1.entry.assignment.id).isLE = true) (fun _ => True)
      (fun _ _ _ hab hbc => Std.TransCmp.isLE_trans hbc hab) ?_ (fun _ => by simp) trivial
      (fun _ _ => trivial)
    intro best candidate _ _
    split
    · rename_i hlt
      refine ⟨trivial, ?_, by simp⟩
      cases hcompare : compare candidate.1.entry.assignment.id best.1.entry.assignment.id with
      | lt => rfl
      | eq => rfl
      | gt =>
          rw [hcompare] at hlt
          cases hlt
    · rename_i hle
      refine ⟨trivial, by simp, ?_⟩
      rw [hswap]
      cases hcompare : compare candidate.1.entry.assignment.id best.1.entry.assignment.id with
      | lt =>
          rw [hcompare] at hle
          exact absurd rfl hle
      | eq => rfl
      | gt => rfl
  intro placed hplaced hlt
  have hle := hleast placed hplaced
  rw [hswap, hlt] at hle
  cases hle

end Winners

section Verdicts

variable {image : StateImage} {query : PriorityQuery} {scopes : List PolicyScopeId}
  {level : Nat} {first : Candidate} {others displaced : List Candidate}
  {builder : ChainBuilder} {base : PriorityDecision}

theorem decideAt_unique {node : ClassEntry}
    (hsame : ∀ other ∈ others, other.entry.assignment.cls = first.entry.assignment.cls)
    (hnode : image.classes[first.entry.assignment.cls]? = some node) :
    (decideAt image query scopes level first others displaced builder base).outcome =
      if displaced.isEmpty = false then .overridden
      else if first.inheritanceDistance > 0 then .inherited else .assigned := by
  simp only [decideAt, settle_unique _ hsame, nameClass, hnode, uniqueOutcome]
  split
  · rfl
  · split <;> rfl

theorem decideAt_conflict
    (hdiffer : ¬ ∀ other ∈ others, other.entry.assignment.cls = first.entry.assignment.cls)
    (hregistered : ∀ candidate ∈ first :: others, ∃ node,
      image.classes[candidate.entry.assignment.cls]? = some node) :
    (decideAt image query scopes level first others displaced builder base).outcome =
        .conflict ∧
      (decideAt image query scopes level first others displaced builder base).authoritative =
        (settle image query (scopeAt scopes level) first others).winner.isSome := by
  have hconflict : (settle image query (scopeAt scopes level) first others).conflict = true := by
    rw [settle_conflict _ hdiffer]
    exact settleConflict_conflict _ _ _
  cases hwinner : (settle image query (scopeAt scopes level) first others).winner with
  | none => simp [decideAt, hconflict, hwinner, conflictOutcome]
  | some winner =>
      obtain ⟨node, hnode⟩ := hregistered winner (settle_winner_mem hwinner)
      simp [decideAt, hconflict, hwinner, nameClass, hnode, conflictOutcome]

/-- Contradictory candidates have no winner where the caller or the policy denies. -/
theorem settle_denied (scope : PolicyScopeId)
    (hdiffer : ¬ ∀ other ∈ others, other.entry.assignment.cls = first.entry.assignment.cls)
    (h : query.strictConflicts = true ∨ (effectiveConflictMode image scope).mode = .deny) :
    (settle image query scope first others).winner = none := by
  rw [settle_conflict _ hdiffer]
  simp only [settleConflict, if_pos h]

theorem settle_higher (scope : PolicyScopeId)
    (hdiffer : ¬ ∀ other ∈ others, other.entry.assignment.cls = first.entry.assignment.cls)
    (hstrict : query.strictConflicts = false)
    (hmode : (effectiveConflictMode image scope).mode = .higherPrecedence) :
    (settle image query scope first others).winner =
      some (higherPrecedence image (first, 0) (first :: others).zipIdx).1 := by
  rw [settle_conflict _ hdiffer]
  simp [settleConflict, hstrict, hmode]

theorem settle_ordered (scope : PolicyScopeId)
    (hdiffer : ¬ ∀ other ∈ others, other.entry.assignment.cls = first.entry.assignment.cls)
    (hstrict : query.strictConflicts = false)
    (hmode : (effectiveConflictMode image scope).mode = .assignmentIdOrder) :
    (settle image query scope first others).winner =
      some (assignmentIdOrder (first, 0) (first :: others).zipIdx).1 := by
  rw [settle_conflict _ hdiffer]
  simp [settleConflict, hstrict, hmode]

theorem placed_mem {placed : Placed} (h : placed ∈ (first, 0) :: (first :: others).zipIdx) :
    placed.1 ∈ first :: others := by
  rcases List.mem_cons.mp h with rfl | hmem
  · exact List.mem_cons_self
  · obtain ⟨candidate, position⟩ := placed
    exact List.fst_mem_of_mem_zipIdx hmem

theorem exists_placed {candidate : Candidate} (h : candidate ∈ first :: others) :
    ∃ position, (candidate, position) ∈ (first, 0) :: (first :: others).zipIdx := by
  obtain ⟨position, hlt, rfl⟩ := List.mem_iff_getElem.mp h
  refine ⟨position, List.mem_cons_of_mem _ ?_⟩
  rw [List.mk_mem_zipIdx_iff_getElem?]
  exact List.getElem?_eq_getElem hlt

end Verdicts

/-! ## Decisions of a level -/

section Level

variable {image : StateImage} {query : PriorityQuery} {chain : List PolicyScopeId}
  {subject : SubjectId} {tier : Option (SubjectId × Nat)} {collected : Evidence} {level : Nat}
  {first : Candidate} {others : List Candidate} {builder : ChainBuilder}
  {base : PriorityDecision}

theorem Decisive.registered {entry : AssignmentEntry}
    (h : Decisive image chain tier level entry) :
    ∃ node, image.classes[entry.assignment.cls]? = some node := by
  obtain ⟨_, _, -, husable⟩ := h.1.usable
  have hcls := husable.2.cls
  rw [Option.map_eq_some_iff] at hcls
  obtain ⟨node, hnode, -⟩ := hcls
  exact ⟨node, hnode⟩

variable (hcovers : Covers image chain subject tier collected)
  (hlevel : (filterExceptions collected).accepted.filter (·.level = level) = first :: others)
include hcovers hlevel

theorem mem_decisive_iff {candidate : Candidate} :
    candidate ∈ first :: others ↔ ∃ holder distance entry, tier = some (holder, distance) ∧
      Decisive image chain tier level entry ∧ candidate = place chain holder distance entry := by
  rw [← hlevel]
  exact mem_level_iff hcovers

theorem exists_placed_of_decisive {entry : AssignmentEntry}
    (h : Decisive image chain tier level entry) :
    ∃ holder distance position, (place chain holder distance entry, position) ∈
      (first, 0) :: (first :: others).zipIdx := by
  obtain ⟨holder, distance, htier, -⟩ := h.1.usable
  obtain ⟨position, hplaced⟩ := exists_placed ((mem_decisive_iff hcovers hlevel).mpr
    ⟨holder, distance, entry, htier, h, rfl⟩)
  exact ⟨holder, distance, position, hplaced⟩

theorem decisive_registered :
    ∀ candidate ∈ first :: others, ∃ node,
      image.classes[candidate.entry.assignment.cls]? = some node := by
  intro candidate hmem
  obtain ⟨_, _, entry, -, hdecisive, rfl⟩ := (mem_decisive_iff hcovers hlevel).mp hmem
  exact Decisive.registered hdecisive

/-- A candidate that wins is reported, with the class of a deciding assignment. -/
theorem reported_of_winner {displaced : List Candidate} {winner : Candidate}
    (hwinner : (settle image query (scopeAt chain level) first others).winner = some winner)
    (hmem : winner ∈ first :: others) :
    (sealed (decideAt image query chain level first others displaced builder
        base)).authoritative = true ∧
      ∃ holder distance entry, Decisive image chain tier level entry ∧
        winner = place chain holder distance entry ∧
        (sealed (decideAt image query chain level first others displaced builder base)).cls =
          entry.assignment.cls := by
  obtain ⟨node, hnode⟩ := decisive_registered hcovers hlevel winner hmem
  obtain ⟨hreports, hcls⟩ := decideAt_of_winner hwinner hnode
  obtain ⟨holder, distance, entry, -, hdecisive, heq⟩ :=
    (mem_decisive_iff hcovers hlevel).mp hmem
  refine ⟨hreports, holder, distance, entry, hdecisive, heq, ?_⟩
  rw [sealed_cls, hcls, heq]
  rfl

theorem agreed_decideAt {cls : PriorityClassId}
    (hall : ∀ entry, Decisive image chain tier level entry → entry.assignment.cls = cls) :
    Agreed image chain tier (sealed (decideAt image query chain level first others
      ((filterExceptions collected).accepted.filter (·.level ≠ level)) builder base))
      level cls := by
  have hcls : ∀ candidate ∈ first :: others, candidate.entry.assignment.cls = cls := by
    intro candidate hmem
    obtain ⟨_, _, entry, -, hdecisive, rfl⟩ := (mem_decisive_iff hcovers hlevel).mp hmem
    exact hall entry hdecisive
  have hfirst := hcls first List.mem_cons_self
  have hsame : ∀ other ∈ others, other.entry.assignment.cls = first.entry.assignment.cls := by
    intro other hother
    rw [hcls other (List.mem_cons_of_mem _ hother), hfirst]
  obtain ⟨node, hnode⟩ := decisive_registered hcovers hlevel first List.mem_cons_self
  have hwinner : (settle image query (scopeAt chain level) first others).winner = some first := by
    rw [settle_unique _ hsame]
  have hdisplaced : (∃ entry, Applies image chain tier entry ∧
      levelOf chain entry.assignment.scope ≠ level) ↔
      (filterExceptions collected).accepted.filter (·.level ≠ level) ≠ [] := by
    constructor
    · rintro ⟨entry, happlies, hne⟩
      obtain ⟨holder, distance, htier, -⟩ := happlies.usable
      apply List.ne_nil_of_mem
      exact List.mem_filter.mpr
        ⟨(mem_filtered_iff hcovers).mpr ⟨holder, distance, entry, htier, happlies, rfl⟩,
          decide_eq_true hne⟩
    · intro hne
      obtain ⟨candidate, hmem⟩ := List.exists_mem_of_ne_nil _ hne
      rw [List.mem_filter, decide_eq_true_eq, mem_filtered_iff hcovers] at hmem
      obtain ⟨⟨_, _, entry, -, happlies, rfl⟩, hne⟩ := hmem
      exact ⟨entry, happlies, hne⟩
  obtain ⟨hauthoritative, hreported⟩ := decideAt_of_winner hwinner hnode
  refine ⟨hauthoritative, ?_, ?_, ?_⟩
  · rw [sealed_cls, hreported, hfirst]
  · intro hother
    rw [sealed_outcome, decideAt_unique hsame hnode, if_pos]
    rw [List.isEmpty_eq_false_iff]
    exact hdisplaced.mp hother
  · intro halone holder distance htier
    have hnone : (filterExceptions collected).accepted.filter (·.level ≠ level) = [] := by
      by_contra hne
      obtain ⟨entry, happlies, hne⟩ := hdisplaced.mpr hne
      exact hne (halone entry happlies)
    obtain ⟨_, _, entry, htier', -, heq⟩ :=
      (mem_decisive_iff hcovers hlevel).mp List.mem_cons_self
    rw [htier] at htier'
    cases htier'
    rw [sealed_outcome, decideAt_unique hsame hnode, hnone, heq]
    rfl

theorem contradicted_decideAt {displaced : List Candidate}
    (hdiffer : ∃ a b, Decisive image chain tier level a ∧ Decisive image chain tier level b ∧
      a.assignment.cls ≠ b.assignment.cls) :
    Contradicted image query chain tier (sealed (decideAt image query chain level first others
      displaced builder base)) level := by
  have hmixed : ¬ ∀ other ∈ others,
      other.entry.assignment.cls = first.entry.assignment.cls := by
    intro hsame
    have hcls : ∀ entry, Decisive image chain tier level entry →
        entry.assignment.cls = first.entry.assignment.cls := by
      intro entry hdecisive
      obtain ⟨holder, distance, htier, -⟩ := hdecisive.1.usable
      have hmem := (mem_decisive_iff hcovers hlevel).mpr
        ⟨holder, distance, entry, htier, hdecisive, rfl⟩
      rcases List.mem_cons.mp hmem with heq | hother
      · rw [← heq]
        rfl
      · exact hsame _ hother
    obtain ⟨a, b, ha, hb, hne⟩ := hdiffer
    exact hne ((hcls a ha).trans (hcls b hb).symm)
  have hregistered := decisive_registered hcovers hlevel
  obtain ⟨houtcome, hauthoritative⟩ := decideAt_conflict hmixed hregistered
  refine ⟨houtcome, ?_, ?_, ?_⟩
  · intro hdenied
    rw [sealed_authoritative, hauthoritative, settle_denied _ hmixed hdenied]
    rfl
  · intro hstrict hmode
    have hmem := placed_mem (higherPrecedence_mem image (first, 0) (first :: others).zipIdx)
    obtain ⟨hreports, _, _, entry, hdecisive, heq, hcls⟩ := reported_of_winner hcovers hlevel
      (settle_higher _ hmixed hstrict hmode) hmem
    refine ⟨hreports, entry, hdecisive, hcls, fun other hother => ?_⟩
    obtain ⟨_, _, _, hplaced⟩ := exists_placed_of_decisive hcovers hlevel hother
    have hrank := rank_higherPrecedence
      (fun placed hplaced => hregistered placed.1 (placed_mem hplaced)) _ hplaced
    rw [heq] at hrank
    exact hrank
  · intro hstrict hmode
    have hmem := placed_mem (assignmentIdOrder_mem (first, 0) (first :: others).zipIdx)
    obtain ⟨hreports, _, _, entry, hdecisive, heq, hcls⟩ := reported_of_winner hcovers hlevel
      (settle_ordered _ hmixed hstrict hmode) hmem
    refine ⟨hreports, entry, hdecisive, hcls, fun other hother => ?_⟩
    obtain ⟨_, _, _, hplaced⟩ := exists_placed_of_decisive hcovers hlevel hother
    have horder := id_assignmentIdOrder _ hplaced
    rw [heq] at horder
    exact horder

end Level

/-! ## Evaluation -/

theorem follows_answer {image : StateImage} {query : PriorityQuery} {admitted : Admitted}
    {tier : Option (SubjectId × Nat)} {collected : Evidence}
    (hcovers : Covers image admitted.scopes query.subject tier collected)
    (hchain : scopeChain image query.scope = .ok admitted.scopes) :
    Follows image query admitted.scopes tier (answer image query admitted collected) := by
  by_cases hsome : ∃ entry, Applies image admitted.scopes tier entry
  · have hdeciding := deciding_decidingLevel hcovers hsome
    obtain ⟨entry, happlies, heq⟩ := hdeciding.held
    obtain ⟨holder, distance, htier, -⟩ := happlies.usable
    have hmem := (mem_level_iff hcovers).mpr
      ⟨holder, distance, entry, htier, ⟨happlies, heq⟩, rfl⟩
    cases hlevel : (filterExceptions collected).accepted.filter (·.level =
        decidingLevel image admitted.scopes (filterExceptions collected).accepted) with
    | nil =>
        rw [hlevel] at hmem
        cases hmem
    | cons first others =>
        obtain ⟨builder, base, hanswer⟩ := answer_decided hlevel
        rw [hanswer]
        have hnot : ¬ ∀ entry, ¬ Applies image admitted.scopes tier entry :=
          fun hnone => hnone entry happlies
        constructor
        · intro hnone
          exact absurd hnone hnot
        · intro hnone
          exact absurd hnone hnot
        · intro hnone
          exact absurd hnone hnot
        · intro hnone
          exact absurd hnone hnot
        · intro _
          exact ⟨_, hdeciding, fun cls hall => agreed_decideAt hcovers hlevel hall,
            fun hdiffer => contradicted_decideAt hcovers hlevel hdiffer⟩
  · exact follows_fallback hcovers hchain (not_exists.mp hsome)

/-- A query that passes the gates is answered as written from the evidence of its tier,
or rejected where it depends on ancestors that cannot be listed. -/
theorem evaluation_follows_semantics {image : StateImage} {query : PriorityQuery}
    {admitted : Admitted} (hindex : Indexed image) (hgates : gates image query = .ok admitted)
    (hholds : HoldsAtMost image query.subject image.limits.maxQuerySteps) :
    (((∃ entry, Usable image admitted.scopes query.subject 0 entry) ∨
        ∃ ancestors, subjectAncestors image query.subject = .ok ancestors) →
      ∃ tier, Tier image admitted.scopes query.subject tier ∧
        Follows image query admitted.scopes tier (evaluateQuery image query)) ∧
    ((¬ ∃ entry, Usable image admitted.scopes query.subject 0 entry) →
      (∃ e, subjectAncestors image query.subject = .error e) →
      (evaluateQuery image query).outcome = .rejected ∧
        (evaluateQuery image query).authoritative = false) := by
  have hchain := (passed_of_gates hgates).chain
  have hself : Scanned image query.subject := held_le hindex hholds .refl
  simp only [evaluateQuery, hgates]
  cases hcollect : collectEvidence image admitted.scopes query.subject with
  | error e =>
      obtain ⟨hown, hancestors⟩ := collectEvidence_error hindex hholds hcollect
      constructor
      · rintro (husable | ⟨ancestors, hlisted⟩)
        · exact absurd husable hown
        · rw [hancestors] at hlisted
          cases hlisted
      · intro _ _
        exact ⟨rfl, rfl⟩
  | ok collected =>
      constructor
      · intro _
        obtain ⟨tier, hcovers⟩ := covers_of_collectEvidence hindex hholds hcollect
        exact ⟨tier, hcovers.isTier, follows_answer hcovers hchain⟩
      · rintro hown ⟨e, hancestors⟩
        have hempty : (gathered image admitted.scopes query.subject 0).accepted = [] := by
          by_contra hne
          exact hown ((exists_accepted_iff hindex hself).mp hne)
        rw [collectEvidence_eq, hempty, hancestors] at hcollect
        cases hcollect

theorem holdsAtMost_of_size {image : StateImage} {subject : SubjectId} {bound : Nat}
    (h : image.assignments.size ≤ bound) : HoldsAtMost image subject bound := by
  intro ids hnodup hheld
  have hsub : ids ⊆ image.assignments.keys := by
    intro id hid
    obtain ⟨entry, hentry, -⟩ := hheld id hid
    rw [Std.ExtTreeMap.mem_keys, Std.ExtTreeMap.mem_iff_contains,
      Std.ExtTreeMap.contains_eq_isSome_getElem?, hentry]
    rfl
  have hle := (List.subperm_of_subset hnodup hsub).length_le
  rw [Std.ExtTreeMap.length_keys] at hle
  exact hle.trans h

theorem exists_of_isOk {α β : Type} {x : Except α β} (h : x.isOk = true) : ∃ b, x = .ok b := by
  cases x with
  | error e => cases h
  | ok b => exact ⟨b, rfl⟩

theorem evaluation_follows_semantics_one :
    ∃ admitted, gates oneImage oneQuery = .ok admitted ∧
      (∃ ancestors, subjectAncestors oneImage oneQuery.subject = .ok ancestors) ∧
      ∃ tier, Tier oneImage admitted.scopes oneQuery.subject tier ∧
        Follows oneImage oneQuery admitted.scopes tier (evaluateQuery oneImage oneQuery) := by
  obtain ⟨admitted, hgates⟩ : ∃ admitted, gates oneImage oneQuery = .ok admitted :=
    exists_of_isOk (by decide)
  have hlisted : ∃ ancestors, subjectAncestors oneImage oneQuery.subject = .ok ancestors :=
    exists_of_isOk (by decide)
  have hholds : HoldsAtMost oneImage oneQuery.subject oneImage.limits.maxQuerySteps :=
    holdsAtMost_of_size (by decide)
  exact ⟨admitted, hgates, hlisted,
    (evaluation_follows_semantics (indexed_imageWith _ _ _ _) hgates hholds).1 (.inr hlisted)⟩

def parentSubject : SubjectId := ⟨[97], wellFormed_a⟩
def grandparentSubject : SubjectId := ⟨[98], wellFormed_b⟩

/-- A subject two levels below an ancestor where the limit is one, and no assignment. -/
def deepImage : StateImage :=
  imageWith { maxInheritanceDepth := 1 }
    [{ id := oneSubject, generation := .first, inheritsFrom := [parentSubject] },
      { id := parentSubject, generation := .first, inheritsFrom := [grandparentSubject] },
      { id := grandparentSubject, generation := .first }]
    [{ id := oneScope, generation := .first }] []

theorem not_nearestDefault_deepImage (chain : List PolicyScopeId) (cls : PriorityClassId) :
    ¬ NearestDefault deepImage chain cls := by
  rintro ⟨_, scope, _, -, -, ⟨id, entry, hentry, -⟩ | ⟨-, hscope⟩⟩
  · have hnone : deepImage.policies[id]? = none := Std.ExtTreeMap.getElem?_empty
    rw [hnone] at hentry
    cases hentry
  · have hscopes : deepImage.scopes[scope]? =
        (if compare oneScope scope = .eq then
          some ⟨{ id := oneScope, generation := .first }, oneProvenance⟩
        else (∅ : Std.ExtTreeMap PolicyScopeId ScopeEntry)[scope]?) :=
      Std.ExtTreeMap.getElem?_insert
    rw [hscopes] at hscope
    split at hscope
    · cases hscope
    · simp at hscope

/-- Such a subject is rejected, where nothing speaks for it. -/
theorem unlisted_ancestors_not_unknown :
    ¬ ∀ (image : StateImage) (query : PriorityQuery) (admitted : Admitted), Indexed image →
      gates image query = .ok admitted →
      HoldsAtMost image query.subject image.limits.maxQuerySteps →
      ∃ tier, Tier image admitted.scopes query.subject tier ∧
        Follows image query admitted.scopes tier (evaluateQuery image query) := by
  intro hclaim
  obtain ⟨admitted, hgates⟩ : ∃ admitted, gates deepImage oneQuery = .ok admitted :=
    exists_of_isOk (by decide)
  obtain ⟨tier, -, hfollows⟩ := hclaim deepImage oneQuery admitted (indexed_imageWith _ _ _ _)
    hgates (holdsAtMost_of_size (by decide))
  have hnothing : ∀ holder distance entry,
      ¬ Offered deepImage admitted.scopes holder distance entry := by
    rintro holder distance entry ⟨⟨id, hentry⟩, -⟩
    have hnone : deepImage.assignments[id]? = none := Std.ExtTreeMap.getElem?_empty
    rw [hnone] at hentry
    cases hentry
  have hunusable : ∀ entry, ¬ TierUsable deepImage admitted.scopes tier entry := by
    rintro entry ⟨holder, distance, -, hoffered, -⟩
    exact hnothing holder distance entry hoffered
  have hunknown := hfollows.unknown
    (fun entry happlies => hunusable entry happlies.usable)
    (by
      rintro entry ((⟨hoffered, -⟩ | ⟨_, _, -, hoffered, -⟩) | ⟨husable, -⟩)
      · exact hnothing _ _ _ hoffered
      · exact hnothing _ _ _ hoffered
      · exact hunusable entry husable)
    (fun cls hnearest => absurd hnearest (not_nearestDefault_deepImage _ cls))
  have hrejected : (evaluateQuery deepImage oneQuery).outcome = .rejected := by decide
  rw [hrejected] at hunknown
  cases hunknown.1

end PriorityFabric.Refinement
