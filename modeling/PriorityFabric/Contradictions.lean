import PriorityFabric.Holdings

/-!
Contradictory evidence is reported.

An authoritative answer that reports no conflict was decided by candidates that all name
one class, as far as the scan of the winning subject's assignments went.
-/

namespace PriorityFabric.Contradictions

open PriorityFabric.Lib.LittleEndian
open PriorityFabric.Basics
open PriorityFabric.Ident
open PriorityFabric.Model
open PriorityFabric.State
open PriorityFabric.Evaluate
open PriorityFabric.UsableEvidence
open PriorityFabric.Decisions
open PriorityFabric.Holdings

/-- An assignment of the winner's subject in the deciding scope that passes every binding
check and displaces nothing. -/
structure Rival (image : StateImage) (winner : Candidate) (entry : AssignmentEntry) : Prop where
  stored : ∃ id, image.assignments[(id : PriorityAssignmentId)]? = some entry
  subject : entry.assignment.subject = winner.entry.assignment.subject
  scope : entry.assignment.scope = winner.entry.assignment.scope
  bound : Bound image entry
  plain : entry.assignment.displaces = none

/-- It also speaks for the queried subject: it propagates when the evidence is inherited,
and it is not an exception that lacks its target. -/
structure Speaks (image : StateImage) (winner : Candidate) (entry : AssignmentEntry) : Prop
    extends Rival image winner entry where
  propagates : 0 < winner.inheritanceDistance → entry.assignment.kind = .inherited
  targeted : entry.assignment.kind ≠ .exception

theorem Speaks.mem_level {image : StateImage} {query : PriorityQuery}
    {scopes : List PolicyScopeId} {collected : Evidence} {winner : Candidate}
    {entry : AssignmentEntry} (hindex : Indexed image)
    (hcollect : collectEvidence image scopes query.subject = .ok collected)
    (hwinner : winnerOf image query scopes collected = some winner)
    (hscanned : Scanned image winner.entry.assignment.subject)
    (h : Speaks image winner entry) :
    ∃ candidate ∈ (filterExceptions collected).accepted,
      candidate.level = decidingLevel image scopes (filterExceptions collected).accepted ∧
        candidate.entry = entry := by
  obtain ⟨hmem, hlevel⟩ := winnerOf_mem hwinner
  have hcollected := mem_of_mem_filterExceptions hmem
  obtain ⟨holder, distance, hgathered, haccepted⟩ := tier_of_collected hcollect hcollected
  obtain ⟨hheld, hcandidate⟩ := mem_accepted_gathered hgathered
  obtain ⟨-, hfound, -, -, hvia, hdistance⟩ := candidateOf_eq_some_iff.mp hcandidate
  have hholder := ((mem_heldBy hindex).mp hheld).2
  rw [hholder] at hscanned
  have hentry : entry ∈ heldBy image holder :=
    (mem_heldBy hindex).mpr ⟨h.stored, h.subject.trans hholder⟩
  let candidate : Candidate := ⟨winner.level, entry, holder, distance⟩
  have hcandidate' : candidateOf image scopes holder distance entry = some candidate := by
    refine candidateOf_eq_some_iff.mpr ⟨?_, ?_, h.bound, rfl, rfl, rfl⟩
    · rw [← hdistance]
      exact h.propagates
    · rw [h.scope]
      exact hfound
  have hoffered : candidate ∈ collected.accepted := by
    rw [haccepted, gathered_of_scanned hscanned]
    exact List.mem_filterMap.mpr ⟨entry, hentry, hcandidate'⟩
  have hpasses : (exceptionCheck collected.accepted candidate).isOk = true := by
    have hplain : candidate.entry.assignment.displaces = none := h.plain
    have hkind : ¬ candidate.entry.assignment.kind = .exception := h.targeted
    simp only [exceptionCheck, hplain, rejectIf, if_neg hkind]
    rfl
  exact ⟨candidate, List.mem_filter.mpr ⟨hoffered, hpasses⟩, hlevel, rfl⟩

theorem answer_agrees {image : StateImage} {query : PriorityQuery} {admitted : Admitted}
    {collected : Evidence} {winner : Candidate}
    (hwinner : winnerOf image query admitted.scopes collected = some winner)
    (hauthoritative : (answer image query admitted collected).authoritative = true)
    (houtcome : (answer image query admitted collected).outcome ≠ .conflict) :
    ∃ cls, ∀ candidate ∈ (filterExceptions collected).accepted,
      candidate.level =
          decidingLevel image admitted.scopes (filterExceptions collected).accepted →
        candidate.entry.assignment.cls = cls := by
  obtain ⟨first, others, hfilter⟩ := decided_of_winnerOf hwinner
  obtain ⟨builder, base, hanswer⟩ := answer_decided hfilter
  rw [hanswer, sealed_authoritative] at hauthoritative
  rw [hanswer, sealed_outcome] at houtcome
  have hagree := classes_agree hauthoritative houtcome
  refine ⟨first.entry.assignment.cls, fun candidate hmem hlevel => ?_⟩
  have hin : candidate ∈ first :: others := by
    rw [← hfilter]
    exact List.mem_filter.mpr ⟨hmem, by simpa using hlevel⟩
  rcases List.mem_cons.mp hin with rfl | hother
  · rfl
  · exact hagree candidate hother

/-- An authoritative decision that is neither a conflict nor a default has a winner, and
where the scan reached everything the winner's subject holds, whatever speaks at the
winner's level names one class. -/
theorem contradictions_reported {image : StateImage} {query : PriorityQuery}
    (hindex : Indexed image) (hauthoritative : (evaluateQuery image query).authoritative = true)
    (houtcome : (evaluateQuery image query).outcome ≠ .conflict)
    (hdefault : (evaluateQuery image query).resolution ≠ text "policy_default") :
    ∃ winner, evidenceBehind image query = some winner ∧
      (Scanned image winner.entry.assignment.subject →
        ∀ a b, Speaks image winner a → Speaks image winner b →
          a.assignment.cls = b.assignment.cls) := by
  rcases evaluateQuery_authoritative hauthoritative with ⟨hresolution, -⟩ | ⟨winner, hbehind, -⟩
  · exact absurd hresolution hdefault
  · refine ⟨winner, hbehind, fun hscanned a b ha hb => ?_⟩
    unfold evidenceBehind at hbehind
    unfold evaluateQuery at hauthoritative houtcome
    cases hgates : gates image query with
    | error decision => simp [hgates] at hbehind
    | ok admitted =>
        simp only [hgates] at hbehind hauthoritative houtcome
        cases hcollect : collectEvidence image admitted.scopes query.subject with
        | error e => simp [hcollect] at hbehind
        | ok collected =>
            simp only [hcollect] at hbehind hauthoritative houtcome
            obtain ⟨cls, hagree⟩ := answer_agrees hbehind hauthoritative houtcome
            obtain ⟨ca, hca, hlevela, rfl⟩ := ha.mem_level hindex hcollect hbehind hscanned
            obtain ⟨cb, hcb, hlevelb, rfl⟩ := hb.mem_level hindex hcollect hbehind hscanned
            rw [hagree ca hca hlevela, hagree cb hcb hlevelb]

/-- The subject holds these two assignments in the scope. -/
def twoHeld (limits : Limits) (first second : PriorityAssignment) : StateImage :=
  imageWith limits [{ id := oneSubject, generation := .first }]
    [{ id := oneScope, generation := .first }] [first, second]

def agreeingImage : StateImage :=
  twoHeld {} (assignmentOf ⟨[97], wellFormed_a⟩ lowClass)
    (assignmentOf ⟨[98], wellFormed_b⟩ lowClass)

theorem contradictions_reported_agreeing :
    (heldBy agreeingImage oneSubject).length = 2 ∧
      ∃ winner, evidenceBehind agreeingImage oneQuery = some winner ∧
        (Scanned agreeingImage winner.entry.assignment.subject →
          ∀ a b, Speaks agreeingImage winner a → Speaks agreeingImage winner b →
            a.assignment.cls = b.assignment.cls) :=
  ⟨by decide, contradictions_reported (indexed_imageWith _ _ _ _) (by decide)
    (by decide) (by decide)⟩

/-- Besides the assignment of the low class, an exception for the high class that displaces
nothing. -/
def exceptionImage : StateImage :=
  twoHeld {} (assignmentOf ⟨[97], wellFormed_a⟩ lowClass)
    { assignmentOf ⟨[98], wellFormed_b⟩ highClass with kind := .exception }

/-- Two assignments of different classes, of which a scan reads one. -/
def crowdedImage : StateImage :=
  twoHeld { maxQuerySteps := 1 } (assignmentOf ⟨[97], wellFormed_a⟩ lowClass)
    (assignmentOf ⟨[98], wellFormed_b⟩ highClass)

def storedAs (a : PriorityAssignment) : AssignmentEntry where
  assignment := a
  provenance := oneProvenance

theorem bound_of_isOk {image : StateImage} {via : SubjectId} {entry : AssignmentEntry}
    (h : (checkBinding image via entry).isOk = true) : Bound image entry := by
  cases hcheck : checkBinding image via entry with
  | error rejected =>
      rw [hcheck] at h
      cases h
  | ok u => exact checkBinding_eq_ok_iff.mp hcheck

theorem rival_of_checks {image : StateImage} {winner : Candidate} {a : PriorityAssignment}
    (hsubject : a.subject = winner.entry.assignment.subject)
    (hscope : a.scope = winner.entry.assignment.scope)
    (hstored : image.assignments[a.id]? = some (storedAs a))
    (hbound : (checkBinding image oneSubject (storedAs a)).isOk = true)
    (hplain : a.displaces = none) : Rival image winner (storedAs a) :=
  ⟨⟨a.id, hstored⟩, hsubject, hscope, bound_of_isOk hbound, hplain⟩

/-- The exception passes every binding check and names another class, and yet the answer
is authoritative and reports no conflict. -/
theorem targetless_exception_not_a_conflict :
    ¬ ∀ (image : StateImage) (query : PriorityQuery), image.health = .healthy →
      Indexed image → (evaluateQuery image query).authoritative = true →
      (evaluateQuery image query).outcome ≠ .conflict →
      (evaluateQuery image query).resolution ≠ text "policy_default" →
      ∃ winner, evidenceBehind image query = some winner ∧
        ∀ a b, Rival image winner a → Rival image winner b →
          a.assignment.cls = b.assignment.cls := by
  intro h
  obtain ⟨winner, hbehind, hagree⟩ := h exceptionImage oneQuery rfl (indexed_imageWith _ _ _ _)
    (by decide) (by decide) (by decide)
  have hplace : (evidenceBehind exceptionImage oneQuery).map
      (fun winner => (winner.entry.assignment.subject, winner.entry.assignment.scope)) =
        some (oneSubject, oneScope) := by decide
  rw [hbehind, Option.map_some, Option.some.injEq, Prod.mk.injEq] at hplace
  have hlow : Rival exceptionImage winner
      (storedAs (assignmentOf ⟨[97], wellFormed_a⟩ lowClass)) :=
    rival_of_checks hplace.1.symm hplace.2.symm (by decide) (by decide) rfl
  have hhigh : Rival exceptionImage winner
      (storedAs { assignmentOf ⟨[98], wellFormed_b⟩ highClass with kind := .exception }) :=
    rival_of_checks hplace.1.symm hplace.2.symm (by decide) (by decide) rfl
  have hsame : lowClass = highClass := hagree _ _ hlow hhigh
  exact absurd hsame (by decide)

/-- Where the scan stops short, the contradiction it did not reach is not reported. -/
theorem conflict_past_the_scan :
    ¬ ∀ (image : StateImage) (query : PriorityQuery), image.health = .healthy →
      Indexed image → (evaluateQuery image query).authoritative = true →
      (evaluateQuery image query).outcome ≠ .conflict →
      (evaluateQuery image query).resolution ≠ text "policy_default" →
      ∃ winner, evidenceBehind image query = some winner ∧
        ∀ a b, Speaks image winner a → Speaks image winner b →
          a.assignment.cls = b.assignment.cls := by
  intro h
  obtain ⟨winner, hbehind, hagree⟩ := h crowdedImage oneQuery rfl (indexed_imageWith _ _ _ _)
    (by decide) (by decide) (by decide)
  have hplace : (evidenceBehind crowdedImage oneQuery).map (fun winner =>
      (winner.entry.assignment.subject, winner.entry.assignment.scope,
        winner.inheritanceDistance)) = some (oneSubject, oneScope, 0) := by decide
  rw [hbehind, Option.map_some, Option.some.injEq, Prod.mk.injEq, Prod.mk.injEq] at hplace
  have hspeaks {a : PriorityAssignment} (h : Rival crowdedImage winner (storedAs a))
      (hkind : a.kind ≠ .exception) : Speaks crowdedImage winner (storedAs a) :=
    { h with propagates := fun hfar => absurd hplace.2.2 hfar.ne', targeted := hkind }
  have hlow : Rival crowdedImage winner
      (storedAs (assignmentOf ⟨[97], wellFormed_a⟩ lowClass)) :=
    rival_of_checks hplace.1.symm hplace.2.1.symm (by decide) (by decide) rfl
  have hhigh : Rival crowdedImage winner
      (storedAs (assignmentOf ⟨[98], wellFormed_b⟩ highClass)) :=
    rival_of_checks hplace.1.symm hplace.2.1.symm (by decide) (by decide) rfl
  have hsame : lowClass = highClass :=
    hagree _ _ (hspeaks hlow (by decide)) (hspeaks hhigh (by decide))
  exact absurd hsame (by decide)

end PriorityFabric.Contradictions
