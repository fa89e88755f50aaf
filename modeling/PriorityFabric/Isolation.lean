import PriorityFabric.LiveIndex
import PriorityFabric.Views

/-!
Assignments of other subjects leave a decision alone.
-/

namespace PriorityFabric.Isolation

open PriorityFabric.Lib.LittleEndian
open PriorityFabric.Lib.GroupIndex
open PriorityFabric.Lib.KeyedTable (getElem?_insert_of_ne)
open PriorityFabric.Basics
open PriorityFabric.Ident
open PriorityFabric.Model
open PriorityFabric.State
open PriorityFabric.Validate
open PriorityFabric.Apply
open PriorityFabric.ApplyFacts
open PriorityFabric.Evaluate
open PriorityFabric.UsableEvidence
open PriorityFabric.Decisions
open PriorityFabric.Holdings
open PriorityFabric.LiveIndex
open PriorityFabric.Views

/-- The images agree on all an evaluation goes by, apart from one assignment and at most the
bucket of one subject. -/
structure Republished (a b : StateImage) (id : PriorityAssignmentId)
    (subject : Option SubjectId) : Prop where
  setting : overlaid a b = b
  assignments : ∀ other, other ≠ id → b.assignments[other]? = a.assignments[other]?
  index : ∀ holder, some holder ≠ subject →
    b.assignmentsBySubject.getD holder [] = a.assignmentsBySubject.getD holder []

theorem getD_insert_of_ne {K V : Type} [Ord K] [Std.LawfulEqOrd K] [Std.TransOrd K]
    {table : Std.ExtTreeMap K V} {key other : K} (value fallback : V) (h : other ≠ key) :
    (table.insert key value).getD other fallback = table.getD other fallback := by
  simp only [Std.ExtTreeMap.getD_eq_getD_getElem?, getElem?_insert_of_ne value h.symm]

theorem republished_assign {image image' : StateImage} {mutation : Mutation} {replay : Bool}
    {a : PriorityAssignment} (hop : mutation.op = .assign a)
    (happly : applyMutation image mutation replay = (.ok (), image')) :
    Republished image image' a.id (some a.subject) := by
  obtain ⟨expected, -, happlied⟩ := applyMutation_eq_ok_iff.mp happly
  cases happlied with
  | repeated hrepeated => exact ⟨rfl, fun _ _ => rfl, fun _ _ => rfl⟩
  | performed hfresh hperform =>
      rw [perform, hop] at hperform
      cases admitAssignment_eq_ok hperform with
      | refreshed hold hsame =>
          exact ⟨rfl, fun other hne => getElem?_insert_of_ne _ hne.symm, fun _ _ => rfl⟩
      | stored hset hchanged =>
          exact ⟨rfl, fun other hne => getElem?_insert_of_ne _ hne.symm,
            fun holder hne => getD_insert_of_ne _ _ fun heq => hne (congrArg some heq)⟩

theorem republished_retire {image image' : StateImage} {mutation : Mutation} {replay : Bool}
    {id : PriorityAssignmentId} (hop : mutation.op = .retireAssignment id)
    (happly : applyMutation image mutation replay = (.ok (), image')) :
    Republished image image' id none := by
  obtain ⟨expected, -, happlied⟩ := applyMutation_eq_ok_iff.mp happly
  cases happlied with
  | repeated hrepeated => exact ⟨rfl, fun _ _ => rfl, fun _ _ => rfl⟩
  | performed hfresh hperform =>
      cases perform_eq_ok hperform with
      | retire target entry generation hretire hentry hnext =>
          rw [hop] at hretire
          cases hretire
          exact ⟨rfl, fun other hne => getElem?_insert_of_ne _ hne.symm, fun _ _ => rfl⟩
      | _ => simp_all

theorem heldBy_republished {a b : StateImage} {id : PriorityAssignmentId}
    {subject : Option SubjectId} (h : Republished a b id subject) (hindex : Indexed a)
    {holder : SubjectId} (hholder : some holder ≠ subject)
    (hid : ∀ entry, a.assignments[id]? = some entry → entry.assignment.subject ≠ holder) :
    heldBy b holder = heldBy a holder := by
  unfold heldBy entriesOf
  rw [h.index holder hholder]
  refine List.filterMap_congr fun other hother => ?_
  obtain ⟨entry, hentry, hsubject⟩ := (hindex.exact.mem_iff holder other).mp hother
  refine h.assignments other ?_
  rintro rfl
  exact hid entry hentry hsubject

theorem evaluateQuery_republished {a b : StateImage} {id : PriorityAssignmentId}
    {subject : Option SubjectId} {query : PriorityQuery} (h : Republished a b id subject)
    (hindex : Indexed a)
    (hsubject : ∀ holder, subject = some holder → ¬ Consulted a query.subject holder)
    (hid : ∀ entry, a.assignments[id]? = some entry →
      ¬ Consulted a query.subject entry.assignment.subject) :
    ∃ generation digest, evaluateQuery b query =
      { evaluateQuery a query with stateGeneration := generation, digest } := by
  have hsame : SameHoldings a b query.subject := by
    intro holder hholder
    refine heldBy_republished h hindex ?_ ?_
    · rintro rfl
      exact hsubject holder rfl hholder
    · rintro entry hentry rfl
      exact hid entry hentry hholder
  have hevaluated := evaluateQuery_overlaid hsame
  rw [h.setting] at hevaluated
  obtain ⟨digest, heq⟩ := exists_digest_of_unstamped hevaluated
  exact ⟨_, digest, heq⟩

theorem stored_assign {image image' : StateImage} {mutation : Mutation} {replay : Bool}
    {a : PriorityAssignment} (hop : mutation.op = .assign a)
    (happly : applyMutation image mutation replay = (.ok (), image')) :
    ∃ entry, image'.assignments[a.id]? = some entry ∧ entry.assignment.subject = a.subject := by
  have hcontent {old : PriorityAssignment} (h : sameAssignmentContent old a = true) :
      old.subject = a.subject := by
    simp only [sameAssignmentContent, Bool.and_eq_true, decide_eq_true_eq] at h
    tauto
  obtain ⟨expected, -, happlied⟩ := applyMutation_eq_ok_iff.mp happly
  cases happlied with
  | repeated hrepeated =>
      simp only [isIdempotent, hop] at hrepeated
      cases hentry : image.assignments[a.id]? with
      | none => simp [hentry] at hrepeated
      | some entry =>
          simp only [hentry, Bool.and_eq_true] at hrepeated
          exact ⟨entry, hentry, hcontent hrepeated.1.2⟩
  | performed hfresh hperform =>
      rw [perform, hop] at hperform
      cases admitAssignment_eq_ok hperform with
      | refreshed hold hsame =>
          simp only [Bool.and_eq_true] at hsame
          exact ⟨_, Std.ExtTreeMap.getElem?_insert_self, hcontent hsame.2⟩
      | stored hset hchanged => exact ⟨_, Std.ExtTreeMap.getElem?_insert_self, rfl⟩

/-- The assignment a mutation publishes or retires. -/
def assignmentOf? (mutation : Mutation) : Option PriorityAssignmentId :=
  match mutation.op with
  | .assign a => some a.id
  | .retireAssignment id => some id
  | _ => none

/-- An accepted assignment or retirement, on an image with its index in order, that concerns
neither the queried subject nor an ancestor of it before or after: the decision stays the
same in every field but the generation of the image and the digest. -/
theorem subjects_do_not_interfere {image image' : StateImage} {mutation : Mutation}
    {replay : Bool} {query : PriorityQuery} {id : PriorityAssignmentId}
    (hindex : Indexed image) (hid : assignmentOf? mutation = some id)
    (happly : applyMutation image mutation replay = (.ok (), image'))
    (hbefore : ∀ entry, image.assignments[id]? = some entry →
      ¬ Consulted image query.subject entry.assignment.subject)
    (hafter : ∀ entry, image'.assignments[id]? = some entry →
      ¬ Consulted image query.subject entry.assignment.subject) :
    ∃ generation digest, evaluateQuery image' query =
      { evaluateQuery image query with stateGeneration := generation, digest } := by
  unfold assignmentOf? at hid
  cases hop : mutation.op with
  | assign a =>
      simp only [hop, Option.some.injEq] at hid
      subst hid
      obtain ⟨entry, hentry, hsubject⟩ := stored_assign hop happly
      refine evaluateQuery_republished (republished_assign hop happly) hindex ?_ hbefore
      rintro holder ⟨⟩
      rw [← hsubject]
      exact hafter entry hentry
  | retireAssignment target =>
      simp only [hop, Option.some.injEq] at hid
      subst hid
      refine evaluateQuery_republished (republished_retire hop happly) hindex ?_ hbefore
      rintro holder ⟨⟩
  | _ => simp [hop] at hid

/-- A second assignment, for the second subject. -/
def assignSecond : Mutation where
  op := .assign
    { id := ⟨[98], wellFormed_b⟩, subject := secondSubject, subjectGeneration := .first
      scope := ⟨[97], wellFormed_a⟩, scopeGeneration := .first
      cls := ⟨[108], wellFormed_l⟩, classGeneration := .first }
  system := true

def firstQuery : PriorityQuery := { subject := firstSubject, scope := ⟨[97], wellFormed_a⟩ }

theorem not_consulted_second : ¬ Consulted assigned firstQuery.subject secondSubject := by
  rintro (heq | hancestor)
  · exact absurd heq (by decide)
  · obtain ⟨parent, hparent, -⟩ := Relation.TransGen.head'_iff.mp hancestor
    have hnone : subjectParents assigned firstQuery.subject = [] := by decide
    rw [hnone] at hparent
    cases hparent

theorem subjects_do_not_interfere_second :
    ∃ generation digest, evaluateQuery (after assigned assignSecond) firstQuery =
      { evaluateQuery assigned firstQuery with stateGeneration := generation, digest } := by
  have happly : applyMutation assigned assignSecond false =
      (.ok (), after assigned assignSecond) := accepted_after (by decide)
  refine subjects_do_not_interfere (indexed_of_exact builtNew_assigned.exactIndex) rfl happly
    ?_ ?_
  · intro entry hentry
    have hnone : assigned.assignments[(⟨[98], wellFormed_b⟩ : PriorityAssignmentId)]? = none := by
      decide
    rw [hnone] at hentry
    cases hentry
  · intro entry hentry
    obtain ⟨stored, hstored, hsubject⟩ := stored_assign rfl happly
    cases hstored.symm.trans hentry
    rw [hsubject]
    exact not_consulted_second

end PriorityFabric.Isolation
