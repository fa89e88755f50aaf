import PriorityFabric.Ancestry
import PriorityFabric.Decisions
import PriorityFabric.DecisionCodec
import PriorityFabric.Registry

/-!
How long the texts of an explanation are.

They are composed of the identifiers an image holds.  With a bound on those, every text has a
bound of its own, which is measured here against what the decoder accepts.
-/

namespace PriorityFabric.Measured

open PriorityFabric.Lib.LittleEndian
open PriorityFabric.Basics
open PriorityFabric.Ident
open PriorityFabric.Model
open PriorityFabric.Codec
open PriorityFabric.Codec.Decoder (IdReadable)
open PriorityFabric.ModelCodec
open PriorityFabric.State
open PriorityFabric.Validate
open PriorityFabric.Apply
open PriorityFabric.ApplyFacts
open PriorityFabric.Evaluate
open PriorityFabric.UsableEvidence
open PriorityFabric.Ancestry
open PriorityFabric.Decisions
open PriorityFabric.DecisionCodec
open PriorityFabric.Bounds
open PriorityFabric.Registry

def Named {tag : IdTag} (n : Nat) (id : BasicId tag) : Prop :=
  id.value ≠ [] ∧ id.value.length ≤ n

/-- The identifiers an image holds have at most `n` bytes, and reasons of retirements at
most `r`. -/
structure Spelled (n r : Nat) (image : StateImage) : Prop where
  classes : ∀ id ∈ image.classes, Named n id
  scopes : ∀ id ∈ image.scopes, Named n id
  policies : ∀ id ∈ image.policies, Named n id
  subjects : ∀ id ∈ image.subjects, Named n id
  assignments : ∀ id ∈ image.assignments, Named n id
  publishers : ∀ (id : PriorityAssignmentId) entry, image.assignments[id]? = some entry →
    entry.provenance.publisher.value.length ≤ n
  reasons : ∀ (id : PriorityAssignmentId) entry, image.assignments[id]? = some entry →
    entry.retirementReason.length ≤ r

/-- The same without saying that identifiers are set. -/
structure Short (n r : Nat) (image : StateImage) : Prop where
  classes : ∀ id ∈ image.classes, id.value.length ≤ n
  scopes : ∀ id ∈ image.scopes, id.value.length ≤ n
  policies : ∀ id ∈ image.policies, id.value.length ≤ n
  subjects : ∀ id ∈ image.subjects, id.value.length ≤ n
  assignments : ∀ id ∈ image.assignments, id.value.length ≤ n
  publishers : ∀ (id : PriorityAssignmentId) entry, image.assignments[id]? = some entry →
    entry.provenance.publisher.value.length ≤ n
  reasons : ∀ (id : PriorityAssignmentId) entry, image.assignments[id]? = some entry →
    entry.retirementReason.length ≤ r

/-- The decoder's bounds leave room for texts over such identifiers. -/
structure Room (n r : Nat) (limits : Limits) : Prop where
  ids : n ≤ limits.maxIdLength
  reasons : 2 * n + r + 70 ≤ limits.maxDescriptionLength
  texts : 4 * n + 200 ≤ limits.maxDescriptionLength

/-- Every entry stands under an identifier that is set. -/
structure KeysSet (image : StateImage) : Prop where
  classes : ∀ id ∈ image.classes, id.value ≠ []
  scopes : ∀ id ∈ image.scopes, id.value ≠ []
  policies : ∀ id ∈ image.policies, id.value ≠ []
  subjects : ∀ id ∈ image.subjects, id.value ≠ []
  assignments : ∀ id ∈ image.assignments, id.value ≠ []

/-- The identifier an operation stores something under is set. -/
def OpNamed : MutationOp → Prop
  | .defineClass d => d.id.value ≠ []
  | .defineScope d => d.id.value ≠ []
  | .definePolicy d => d.id.value ≠ []
  | .defineSubject d => d.id.value ≠ []
  | .assign a => a.id.value ≠ []
  | _ => True

theorem opNamed_of_validateMutation {image : StateImage} {mutation : Mutation}
    (h : validateMutation image mutation = .ok ()) : OpNamed mutation.op := by
  obtain ⟨op⟩ := mutation
  cases op with
  | defineClass d =>
      simp only [validateMutation, validateClass, bind_eq_ok, failIf_eq_ok, exists_const,
        Bool.not_eq_false] at h
      exact (BasicId.valid_iff _).mp h.1
  | defineScope d =>
      simp only [validateMutation, validateScope, bind_eq_ok, failIf_eq_ok, exists_const,
        Bool.not_eq_false] at h
      exact (BasicId.valid_iff _).mp h.1
  | definePolicy d =>
      simp only [validateMutation, validatePolicy, bind_eq_ok, failIf_eq_ok, exists_const,
        Bool.not_eq_false] at h
      exact (BasicId.valid_iff _).mp h.1
  | defineSubject d =>
      simp only [validateMutation, validateSubject, bind_eq_ok, failIf_eq_ok, exists_const,
        Bool.not_eq_false] at h
      exact (BasicId.valid_iff _).mp h.1
  | assign a =>
      simp only [validateMutation, validateAssignment, bind_eq_ok, failIf_eq_ok, exists_const,
        Bool.not_eq_false] at h
      exact (BasicId.valid_iff _).mp h.1
  | retireAssignment target => trivial
  | grantAuthority => trivial
  | fenceAuthority publisher boot => trivial
  | advanceEpoch => trivial

theorem set_insert {tag : IdTag} {V : Type} {table : Std.ExtTreeMap (BasicId tag) V}
    (h : ∀ id : BasicId tag, id ∈ table → id.value ≠ []) {key : BasicId tag}
    (hkey : key.value ≠ []) (v : V) :
    ∀ id : BasicId tag, id ∈ table.insert key v → id.value ≠ [] := by
  intro id hid
  rw [Std.ExtTreeMap.mem_insert, Std.LawfulEqOrd.compare_eq_iff_eq] at hid
  rcases hid with rfl | hid
  · exact hkey
  · exact h id hid

theorem keysSet_of_performed {image result : StateImage} {mutation : Mutation}
    {provenance : Provenance} (h : Performed image mutation provenance result)
    (hkeys : KeysSet image) (hnamed : OpNamed mutation.op) : KeysSet result := by
  cases h with
  | «class» d entry hop hentry =>
      rw [hop] at hnamed
      exact { hkeys with classes := set_insert hkeys.classes hnamed entry }
  | scope d entry hop hentry =>
      rw [hop] at hnamed
      exact { hkeys with scopes := set_insert hkeys.scopes hnamed entry }
  | policy d entry hop hentry =>
      rw [hop] at hnamed
      exact { hkeys with policies := set_insert hkeys.policies hnamed entry }
  | subject d entry hop hentry =>
      rw [hop] at hnamed
      exact { hkeys with subjects := set_insert hkeys.subjects hnamed entry }
  | assign a result hop hadmitted =>
      rw [hop] at hnamed
      cases hadmitted with
      | refreshed hold hsame =>
          exact { hkeys with assignments := set_insert hkeys.assignments hnamed _ }
      | stored hset hchanged =>
          exact { hkeys with assignments := set_insert hkeys.assignments hnamed _ }
  | retire target entry generation hop hentry hnext =>
      have hmem : target ∈ image.assignments := (getElem?_eq_some_iff.mp hentry).1
      exact { hkeys with
        assignments := set_insert hkeys.assignments (hkeys.assignments target hmem) _ }
  | grant hop hpositive hroom => exact { hkeys with }
  | fence publisher boot hop => exact { hkeys with }
  | advance epoch hop hnext => exact { hkeys with }

theorem keysSet_of_built {limits : Limits} {image : StateImage} (h : Built limits image) :
    KeysSet image := by
  induction h with
  | empty => exact ⟨by simp, by simp, by simp, by simp, by simp⟩
  | @accepted image image' mutation replay h happly ih =>
      obtain ⟨expected, hadmissible, happlied⟩ := applyMutation_eq_ok_iff.mp happly
      have hrecorded : KeysSet (recordAccepted image mutation expected) := { ih with }
      cases happlied with
      | repeated hrepeated => exact hrecorded
      | performed hfresh hperform =>
          have hnamed := opNamed_of_validateMutation hadmissible.valid
          have hperformed := keysSet_of_performed (perform_eq_ok hperform) hrecorded hnamed
          exact { hperformed with }

theorem spelled_of_short {n r : Nat} {image : StateImage} (hkeys : KeysSet image)
    (h : Short n r image) : Spelled n r image where
  classes id hid := ⟨hkeys.classes id hid, h.classes id hid⟩
  scopes id hid := ⟨hkeys.scopes id hid, h.scopes id hid⟩
  policies id hid := ⟨hkeys.policies id hid, h.policies id hid⟩
  subjects id hid := ⟨hkeys.subjects id hid, h.subjects id hid⟩
  assignments id hid := ⟨hkeys.assignments id hid, h.assignments id hid⟩
  publishers := h.publishers
  reasons := h.reasons

/-- What a stored assignment contributes to an explanation. -/
structure EntrySpelled (n r : Nat) (entry : AssignmentEntry) : Prop where
  id : Named n entry.assignment.id
  subject : Named n entry.assignment.subject
  scope : Named n entry.assignment.scope
  cls : Named n entry.assignment.cls
  policy : ∀ policy, entry.assignment.policy = some policy → Named n policy
  displaces : ∀ cls, entry.assignment.displaces = some cls → Named n cls
  publisher : entry.provenance.publisher.value.length ≤ n
  op : entry.provenance.op.length ≤ maxOpLength
  reason : entry.retirementReason.length ≤ r

theorem mem_of_boundTo {K V : Type} [Ord K] [Std.TransOrd K] {generation : V → Generation}
    {table : Std.ExtTreeMap K V} {id : K} {bound : Generation}
    (h : BoundTo generation table id bound) : id ∈ table := by
  obtain ⟨-, entry, hentry, -⟩ := h
  exact (getElem?_eq_some_iff.mp hentry).1

section Entries

variable {n r : Nat} {image : StateImage}

theorem entrySpelled_of_stored (hregistered : Registered image) (hbounded : Bounded image)
    (hspelled : Spelled n r image) {id : PriorityAssignmentId} {entry : AssignmentEntry}
    (h : image.assignments[id]? = some entry) : EntrySpelled n r entry := by
  have hrefs := (hregistered.assignments.good id entry h).refs
  have hfits := hbounded.tables.assignments.good id entry h
  have hmem : id ∈ image.assignments := (getElem?_eq_some_iff.mp h).1
  have hkey : entry.assignment.id = id := hregistered.assignments.key_eq id entry h
  exact
    { id := hkey ▸ hspelled.assignments id hmem
      subject := hspelled.subjects _ (mem_of_boundTo hrefs.subject)
      scope := hspelled.scopes _ (mem_of_boundTo hrefs.scope)
      cls := hspelled.classes _ (mem_of_boundTo hrefs.cls)
      policy := fun policy hpolicy =>
        hspelled.policies _ (mem_of_boundTo (hrefs.policy policy hpolicy))
      displaces := fun cls hcls => hspelled.classes _ (hrefs.displaces cls hcls)
      publisher := hspelled.publishers id entry h
      op := hfits.provenance
      reason := hspelled.reasons id entry h }

end Entries

theorem Named.readable {tag : IdTag} {n : Nat} {limits : Limits} {id : BasicId tag}
    (h : Named n id) (hn : n ≤ limits.maxIdLength) : IdReadable limits id :=
  ⟨h.1, h.2.trans hn⟩

theorem length_decimal_le_twenty {v : Nat} (h : v < 2 ^ 64) : (decimal v).length ≤ 20 := by
  unfold decimal
  split
  · simp
  · simp only [List.length_map, List.length_reverse]
    rw [Nat.digits_length_le_iff (by norm_num)]
    exact h.trans (by norm_num)

theorem length_decimal_u64 (v : UInt64) : (decimal v.toNat).length ≤ 20 :=
  length_decimal_le_twenty v.toNat_lt

section Texts

variable {n r : Nat} {entry : AssignmentEntry} (h : EntrySpelled n r entry)
include h

theorem length_describeAssignment_le :
    (describeAssignment entry.assignment).length ≤ 52 + 3 * n := by
  have hkind : entry.assignment.kind.name.length ≤ 9 := by
    cases entry.assignment.kind <;> decide
  have h1 : (text " assignment '").length = 13 := by decide
  have h2 : (text "' in scope '").length = 12 := by decide
  have h3 : (text "' selects class '").length = 17 := by decide
  have h4 : (text "'").length = 1 := by decide
  have hid := h.id.2
  have hscope := h.scope.2
  have hcls := h.cls.2
  simp only [describeAssignment, List.length_append]
  omega

theorem length_assignmentNamed_le : (assignmentNamed entry).length ≤ 13 + n := by
  have h1 : (text "assignment '").length = 12 := by decide
  have h2 : (text "'").length = 1 := by decide
  have hid := h.id.2
  simp only [assignmentNamed, List.length_append]
  omega

end Texts

theorem length_hex (boot : BootId) : boot.hex.length = 32 := by
  simp [BootId.hex]

/-- Bound of the text that says why evidence was refused. -/
def refusalLength (n r : Nat) : Nat := max (n + r + 46) (2 * n + 130)

structure RefusalSpelled (n r : Nat) (item : RejectedEvidence) : Prop where
  entry : EntrySpelled n r item.entry
  via : item.viaSubject.value.length ≤ n
  code : item.code.length ≤ 32
  detail : item.detail.length ≤ refusalLength n r

section Refusals

variable {n r : Nat} {image : StateImage} {entry : AssignmentEntry} {via : SubjectId}
variable (h : EntrySpelled n r entry) (hvia : via.value.length ≤ n)
include h hvia

theorem spelled_authorityBinding {item : RejectedEvidence}
    (hbinding : authorityBinding image via entry = .error item) : RefusalSpelled n r item := by
  have hnamed := length_assignmentNamed_le h
  have hpublisher := h.publisher
  have hreason := h.reason
  simp only [authorityBinding, except_bind_eq_error, rejectIf_eq_error] at hbinding
  rcases hbinding with ⟨-, rfl⟩ | ⟨_, -, ⟨-, rfl⟩ | ⟨_, -, -, rfl⟩⟩
  · refine ⟨h, hvia, Nat.le_of_ble_eq_true rfl, ?_⟩
    have h1 : (text " was retired: ").length = 14 := by decide
    have h2 : (text "no reason recorded").length = 18 := by decide
    simp only [List.length_append, refusalLength]
    split <;> omega
  · refine ⟨h, hvia, Nat.le_of_ble_eq_true rfl, ?_⟩
    have h1 : (text " was published by publisher '").length = 29 := by decide
    have h2 : (text "' incarnation ").length = 14 := by decide
    have h3 : (text " which no longer holds authority").length = 32 := by decide
    simp only [List.length_append, refusalLength, length_hex]
    omega
  · refine ⟨h, hvia, Nat.le_of_ble_eq_true rfl, ?_⟩
    have h1 : (text " was published under epoch ").length = 27 := by decide
    have h2 : (text " and the fabric is at epoch ").length = 28 := by decide
    have hepoch := length_decimal_u64 entry.provenance.epoch.value
    have hnow := length_decimal_u64 image.epoch.value
    simp only [List.length_append, refusalLength]
    omega

theorem spelled_classBinding {item : RejectedEvidence}
    (hbinding : classBinding image via entry = .error item) : RefusalSpelled n r item := by
  have hnamed := length_assignmentNamed_le h
  have hcls := h.cls.2
  unfold classBinding at hbinding
  split at hbinding
  · cases hbinding
    refine ⟨h, hvia, Nat.le_of_ble_eq_true rfl, ?_⟩
    have h1 : (text " names class '").length = 14 := by decide
    have h2 : (text "' which is no longer registered").length = 31 := by decide
    simp only [List.length_append, refusalLength]
    omega
  · rename_i node hnode
    obtain ⟨-, rfl⟩ := rejectIf_eq_error.mp hbinding
    refine ⟨h, hvia, Nat.le_of_ble_eq_true rfl, ?_⟩
    have h1 : (text " binds class '").length = 14 := by decide
    have h2 : (text "' generation ").length = 13 := by decide
    have h3 : (text " which has been superseded by generation ").length = 41 := by decide
    have hbound := length_decimal_u64 entry.assignment.classGeneration.value
    have hnow := length_decimal_u64 node.definition.generation.value
    simp only [List.length_append, refusalLength]
    omega

theorem spelled_policyBinding {item : RejectedEvidence}
    (hbinding : policyBinding image via entry = .error item) : RefusalSpelled n r item := by
  have hnamed := length_assignmentNamed_le h
  unfold policyBinding at hbinding
  split at hbinding
  · cases hbinding
  · rename_i policy hpolicy
    obtain ⟨-, rfl⟩ := rejectIf_eq_error.mp hbinding
    refine ⟨h, hvia, Nat.le_of_ble_eq_true rfl, ?_⟩
    have h1 : (text " binds policy '").length = 15 := by decide
    have h2 : (text "' generation ").length = 13 := by decide
    have h3 : (text " which has been superseded").length = 26 := by decide
    have hlength := (h.policy policy hpolicy).2
    have hbound := length_decimal_u64 entry.assignment.policyGeneration.value
    simp only [List.length_append, refusalLength]
    omega

theorem spelled_generationBinding {item : RejectedEvidence}
    (hbinding : generationBinding image via entry = .error item) : RefusalSpelled n r item := by
  have hnamed := length_assignmentNamed_le h
  have hsubject := h.subject.2
  have hscope := h.scope.2
  have hcls := h.cls.2
  have h1 : (text "' generation ").length = 13 := by decide
  have h2 : (text " which has been superseded").length = 26 := by decide
  simp only [generationBinding, except_bind_eq_error, rejectIf_eq_error] at hbinding
  rcases hbinding with ⟨-, rfl⟩ | ⟨_, -, ⟨-, rfl⟩ | ⟨_, -, hclass | ⟨_, -, hpolicy |
    ⟨_, -, -, rfl⟩⟩⟩⟩
  · refine ⟨h, hvia, Nat.le_of_ble_eq_true rfl, ?_⟩
    have h3 : (text " binds subject '").length = 16 := by decide
    have hbound := length_decimal_u64 entry.assignment.subjectGeneration.value
    simp only [List.length_append, refusalLength]
    omega
  · refine ⟨h, hvia, Nat.le_of_ble_eq_true rfl, ?_⟩
    have h3 : (text " binds scope '").length = 14 := by decide
    have hbound := length_decimal_u64 entry.assignment.scopeGeneration.value
    simp only [List.length_append, refusalLength]
    omega
  · exact spelled_classBinding h hvia hclass
  · exact spelled_policyBinding h hvia hpolicy
  · refine ⟨h, hvia, Nat.le_of_ble_eq_true rfl, ?_⟩
    have h3 : (text "class '").length = 7 := by decide
    have h4 : (text "' is not visible in scope '").length = 27 := by decide
    have h5 : (text "' under the effective policy").length = 28 := by decide
    simp only [List.length_append, refusalLength]
    omega

theorem spelled_checkBinding {item : RejectedEvidence}
    (hbinding : checkBinding image via entry = .error item) : RefusalSpelled n r item := by
  simp only [checkBinding, except_bind_eq_error] at hbinding
  rcases hbinding with hauthority | ⟨_, -, hgeneration⟩
  · exact spelled_authorityBinding h hvia hauthority
  · exact spelled_generationBinding h hvia hgeneration

theorem spelled_refusalOf {scopes : List PolicyScopeId} {distance : Nat}
    {item : RejectedEvidence} (hrefusal : refusalOf image scopes via distance entry = some item) :
    RefusalSpelled n r item := by
  unfold refusalOf at hrefusal
  split at hrefusal
  · rename_i level rejected hverdict
    cases hrefusal
    unfold verdictOn at hverdict
    split at hverdict
    · cases hverdict
    · obtain ⟨found, -, hpair⟩ := Option.map_eq_some_iff.mp hverdict
      exact spelled_checkBinding h hvia (congrArg Prod.snd hpair)
  · cases hrefusal

theorem spelled_budgetRefusal (hbudget : image.limits.maxQuerySteps < 2 ^ 64) :
    RefusalSpelled n r (budgetRefusal image via entry) := by
  refine ⟨h, hvia, Nat.le_of_ble_eq_true rfl, ?_⟩
  have h1 : (text "subject '").length = 9 := by decide
  have h2 : (text "' holds more assignments than the evaluation budget of ").length = 55 := by
    decide
  have hsteps := length_decimal_le_twenty hbudget
  simp only [budgetRefusal, List.length_append, refusalLength]
  omega

end Refusals

/-- An ancestor that is listed is registered, at a distance within the limit. -/
def Recorded (image : StateImage) (entry : SubjectId × Nat) : Prop :=
  entry.1 ∈ image.subjects ∧ entry.2 ≤ image.limits.maxInheritanceDepth

section Walk

variable {image : StateImage} {id : SubjectId}

theorem recorded_of_fold {frontier : List (SubjectId × Nat)} {level level' : AncestorLevel}
    (h : ∀ entry ∈ level.out, Recorded image entry)
    (hfold : frontier.foldlM (ancestorStep image id) level = .ok level') :
    ∀ entry ∈ level'.out, Recorded image entry := by
  induction frontier generalizing level with
  | nil =>
      cases hfold
      exact h
  | cons entry frontier ih =>
      rw [List.foldlM_cons, bind_eq_ok] at hfold
      obtain ⟨middle, hstep, hrest⟩ := hfold
      refine ih ?_ hrest
      rcases ancestorStep_eq_ok hstep with ⟨-, rfl⟩ | ⟨-, hdepth, node, hnode, rfl⟩
      · exact h
      · intro found hfound
        rcases List.mem_append.mp hfound with hold | hlast
        · exact h found hold
        · obtain rfl := List.mem_singleton.mp hlast
          exact ⟨(getElem?_eq_some_iff.mp hnode).1, hdepth⟩

theorem recorded_of_loop (fuel : Nat) {seen : List SubjectId}
    {out frontier result : List (SubjectId × Nat)} (hout : ∀ entry ∈ out, Recorded image entry)
    (h : ancestorLoop image id fuel seen out frontier = .ok result) :
    ∀ entry ∈ result, Recorded image entry := by
  induction fuel generalizing seen out frontier with
  | zero =>
      cases h
      exact hout
  | succ fuel ih =>
      cases frontier with
      | nil =>
          cases h
          exact hout
      | cons entry frontier =>
          simp only [ancestorLoop, bind_eq_ok] at h
          obtain ⟨level, hfold, hrest⟩ := h
          have hstart : ∀ entry ∈ ({ seen, out } : AncestorLevel).out, Recorded image entry :=
            hout
          exact ih (recorded_of_fold hstart hfold) hrest

theorem recorded_of_subjectAncestors {ancestors : List (SubjectId × Nat)}
    (h : subjectAncestors image id = .ok ancestors) :
    ∀ entry ∈ ancestors, Recorded image entry := by
  unfold subjectAncestors at h
  cases hroot : image.subjects[id]? with
  | none => simp [hroot] at h
  | some root =>
      simp only [hroot, bind_eq_ok, pure, Except.pure, Except.ok.injEq] at h
      obtain ⟨out, hloop, rfl⟩ := h
      intro entry hentry
      rw [List.mem_mergeSort] at hentry
      exact recorded_of_loop _ (by simp) hloop entry hentry

end Walk

structure CandidateSpelled (n r : Nat) (candidate : Candidate) : Prop where
  entry : EntrySpelled n r candidate.entry
  via : Named n candidate.viaSubject
  distance : candidate.inheritanceDistance < 2 ^ 64

structure EvidenceSpelled (n r count : Nat) (evidence : Evidence) : Prop where
  accepted : ∀ candidate ∈ evidence.accepted, CandidateSpelled n r candidate
  rejected : ∀ item ∈ evidence.rejected, RefusalSpelled n r item
  count : evidence.accepted.length ≤ count

/-- What the texts of an evaluation rely on. -/
structure Legible (n r : Nat) (image : StateImage) : Prop where
  registered : Registered image
  bounded : Bounded image
  spelled : Spelled n r image
  limits : limitsWithinCompiledCeiling image.limits = true

theorem searchBounds_of_within {limits : Limits}
    (h : limitsWithinCompiledCeiling limits = true) :
    limits.maxQuerySteps ≤ 256 ∧ limits.maxInheritanceDepth ≤ 32 ∧
      limits.maxExplanationSteps ≤ 64 := by
  simp only [limitsWithinCompiledCeiling, Bool.and_eq_true, decide_eq_true_eq] at h
  change _ ∧ _ at h
  simp only [compiledLimitsCeiling] at h
  omega

section Collecting

variable {n r : Nat} {image : StateImage} (h : Legible n r image)
include h

theorem spelled_gathered (scopes : List PolicyScopeId) {subject : SubjectId} {distance : Nat}
    (hsubject : subject ∈ image.subjects) (hdistance : distance < 2 ^ 64) :
    EvidenceSpelled n r 256 (gathered image scopes subject distance) := by
  obtain ⟨hbudget, -, -⟩ := searchBounds_of_within h.limits
  have hvia := h.spelled.subjects subject hsubject
  have hentry : ∀ entry ∈ entriesOf image (image.assignmentsBySubject.getD subject []),
      EntrySpelled n r entry := by
    intro entry hmem
    simp only [entriesOf, List.mem_filterMap] at hmem
    obtain ⟨id, -, hid⟩ := hmem
    exact entrySpelled_of_stored h.registered h.bounded h.spelled hid
  refine ⟨?_, ?_, ?_⟩
  · intro candidate hcandidate
    simp only [gathered, within, List.mem_filterMap] at hcandidate
    obtain ⟨entry, hmem, hcandidate⟩ := hcandidate
    obtain ⟨-, -, -, rfl, rfl, rfl⟩ := candidateOf_eq_some_iff.mp hcandidate
    exact ⟨hentry _ (List.mem_of_mem_take hmem), hvia, hdistance⟩
  · intro item hitem
    simp only [gathered, within, List.mem_append, List.mem_filterMap, Option.mem_toList,
      Option.map_eq_some_iff] at hitem
    rcases hitem with ⟨entry, hmem, hrefusal⟩ | ⟨entry, hmem, rfl⟩
    · exact spelled_refusalOf (hentry _ (List.mem_of_mem_take hmem)) hvia.2 hrefusal
    · have hdropped := List.mem_of_mem_drop (List.mem_of_mem_head? hmem)
      exact spelled_budgetRefusal (hentry _ hdropped) hvia.2 (by omega)
  · have htake := List.length_take_le image.limits.maxQuerySteps
      (entriesOf image (image.assignmentsBySubject.getD subject []))
    exact (List.length_filterMap_le _ _).trans (by omega)

theorem spelled_ancestorTier (scopes : List PolicyScopeId)
    {ancestors : List (SubjectId × Nat)} (hancestors : ∀ entry ∈ ancestors, Recorded image entry) :
    EvidenceSpelled n r 256 (ancestorTier image scopes ancestors) := by
  obtain ⟨-, hdepth, -⟩ := searchBounds_of_within h.limits
  unfold ancestorTier
  cases hfind : (ancestors.map fun ancestor =>
      gathered image scopes ancestor.1 ancestor.2).find? contributes with
  | none =>
      refine ⟨?_, ?_, Nat.zero_le _⟩
      · intro candidate hcandidate
        cases hcandidate
      · intro item hitem
        cases hitem
  | some evidence =>
      obtain ⟨ancestor, hmem, rfl⟩ := List.mem_map.mp (List.mem_of_find?_eq_some hfind)
      obtain ⟨hdefined, hdistance⟩ := hancestors ancestor hmem
      exact spelled_gathered h scopes hdefined (by omega)

theorem spelled_collectEvidence {scopes : List PolicyScopeId} {subject : SubjectId}
    {collected : Evidence} (hsubject : subject ∈ image.subjects)
    (hcollect : collectEvidence image scopes subject = .ok collected) :
    EvidenceSpelled n r 512 collected := by
  have hown : EvidenceSpelled n r 256 (gathered image scopes subject 0) :=
    spelled_gathered h scopes hsubject (by norm_num)
  rw [collectEvidence_eq] at hcollect
  split at hcollect
  · cases hancestors : subjectAncestors image subject with
    | error e =>
        rw [hancestors] at hcollect
        cases hcollect
    | ok ancestors =>
        rw [hancestors] at hcollect
        cases hcollect
        have htier := spelled_ancestorTier h scopes (recorded_of_subjectAncestors hancestors)
        refine ⟨?_, ?_, ?_⟩
        · intro candidate hcandidate
          rcases List.mem_append.mp hcandidate with hmem | hmem
          · exact hown.accepted candidate hmem
          · exact htier.accepted candidate hmem
        · intro item hitem
          rcases List.mem_append.mp hitem with hmem | hmem
          · exact hown.rejected item hmem
          · exact htier.rejected item hmem
        · have hfirst := hown.count
          have hsecond := htier.count
          simp only [followedBy, List.length_append]
          omega
  · cases hcollect
    exact ⟨hown.accepted, hown.rejected, hown.count.trans (by norm_num)⟩

omit h in
theorem spelled_exceptionCheck {accepted : List Candidate} {candidate : Candidate}
    {item : RejectedEvidence} (hcandidate : CandidateSpelled n r candidate)
    (hcheck : exceptionCheck accepted candidate = .error item) : RefusalSpelled n r item := by
  have hnamed := length_assignmentNamed_le hcandidate.entry
  unfold exceptionCheck at hcheck
  split at hcheck
  · obtain ⟨-, rfl⟩ := rejectIf_eq_error.mp hcheck
    refine ⟨hcandidate.entry, hcandidate.via.2, Nat.le_of_ble_eq_true rfl, ?_⟩
    have h1 : (text " is declared as an exception but names no class to displace").length = 59 := by
      decide
    simp only [List.length_append, refusalLength]
    omega
  · rename_i target htarget
    obtain ⟨-, rfl⟩ := rejectIf_eq_error.mp hcheck
    refine ⟨hcandidate.entry, hcandidate.via.2, Nat.le_of_ble_eq_true rfl, ?_⟩
    have h1 : (text " displaces class '").length = 18 := by decide
    have h2 : (text "' but no valid broader assignment offers that class").length = 51 := by
      decide
    have hlength := (hcandidate.entry.displaces target htarget).2
    simp only [List.length_append, refusalLength]
    omega

omit h in
theorem spelled_filterExceptions {count : Nat} {evidence : Evidence}
    (hevidence : EvidenceSpelled n r count evidence) :
    EvidenceSpelled n r count (filterExceptions evidence) := by
  refine ⟨?_, ?_, ?_⟩
  · intro candidate hcandidate
    exact hevidence.accepted candidate (mem_of_mem_filterExceptions hcandidate)
  · intro item hitem
    rcases List.mem_append.mp hitem with hmem | hmem
    · exact hevidence.rejected item hmem
    · obtain ⟨candidate, hcandidate, hitem⟩ := List.mem_filterMap.mp hmem
      cases hcheck : exceptionCheck evidence.accepted candidate with
      | ok u =>
          rw [hcheck] at hitem
          cases hitem
      | error refused =>
          rw [hcheck] at hitem
          cases hitem
          exact spelled_exceptionCheck (hevidence.accepted candidate hcandidate) hcheck
  · exact (List.length_filter_le _ _).trans hevidence.count

end Collecting

end PriorityFabric.Measured
