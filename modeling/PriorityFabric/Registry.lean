import PriorityFabric.Bounds

/-!
The registry over a run of accepted mutations.

References are checked only when they are declared, and nothing is ever removed, so
they keep resolving.  The generation an assignment or a policy is bound to was current
when it was declared, and generations only grow.
-/

namespace PriorityFabric.Registry

open PriorityFabric.Lib.LittleEndian
open PriorityFabric.Lib.KeyedTable
open PriorityFabric.Basics
open PriorityFabric.Ident
open PriorityFabric.Model
open PriorityFabric.State
open PriorityFabric.Validate
open PriorityFabric.Apply
open PriorityFabric.Readable
open PriorityFabric.ApplyFacts
open PriorityFabric.Bounds

/-- The images accepted mutations lead to, live or on replay, from an empty one. -/
inductive Built (limits : Limits) : StateImage → Prop
  | empty : Built limits { limits }
  | accepted {image image' : StateImage} {mutation : Mutation} {replay : Bool}
      (h : Built limits image)
      (happly : applyMutation image mutation replay = (.ok (), image')) :
      Built limits image'

theorem Built.limits_eq {limits : Limits} {image : StateImage} (h : Built limits image) :
    image.limits = limits := by
  induction h with
  | empty => rfl
  | accepted h happly ih => rw [(applyMutation_frame happly).limits, ih]

section Tables

variable {K V : Type} [Ord K] [Std.TransOrd K] [Std.LawfulEqOrd K]

/-- `id` is in the table, under a generation that is not behind `bound`. -/
def BoundTo (generation : V → Generation) (table : Std.ExtTreeMap K V) (id : K)
    (bound : Generation) : Prop :=
  bound.isSet = true ∧ ∃ entry, table[id]? = some entry ∧
    bound.value ≤ (generation entry).value

/-- Every entry is still there, with the same or a later generation. -/
def TableLater (generation : V → Generation) (table table' : Std.ExtTreeMap K V) : Prop :=
  ∀ (id : K) (entry : V), table[id]? = some entry →
    ∃ entry', table'[id]? = some entry' ∧ (generation entry).value ≤ (generation entry').value

omit [Std.LawfulEqOrd K] in
theorem TableLater.refl (generation : V → Generation) (table : Std.ExtTreeMap K V) :
    TableLater generation table table :=
  fun _ entry hentry => ⟨entry, hentry, UInt64.le_refl _⟩

theorem TableLater.insert {generation : V → Generation} {table : Std.ExtTreeMap K V} {id : K}
    {entry : V} (h : ∀ old, table[id]? = some old →
      (generation old).value ≤ (generation entry).value) :
    TableLater generation table (table.insert id entry) := by
  intro other old hold
  rw [Std.ExtTreeMap.getElem?_insert]
  split
  · rename_i heq
    obtain rfl := Std.LawfulEqOrd.eq_of_compare heq
    exact ⟨entry, rfl, h old hold⟩
  · exact ⟨old, hold, UInt64.le_refl _⟩

omit [Std.LawfulEqOrd K] in
theorem BoundTo.later {generation : V → Generation} {table table' : Std.ExtTreeMap K V} {id : K}
    {bound : Generation} (h : BoundTo generation table id bound)
    (hlater : TableLater generation table table') : BoundTo generation table' id bound := by
  obtain ⟨hset, entry, hentry, hle⟩ := h
  obtain ⟨entry', hentry', hle'⟩ := hlater id entry hentry
  exact ⟨hset, entry', hentry', UInt64.le_trans hle hle'⟩

omit [Std.LawfulEqOrd K] in
theorem mem_later {generation : V → Generation} {table table' : Std.ExtTreeMap K V} {id : K}
    (h : id ∈ table) (hlater : TableLater generation table table') : id ∈ table' := by
  obtain ⟨entry', hentry', -⟩ := hlater id _ (Std.ExtTreeMap.getElem?_eq_some_getElem h)
  exact (getElem?_eq_some_iff.mp hentry').1

end Tables

/-- The definitions of an image, each still there later. -/
structure Later (a b : StateImage) : Prop where
  classes : TableLater (·.definition.generation) a.classes b.classes
  scopes : TableLater (·.definition.generation) a.scopes b.scopes
  policies : TableLater (·.definition.generation) a.policies b.policies
  subjects : TableLater (·.definition.generation) a.subjects b.subjects

theorem Later.refl (image : StateImage) : Later image image :=
  ⟨.refl _ _, .refl _ _, .refl _ _, .refl _ _⟩

theorem Later.elsewhere {a b : StateImage} (hclasses : b.classes = a.classes)
    (hscopes : b.scopes = a.scopes) (hpolicies : b.policies = a.policies)
    (hsubjects : b.subjects = a.subjects) : Later a b := by
  constructor
  · rw [hclasses]
    exact .refl _ _
  · rw [hscopes]
    exact .refl _ _
  · rw [hpolicies]
    exact .refl _ _
  · rw [hsubjects]
    exact .refl _ _

structure ClassOk (image : StateImage) (entry : ClassEntry) : Prop where
  generation : entry.definition.generation.isSet = true
  declared : entry.definition.precedence.assigned = true
  rank : entry.definition.precedence.value.toNat ≤ PrecedenceRank.maxRank
  parents : ∀ parent ∈ entry.definition.inheritsFrom, parent ∈ image.classes

structure ScopeOk (image : StateImage) (entry : ScopeEntry) : Prop where
  generation : entry.definition.generation.isSet = true
  parent : ∀ parent, entry.definition.parent = some parent → parent ∈ image.scopes
  unknownDefault : ∀ cls, entry.definition.unknownDefault = some cls → cls ∈ image.classes

structure PolicyOk (image : StateImage) (entry : PolicyEntry) : Prop where
  generation : entry.definition.generation.isSet = true
  scope : BoundTo (·.definition.generation) image.scopes entry.definition.scope
    entry.definition.scopeGeneration
  visible : ∀ cls ∈ entry.definition.visibleClasses, cls ∈ image.classes
  unknownDefault : ∀ cls, entry.definition.unknownDefault = some cls → cls ∈ image.classes

structure SubjectOk (image : StateImage) (entry : SubjectEntry) : Prop where
  generation : entry.definition.generation.isSet = true
  parents : ∀ parent ∈ entry.definition.inheritsFrom, parent ∈ image.subjects

/-- Everything an assignment names, in the generations it is bound to. -/
structure AssignmentRefs (image : StateImage) (a : PriorityAssignment) : Prop where
  subject : BoundTo (·.definition.generation) image.subjects a.subject a.subjectGeneration
  scope : BoundTo (·.definition.generation) image.scopes a.scope a.scopeGeneration
  cls : BoundTo (·.definition.generation) image.classes a.cls a.classGeneration
  policy : ∀ policy, a.policy = some policy →
    BoundTo (·.definition.generation) image.policies policy a.policyGeneration
  displaces : ∀ cls, a.displaces = some cls → cls ∈ image.classes

structure AssignmentOk (image : StateImage) (entry : AssignmentEntry) : Prop where
  generation : entry.assignment.generation.isSet = true
  refs : AssignmentRefs image entry.assignment

section Later

variable {a b : StateImage} (h : Later a b)
include h

theorem ClassOk.later {entry : ClassEntry} (hentry : ClassOk a entry) : ClassOk b entry :=
  { hentry with
    parents := fun parent hparent => mem_later (hentry.parents parent hparent) h.classes }

theorem ScopeOk.later {entry : ScopeEntry} (hentry : ScopeOk a entry) : ScopeOk b entry :=
  { hentry with
    parent := fun parent hparent => mem_later (hentry.parent parent hparent) h.scopes
    unknownDefault := fun cls hcls => mem_later (hentry.unknownDefault cls hcls) h.classes }

theorem PolicyOk.later {entry : PolicyEntry} (hentry : PolicyOk a entry) : PolicyOk b entry :=
  { hentry with
    scope := hentry.scope.later h.scopes
    visible := fun cls hcls => mem_later (hentry.visible cls hcls) h.classes
    unknownDefault := fun cls hcls => mem_later (hentry.unknownDefault cls hcls) h.classes }

theorem SubjectOk.later {entry : SubjectEntry} (hentry : SubjectOk a entry) :
    SubjectOk b entry :=
  { hentry with
    parents := fun parent hparent => mem_later (hentry.parents parent hparent) h.subjects }

theorem AssignmentRefs.later {assignment : PriorityAssignment}
    (hrefs : AssignmentRefs a assignment) : AssignmentRefs b assignment :=
  { subject := hrefs.subject.later h.subjects
    scope := hrefs.scope.later h.scopes
    cls := hrefs.cls.later h.classes
    policy := fun policy hpolicy => (hrefs.policy policy hpolicy).later h.policies
    displaces := fun cls hcls => mem_later (hrefs.displaces cls hcls) h.classes }

theorem AssignmentOk.later {entry : AssignmentEntry} (hentry : AssignmentOk a entry) :
    AssignmentOk b entry :=
  ⟨hentry.generation, hentry.refs.later h⟩

end Later

def RanksDistinct (image : StateImage) : Prop :=
  ∀ (id id' : PriorityClassId) (entry entry' : ClassEntry),
    image.classes[id]? = some entry → image.classes[id']? = some entry' →
    entry.definition.precedence.value = entry'.definition.precedence.value → id = id'

structure Registered (image : StateImage) : Prop where
  classes : Keyed (fun entry : ClassEntry => entry.definition.id) (ClassOk image) image.classes
  scopes : Keyed (fun entry : ScopeEntry => entry.definition.id) (ScopeOk image) image.scopes
  policies : Keyed (fun entry : PolicyEntry => entry.definition.id) (PolicyOk image)
    image.policies
  subjects : Keyed (fun entry : SubjectEntry => entry.definition.id) (SubjectOk image)
    image.subjects
  assignments : Keyed (fun entry : AssignmentEntry => entry.assignment.id)
    (AssignmentOk image) image.assignments
  ranks : RanksDistinct image

theorem registered_empty (limits : Limits) : Registered { limits } :=
  ⟨.empty, .empty, .empty, .empty, .empty, fun _ _ _ _ h => by simp at h⟩

theorem Registered.of_later {a b : StateImage} (hlater : Later a b)
    (hclasses : Keyed (fun entry : ClassEntry => entry.definition.id) (ClassOk a) b.classes)
    (hscopes : Keyed (fun entry : ScopeEntry => entry.definition.id) (ScopeOk a) b.scopes)
    (hpolicies : Keyed (fun entry : PolicyEntry => entry.definition.id) (PolicyOk a)
      b.policies)
    (hsubjects : Keyed (fun entry : SubjectEntry => entry.definition.id) (SubjectOk a)
      b.subjects)
    (hassignments : Keyed (fun entry : AssignmentEntry => entry.assignment.id)
      (AssignmentOk a) b.assignments)
    (hranks : RanksDistinct b) : Registered b where
  classes := hclasses.mono fun _ hentry => hentry.later hlater
  scopes := hscopes.mono fun _ hentry => hentry.later hlater
  policies := hpolicies.mono fun _ hentry => hentry.later hlater
  subjects := hsubjects.mono fun _ hentry => hentry.later hlater
  assignments := hassignments.mono fun _ hentry => hentry.later hlater
  ranks := hranks

theorem Registered.elsewhere {a b : StateImage} (h : Registered a)
    (hclasses : b.classes = a.classes) (hscopes : b.scopes = a.scopes)
    (hpolicies : b.policies = a.policies) (hsubjects : b.subjects = a.subjects)
    (hassignments : b.assignments = a.assignments) : Registered b := by
  have hlater : Later a b := .elsewhere hclasses hscopes hpolicies hsubjects
  refine .of_later hlater ?_ ?_ ?_ ?_ ?_ ?_
  · rw [hclasses]
    exact h.classes
  · rw [hscopes]
    exact h.scopes
  · rw [hpolicies]
    exact h.policies
  · rw [hsubjects]
    exact h.subjects
  · rw [hassignments]
    exact h.assignments
  · rw [RanksDistinct, hclasses]
    exact h.ranks

/-- `id` is in the table, and `bound` is the generation it has there. -/
def BoundNow {K Def : Type} [Ord K] [Std.TransOrd K] (generation : Def → Generation)
    (table : Std.ExtTreeMap K (Entry Def)) (id : K) (bound : Generation) : Prop :=
  ∃ entry, table[id]? = some entry ∧ bound = generation entry.definition

/-- Everything the definition names is there; a rank that is new is free. -/
def OpResolves (image : StateImage) : MutationOp → Prop
  | .defineClass d =>
      (∀ parent ∈ d.inheritsFrom, parent ∈ image.classes) ∧
        (classKind.unchanged image d = false → ∀ id entry, image.classes[id]? = some entry →
          id ≠ d.id → entry.definition.precedence.same d.precedence = false)
  | .defineScope d =>
      (∀ parent, d.parent = some parent → parent ∈ image.scopes) ∧
        (∀ cls, d.unknownDefault = some cls → cls ∈ image.classes)
  | .definePolicy d =>
      d.scopeGeneration.isSet = true ∧
        BoundNow (·.generation) image.scopes d.scope d.scopeGeneration ∧
        (∀ cls ∈ d.visibleClasses, cls ∈ image.classes) ∧
        (∀ cls, d.unknownDefault = some cls → cls ∈ image.classes)
  | .defineSubject d => ∀ parent ∈ d.inheritsFrom, parent ∈ image.subjects
  | .assign a =>
      BoundNow (·.generation) image.subjects a.subject a.subjectGeneration ∧
        BoundNow (·.generation) image.scopes a.scope a.scopeGeneration ∧
        BoundNow (·.generation) image.classes a.cls a.classGeneration ∧
        (∀ policy, a.policy = some policy →
          BoundNow (·.generation) image.policies policy a.policyGeneration) ∧
        (∀ cls, a.displaces = some cls → cls ∈ image.classes)
  | .retireAssignment _ | .grantAuthority | .fenceAuthority _ _ | .advanceEpoch => True

theorem mem_of_checkParents {tag : IdTag} {noun emptyId : Bytes} {self : BasicId tag}
    {isDefined : BasicId tag → Bool} {parents seen : List (BasicId tag)} {u : Unit}
    (h : checkParents noun emptyId self isDefined seen parents = .ok u) :
    ∀ parent ∈ parents, isDefined parent = true := by
  induction parents generalizing seen with
  | nil =>
      intro parent hparent
      cases hparent
  | cons first rest ih =>
      simp only [checkParents, bind_eq_ok, failIf_eq_ok, exists_const,
        Bool.not_eq_false] at h
      obtain ⟨-, -, -, hfirst, hrest⟩ := h
      rw [List.forall_mem_cons]
      exact ⟨hfirst, ih hrest⟩

theorem mem_of_checkVisible {image : StateImage} {policy : PolicyId}
    {classes seen : List PriorityClassId} {u : Unit}
    (h : checkVisible image policy seen classes = .ok u) :
    ∀ cls ∈ classes, cls ∈ image.classes := by
  induction classes generalizing seen with
  | nil =>
      intro cls hcls
      cases hcls
  | cons first rest ih =>
      simp only [checkVisible, bind_eq_ok, failIf_eq_ok, exists_const,
        Bool.not_eq_false] at h
      obtain ⟨-, hfirst, hrest⟩ := h
      rw [List.forall_mem_cons]
      exact ⟨Std.ExtTreeMap.mem_iff_contains.mpr hfirst, ih hrest⟩

theorem mem_of_checkDefaultClass {image : StateImage} {noun id tail : Bytes}
    {default : Option PriorityClassId} {u : Unit}
    (h : checkDefaultClass image noun id tail default = .ok u) :
    ∀ cls, default = some cls → cls ∈ image.classes := by
  rintro cls rfl
  simp only [checkDefaultClass, failIf_eq_ok, Bool.not_eq_false] at h
  exact Std.ExtTreeMap.mem_iff_contains.mpr h

theorem mem_of_checkScopeParent {image : StateImage} {self : PolicyScopeId}
    {parent : Option PolicyScopeId} {u : Unit}
    (h : checkScopeParent image self parent = .ok u) :
    ∀ scope, parent = some scope → scope ∈ image.scopes := by
  rintro scope rfl
  simp only [checkScopeParent, bind_eq_ok, failIf_eq_ok, exists_const,
    Bool.not_eq_false] at h
  exact Std.ExtTreeMap.mem_iff_contains.mpr h.2.1

theorem free_of_checkPrecedenceFree {image : StateImage} {self : PriorityClassId}
    {rank : PrecedenceRank} {u : Unit} (h : checkPrecedenceFree image self rank = .ok u)
    (id : PriorityClassId) (entry : ClassEntry) (hentry : image.classes[id]? = some entry)
    (hid : id ≠ self) : entry.definition.precedence.same rank = false := by
  unfold checkPrecedenceFree at h
  split at h
  · rename_i hfind
    rw [List.find?_eq_none] at hfind
    have hfree := hfind (id, entry)
      (Std.ExtTreeMap.mem_toList_iff_getElem?_eq_some.mpr hentry)
    simpa [hid] using hfree
  · cases h

theorem boundNow_of_checks {K Def : Type} [Ord K] [Std.TransOrd K]
    {generation : Def → Generation} {table : Std.ExtTreeMap K (Entry Def)} {id : K}
    {bound : Generation} {a : PriorityAssignment} {noun name : Bytes} {u v : Unit}
    (hnamed : checkNamed a noun name (table.contains id) = .ok u)
    (hbound : checkBound a noun name bound
      (((table[id]?).map fun entry : Entry Def => generation entry.definition).getD .unset) =
        .ok v) :
    BoundNow generation table id bound := by
  rw [checkNamed, failIf_eq_ok, Bool.not_eq_false,
    Std.ExtTreeMap.contains_eq_isSome_getElem?] at hnamed
  obtain ⟨entry, hentry⟩ := Option.isSome_iff_exists.mp hnamed
  rw [checkBound, failIf_eq_ok, not_not, hentry] at hbound
  exact ⟨entry, hentry, hbound⟩

theorem boundNow_of_checkAssignmentPolicy {image : StateImage} {a : PriorityAssignment}
    {u : Unit} (h : checkAssignmentPolicy image a = .ok u) (policy : PolicyId)
    (hpolicy : a.policy = some policy) :
    BoundNow (·.generation) image.policies policy a.policyGeneration := by
  simp only [checkAssignmentPolicy, hpolicy, bind_eq_ok] at h
  obtain ⟨v, hnamed, hbound⟩ := h
  exact boundNow_of_checks hnamed hbound

theorem mem_of_checkDisplaces {image : StateImage} {a : PriorityAssignment} {u : Unit}
    (h : checkDisplaces image a = .ok u) :
    ∀ cls, a.displaces = some cls → cls ∈ image.classes := by
  intro cls hcls
  simp only [checkDisplaces, hcls, failIf_eq_ok, Bool.not_eq_false] at h
  exact Std.ExtTreeMap.mem_iff_contains.mpr h

theorem opResolves_of_validateMutation {image : StateImage} {mutation : Mutation}
    (h : validateMutation image mutation = .ok ()) : OpResolves image mutation.op := by
  obtain ⟨op⟩ := mutation
  cases op with
  | defineClass d =>
      simp only [validateMutation, validateClass, validateInheritance, bind_eq_ok,
        failIf_eq_ok, exists_const] at h
      obtain ⟨-, -, -, u, -, v, ⟨-, w, hparents, -⟩, x, -, hrank⟩ := h
      refine ⟨fun parent hparent =>
        Std.ExtTreeMap.mem_iff_contains.mpr (mem_of_checkParents hparents parent hparent), ?_⟩
      intro hchanged
      rw [if_neg (by simp [hchanged])] at hrank
      exact free_of_checkPrecedenceFree hrank
  | defineScope d =>
      simp only [validateMutation, validateScope, bind_eq_ok, failIf_eq_ok,
        exists_const] at h
      obtain ⟨-, u, -, v, hdefault, w, hparent, -⟩ := h
      exact ⟨mem_of_checkScopeParent hparent, mem_of_checkDefaultClass hdefault⟩
  | definePolicy d =>
      simp only [validateMutation, validatePolicy, bind_eq_ok, failIf_eq_ok,
        exists_const] at h
      obtain ⟨-, u, -, hscope⟩ := h
      cases hfind : image.scopes[d.scope]? with
      | none => simp [hfind] at hscope
      | some scope =>
          simp only [hfind, bind_eq_ok, failIf_eq_ok, exists_const, not_or,
            Bool.not_eq_false, ne_eq, not_not] at hscope
          obtain ⟨⟨hset, hbound⟩, -, v, hvisible, w, hdefault, -⟩ := hscope
          exact ⟨hset, ⟨scope, hfind, hbound⟩, mem_of_checkVisible hvisible,
            mem_of_checkDefaultClass hdefault⟩
  | defineSubject d =>
      simp only [validateMutation, validateSubject, validateSubjectInheritance, bind_eq_ok,
        failIf_eq_ok, exists_const] at h
      obtain ⟨-, u, -, v, ⟨-, w, hparents, -⟩, -⟩ := h
      exact fun parent hparent =>
        Std.ExtTreeMap.mem_iff_contains.mpr (mem_of_checkParents hparents parent hparent)
  | assign a =>
      simp only [validateMutation, validateAssignment, bind_eq_ok, failIf_eq_ok,
        exists_const] at h
      obtain ⟨-, _, -, _, hsubject, _, hscope, _, hclass, _, hsubject', _, hscope', _,
        hclass', _, hpolicy, _, hdisplaces, -⟩ := h
      exact ⟨boundNow_of_checks hsubject hsubject', boundNow_of_checks hscope hscope',
        boundNow_of_checks hclass hclass', boundNow_of_checkAssignmentPolicy hpolicy,
        mem_of_checkDisplaces hdisplaces⟩
  | retireAssignment target => trivial
  | grantAuthority => trivial
  | fenceAuthority publisher boot => trivial
  | advanceEpoch => trivial

theorem opResolves_recordAccepted {image : StateImage} {mutation : Mutation}
    {expected : Generation} (h : OpResolves image mutation.op) :
    OpResolves (recordAccepted image mutation expected) mutation.op := by
  cases hop : mutation.op <;> (rw [hop] at h; exact h)

/-- A bound that is current is not behind, once generations are known to be set. -/
theorem BoundNow.boundTo {K Def : Type} [Ord K] [Std.TransOrd K] {key : Entry Def → K}
    {good : Entry Def → Prop} {generation : Def → Generation}
    {table : Std.ExtTreeMap K (Entry Def)} {id : K} {bound : Generation}
    (h : BoundNow generation table id bound) (hkeyed : Keyed key good table)
    (hset : ∀ entry, good entry → (generation entry.definition).isSet = true) :
    BoundTo (fun entry : Entry Def => generation entry.definition) table id bound := by
  obtain ⟨entry, hentry, rfl⟩ := h
  exact ⟨hset entry (hkeyed.good id entry hentry), entry, hentry, UInt64.le_refl _⟩

theorem tableLater_admitted {tag : IdTag} {Def : Type} {kind : EntityKind tag Def}
    {image : StateImage} {provenance : Provenance} {d : Def} {entry : Entry Def}
    (h : Admitted kind image d provenance entry)
    (hgeneration : ∀ g, kind.generation (kind.setGeneration d g) = g) :
    TableLater (fun entry => kind.generation entry.definition) (kind.table image)
      ((kind.table image).insert (kind.id d) entry) := by
  apply TableLater.insert
  intro old hold
  cases h with
  | @refreshed found hfound hsame =>
      rw [hold] at hfound
      cases hfound
      exact UInt64.le_refl _
  | stored hset hchanged =>
      simp only [hgeneration]
      have hbump : kind.bump image d = (kind.generation old.definition).next.getD .unset := by
        simp only [EntityKind.bump, hold, Option.elim_some]
      rw [hbump] at hset ⊢
      cases hnext : (kind.generation old.definition).next with
      | none =>
          rw [hnext] at hset
          cases hset
      | some next => exact le_of_next hnext

section Step

variable {image : StateImage} {provenance : Provenance}

theorem same_of_value_eq {a b : PrecedenceRank} (ha : a.assigned = true)
    (hb : b.assigned = true) (h : a.value = b.value) : a.same b = true := by
  simp [PrecedenceRank.same, ha, hb, h]

theorem rank_free (h : Registered image) {d : PriorityClassDef} {entry : ClassEntry}
    (hentry : Admitted classKind image d provenance entry)
    (hassigned : d.precedence.assigned = true) (hop : OpResolves image (.defineClass d))
    (id : PriorityClassId) (other : ClassEntry) (hother : image.classes[id]? = some other)
    (hid : id ≠ d.id) :
    other.definition.precedence.value ≠ entry.definition.precedence.value := by
  intro hvalue
  cases hentry with
  | @refreshed old hold hsame => exact hid (h.ranks id d.id other old hother hold hvalue)
  | stored hset hchanged =>
      have hfree := hop.2 hchanged id other hother hid
      have hsame := same_of_value_eq (h.classes.good id other hother).declared hassigned
        hvalue
      rw [hsame] at hfree
      cases hfree

theorem Registered.defineClass (h : Registered image) {d : PriorityClassDef}
    {entry : ClassEntry} (hentry : Admitted classKind image d provenance entry)
    (hassigned : d.precedence.assigned = true)
    (hrank : d.precedence.value.toNat ≤ PrecedenceRank.maxRank)
    (hop : OpResolves image (.defineClass d)) :
    Registered { image with classes := image.classes.insert d.id entry } := by
  have hlater : Later image { image with classes := image.classes.insert d.id entry } :=
    { Later.refl image with classes := tableLater_admitted hentry fun _ => rfl }
  have hkeyed := keyed_admitted (ClassOk image) h.classes hentry (fun _ => rfl)
    (fun old hold => { hold with }) (fun generation hset => ⟨hset, hassigned, hrank, hop.1⟩)
  refine .of_later hlater hkeyed h.scopes h.policies h.subjects h.assignments ?_
  intro id id' found found' hfound hfound' hvalue
  have hfree := rank_free h hentry hassigned hop
  simp only [Std.ExtTreeMap.getElem?_insert, Std.LawfulEqOrd.compare_eq_iff_eq] at hfound hfound'
  split at hfound
  · split at hfound'
    · rename_i hid hid'
      exact hid.symm.trans hid'
    · rename_i hid hid'
      cases hfound
      exact absurd hvalue.symm (hfree id' found' hfound' (Ne.symm hid'))
  · split at hfound'
    · rename_i hid hid'
      cases hfound'
      exact absurd hvalue (hfree id found hfound (Ne.symm hid))
    · exact h.ranks id id' found found' hfound hfound' hvalue

theorem Registered.defineScope (h : Registered image) {d : PolicyScopeDef}
    {entry : ScopeEntry} (hentry : Admitted scopeKind image d provenance entry)
    (hop : OpResolves image (.defineScope d)) :
    Registered { image with scopes := image.scopes.insert d.id entry } := by
  have hlater : Later image { image with scopes := image.scopes.insert d.id entry } :=
    { Later.refl image with scopes := tableLater_admitted hentry fun _ => rfl }
  have hkeyed := keyed_admitted (ScopeOk image) h.scopes hentry (fun _ => rfl)
    (fun old hold => { hold with }) (fun generation hset => ⟨hset, hop.1, hop.2⟩)
  exact .of_later hlater h.classes hkeyed h.policies h.subjects h.assignments h.ranks

theorem Registered.definePolicy (h : Registered image) {d : PolicyDef}
    {entry : PolicyEntry} (hentry : Admitted policyKind image d provenance entry)
    (hop : OpResolves image (.definePolicy d)) :
    Registered { image with policies := image.policies.insert d.id entry } := by
  have hlater : Later image { image with policies := image.policies.insert d.id entry } :=
    { Later.refl image with policies := tableLater_admitted hentry fun _ => rfl }
  obtain ⟨-, hscope, hvisible, hdefault⟩ := hop
  have hbound := hscope.boundTo h.scopes fun _ hold => hold.generation
  have hkeyed := keyed_admitted (PolicyOk image) h.policies hentry (fun _ => rfl)
    (fun old hold => { hold with })
    (fun generation hset => ⟨hset, hbound, hvisible, hdefault⟩)
  exact .of_later hlater h.classes h.scopes hkeyed h.subjects h.assignments h.ranks

theorem Registered.defineSubject (h : Registered image) {d : SubjectDef}
    {entry : SubjectEntry} (hentry : Admitted subjectKind image d provenance entry)
    (hop : OpResolves image (.defineSubject d)) :
    Registered { image with subjects := image.subjects.insert d.id entry } := by
  have hlater : Later image { image with subjects := image.subjects.insert d.id entry } :=
    { Later.refl image with subjects := tableLater_admitted hentry fun _ => rfl }
  have hkeyed := keyed_admitted (SubjectOk image) h.subjects hentry (fun _ => rfl)
    (fun old hold => { hold with }) (fun generation hset => ⟨hset, hop⟩)
  exact .of_later hlater h.classes h.scopes h.policies hkeyed h.assignments h.ranks

theorem AssignmentRefs.of_opResolves (h : Registered image) {a : PriorityAssignment}
    (hop : OpResolves image (.assign a)) : AssignmentRefs image a := by
  obtain ⟨hsubject, hscope, hclass, hpolicy, hdisplaces⟩ := hop
  exact ⟨hsubject.boundTo h.subjects fun _ hold => hold.generation,
    hscope.boundTo h.scopes fun _ hold => hold.generation,
    hclass.boundTo h.classes fun _ hold => hold.generation,
    fun policy hsome => (hpolicy policy hsome).boundTo h.policies fun _ hold => hold.generation,
    hdisplaces⟩

theorem Registered.assign (h : Registered image) {a : PriorityAssignment}
    {result : StateImage} (hadmitted : AssignmentAdmitted image a provenance result)
    (hop : OpResolves image (.assign a)) : Registered result := by
  have hrefs := AssignmentRefs.of_opResolves h hop
  cases hadmitted with
  | @refreshed old hold hsame =>
      have hgood : AssignmentOk image { old with provenance } :=
        { h.assignments.good _ old hold with }
      have hkey : old.assignment.id = a.id := h.assignments.key_eq _ old hold
      have hkeyed := h.assignments.insert hgood hkey
      exact .of_later (a := image) (.elsewhere rfl rfl rfl rfl) h.classes h.scopes
        h.policies h.subjects hkeyed h.ranks
  | stored hset hchanged =>
      have hgood : AssignmentOk image
          { assignment := { a with generation := bumpAssignment image a.id }, provenance } :=
        ⟨hset, { hrefs with }⟩
      have hkeyed := h.assignments.insert hgood rfl
      exact .of_later (a := image) (.elsewhere rfl rfl rfl rfl) h.classes h.scopes
        h.policies h.subjects hkeyed h.ranks

theorem Registered.retire (h : Registered image) {target : PriorityAssignmentId}
    {entry : AssignmentEntry} (hentry : image.assignments[target]? = some entry)
    {generation : Generation} (hnext : entry.assignment.generation.next = some generation)
    (reason : Bytes) :
    Registered { image with
      assignments := image.assignments.insert target { entry with
        assignment := { entry.assignment with generation }
        active := false
        retirementReason := reason
        retiredBy := provenance } } := by
  have hold := h.assignments.good _ entry hentry
  have hgood : AssignmentOk image { entry with
      assignment := { entry.assignment with generation }
      active := false
      retirementReason := reason
      retiredBy := provenance } :=
    ⟨isSet_of_next hnext, { hold.refs with }⟩
  have hkey : entry.assignment.id = target := h.assignments.key_eq _ entry hentry
  have hkeyed := h.assignments.insert hgood hkey
  exact .of_later (a := image) (.elsewhere rfl rfl rfl rfl) h.classes h.scopes
        h.policies h.subjects hkeyed h.ranks

theorem registered_of_performed {mutation : Mutation} {result : StateImage}
    (h : Performed image mutation provenance result) (hregistered : Registered image)
    (hsized : OpSized image.limits mutation.op) (hop : OpResolves image mutation.op) :
    Registered result := by
  cases h with
  | «class» d entry heq hentry =>
      rw [heq] at hsized hop
      exact hregistered.defineClass hentry hsized.1 hsized.2.1 hop
  | scope d entry heq hentry =>
      rw [heq] at hop
      exact hregistered.defineScope hentry hop
  | policy d entry heq hentry =>
      rw [heq] at hop
      exact hregistered.definePolicy hentry hop
  | subject d entry heq hentry =>
      rw [heq] at hop
      exact hregistered.defineSubject hentry hop
  | assign a result heq hadmitted =>
      rw [heq] at hop
      exact hregistered.assign hadmitted hop
  | retire target entry generation heq hentry hnext =>
      exact hregistered.retire hentry hnext mutation.reason
  | grant heq hpositive hroom => exact hregistered.elsewhere rfl rfl rfl rfl rfl
  | fence publisher boot heq => exact hregistered.elsewhere rfl rfl rfl rfl rfl
  | advance epoch heq hnext => exact hregistered.elsewhere rfl rfl rfl rfl rfl

end Step

theorem registered_applyMutation {image image' : StateImage} {mutation : Mutation}
    {replay : Bool} (h : Registered image)
    (happly : applyMutation image mutation replay = (.ok (), image')) : Registered image' := by
  obtain ⟨expected, hadmissible, happlied⟩ := applyMutation_eq_ok_iff.mp happly
  have hrecorded : Registered (recordAccepted image mutation expected) :=
    h.elsewhere rfl rfl rfl rfl rfl
  cases happlied with
  | repeated hrepeated => exact hrecorded
  | performed hfresh hperform =>
      have hsized : OpSized image.limits mutation.op :=
        opSized_of_validateMutation hadmissible.valid
      have hop := opResolves_of_validateMutation hadmissible.valid
      have hperformed := registered_of_performed (perform_eq_ok hperform) hrecorded hsized
        (opResolves_recordAccepted hop)
      exact hperformed.elsewhere rfl rfl rfl rfl rfl

theorem Built.bounded {limits : Limits} {image : StateImage} (h : Built limits image) :
    Bounded image := by
  induction h with
  | empty => exact bounded_empty limits
  | @accepted image image' mutation replay h happly ih =>
      have hbounded := bounded_applyMutation ih mutation replay
      rw [happly] at hbounded
      exact hbounded

theorem Built.registered {limits : Limits} {image : StateImage} (h : Built limits image) :
    Registered image := by
  induction h with
  | empty => exact registered_empty limits
  | accepted h happly ih => exact registered_applyMutation ih happly

/-- Every image that accepted mutations build is a registry: references resolve, ranks
name one class, and no binding is ahead of what it is bound to. -/
theorem registered_of_built {limits : Limits} {image : StateImage}
    (h : Built limits image) :
    Registered image ∧ Keyed AuthorityEntry.key AuthorityFits image.authority :=
  ⟨h.registered, h.bounded.tables.authority⟩

def oneClass : Mutation where
  op := .defineClass { id := ⟨[108], wellFormed_l⟩, precedence := .make 10 }
  system := true

def childClass : Mutation where
  op := .defineClass { id := ⟨[97], wellFormed_a⟩, precedence := .make 20,
                       inheritsFrom := [⟨[108], wellFormed_l⟩] }
  system := true

def parentAndChild : StateImage :=
  (applyMutation (applyMutation {} oneClass false).2 childClass false).2

theorem built_parentAndChild : Built {} parentAndChild :=
  .accepted (.accepted .empty (Prod.ext (by decide) rfl :
      applyMutation { limits := {} } oneClass false = (.ok (), _)))
    (Prod.ext (by decide) rfl : applyMutation _ childClass false = (.ok (), _))

theorem registered_of_built_child :
    parentAndChild.classes.size = 2 ∧
      classParents parentAndChild ⟨[97], wellFormed_a⟩ = [⟨[108], wellFormed_l⟩] ∧
      Registered parentAndChild :=
  ⟨by decide, by decide, (registered_of_built built_parentAndChild).1⟩

end PriorityFabric.Registry
