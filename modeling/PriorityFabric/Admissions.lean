import PriorityFabric.Depths
import PriorityFabric.Delivered

/-!
What the policies above a scope admit.

The nearest policy with a visibility list and the nearest policy at all restrict the
assignments of a scope.  The validator finds them along the scope chain, and where the chain
cannot be had it takes the scope for unrestricted.
-/

namespace PriorityFabric.Admissions

open Relation
open PriorityFabric.Lib.LittleEndian
open PriorityFabric.Lib.Walks
open PriorityFabric.Basics
open PriorityFabric.Ident
open PriorityFabric.Model
open PriorityFabric.State
open PriorityFabric.Validate
open PriorityFabric.Apply
open PriorityFabric.ApplyFacts
open PriorityFabric.Bounds
open PriorityFabric.Registry
open PriorityFabric.Inheritance
open PriorityFabric.Depths
open PriorityFabric.Delivered (bySystem someClassNamed applyAll acceptedAll built_applyAll)

/-- The scopes from one up to the root. -/
inductive Path (image : StateImage) : PolicyScopeId → List PolicyScopeId → Prop
  | root {scope : PolicyScopeId} (hdefined : scope ∈ image.scopes)
      (hroot : scopeParent image scope = none) : Path image scope [scope]
  | up {scope parent : PolicyScopeId} {rest : List PolicyScopeId}
      (hedge : ScopeEdge image scope parent) (h : Path image parent rest) :
      Path image scope (scope :: rest)

section Paths

variable {image : StateImage} {scope : PolicyScopeId} {path : List PolicyScopeId}

theorem acyclic_scopes_of_built {limits : Limits} (h : Built limits image) :
    Acyclic (ScopeEdge image) := by
  induction h with
  | empty => exact (noCycles_empty limits).scopes
  | accepted h happly ih =>
      obtain ⟨expected, hadmissible, -⟩ := applyMutation_eq_ok_iff.mp happly
      rcases (graphStep_of_applyMutation happly).scopes with hsame | ⟨d, hop, hredirects⟩
      · unfold ScopeEdge scopeParent
        rw [hsame]
        exact ih
      · exact ih.redirect hredirects (scope_guard hop hadmissible.valid)

theorem exists_path (hregistered : Registered image) (hacyclic : Acyclic (ScopeEdge image))
    (hscope : scope ∈ image.scopes) : ∃ path, Path image scope path := by
  have horder : IsStrictOrder PolicyScopeId fun x y => TransGen (ScopeEdge image) y x :=
    { irrefl := fun x hcycle => hacyclic x hcycle
      trans := fun _ _ _ hxy hyz => hyz.trans hxy }
  have hwell : Set.WellFoundedOn {x | x ∈ image.scopes}
      fun x y => TransGen (ScopeEdge image) y x :=
    (Set.Finite.subset (nodesOf image.scopes).finite_toSet
      fun x hx => mem_nodesOf.mpr hx).wellFoundedOn
  refine hwell.induction (P := fun x => ∃ path, Path image x path) hscope
    fun current hcurrent ih => ?_
  cases hparent : scopeParent image current with
  | none => exact ⟨_, .root hcurrent hparent⟩
  | some parent =>
      obtain ⟨rest, hrest⟩ :=
        ih parent (mem_scopes_of_edge hregistered hparent) (.single hparent)
      exact ⟨_, .up hparent hrest⟩

theorem scopeChainLoop_of_path (hacyclic : Acyclic (ScopeEdge image)) {current : PolicyScopeId}
    (h : Path image current path) {room : Nat} {chain : List PolicyScopeId}
    (hchain : ∀ lower ∈ chain, TransGen (ScopeEdge image) lower current) :
    (path.length ≤ room → scopeChainLoop image scope room current chain = .ok (chain ++ path)) ∧
      (room < path.length → ∃ e, scopeChainLoop image scope room current chain = .error e) := by
  induction h generalizing room chain with
  | @root current hdefined hroot =>
      have hnew : current ∉ chain := fun hmem => hacyclic current (hchain current hmem)
      have hentry := Std.ExtTreeMap.getElem?_eq_some_getElem hdefined
      have hparent : (image.scopes[current]).definition.parent = none := by
        simpa [scopeParent, hentry] using hroot
      cases room with
      | zero => simp [scopeChainLoop, hnew, hentry]
      | succ room => simp [scopeChainLoop, hnew, hentry, hparent]
  | @up current parent rest hedge h ih =>
      have hnew : current ∉ chain := fun hmem => hacyclic current (hchain current hmem)
      obtain ⟨entry, hentry, hparent⟩ := Option.bind_eq_some_iff.mp hedge
      cases room with
      | zero => simp [scopeChainLoop, hnew, hentry]
      | succ room =>
          have hnext : scopeChainLoop image scope (room + 1) current chain =
              scopeChainLoop image scope room parent (chain ++ [current]) := by
            rw [scopeChainLoop, if_neg hnew]
            simp only [hentry, hparent]
          have hlower : ∀ lower ∈ chain ++ [current], TransGen (ScopeEdge image) lower parent := by
            intro lower hmem
            rcases List.mem_append.mp hmem with hold | hlast
            · exact (hchain lower hold).tail hedge
            · obtain rfl := List.mem_singleton.mp hlast
              exact .single hedge
          obtain ⟨hfits, hlong⟩ := @ih room (chain ++ [current]) hlower
          rw [hnext, List.length_cons]
          refine ⟨fun hle => ?_, fun hlt => hlong (by omega)⟩
          rw [hfits (by omega), List.append_assoc]
          rfl

/-- The chain of a scope is the way to its root, as long as the limit admits it. -/
theorem scopeChain_of_path (hacyclic : Acyclic (ScopeEdge image)) (h : Path image scope path)
    (hshort : path.length ≤ image.limits.maxScopeDepth) : scopeChain image scope = .ok path :=
  (scopeChainLoop_of_path hacyclic h (by simp)).1 hshort

theorem scopeChain_of_long (hacyclic : Acyclic (ScopeEdge image)) (h : Path image scope path)
    (hlong : image.limits.maxScopeDepth < path.length) :
    ∃ e, scopeChain image scope = .error e :=
  (scopeChainLoop_of_path hacyclic h (by simp)).2 hlong

end Paths

/-- A search through the entries in key order finds the one with the smallest key. -/
theorem find?_toList_iff {K V : Type} [Ord K] [Std.TransOrd K] [Std.LawfulEqOrd K]
    {table : Std.ExtTreeMap K V} {p : K × V → Bool} {k : K} {v : V} :
    table.toList.find? p = some (k, v) ↔ table[k]? = some v ∧ p (k, v) = true ∧
      ∀ (other : K) (w : V), table[other]? = some w → p (other, w) = true →
        compare other k ≠ .lt := by
  have hordered : table.toList.Pairwise fun a b => compare a.1 b.1 = .lt :=
    Std.ExtTreeMap.ordered_keys_toList
  rw [List.find?_eq_some_iff_append]
  constructor
  · rintro ⟨hp, before, after, hsplit, hbefore⟩
    have hmem : (k, v) ∈ table.toList := by simp [hsplit]
    refine ⟨Std.ExtTreeMap.mem_toList_iff_getElem?_eq_some.mp hmem, hp, ?_⟩
    intro other w hother hw hlt
    rw [hsplit, List.pairwise_append, List.pairwise_cons] at hordered
    have hfound := Std.ExtTreeMap.mem_toList_iff_getElem?_eq_some.mpr hother
    rw [hsplit, List.mem_append, List.mem_cons] at hfound
    rcases hfound with hearlier | heq | hlater
    · have hnot := hbefore _ hearlier
      rw [hw] at hnot
      cases hnot
    · cases heq
      rw [Std.ReflOrd.compare_self] at hlt
      cases hlt
    · have hgt := Std.OrientedCmp.gt_of_lt (hordered.2.1.1 _ hlater)
      rw [hlt] at hgt
      cases hgt
  · rintro ⟨hstored, hp, hfirst⟩
    obtain ⟨before, after, hsplit⟩ := List.append_of_mem
      (Std.ExtTreeMap.mem_toList_iff_getElem?_eq_some.mpr hstored)
    refine ⟨hp, before, after, hsplit, fun a ha => ?_⟩
    rw [hsplit, List.pairwise_append] at hordered
    have hlt := hordered.2.2 a ha (k, v) List.mem_cons_self
    have hmem : a ∈ table.toList := by simp [hsplit, ha]
    cases hpa : p a with
    | false => rfl
    | true =>
        have hnot := hfirst a.1 a.2 (Std.ExtTreeMap.mem_toList_iff_getElem?_eq_some.mp hmem) hpa
        exact absurd hlt hnot

section Policies

variable (image : StateImage)

/-- The first policy of a scope, in the order of their names, that declares `what`. -/
structure Smallest (level : PolicyScopeId) (what : PolicyDef → Prop) (id : PolicyId)
    (entry : PolicyEntry) : Prop where
  stored : image.policies[id]? = some entry
  scope : entry.definition.scope = level
  declares : what entry.definition
  first : ∀ (other : PolicyId) (found : PolicyEntry), image.policies[other]? = some found →
    found.definition.scope = level → what found.definition → compare other id ≠ .lt

/-- The smallest such policy of the nearest scope on the way that has one. -/
def Nearest (path : List PolicyScopeId) (what : PolicyDef → Prop) (id : PolicyId)
    (entry : PolicyEntry) : Prop :=
  ∃ before level after, path = before ++ level :: after ∧ Smallest image level what id entry ∧
    ∀ scope ∈ before, ∀ (other : PolicyId) (found : PolicyEntry),
      image.policies[other]? = some found → found.definition.scope = scope → ¬ what found.definition

/-- The policy lookup of the validator along a way. -/
def lookup (path : List PolicyScopeId) (what : PolicyDef → Prop) [DecidablePred what] :
    Option (PolicyId × PolicyEntry) :=
  path.findSome? fun level => image.policies.toList.find? fun entry =>
    entry.2.definition.scope = level ∧ what entry.2.definition

variable {image}

theorem find?_policies_iff {level : PolicyScopeId} {what : PolicyDef → Prop} [DecidablePred what]
    {id : PolicyId} {entry : PolicyEntry} :
    image.policies.toList.find? (fun entry =>
        entry.2.definition.scope = level ∧ what entry.2.definition) = some (id, entry) ↔
      Smallest image level what id entry := by
  rw [find?_toList_iff]
  simp only [decide_eq_true_eq]
  constructor
  · rintro ⟨hstored, ⟨hscope, hwhat⟩, hfirst⟩
    exact ⟨hstored, hscope, hwhat, fun other found hfound hlevel hdeclares =>
      hfirst other found hfound ⟨hlevel, hdeclares⟩⟩
  · rintro ⟨hstored, hscope, hwhat, hfirst⟩
    exact ⟨hstored, ⟨hscope, hwhat⟩, fun other found hfound hdeclares =>
      hfirst other found hfound hdeclares.1 hdeclares.2⟩

theorem find?_policies_eq_none_iff {level : PolicyScopeId} {what : PolicyDef → Prop}
    [DecidablePred what] :
    image.policies.toList.find? (fun entry =>
        entry.2.definition.scope = level ∧ what entry.2.definition) = none ↔
      ∀ (other : PolicyId) (found : PolicyEntry), image.policies[other]? = some found →
        found.definition.scope = level → ¬ what found.definition := by
  rw [List.find?_eq_none]
  constructor
  · intro h other found hfound hscope hwhat
    exact h (other, found) (Std.ExtTreeMap.mem_toList_iff_getElem?_eq_some.mpr hfound)
      (by simp [hscope, hwhat])
  · rintro h ⟨other, found⟩ hmem
    have hfound := Std.ExtTreeMap.mem_toList_iff_getElem?_eq_some.mp hmem
    simp only [decide_eq_true_eq, not_and]
    exact h other found hfound

theorem lookup_eq_some_iff {path : List PolicyScopeId} {what : PolicyDef → Prop}
    [DecidablePred what] {id : PolicyId} {entry : PolicyEntry} :
    lookup image path what = some (id, entry) ↔ Nearest image path what id entry := by
  unfold lookup Nearest
  simp only [List.findSome?_eq_some_iff, find?_policies_iff, find?_policies_eq_none_iff]

end Policies

/-- The policy lists the classes that are visible under it. -/
def Lists (d : PolicyDef) : Prop := d.visibleClasses ≠ []

instance (d : PolicyDef) : Decidable (Lists d) := inferInstanceAs (Decidable (_ ≠ _))

theorem effectivePolicy_of_chain {image : StateImage} {scope : PolicyScopeId}
    {path : List PolicyScopeId} (h : scopeChain image scope = .ok path) :
    effectivePolicy image scope = (lookup image path fun _ => True).map (·.1) := by
  simp only [effectivePolicy, h, lookup, and_true, List.map_findSome?]
  rfl

theorem effectiveVisibility_of_chain {image : StateImage} {scope : PolicyScopeId}
    {path : List PolicyScopeId} (h : scopeChain image scope = .ok path) :
    effectiveVisibility image scope =
      (lookup image path Lists).map (·.2.definition.visibleClasses) := by
  simp only [effectiveVisibility, h, lookup, List.map_findSome?, Lists]
  rfl

theorem reflTransGen_of_searchLoop {Id : Type} [DecidableEq Id] {next : Id → List Id}
    {target : Id} {excluded : Option Id} {bound : Nat} {stack visited : List Id}
    (h : searchLoop next target excluded bound stack visited = true) :
    ∃ start ∈ stack, ReflTransGen (fun x y => y ∈ next x) start target := by
  induction bound generalizing stack visited with
  | zero => cases h
  | succ bound ih =>
      cases stack with
      | nil => cases h
      | cons current stack =>
          have hlater {visited : List Id}
              (h : searchLoop next target excluded bound stack visited = true) :
              ∃ start ∈ current :: stack, ReflTransGen (fun x y => y ∈ next x) start target := by
            obtain ⟨start, hstart, hreach⟩ := ih h
            exact ⟨start, List.mem_cons_of_mem _ hstart, hreach⟩
          rw [searchLoop] at h
          split at h
          · rename_i heq
            exact ⟨current, List.mem_cons_self, heq ▸ .refl⟩
          · split at h
            · exact hlater h
            · split at h
              · exact hlater h
              · obtain ⟨start, hstart, hreach⟩ := ih h
                rcases List.mem_append.mp hstart with hparent | hold
                · exact ⟨current, List.mem_cons_self,
                    .head (List.mem_reverse.mp hparent) hreach⟩
                · exact ⟨start, List.mem_cons_of_mem _ hold, hreach⟩

theorem reflTransGen_of_classImplies {image : StateImage} {cls allowed : PriorityClassId}
    (h : classImplies image cls allowed = true) :
    ReflTransGen (ClassEdge image) cls allowed := by
  unfold classImplies at h
  split at h
  · rename_i heq
    rw [heq]
  · obtain ⟨start, hstart, hreach⟩ := reflTransGen_of_searchLoop h
    obtain rfl := List.mem_singleton.mp hstart
    exact hreach

/-- The policies on the way to the root admit the class under the named policy. -/
structure Admitted (image : StateImage) (path : List PolicyScopeId) (cls : PriorityClassId)
    (policy : Option PolicyId) : Prop where
  visible : ∀ id entry, Nearest image path Lists id entry →
    ∃ allowed ∈ entry.definition.visibleClasses, ReflTransGen (ClassEdge image) cls allowed
  named : ∀ id entry, Nearest image path (fun _ => True) id entry →
    entry.definition.requirePolicyForAssignment = true → policy = some id

section Admission

variable {image : StateImage} {path : List PolicyScopeId} {a : PriorityAssignment}

theorem admitted_of_checks (hchain : scopeChain image a.scope = .ok path)
    (hvisible : checkVisibility image a = .ok ())
    (hpolicy : checkEffectivePolicy image a = .ok ()) : Admitted image path a.cls a.policy := by
  refine ⟨?_, ?_⟩
  · intro id entry hnearest
    rw [checkVisibility, effectiveVisibility_of_chain hchain,
      lookup_eq_some_iff.mpr hnearest] at hvisible
    simp only [Option.map_some, failIf_eq_ok, Bool.not_eq_false, List.any_eq_true] at hvisible
    obtain ⟨allowed, hallowed, himplies⟩ := hvisible
    exact ⟨allowed, hallowed, reflTransGen_of_classImplies himplies⟩
  · intro id entry hnearest hrequired
    have hstored : image.policies[id]? = some entry := by
      obtain ⟨before, level, after, -, hsmallest, -⟩ := hnearest
      exact hsmallest.stored
    rw [checkEffectivePolicy, effectivePolicy_of_chain hchain,
      lookup_eq_some_iff.mpr hnearest] at hpolicy
    simp only [Option.map_some, hstored, hrequired, if_true] at hpolicy
    cases hnamed : a.policy with
    | none =>
        rw [hnamed] at hpolicy
        cases hpolicy
    | some policy =>
        rw [hnamed] at hpolicy
        simp only [failIf_eq_ok, ne_eq, not_not] at hpolicy
        rw [hpolicy]

theorem checks_of_no_chain {e : Status} (hchain : scopeChain image a.scope = .error e) :
    checkVisibility image a = .ok () ∧ checkEffectivePolicy image a = .ok () := by
  simp only [checkVisibility, checkEffectivePolicy, effectiveVisibility, effectivePolicy, hchain,
    and_self]

/-- An assignment can be made at all: there is a subject and a name for it. -/
structure CanAssign (image : StateImage) : Prop where
  subject : ∃ subject, subject ∈ image.subjects
  name : ∃ id : PriorityAssignmentId, id.valid = true ∧
    (id ∈ image.assignments ∨ image.assignments.size < image.limits.maxAssignments)

/-- The plainest assignment of a class to a subject in a scope. -/
def plain (image : StateImage) (id : PriorityAssignmentId) (subject : SubjectId)
    (scope : PolicyScopeId) (cls : PriorityClassId) : PriorityAssignment where
  id := id
  subject := subject
  subjectGeneration := ((image.subjects[subject]?).map (·.definition.generation)).getD .unset
  scope := scope
  scopeGeneration := ((image.scopes[scope]?).map (·.definition.generation)).getD .unset
  cls := cls
  classGeneration := ((image.classes[cls]?).map (·.definition.generation)).getD .unset

theorem validateAssignment_plain {id : PriorityAssignmentId} {subject : SubjectId}
    {scope : PolicyScopeId} {cls : PriorityClassId} {e : Status} (hid : id.valid = true)
    (hroom : id ∈ image.assignments ∨ image.assignments.size < image.limits.maxAssignments)
    (hsubject : subject ∈ image.subjects) (hscope : scope ∈ image.scopes)
    (hcls : cls ∈ image.classes) (hchain : scopeChain image scope = .error e) :
    validateAssignment image (plain image id subject scope cls) = .ok () := by
  obtain ⟨hvisible, hpolicy⟩ :=
    @checks_of_no_chain image (plain image id subject scope cls) e hchain
  have hdefined {K V : Type} [Ord K] [Std.TransOrd K] {table : Std.ExtTreeMap K V} {key : K}
      (hkey : key ∈ table) : ¬ table.contains key = false := by
    rw [Std.ExtTreeMap.mem_iff_contains] at hkey
    simp [hkey]
  unfold validateAssignment
  simp only [bind_eq_ok]
  refine ⟨(), failIf_eq_ok.mpr (by simp [plain, hid]), (), ?_,
    (), failIf_eq_ok.mpr (hdefined hsubject), (), failIf_eq_ok.mpr (hdefined hscope),
    (), failIf_eq_ok.mpr (hdefined hcls), (), failIf_eq_ok.mpr (by simp [plain]),
    (), failIf_eq_ok.mpr (by simp [plain]), (), failIf_eq_ok.mpr (by simp [plain]),
    (), failIf_eq_ok.mpr (by simp [plain, Generation.isSet, Generation.unset]), (), rfl,
    (), hvisible, (), hpolicy, failIf_eq_ok.mpr ?_⟩
  · simp [checkTextBounds, plain, isPrintableText, failIf, bind, Except.bind]
  · rintro ⟨hnew, hfull⟩
    rcases hroom with hold | hspace
    · exact hdefined hold hnew
    · omega

/-- Every assignment the validator accepts in a scope is one the policies on the way to the
root admit exactly when the way is no longer than the chains the limits admit, or nothing can
be assigned, or the policies admit every class without being named. -/
theorem assignments_admitted_iff {limits : Limits} (h : Built limits image)
    {scope : PolicyScopeId} (hscope : scope ∈ image.scopes) :
    ∃ path, Path image scope path ∧
      ((∀ (mutation : Mutation) (a : PriorityAssignment), mutation.op = .assign a →
          a.scope = scope → validateMutation image mutation = .ok () →
          Admitted image path a.cls a.policy) ↔
        path.length ≤ limits.maxScopeDepth ∨ ¬ CanAssign image ∨
          ∀ cls ∈ image.classes, Admitted image path cls none) := by
  have hacyclic := acyclic_scopes_of_built h
  obtain ⟨path, hpath⟩ := exists_path h.registered hacyclic hscope
  rw [← h.limits_eq]
  refine ⟨path, hpath, ?_, ?_⟩
  · intro hadmits
    by_contra hnot
    rw [not_or, not_or, not_le, not_not] at hnot
    obtain ⟨hlong, ⟨⟨subject, hsubject⟩, id, hid, hroom⟩, hrestricts⟩ := hnot
    push Not at hrestricts
    obtain ⟨cls, hcls, hrefused⟩ := hrestricts
    obtain ⟨e, hchain⟩ := scopeChain_of_long hacyclic hpath hlong
    exact hrefused (hadmits { op := .assign (plain image id subject scope cls) } _ rfl rfl
      (validateAssignment_plain hid hroom hsubject hscope hcls hchain))
  · intro hcondition mutation a hop hscope' hvalid
    simp only [validateMutation, hop, validateAssignment, bind_eq_ok] at hvalid
    obtain ⟨_, hid, _, -, _, hsubject, _, -, _, hcls, _, -, _, -, _, -, _, -, _, -, _, hvisible,
      _, hpolicy, hroom⟩ := hvalid
    subst hscope'
    rcases hcondition with hshort | hnothing | hadmits
    · exact admitted_of_checks (scopeChain_of_path hacyclic hpath hshort) hvisible hpolicy
    · refine absurd ⟨⟨a.subject, ?_⟩, a.id, ?_, ?_⟩ hnothing
      · rw [Std.ExtTreeMap.mem_iff_contains]
        simpa [checkNamed] using hsubject
      · simpa using hid
      · rw [Std.ExtTreeMap.mem_iff_contains]
        simp only [checkRoom, failIf_eq_ok, not_and, ge_iff_le, not_le] at hroom
        cases hstored : image.assignments.contains a.id with
        | true => exact .inl rfl
        | false => exact .inr (hroom hstored)
    · have hclass : a.cls ∈ image.classes := by
        rw [Std.ExtTreeMap.mem_iff_contains]
        simpa [checkNamed] using hcls
      obtain ⟨hlisted, hnamed⟩ := hadmits a.cls hclass
      refine ⟨hlisted, fun id entry hnearest hrequired => ?_⟩
      have hnone := hnamed id entry hnearest hrequired
      cases hnone

end Admission

def flat : Limits := { maxScopeDepth := 1 }

def upperScope : PolicyScopeId := ⟨[97], wellFormed_a⟩

def lowerScope : PolicyScopeId := ⟨[98], wellFormed_b⟩

def demanding : PolicyDef :=
  { id := ⟨[112], wellFormed_p⟩, scope := upperScope, scopeGeneration := .first
    requirePolicyForAssignment := true }

/-- A policy that has to be named, and a scope below its own. -/
def demands : List Mutation :=
  [someClassNamed ⟨[97], wellFormed_a⟩ 1,
    bySystem (.defineScope { id := upperScope }),
    bySystem (.definePolicy demanding),
    bySystem (.defineScope { id := lowerScope, parent := some upperScope }),
    bySystem (.defineSubject { id := ⟨[97], wellFormed_a⟩ })]

/-- An assignment in the lower scope that names no policy. -/
def unnamed : PriorityAssignment where
  id := ⟨[97], wellFormed_a⟩
  subject := ⟨[97], wellFormed_a⟩
  subjectGeneration := .first
  scope := lowerScope
  scopeGeneration := .first
  cls := ⟨[97], wellFormed_a⟩
  classGeneration := .first

def demandingImage : StateImage := applyAll { limits := flat } demands

theorem built_demandingImage : Built flat demandingImage :=
  built_applyAll .empty (by decide)

theorem path_lowerScope : Path demandingImage lowerScope [lowerScope, upperScope] :=
  .up (by unfold ScopeEdge; decide) (.root (by decide) (by decide))

theorem assignments_admitted_iff_upper :
    upperScope ∈ demandingImage.scopes ∧ ∃ path, Path demandingImage upperScope path ∧
      ((∀ (mutation : Mutation) (a : PriorityAssignment), mutation.op = .assign a →
          a.scope = upperScope → validateMutation demandingImage mutation = .ok () →
          Admitted demandingImage path a.cls a.policy) ↔
        path.length ≤ flat.maxScopeDepth ∨ ¬ CanAssign demandingImage ∨
          ∀ cls ∈ demandingImage.classes, Admitted demandingImage path cls none) := by
  have hscope : upperScope ∈ demandingImage.scopes := by decide
  exact ⟨hscope, assignments_admitted_iff built_demandingImage hscope⟩

/-- The policy above the scope has to be named, and an assignment that names none is
accepted. -/
theorem demanding_policy_skipped :
    ∃ (limits : Limits) (image image' : StateImage) (a : PriorityAssignment)
      (path : List PolicyScopeId), limitsWithinCompiledCeiling limits = true ∧
      Built limits image ∧ applyMutation image (bySystem (.assign a)) false = (.ok (), image') ∧
      Path image a.scope path ∧ ¬ Admitted image path a.cls a.policy := by
  refine ⟨flat, demandingImage, _, unnamed, _, by decide, built_demandingImage,
    (Prod.ext (by decide) rfl :
      applyMutation demandingImage (bySystem (.assign unnamed)) false = (.ok (), _)),
    path_lowerScope, fun hadmitted => ?_⟩
  have hlookup : (lookup demandingImage [lowerScope, upperScope] fun _ => True).map
      (fun found => (found.1, found.2.definition.requirePolicyForAssignment)) =
      some (demanding.id, true) := by decide
  obtain ⟨⟨id, entry⟩, hfound, heq⟩ := Option.map_eq_some_iff.mp hlookup
  have hnamed := hadmitted.named id entry (lookup_eq_some_iff.mp hfound) (Prod.mk.inj heq).2
  cases hnamed

end PriorityFabric.Admissions
