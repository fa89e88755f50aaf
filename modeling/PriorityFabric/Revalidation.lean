import PriorityFabric.Lifetimes
import PriorityFabric.LongestPaths

/-!
Validating an accepted publication once more.

A definition, an assignment or a retirement that was accepted is accepted again by the
image it leaves behind, and there it repeats what the image holds.
-/

namespace PriorityFabric.Revalidation

open Relation
open PriorityFabric.Lib.LittleEndian
open PriorityFabric.Lib.Walks
open PriorityFabric.Lib.KeyedTable (getElem?_insert_of_ne)
open PriorityFabric.Basics
open PriorityFabric.Ident
open PriorityFabric.Model
open PriorityFabric.State
open PriorityFabric.Validate
open PriorityFabric.Apply
open PriorityFabric.ApplyFacts
open PriorityFabric.Bounds
open PriorityFabric.Lifetimes
open PriorityFabric.Inheritance
open PriorityFabric.LongestPaths

/-- `b` is `a` after an accepted publication: only the entry it names may differ, and the
publication repeats what stands there now. -/
structure Published (a b : StateImage) (mutation : Mutation) : Prop where
  epoch : b.epoch = a.epoch
  authority : b.authority = a.authority
  limits : b.limits = a.limits
  classes : ∀ x, (∀ d, mutation.op = .defineClass d → d.id ≠ x) → b.classes[x]? = a.classes[x]?
  scopes : ∀ x, (∀ d, mutation.op = .defineScope d → d.id ≠ x) → b.scopes[x]? = a.scopes[x]?
  policies : ∀ x, (∀ d, mutation.op = .definePolicy d → d.id ≠ x) →
    b.policies[x]? = a.policies[x]?
  subjects : ∀ x, (∀ d, mutation.op = .defineSubject d → d.id ≠ x) →
    b.subjects[x]? = a.subjects[x]?
  repeated : isIdempotent b mutation = true

theorem sameAuthorityBinding_provenanceOf (image : StateImage) (mutation : Mutation)
    (expected : Generation) :
    sameAuthorityBinding (provenanceOf image mutation expected) mutation = true := by
  simp [sameAuthorityBinding, provenanceOf]

theorem sameContent_of_admitted {tag : IdTag} {Def : Type} {kind : EntityKind tag Def}
    {image : StateImage} {d : Def} {provenance : Provenance} {entry : Entry Def}
    (hsame : ∀ g, kind.sameContent (kind.setGeneration d g) d = true)
    (h : Admitted kind image d provenance entry) :
    kind.sameContent entry.definition d = true ∧ entry.provenance = provenance := by
  cases h with
  | refreshed hold hcontent => exact ⟨hcontent, rfl⟩
  | stored hset hchanged => exact ⟨hsame _, rfl⟩

theorem idempotent_of_admitted {tag : IdTag} {Def : Type} {kind : EntityKind tag Def}
    {image recorded result : StateImage} {mutation : Mutation} {expected : Generation} {d : Def}
    {entry : Entry Def} (hsame : ∀ g, kind.sameContent (kind.setGeneration d g) d = true)
    (h : Admitted kind recorded d (provenanceOf image mutation expected) entry)
    (htable : kind.table result = (kind.table recorded).insert (kind.id d) entry) :
    kind.idempotent result mutation d = true := by
  obtain ⟨hcontent, hprovenance⟩ := sameContent_of_admitted hsame h
  unfold EntityKind.idempotent
  rw [htable, Std.ExtTreeMap.getElem?_insert_self]
  simp only [hcontent, hprovenance, Bool.true_and]
  exact sameAuthorityBinding_provenanceOf image mutation expected

theorem published_of_applied {a b : StateImage} {mutation : Mutation}
    (hop : governs mutation.op = false) {expected : Generation}
    (h : Applied a mutation expected b) : Published a b mutation := by
  cases h with
  | repeated hrepeated =>
      exact ⟨rfl, rfl, rfl, fun _ _ => rfl, fun _ _ => rfl, fun _ _ => rfl, fun _ _ => rfl,
        hrepeated⟩
  | @performed result hfresh hperform =>
      cases perform_eq_ok hperform with
      | «class» d entry hclass hentry =>
          refine ⟨rfl, rfl, rfl, fun x hx => ?_, fun _ _ => rfl, fun _ _ => rfl, fun _ _ => rfl,
            ?_⟩
          · exact getElem?_insert_of_ne entry (hx d hclass)
          · simp only [isIdempotent, hclass]
            refine idempotent_of_admitted (fun g => ?_) hentry rfl
            simp [classKind, sameClassContent, PrecedenceRank.same]
      | scope d entry hscope hentry =>
          refine ⟨rfl, rfl, rfl, fun _ _ => rfl, fun x hx => ?_, fun _ _ => rfl, fun _ _ => rfl,
            ?_⟩
          · exact getElem?_insert_of_ne entry (hx d hscope)
          · simp only [isIdempotent, hscope]
            exact idempotent_of_admitted (fun g => by simp [scopeKind, sameScopeContent]) hentry rfl
      | policy d entry hpolicy hentry =>
          refine ⟨rfl, rfl, rfl, fun _ _ => rfl, fun _ _ => rfl, fun x hx => ?_, fun _ _ => rfl,
            ?_⟩
          · exact getElem?_insert_of_ne entry (hx d hpolicy)
          · simp only [isIdempotent, hpolicy]
            exact idempotent_of_admitted (fun g => by simp [policyKind, samePolicyContent]) hentry
              rfl
      | subject d entry hsubject hentry =>
          refine ⟨rfl, rfl, rfl, fun _ _ => rfl, fun _ _ => rfl, fun _ _ => rfl, fun x hx => ?_,
            ?_⟩
          · exact getElem?_insert_of_ne entry (hx d hsubject)
          · simp only [isIdempotent, hsubject]
            exact idempotent_of_admitted (fun g => by simp [subjectKind, sameSubjectContent])
              hentry rfl
      | assign assignment result hassign hadmitted =>
          cases hadmitted with
          | refreshed hold hsame =>
              refine ⟨rfl, rfl, rfl, fun _ _ => rfl, fun _ _ => rfl, fun _ _ => rfl,
                fun _ _ => rfl, ?_⟩
              simp only [isIdempotent, hassign, Std.ExtTreeMap.getElem?_insert_self, hsame,
                Bool.true_and]
              exact sameAuthorityBinding_provenanceOf a mutation expected
          | stored hset hchanged =>
              refine ⟨rfl, rfl, rfl, fun _ _ => rfl, fun _ _ => rfl, fun _ _ => rfl,
                fun _ _ => rfl, ?_⟩
              simp only [isIdempotent, hassign, Std.ExtTreeMap.getElem?_insert_self]
              simp only [sameAuthorityBinding_provenanceOf, Bool.and_true]
              simp [sameAssignmentContent]
      | retire target entry generation hretire hentry hnext =>
          refine ⟨rfl, rfl, rfl, fun _ _ => rfl, fun _ _ => rfl, fun _ _ => rfl, fun _ _ => rfl,
            ?_⟩
          simp [isIdempotent, hretire]
      | grant hgrant => simp [hgrant, governs] at hop
      | fence publisher boot hfence => simp [hfence, governs] at hop
      | advance epoch hadvance => simp [hadvance, governs] at hop

theorem forM_eq_ok_iff {α : Type} {f : α → Result Unit} {items : List α} :
    items.forM f = .ok () ↔ ∀ item ∈ items, f item = .ok () := by
  induction items with
  | nil => simp [pure, Except.pure]
  | cons item items ih =>
      rw [List.forM, bind_eq_ok, List.forall_mem_cons, ← ih]
      constructor
      · rintro ⟨_, hitem, hrest⟩
        exact ⟨hitem, hrest⟩
      · rintro ⟨hitem, hrest⟩
        exact ⟨(), hitem, hrest⟩

theorem searchLoop_congr {Id : Type} [DecidableEq Id] {next next' : Id → List Id} {target : Id}
    (h : ∀ x, x ≠ target → next' x = next x) (excluded : Option Id) (bound : Nat)
    (stack visited : List Id) :
    searchLoop next' target excluded bound stack visited =
      searchLoop next target excluded bound stack visited := by
  induction bound generalizing stack visited with
  | zero => rfl
  | succ bound ih =>
      cases stack with
      | nil => rfl
      | cons current stack =>
          simp only [searchLoop, ih]
          split
          · rfl
          · rename_i hne
            rw [h current hne]

theorem checkAcyclic_congr {tag : IdTag} {self : BasicId tag}
    {next next' : BasicId tag → List (BasicId tag)} (h : ∀ x, x ≠ self → next' x = next x)
    (what : Bytes) (bound : Nat) (parents : List (BasicId tag)) :
    checkAcyclic what self bound next' parents = checkAcyclic what self bound next parents := by
  unfold checkAcyclic reaches
  congr 1
  funext parent
  rw [searchLoop_congr h]

theorem checkParents_mono {tag : IdTag} {noun emptyId : Bytes} {self : BasicId tag}
    {isDefined isDefined' : BasicId tag → Bool}
    (hdefined : ∀ x, isDefined x = true → isDefined' x = true) {seen parents : List (BasicId tag)}
    (h : checkParents noun emptyId self isDefined seen parents = .ok ()) :
    checkParents noun emptyId self isDefined' seen parents = .ok () := by
  induction parents generalizing seen with
  | nil => rfl
  | cons parent rest ih =>
      simp only [checkParents, bind_eq_ok, failIf_eq_ok, exists_const, Bool.not_eq_false] at h ⊢
      obtain ⟨hvalid, hself, hseen, hparent, hrest⟩ := h
      exact ⟨hvalid, hself, hseen, hdefined parent hparent, ih hrest⟩

theorem checkScopeWalk_congr {a b : StateImage} {self : PolicyScopeId}
    (hscopes : ∀ x, x ≠ self → b.scopes[x]? = a.scopes[x]?) (hlimits : b.limits = a.limits)
    (parent : PolicyScopeId) (room : Nat) (cursor : PolicyScopeId)
    (visited : List PolicyScopeId) :
    checkScopeWalk b self parent room cursor visited =
      checkScopeWalk a self parent room cursor visited := by
  induction room generalizing cursor visited with
  | zero =>
      unfold checkScopeWalk
      rw [hlimits]
  | succ room ih =>
      unfold checkScopeWalk
      simp only [ih]
      split
      · rfl
      · rename_i hne
        rw [hscopes cursor hne]

theorem scopeChainLoop_congr {a b : StateImage} (hscopes : b.scopes = a.scopes)
    (hlimits : b.limits = a.limits) (scope : PolicyScopeId) (room : Nat)
    (current : PolicyScopeId) (chain : List PolicyScopeId) :
    scopeChainLoop b scope room current chain = scopeChainLoop a scope room current chain := by
  induction room generalizing current chain with
  | zero =>
      unfold scopeChainLoop
      rw [hscopes, hlimits]
  | succ room ih =>
      unfold scopeChainLoop
      simp only [ih, hscopes]

theorem checkVisible_congr {a b : StateImage} (hclasses : b.classes = a.classes)
    (policy : PolicyId) (seen classes : List PriorityClassId) :
    checkVisible b policy seen classes = checkVisible a policy seen classes := by
  induction classes generalizing seen with
  | nil => rfl
  | cons cls rest ih => simp only [checkVisible, ih, hclasses]

/-- The depth of a class does not change with the parents of one that it does not reach. -/
theorem classDepth_of_unreached {a b : StateImage} {self cls : PriorityClassId}
    {targets : PriorityClassId → Prop}
    (hredirects : Redirects (ClassEdge a) (ClassEdge b) self targets)
    (hkept : ∀ x, x ∈ a.classes → x ∈ b.classes) (hlimits : b.limits = a.limits)
    (hcls : ¬ ReflTransGen (ClassEdge a) cls self) (hdepth : 0 ≤ classDepth a cls) :
    classDepth b cls = classDepth a cls := by
  rcases (classDepth_judged a cls).2 with ⟨-, hrooted⟩ | ⟨hneg, -⟩
  · have hlongest : Longest (ClassEdge b) (classDepth a cls).toNat cls := by
      obtain ⟨⟨y, hy⟩, hmax⟩ := hrooted.longest
      exact ⟨⟨y, (hredirects.hops_iff hcls).mpr hy⟩,
        fun m y hm => hmax m y ((hredirects.hops_iff hcls).mp hm)⟩
    have hagain : Rooted b cls (classDepth a cls).toNat := by
      refine ⟨fun y hy => ?_, hlongest, ?_⟩
      · obtain ⟨n, hn⟩ := exists_hops hy
        exact hkept y (hrooted.known y ((hredirects.hops_iff hcls).mp hn).reflTransGen)
      · rw [hlimits]
        exact hrooted.within
    rcases (classDepth_judged b cls).2 with ⟨hpos, hrooted'⟩ | ⟨-, hnone⟩
    · have hsame := hrooted'.longest.unique hlongest
      omega
    · exact absurd hagain (hnone _)
  · omega

section Again

variable {a b : StateImage} {mutation : Mutation}

theorem Published.classes_eq (h : Published a b mutation)
    (hop : ∀ d, mutation.op ≠ .defineClass d) : b.classes = a.classes :=
  Std.ExtTreeMap.ext_getElem? fun x => h.classes x fun d hd => absurd hd (hop d)

theorem Published.scopes_eq (h : Published a b mutation)
    (hop : ∀ d, mutation.op ≠ .defineScope d) : b.scopes = a.scopes :=
  Std.ExtTreeMap.ext_getElem? fun x => h.scopes x fun d hd => absurd hd (hop d)

theorem Published.policies_eq (h : Published a b mutation)
    (hop : ∀ d, mutation.op ≠ .definePolicy d) : b.policies = a.policies :=
  Std.ExtTreeMap.ext_getElem? fun x => h.policies x fun d hd => absurd hd (hop d)

theorem Published.subjects_eq (h : Published a b mutation)
    (hop : ∀ d, mutation.op ≠ .defineSubject d) : b.subjects = a.subjects :=
  Std.ExtTreeMap.ext_getElem? fun x => h.subjects x fun d hd => absurd hd (hop d)

theorem entry_of_idempotent {tag : IdTag} {Def : Type} {kind : EntityKind tag Def} {d : Def}
    (h : kind.idempotent b mutation d = true) :
    ∃ entry, (kind.table b)[kind.id d]? = some entry ∧
      kind.sameContent entry.definition d = true := by
  unfold EntityKind.idempotent at h
  split at h
  · cases h
  · rename_i entry hentry
    exact ⟨entry, hentry, (Bool.and_eq_true_iff.mp h).1⟩

theorem contains_of_kept {tag : IdTag} {V : Type} {table table' : Std.ExtTreeMap (BasicId tag) V}
    {self : BasicId tag} (hself : self ∈ table')
    (hkept : ∀ x, x ≠ self → table'[x]? = table[x]?) (x : BasicId tag) (hx : x ∈ table) :
    x ∈ table' := by
  by_cases heq : x = self
  · rw [heq]
    exact hself
  · have hsame := hkept x heq
    rw [Std.ExtTreeMap.getElem?_eq_some_getElem hx] at hsame
    exact (getElem?_eq_some_iff.mp hsame).1

theorem checkRoom_of_mem {K V : Type} [Ord K] [Std.TransOrd K] {table : Std.ExtTreeMap K V}
    {id : K} (h : id ∈ table) (limit : Nat) (what : Bytes) :
    checkRoom table id limit what = .ok () := by
  have hcontains : table.contains id = true := h
  simp [checkRoom, failIf_eq_ok, hcontains]

theorem validateScope_again (h : Published a b mutation) {d : PolicyScopeDef}
    (hop : mutation.op = .defineScope d) (hvalid : validateScope a d = .ok ()) :
    validateScope b d = .ok () := by
  have hclasses := h.classes_eq fun c hc => by simp [hop] at hc
  have hrepeated := h.repeated
  simp only [isIdempotent, hop] at hrepeated
  obtain ⟨entry, hentry, -⟩ := entry_of_idempotent hrepeated
  have hmem : d.id ∈ b.scopes := (getElem?_eq_some_iff.mp hentry).1
  have hkept (x : PolicyScopeId) (hx : x ≠ d.id) : b.scopes[x]? = a.scopes[x]? := by
    refine h.scopes x fun d' hd' => ?_
    rw [hop, MutationOp.defineScope.injEq] at hd'
    rw [← hd']
    exact hx.symm
  simp only [validateScope, bind_eq_ok, failIf_eq_ok, exists_const] at hvalid ⊢
  obtain ⟨hid, _, htext, _, hdefault, _, hparent, -⟩ := hvalid
  refine ⟨hid, (), ?_, (), ?_, (), ?_, checkRoom_of_mem hmem _ _⟩
  · rw [h.limits]
    exact htext
  · unfold checkDefaultClass at hdefault ⊢
    rw [hclasses]
    exact hdefault
  · cases hd : d.parent with
    | none => rfl
    | some parent =>
        simp only [hd, checkScopeParent, bind_eq_ok, failIf_eq_ok, exists_const,
          Bool.not_eq_false] at hparent ⊢
        obtain ⟨hself, hdefined, hwalk⟩ := hparent
        refine ⟨hself, contains_of_kept hmem hkept parent hdefined, ?_⟩
        rw [h.limits, checkScopeWalk_congr hkept h.limits]
        exact hwalk

theorem validatePolicy_again (h : Published a b mutation) {d : PolicyDef}
    (hop : mutation.op = .definePolicy d) (hvalid : validatePolicy a d = .ok ()) :
    validatePolicy b d = .ok () := by
  have hclasses := h.classes_eq fun c hc => by simp [hop] at hc
  have hscopes := h.scopes_eq fun c hc => by simp [hop] at hc
  have hrepeated := h.repeated
  simp only [isIdempotent, hop] at hrepeated
  obtain ⟨entry, hentry, -⟩ := entry_of_idempotent hrepeated
  have hmem : d.id ∈ b.policies := (getElem?_eq_some_iff.mp hentry).1
  simp only [validatePolicy, hscopes, hclasses, h.limits, checkDefaultClass,
    checkVisible_congr hclasses] at hvalid ⊢
  simp only [bind_eq_ok, failIf_eq_ok, exists_const] at hvalid ⊢
  obtain ⟨hid, _, htext, hscope⟩ := hvalid
  refine ⟨hid, (), htext, ?_⟩
  split at hscope
  · cases hscope
  · rename_i scope hfound
    simp only [bind_eq_ok, failIf_eq_ok, exists_const] at hscope ⊢
    obtain ⟨hbound, hcount, _, hvisible, _, hdefault, -⟩ := hscope
    exact ⟨hbound, hcount, (), hvisible, (), hdefault, checkRoom_of_mem hmem _ _⟩

theorem validateSubject_again (h : Published a b mutation) {d : SubjectDef}
    (hop : mutation.op = .defineSubject d) (hvalid : validateSubject a d = .ok ()) :
    validateSubject b d = .ok () := by
  have hrepeated := h.repeated
  simp only [isIdempotent, hop] at hrepeated
  obtain ⟨entry, hentry, -⟩ := entry_of_idempotent hrepeated
  have hmem : d.id ∈ b.subjects := (getElem?_eq_some_iff.mp hentry).1
  have hkept (x : SubjectId) (hx : x ≠ d.id) : b.subjects[x]? = a.subjects[x]? := by
    refine h.subjects x fun d' hd' => ?_
    rw [hop, MutationOp.defineSubject.injEq] at hd'
    rw [← hd']
    exact hx.symm
  have hparents (x : SubjectId) (hx : x ≠ d.id) : subjectParents b x = subjectParents a x := by
    simp only [subjectParents, hkept x hx]
  simp only [validateSubject, validateSubjectInheritance, subjectSearchBound, h.limits,
    bind_eq_ok, failIf_eq_ok, exists_const] at hvalid ⊢
  obtain ⟨hid, _, htext, _, ⟨hcount, _, hdefined, hacyclic⟩, -⟩ := hvalid
  refine ⟨hid, (), htext, (), ⟨hcount, (), ?_, ?_⟩, checkRoom_of_mem hmem _ _⟩
  · exact checkParents_mono (contains_of_kept hmem hkept) hdefined
  · rw [checkAcyclic_congr hparents]
    exact hacyclic

theorem validateClass_again (h : Published a b mutation) {d : PriorityClassDef}
    (hop : mutation.op = .defineClass d) (hbounded : Bounded a)
    (hsearch : SearchesSuffice a.limits) (hvalid : validateClass a d = .ok ()) :
    validateClass b d = .ok () := by
  have hguard : ∀ parent ∈ d.inheritsFrom, ¬ ReflTransGen (ClassEdge a) parent d.id := by
    refine class_guard hop ?_ hbounded hsearch
    simp only [validateMutation, hop]
    exact hvalid
  have hrepeated := h.repeated
  simp only [isIdempotent, hop] at hrepeated
  obtain ⟨entry, hentry, hsame⟩ := entry_of_idempotent hrepeated
  have hmem : d.id ∈ b.classes := (getElem?_eq_some_iff.mp hentry).1
  have hunchanged : classKind.unchanged b d = true := by
    unfold EntityKind.unchanged
    simp only [hentry]
    exact hsame
  have hkept (x : PriorityClassId) (hx : x ≠ d.id) : b.classes[x]? = a.classes[x]? := by
    refine h.classes x fun d' hd' => ?_
    rw [hop, MutationOp.defineClass.injEq] at hd'
    rw [← hd']
    exact hx.symm
  have hparents (x : PriorityClassId) (hx : x ≠ d.id) : classParents b x = classParents a x := by
    simp only [classParents, hkept x hx]
  have hredirects : Redirects (ClassEdge a) (ClassEdge b) d.id (· ∈ classParents b d.id) :=
    ⟨fun x y hx => by simp only [ClassEdge, hparents x hx], fun y => Iff.rfl⟩
  simp only [validateClass, validateInheritance, classSearchBound, h.limits, hunchanged, if_true,
    bind_eq_ok, failIf_eq_ok, exists_const] at hvalid ⊢
  obtain ⟨hid, hdeclared, hrank, _, htext, _, ⟨hcount, _, hdefined, _, hacyclic, hdepths⟩, -⟩ :=
    hvalid
  refine ⟨hid, hdeclared, hrank, (), htext, (), ⟨hcount, (), ?_, (), ?_, ?_⟩, (),
    checkRoom_of_mem hmem _ _, rfl⟩
  · exact checkParents_mono (contains_of_kept hmem hkept) hdefined
  · rw [checkAcyclic_congr hparents]
    exact hacyclic
  · refine forM_eq_ok_iff.mpr fun parent hparent => ?_
    have hdepth := forM_eq_ok_iff.mp hdepths parent hparent
    have hpos : 0 ≤ classDepth a parent := by
      simp only [bind_eq_ok, failIf_eq_ok, exists_const] at hdepth
      omega
    rw [classDepth_of_unreached hredirects (contains_of_kept hmem hkept) h.limits
      (hguard parent hparent) hpos]
    exact hdepth

theorem validateAssignment_again (h : Published a b mutation) {assignment : PriorityAssignment}
    (hop : mutation.op = .assign assignment) (hvalid : validateAssignment a assignment = .ok ()) :
    validateAssignment b assignment = .ok () := by
  have hclasses := h.classes_eq fun c hc => by simp [hop] at hc
  have hscopes := h.scopes_eq fun c hc => by simp [hop] at hc
  have hpolicies := h.policies_eq fun c hc => by simp [hop] at hc
  have hsubjects := h.subjects_eq fun c hc => by simp [hop] at hc
  have hchain (scope : PolicyScopeId) : scopeChain b scope = scopeChain a scope := by
    unfold scopeChain
    rw [h.limits, scopeChainLoop_congr hscopes h.limits]
  have hmem : assignment.id ∈ b.assignments := by
    have hrepeated := h.repeated
    simp only [isIdempotent, hop] at hrepeated
    split at hrepeated
    · cases hrepeated
    · rename_i entry hentry
      exact (getElem?_eq_some_iff.mp hentry).1
  simp only [validateAssignment, checkAssignmentPolicy, checkDisplaces, checkVisibility,
    checkEffectivePolicy, effectiveVisibility, effectivePolicy, classImplies, classSearchBound,
    funext fun x => show classParents b x = classParents a x by simp only [classParents, hclasses],
    hchain, hclasses, hscopes, hpolicies, hsubjects, h.limits] at hvalid ⊢
  simp only [bind_eq_ok, failIf_eq_ok, exists_const] at hvalid ⊢
  obtain ⟨hid, _, h1, _, h2, _, h3, _, h4, _, h5, _, h6, _, h7, _, h8, _, h9, _, h10, _, h11,
    -⟩ := hvalid
  exact ⟨hid, (), h1, (), h2, (), h3, (), h4, (), h5, (), h6, (), h7, (), h8, (), h9, (), h10, (),
    h11, checkRoom_of_mem hmem _ _⟩

theorem validateRetirement_again (h : Published a b mutation) {target : PriorityAssignmentId}
    (hop : mutation.op = .retireAssignment target)
    (hvalid : validateRetirement a target mutation.reason = .ok ()) :
    validateRetirement b target mutation.reason = .ok () := by
  have hmem : b.assignments.contains target = true := by
    have hrepeated := h.repeated
    simp only [isIdempotent, hop] at hrepeated
    split at hrepeated
    · cases hrepeated
    · rename_i entry hentry
      exact (getElem?_eq_some_iff.mp hentry).1
  simp only [validateRetirement, h.limits, bind_eq_ok, failIf_eq_ok, exists_const,
    Bool.not_eq_false] at hvalid ⊢
  exact ⟨hvalid.1, hmem, hvalid.2.2⟩

theorem validateMutation_again (h : Published a b mutation) (hop : governs mutation.op = false)
    (hbounded : Bounded a) (hsearch : SearchesSuffice a.limits)
    (hvalid : validateMutation a mutation = .ok ()) : validateMutation b mutation = .ok () := by
  unfold validateMutation at hvalid ⊢
  cases hcase : mutation.op with
  | defineClass d =>
      simp only [hcase] at hvalid ⊢
      exact validateClass_again h hcase hbounded hsearch hvalid
  | defineScope d =>
      simp only [hcase] at hvalid ⊢
      exact validateScope_again h hcase hvalid
  | definePolicy d =>
      simp only [hcase] at hvalid ⊢
      exact validatePolicy_again h hcase hvalid
  | defineSubject d =>
      simp only [hcase] at hvalid ⊢
      exact validateSubject_again h hcase hvalid
  | assign assignment =>
      simp only [hcase] at hvalid ⊢
      exact validateAssignment_again h hcase hvalid
  | retireAssignment target =>
      simp only [hcase] at hvalid ⊢
      exact validateRetirement_again h hcase hvalid
  | grantAuthority => simp [hcase, governs] at hop
  | fenceAuthority publisher boot => simp [hcase, governs] at hop
  | advanceEpoch => simp [hcase, governs] at hop

end Again

end PriorityFabric.Revalidation
