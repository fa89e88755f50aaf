import PriorityFabric.Lifetimes

/-!
The plan of a commit and what its application does.

The generation a commit announces, the generation a call returns and the refusals a
commit can end with are computed before the mutation is applied; here they are
compared with the image the application leaves.
-/

namespace PriorityFabric.Planning

open PriorityFabric.Lib.LittleEndian
open PriorityFabric.Basics
open PriorityFabric.Ident
open PriorityFabric.Model
open PriorityFabric.State
open PriorityFabric.Validate
open PriorityFabric.Apply
open PriorityFabric.Durability
open PriorityFabric.Store
open PriorityFabric.Runtime
open PriorityFabric.Runtime.FabricRuntime
open PriorityFabric.Readable
open PriorityFabric.ApplyFacts
open PriorityFabric.Serving
open PriorityFabric.Lifetimes

/-! ## The generation of the entity -/

section Definitions

variable {tag : IdTag} {Def : Type} {kind : EntityKind tag Def} {image : StateImage} {d : Def}
  {provenance : Provenance} {entry : Entry Def}

theorem current_of_idempotent (kind : EntityKind tag Def) {mutation : Mutation}
    (h : kind.idempotent image mutation d = true) :
    ((kind.table image)[kind.id d]?).map (kind.generation ·.definition) =
      some (kind.current image d) := by
  unfold EntityKind.idempotent at h
  unfold EntityKind.current
  cases hfound : (kind.table image)[kind.id d]? with
  | none => simp [hfound] at h
  | some old => rfl

theorem generation_of_admitted
    (hgeneration : ∀ d g, kind.generation (kind.setGeneration d g) = g)
    (h : Admitted kind image d provenance entry) :
    kind.generation entry.definition =
      if kind.unchanged image d then kind.current image d else kind.bump image d := by
  cases h with
  | @refreshed old hold hsame =>
      have hunchanged : kind.unchanged image d = true := by
        simp [EntityKind.unchanged, hold, hsame]
      simp [hunchanged, EntityKind.current, hold]
  | stored hset hchanged =>
      simp [hchanged, hgeneration]

end Definitions

section Entities

variable {image image' : StateImage} {mutation : Mutation}

theorem generationOf_of_idempotent (h : isIdempotent image mutation = true) :
    generationOf image mutation.op = some (currentEntityGeneration image mutation) := by
  unfold isIdempotent at h
  unfold currentEntityGeneration
  cases hop : mutation.op with
  | defineClass d => exact current_of_idempotent classKind (by simpa [hop] using h)
  | defineScope d => exact current_of_idempotent scopeKind (by simpa [hop] using h)
  | definePolicy d => exact current_of_idempotent policyKind (by simpa [hop] using h)
  | defineSubject d => exact current_of_idempotent subjectKind (by simpa [hop] using h)
  | assign a =>
      simp only [hop] at h
      cases hfound : image.assignments[a.id]? with
      | none => simp [hfound] at h
      | some entry => simp [generationOf, currentAssignment, hfound]
  | retireAssignment target =>
      simp only [hop] at h
      cases hfound : image.assignments[target]? with
      | none => simp [hfound] at h
      | some entry => simp [generationOf, currentAssignment, hfound]
  | grantAuthority => simp [hop] at h
  | fenceAuthority publisher boot => simp [hop] at h
  | advanceEpoch => simp [hop] at h

theorem preview_of_fresh (h : isIdempotent image mutation = false) :
    previewEntityGeneration image mutation =
      if contentUnchanged image mutation then currentEntityGeneration image mutation
      else bump image mutation := by
  simp [previewEntityGeneration, h]

theorem generation_of_assigned {a : PriorityAssignment} {provenance : Provenance}
    (h : AssignmentAdmitted image a provenance image') :
    (image'.assignments[a.id]?).map (·.assignment.generation) =
      some (if assignmentUnchanged image a then currentAssignment image a.id
        else bumpAssignment image a.id) := by
  cases h with
  | @refreshed old hold hsame =>
      have hunchanged : assignmentUnchanged image a = true := by
        simp only [assignmentUnchanged, hold, hsame]
      simp [hunchanged, currentAssignment, hold]
  | stored hset hchanged =>
      simp [hchanged]

/-- After an accepted definition, assignment or retirement the entity holds the generation
the preview announced. -/
theorem generationOf_of_applied {replay : Bool} (hop : governs mutation.op = false)
    (h : applyMutation image mutation replay = (.ok (), image')) :
    generationOf image' mutation.op = some (previewEntityGeneration image mutation) := by
  obtain ⟨expected, -, happlied⟩ := applyMutation_eq_ok_iff.mp h
  cases happlied with
  | repeated hrepeated =>
      simp only [previewEntityGeneration, hrepeated, Bool.true_or, if_true]
      exact (generationOf_congr (sameRecord_recordAccepted image mutation expected) _).trans
        (generationOf_of_idempotent hrepeated)
  | @performed result hfresh hperform =>
      rw [preview_of_fresh hfresh]
      cases perform_eq_ok hperform with
      | «class» d entry hop hentry =>
          simp only [generationOf, currentEntityGeneration, contentUnchanged, bump, hop,
            Std.ExtTreeMap.getElem?_insert_self]
          exact congrArg some (generation_of_admitted (fun _ _ => rfl) hentry)
      | scope d entry hop hentry =>
          simp only [generationOf, currentEntityGeneration, contentUnchanged, bump, hop,
            Std.ExtTreeMap.getElem?_insert_self]
          exact congrArg some (generation_of_admitted (fun _ _ => rfl) hentry)
      | policy d entry hop hentry =>
          simp only [generationOf, currentEntityGeneration, contentUnchanged, bump, hop,
            Std.ExtTreeMap.getElem?_insert_self]
          exact congrArg some (generation_of_admitted (fun _ _ => rfl) hentry)
      | subject d entry hop hentry =>
          simp only [generationOf, currentEntityGeneration, contentUnchanged, bump, hop,
            Std.ExtTreeMap.getElem?_insert_self]
          exact congrArg some (generation_of_admitted (fun _ _ => rfl) hentry)
      | assign a result hop hadmitted =>
          simp only [generationOf, currentEntityGeneration, contentUnchanged, bump, hop]
          have hgeneration := generation_of_assigned hadmitted
          exact hgeneration
      | retire target entry generation hop hentry hnext =>
          have hstored : image.assignments[target]? = some entry := hentry
          simp [generationOf, contentUnchanged, bump, hop, bumpAssignment, hstored, hnext]
      | grant hgrant => simp [hgrant, governs] at hop
      | fence publisher boot hfence => simp [hfence, governs] at hop
      | advance epoch hadvance => simp [hadvance, governs] at hop

end Entities

/-! ## Calls -/

section Calls

variable {r r' : FabricRuntime} {now : UInt64} {actor : Session} {g : Generation}

theorem generationOf_of_publish {op : Bytes} {mutation : Mutation}
    (hop : governs mutation.op = false)
    (h : r.publish now actor op mutation (fun outcome _ => outcome.entityGeneration) =
      (.ok g, r')) :
    generationOf r'.image mutation.op = some g := by
  have heffect := commit_effect r.state mutation
  unfold publish commitMutation at h
  generalize Store.commit r.state mutation = result at h heffect
  cases heffect with
  | refused e s hsame => cases h
  | applied s image happly hsame =>
      cases h
      have hplanned : governs (planOf r.state.live mutation).op = false := hop
      have hgeneration := generationOf_of_applied hplanned happly
      exact (generationOf_congr hsame _).trans hgeneration

theorem body_of_underSession {α : Type} {body : Result α × FabricRuntime} {a : α}
    (h : r.underSession actor body = (.ok a, r')) : body = (.ok a, r') := by
  unfold underSession at h
  split at h
  · cases h
  · split at h
    · cases h
    · exact h

theorem generationOf_of_defineClass {d : PriorityClassDef}
    (h : r.defineClass now actor d = (.ok g, r')) :
    generationOf r'.image (.defineClass d) = some g :=
  generationOf_of_publish rfl (body_of_underSession h)

theorem generationOf_of_defineScope {d : PolicyScopeDef}
    (h : r.defineScope now actor d = (.ok g, r')) :
    generationOf r'.image (.defineScope d) = some g :=
  generationOf_of_publish rfl (body_of_underSession h)

theorem generationOf_of_definePolicy {d : PolicyDef}
    (h : r.definePolicy now actor d = (.ok g, r')) :
    generationOf r'.image (.definePolicy d) = some g := by
  have hbody := body_of_underSession h
  split at hbody
  · cases hbody
  · exact generationOf_of_publish rfl hbody

theorem generationOf_of_defineSubject {d : SubjectDef}
    (h : r.defineSubject now actor d = (.ok g, r')) :
    generationOf r'.image (.defineSubject d) = some g :=
  generationOf_of_publish rfl (body_of_underSession h)

theorem generationOf_of_assign {a : PriorityAssignment}
    (h : r.assign now actor a = (.ok g, r')) :
    generationOf r'.image (.assign a) = some g := by
  have hbody := body_of_underSession h
  split at hbody
  · cases hbody
  · split at hbody
    · cases hbody
    · split at hbody
      · cases hbody
      · split at hbody
        · cases hbody
        · split at hbody
          · exact generationOf_of_publish rfl hbody
          · split at hbody
            · cases hbody
            · exact generationOf_of_publish rfl hbody

theorem generationOf_of_retireAssignment {id : PriorityAssignmentId} {reason : Bytes}
    (h : r.retireAssignment now actor id reason = (.ok g, r')) :
    generationOf r'.image (.retireAssignment id) = some g :=
  generationOf_of_publish rfl (body_of_underSession h)

end Calls

/-! ## The state generation -/

section Commits

variable {s s' : StoreState} {mutation : Mutation} {pendingWrite commitWrite : WriteOutcome}

theorem applied_of_commitWriting
    (h : commitWriting s mutation pendingWrite commitWrite = (.ok (), s')) :
    ∃ image, applyMutation s.live (planOf s.live mutation) false = (.ok (), image) ∧
      s'.live.generation = image.generation := by
  unfold commitWriting at h
  cases hplan : planCommit s.store s.live mutation with
  | error e =>
      rw [hplan] at h
      cases h
  | ok planned =>
      obtain rfl := planCommit_eq_planOf hplan
      simp only [hplan] at h
      cases hroll : rollSegmentIfNeeded s.dir s.store with
      | error e =>
          rw [hroll] at h
          cases h
      | ok rolled =>
          obtain ⟨dir, store⟩ := rolled
          simp only [hroll, journalCommit] at h
          split at h
          · cases h
          · split at h
            · cases h
            · rename_i live happly
              split at h
              · cases h
              · split at h
                · cases h
                · cases h
                  exact ⟨live, happly, rfl⟩

/-- The state generation moves by one, or stays where the mutation repeats what is there. -/
theorem generation_of_commitWriting
    (h : commitWriting s mutation pendingWrite commitWrite = (.ok (), s')) :
    s'.live.generation.value.toNat = s.live.generation.value.toNat +
      if isIdempotent s.live mutation then 0 else 1 := by
  obtain ⟨image, happly, hgeneration⟩ := applied_of_commitWriting h
  obtain ⟨expected, hadmissible, -⟩ := applyMutation_eq_ok_iff.mp happly
  have hsame : isIdempotent s.live (planOf s.live mutation) = isIdempotent s.live mutation := rfl
  rw [hgeneration, applyMutation_generation happly, plannedGeneration, hsame]
  cases hidempotent : isIdempotent s.live mutation with
  | true => simp
  | false =>
      obtain ⟨next, hnext⟩ :=
        Option.ne_none_iff_exists'.mp (hadmissible.next_exists (hsame.trans hidempotent))
      simp [hnext, next_value hnext]

end Commits

/-! ## Refusals -/

/-- A status that neither reports damage nor an internal contradiction. -/
def Ordinary (status : Status) : Prop := status.code ≠ .corrupt ∧ status.code ≠ .internal

/-- Whatever this computation refuses, it refuses with an ordinary status. -/
def RefusesOrdinarily {α : Type} (result : Result α) : Prop :=
  ∀ e, result = .error e → Ordinary e

namespace RefusesOrdinarily

variable {α β : Type}

theorem ok (a : α) : RefusesOrdinarily (.ok a) := by
  intro e h
  cases h

theorem error {code : StatusCode} {message : Bytes} {failed : code.isFailure = true}
    (h : code ≠ .corrupt ∧ code ≠ .internal) :
    RefusesOrdinarily (α := α) (.error (makeError code message failed)) := by
  intro e he
  cases he
  exact h

theorem check {bad : Prop} [Decidable bad] {code : StatusCode} {message : Bytes}
    {failed : code.isFailure = true} (h : code ≠ .corrupt ∧ code ≠ .internal) :
    RefusesOrdinarily (failIf bad code message failed) := by
  unfold Basics.failIf
  split
  · exact error h
  · exact ok ()

theorem andThen {x : Result α} {f : α → Result β} (hx : RefusesOrdinarily x)
    (hf : ∀ a, RefusesOrdinarily (f a)) : RefusesOrdinarily (x >>= f) := by
  intro e h
  cases x with
  | error e' =>
      cases h
      exact hx e rfl
  | ok a => exact hf a e h

theorem each {f : α → Result Unit} (hf : ∀ a, RefusesOrdinarily (f a)) (items : List α) :
    RefusesOrdinarily (items.forM f) := by
  induction items with
  | nil => exact ok ()
  | cons first rest ih => exact andThen (hf first) fun _ => ih

end RefusesOrdinarily

section Validation

open RefusesOrdinarily

variable (image : StateImage)

theorem ordinary_checkTextBounds (value : Bytes) (limit : Nat) (what : Bytes) :
    RefusesOrdinarily (checkTextBounds value limit what) :=
  andThen (check (by decide)) fun _ => check (by decide)

theorem ordinary_checkPrecedenceFree (self : PriorityClassId) (rank : PrecedenceRank) :
    RefusesOrdinarily (checkPrecedenceFree image self rank) := by
  unfold checkPrecedenceFree
  split
  · exact ok ()
  · exact error (by decide)

theorem ordinary_checkParents {tag : IdTag} (noun emptyId : Bytes) (self : BasicId tag)
    (isDefined : BasicId tag → Bool) (seen parents : List (BasicId tag)) :
    RefusesOrdinarily (checkParents noun emptyId self isDefined seen parents) := by
  induction parents generalizing seen with
  | nil => exact ok ()
  | cons parent rest ih =>
      exact andThen (check (by decide)) fun _ => andThen (check (by decide)) fun _ =>
        andThen (check (by decide)) fun _ => andThen (check (by decide)) fun _ =>
          ih (parent :: seen)

theorem ordinary_checkAcyclic {tag : IdTag} (what : Bytes) (self : BasicId tag) (bound : Nat)
    (next : BasicId tag → List (BasicId tag)) (parents : List (BasicId tag)) :
    RefusesOrdinarily (checkAcyclic what self bound next parents) :=
  each (fun _ => check (by decide)) parents

theorem ordinary_validateInheritance (self : PriorityClassId) (parents : List PriorityClassId) :
    RefusesOrdinarily (validateInheritance image self parents) :=
  andThen (check (by decide)) fun _ => andThen (ordinary_checkParents _ _ _ _ _ _) fun _ =>
    andThen (ordinary_checkAcyclic _ _ _ _ _) fun _ =>
      each (fun _ => andThen (check (by decide)) fun _ => check (by decide)) parents

theorem ordinary_validateSubjectInheritance (self : SubjectId) (parents : List SubjectId) :
    RefusesOrdinarily (validateSubjectInheritance image self parents) :=
  andThen (check (by decide)) fun _ => andThen (ordinary_checkParents _ _ _ _ _ _) fun _ =>
    ordinary_checkAcyclic _ _ _ _ _

theorem ordinary_checkRoom {K V : Type} [Ord K] [Std.TransOrd K] (table : Std.ExtTreeMap K V)
    (id : K) (limit : Nat) (what : Bytes) : RefusesOrdinarily (checkRoom table id limit what) :=
  check (by decide)

theorem ordinary_validateClass (d : PriorityClassDef) :
    RefusesOrdinarily (validateClass image d) := by
  refine andThen (check (by decide)) fun _ => andThen (check (by decide)) fun _ =>
    andThen (check (by decide)) fun _ => andThen (ordinary_checkTextBounds _ _ _) fun _ =>
    andThen (ordinary_validateInheritance image _ _) fun _ =>
    andThen (ordinary_checkRoom _ _ _ _) fun _ => ?_
  split
  · exact ok ()
  · exact ordinary_checkPrecedenceFree image _ _

theorem ordinary_checkScopeWalk (self parent : PolicyScopeId) (room : Nat)
    (cursor : PolicyScopeId) (visited : List PolicyScopeId) :
    RefusesOrdinarily (checkScopeWalk image self parent room cursor visited) := by
  induction room generalizing cursor visited with
  | zero =>
      unfold checkScopeWalk
      split
      · exact error (by decide)
      · split <;> exact error (by decide)
  | succ room ih =>
      unfold checkScopeWalk
      split
      · exact error (by decide)
      · split
        · exact error (by decide)
        · simp only
          split
          · exact error (by decide)
          · split
            · exact ok ()
            · exact ih _ _

theorem ordinary_checkScopeParent (self : PolicyScopeId) (parent : Option PolicyScopeId) :
    RefusesOrdinarily (checkScopeParent image self parent) := by
  cases parent with
  | none => exact ok ()
  | some parent =>
      exact andThen (check (by decide)) fun _ => andThen (check (by decide)) fun _ =>
        ordinary_checkScopeWalk image _ _ _ _ _

theorem ordinary_checkDefaultClass (noun id tail : Bytes) (cls : Option PriorityClassId) :
    RefusesOrdinarily (checkDefaultClass image noun id tail cls) := by
  cases cls with
  | none => exact ok ()
  | some cls => exact check (by decide)

theorem ordinary_validateScope (d : PolicyScopeDef) :
    RefusesOrdinarily (validateScope image d) :=
  andThen (check (by decide)) fun _ => andThen (ordinary_checkTextBounds _ _ _) fun _ =>
    andThen (ordinary_checkDefaultClass image _ _ _ _) fun _ =>
    andThen (ordinary_checkScopeParent image _ _) fun _ => ordinary_checkRoom _ _ _ _

theorem ordinary_checkVisible (policy : PolicyId) (seen classes : List PriorityClassId) :
    RefusesOrdinarily (checkVisible image policy seen classes) := by
  induction classes generalizing seen with
  | nil => exact ok ()
  | cons cls rest ih =>
      exact andThen (check (by decide)) fun _ => andThen (check (by decide)) fun _ =>
        ih (cls :: seen)

theorem ordinary_validatePolicy (d : PolicyDef) : RefusesOrdinarily (validatePolicy image d) := by
  refine andThen (check (by decide)) fun _ => andThen (ordinary_checkTextBounds _ _ _) fun _ => ?_
  split
  · exact error (by decide)
  · exact andThen (check (by decide)) fun _ => andThen (check (by decide)) fun _ =>
      andThen (ordinary_checkVisible image _ _ _) fun _ =>
      andThen (ordinary_checkDefaultClass image _ _ _ _) fun _ => ordinary_checkRoom _ _ _ _

theorem ordinary_validateSubject (d : SubjectDef) :
    RefusesOrdinarily (validateSubject image d) :=
  andThen (check (by decide)) fun _ => andThen (ordinary_checkTextBounds _ _ _) fun _ =>
    andThen (ordinary_validateSubjectInheritance image _ _) fun _ => ordinary_checkRoom _ _ _ _

variable (a : PriorityAssignment)

theorem ordinary_checkNamed (noun name : Bytes) (isDefined : Bool) :
    RefusesOrdinarily (checkNamed a noun name isDefined) := check (by decide)

theorem ordinary_checkBound (noun name : Bytes) (bound actual : Generation) :
    RefusesOrdinarily (checkBound a noun name bound actual) := check (by decide)

theorem ordinary_checkAssignmentPolicy : RefusesOrdinarily (checkAssignmentPolicy image a) := by
  unfold checkAssignmentPolicy
  split
  · exact andThen (ordinary_checkNamed a _ _ _) fun _ => ordinary_checkBound a _ _ _ _
  · exact check (by decide)

theorem ordinary_checkDisplaces : RefusesOrdinarily (checkDisplaces image a) := by
  unfold checkDisplaces
  split
  · exact ok ()
  · exact check (by decide)

theorem ordinary_checkVisibility : RefusesOrdinarily (checkVisibility image a) := by
  unfold checkVisibility
  split
  · exact ok ()
  · exact check (by decide)

theorem ordinary_checkEffectivePolicy : RefusesOrdinarily (checkEffectivePolicy image a) := by
  unfold checkEffectivePolicy
  split
  · exact ok ()
  · split
    · exact ok ()
    · split
      · split
        · exact error (by decide)
        · exact check (by decide)
      · exact ok ()

theorem ordinary_validateAssignment : RefusesOrdinarily (validateAssignment image a) := by
  unfold validateAssignment
  refine andThen (check (by decide)) fun _ => ?_
  refine andThen (ordinary_checkTextBounds _ _ _) fun _ => ?_
  refine andThen (ordinary_checkNamed a _ _ _) fun _ => ?_
  refine andThen (ordinary_checkNamed a _ _ _) fun _ => ?_
  refine andThen (ordinary_checkNamed a _ _ _) fun _ => ?_
  refine andThen (ordinary_checkBound a _ _ _ _) fun _ => ?_
  refine andThen (ordinary_checkBound a _ _ _ _) fun _ => ?_
  refine andThen (ordinary_checkBound a _ _ _ _) fun _ => ?_
  refine andThen (ordinary_checkAssignmentPolicy image a) fun _ => ?_
  refine andThen (ordinary_checkDisplaces image a) fun _ => ?_
  refine andThen (ordinary_checkVisibility image a) fun _ => ?_
  refine andThen (ordinary_checkEffectivePolicy image a) fun _ => ?_
  exact ordinary_checkRoom _ _ _ _

variable (mutation : Mutation)

theorem ordinary_validateGrant : RefusesOrdinarily (validateGrant image mutation) := by
  refine andThen (check (by decide)) fun _ => andThen (check (by decide)) fun _ =>
    andThen (check (by decide)) fun _ => ?_
  split
  · exact ok ()
  · exact check (by decide)

theorem ordinary_validateMutation : RefusesOrdinarily (validateMutation image mutation) := by
  unfold validateMutation
  split
  · exact ordinary_validateClass image _
  · exact ordinary_validateScope image _
  · exact ordinary_validatePolicy image _
  · exact ordinary_validateSubject image _
  · exact ordinary_validateAssignment image _
  · exact andThen (check (by decide)) fun _ => andThen (check (by decide)) fun _ =>
      ordinary_checkTextBounds _ _ _
  · exact ordinary_validateGrant image mutation
  · exact check (by decide)
  · exact check (by decide)

theorem ordinary_checkAuthority : RefusesOrdinarily (checkAuthority image mutation) := by
  refine andThen (check (by decide)) fun _ => andThen (check (by decide)) fun _ =>
    andThen (check (by decide)) fun _ => ?_
  split
  · exact error (by decide)
  · exact andThen (check (by decide)) fun _ => andThen (check (by decide)) fun _ =>
      check (by decide)

end Validation

section Commits

open RefusesOrdinarily

theorem ordinary_storing {image : StateImage} {tag : IdTag} {Def : Type}
    (kind : EntityKind tag Def) (d : Def) (provenance : Provenance) :
    RefusesOrdinarily (kind.accept image d provenance) := by
  have hstore : RefusesOrdinarily (kind.store image d provenance) :=
    andThen (check (by decide)) fun _ => ok _
  unfold EntityKind.accept
  split
  · split
    · exact ok _
    · exact hstore
  · exact hstore

theorem ordinary_admitAssignment {image : StateImage} (a : PriorityAssignment)
    (provenance : Provenance) : RefusesOrdinarily (admitAssignment image a provenance) := by
  have hstore : RefusesOrdinarily (storeAssignment image a provenance) :=
    andThen (check (by decide)) fun _ => ok _
  unfold admitAssignment
  split
  · split
    · exact ok _
    · exact hstore
  · exact hstore

theorem ordinary_perform {image : StateImage} {mutation : Mutation} {provenance : Provenance} :
    RefusesOrdinarily (Apply.perform image mutation provenance) := by
  unfold Apply.perform
  split
  · exact ordinary_storing classKind _ _
  · exact ordinary_storing scopeKind _ _
  · exact ordinary_storing policyKind _ _
  · exact ordinary_storing subjectKind _ _
  · exact ordinary_admitAssignment _ _
  · unfold Apply.retireAssignment
    split
    · exact error (by decide)
    · split
      · exact error (by decide)
      · exact ok _
  · exact andThen (check (by decide)) fun _ => ok _
  · exact ok _
  · unfold Apply.advanceEpoch
    split
    · exact error (by decide)
    · exact ok _

/-- The checks of an application that was planned never end in the generation mismatch. -/
theorem ordinary_admissible {live : StateImage} {mutation : Mutation} :
    RefusesOrdinarily (admissible live (planOf live mutation) false) := by
  refine andThen (ordinary_validateMutation live _) fun _ => andThen ?_ fun _ =>
    andThen (check (by decide)) fun _ => ?_
  · unfold checkLiveAuthority
    split
    · exact ordinary_checkAuthority live _
    · exact ok ()
  · intro e h
    have hplanned : ¬ ((planOf live mutation).resultingGeneration.isSet = true ∧
        (planOf live mutation).resultingGeneration.value ≠
          (if isIdempotent live (planOf live mutation) then live.generation
            else live.generation.next.getD .unset).value) := fun hmismatch => hmismatch.2 rfl
    simp only [Basics.failIf] at h
    rw [if_neg hplanned] at h
    cases h

theorem ordinary_applied {live live' : StateImage} {mutation : Mutation} {e : Status}
    (h : applyMutation live (planOf live mutation) false = (.error e, live')) : Ordinary e := by
  unfold applyMutation at h
  cases hadmissible : admissible live (planOf live mutation) false with
  | error e' =>
      rw [hadmissible] at h
      cases h
      exact ordinary_admissible _ hadmissible
  | ok expected =>
      simp only [hadmissible] at h
      split at h
      · cases h
      · split at h
        · rename_i hperform
          cases h
          exact ordinary_perform _ hperform
        · cases h

theorem ordinary_appendRecord {dir dir' : Directory} {store store' : DurableStore}
    {record : Bytes} {outcome : WriteOutcome} {e : Status}
    (h : appendRecord dir store record outcome = (.error e, dir', store')) : Ordinary e := by
  unfold appendRecord at h
  split at h
  · cases h
    exact error (α := Unit) (by decide) _ rfl
  · cases outcome <;> cases h
    · exact error (α := Unit) (by decide) _ rfl
    · exact error (α := Unit) (by decide) _ rfl

theorem ordinary_planCommit {store : DurableStore} {live : StateImage} {mutation : Mutation} :
    RefusesOrdinarily (planCommit store live mutation) :=
  andThen (check (by decide)) fun _ => andThen (check (by decide)) fun _ =>
    andThen (ordinary_validateMutation live mutation) fun _ => andThen (check (by decide)) fun _ =>
    andThen (check (by decide)) fun _ => andThen (check (by decide)) fun _ => ok _

theorem ordinary_rollSegmentIfNeeded {dir : Directory} {store : DurableStore} :
    RefusesOrdinarily (rollSegmentIfNeeded dir store) := by
  unfold rollSegmentIfNeeded
  split
  · exact ok _
  · exact andThen (check (by decide)) fun _ => ok _

/-- No commit ends in the mismatch of the applier or in that of the commit itself. -/
theorem ordinary_commitWriting {s s' : StoreState} {mutation : Mutation}
    {pendingWrite commitWrite : WriteOutcome} {e : Status}
    (h : commitWriting s mutation pendingWrite commitWrite = (.error e, s')) : Ordinary e := by
  unfold commitWriting at h
  cases hplan : planCommit s.store s.live mutation with
  | error e' =>
      rw [hplan] at h
      cases h
      exact ordinary_planCommit _ hplan
  | ok planned =>
      obtain rfl := planCommit_eq_planOf hplan
      simp only [hplan] at h
      cases hroll : rollSegmentIfNeeded s.dir s.store with
      | error e' =>
          rw [hroll] at h
          cases h
          exact ordinary_rollSegmentIfNeeded _ hroll
      | ok rolled =>
          obtain ⟨dir, store⟩ := rolled
          simp only [hroll, journalCommit] at h
          split at h
          · rename_i hpending
            cases h
            exact ordinary_appendRecord hpending
          · split at h
            · rename_i happly
              cases h
              exact ordinary_applied happly
            · rename_i live happly
              split at h
              · rename_i hmismatch
                exact absurd (congrArg Generation.value (applyMutation_generation happly))
                  hmismatch
              · split at h
                · rename_i hcommit
                  cases h
                  exact ordinary_appendRecord hcommit
                · cases h

end Commits

/-! ## Agreement -/

/-- What a call that was accepted returns is the generation of the entity afterwards; an
accepted mutation moves the state generation by one unless it repeats what is there; and no
commit, whatever becomes of its writes, ends in a generation mismatch. -/
theorem plan_agrees_with_application :
    (∀ (r r' : FabricRuntime) (now : UInt64) (actor : Session) (g : Generation),
      (∀ d, r.defineClass now actor d = (.ok g, r') →
        generationOf r'.image (.defineClass d) = some g) ∧
      (∀ d, r.defineScope now actor d = (.ok g, r') →
        generationOf r'.image (.defineScope d) = some g) ∧
      (∀ d, r.definePolicy now actor d = (.ok g, r') →
        generationOf r'.image (.definePolicy d) = some g) ∧
      (∀ d, r.defineSubject now actor d = (.ok g, r') →
        generationOf r'.image (.defineSubject d) = some g) ∧
      (∀ a, r.assign now actor a = (.ok g, r') →
        generationOf r'.image (.assign a) = some g) ∧
      ∀ id reason, r.retireAssignment now actor id reason = (.ok g, r') →
        generationOf r'.image (.retireAssignment id) = some g) ∧
    ∀ (s s' : StoreState) (mutation : Mutation) (pendingWrite commitWrite : WriteOutcome),
      (commitWriting s mutation pendingWrite commitWrite = (.ok (), s') →
        s'.live.generation.value.toNat = s.live.generation.value.toNat +
          if isIdempotent s.live mutation then 0 else 1) ∧
      ∀ e, commitWriting s mutation pendingWrite commitWrite = (.error e, s') →
        e.code ≠ .corrupt ∧ e.code ≠ .internal := by
  refine ⟨fun r r' now actor g => ⟨?_, ?_, ?_, ?_, ?_, ?_⟩, ?_⟩
  · exact fun _ h => generationOf_of_defineClass h
  · exact fun _ h => generationOf_of_defineScope h
  · exact fun _ h => generationOf_of_definePolicy h
  · exact fun _ h => generationOf_of_defineSubject h
  · exact fun _ h => generationOf_of_assign h
  · exact fun _ _ h => generationOf_of_retireAssignment h
  · intro s s' mutation pendingWrite commitWrite
    exact ⟨generation_of_commitWriting, fun _ h => ordinary_commitWriting h⟩

end PriorityFabric.Planning
