import PriorityFabric.ApplyFacts
import PriorityFabric.Lib.KeyedTable

/-!
What an image holds stays within its limits.

Validation bounds the texts and lists of a definition and the room in its table;
the audit ring is cut to its size.  Neither the authority table nor the audit
texts are bounded.
-/

namespace PriorityFabric.Bounds

open PriorityFabric.Lib.LittleEndian
open PriorityFabric.Lib.KeyedTable
open PriorityFabric.Basics
open PriorityFabric.Ident
open PriorityFabric.Hashing
open PriorityFabric.Model
open PriorityFabric.Codec
open PriorityFabric.ModelCodec
open PriorityFabric.State
open PriorityFabric.StateCodec
open PriorityFabric.Validate
open PriorityFabric.Apply
open PriorityFabric.Readable
open PriorityFabric.ApplyFacts

/-- The name of the operation behind a provenance is short. -/
def ProvenanceFits (provenance : Provenance) : Prop :=
  provenance.op.length ≤ maxOpLength

/-- A rank that is declared within the ceiling, or not declared at all. -/
def RankFits (rank : PrecedenceRank) : Prop :=
  RankReadable rank ∧ storedRank rank = rank

structure ClassFits (limits : Limits) (entry : ClassEntry) : Prop where
  rank : RankFits entry.definition.precedence
  description : entry.definition.description.length ≤ limits.maxDescriptionLength
  parents : entry.definition.inheritsFrom.length ≤ limits.maxInheritsFrom
  provenance : ProvenanceFits entry.provenance

structure ScopeFits (limits : Limits) (entry : ScopeEntry) : Prop where
  description : entry.definition.description.length ≤ limits.maxDescriptionLength
  provenance : ProvenanceFits entry.provenance

structure PolicyFits (limits : Limits) (entry : PolicyEntry) : Prop where
  description : entry.definition.description.length ≤ limits.maxDescriptionLength
  visible : entry.definition.visibleClasses.length ≤ limits.maxPolicyClasses
  provenance : ProvenanceFits entry.provenance

structure SubjectFits (limits : Limits) (entry : SubjectEntry) : Prop where
  description : entry.definition.description.length ≤ limits.maxDescriptionLength
  parents : entry.definition.inheritsFrom.length ≤ limits.maxInheritsFrom
  provenance : ProvenanceFits entry.provenance

structure AssignmentFits (limits : Limits) (entry : AssignmentEntry) : Prop where
  note : entry.assignment.note.length ≤ limits.maxNoteLength
  reason : entry.retirementReason.length ≤ limits.maxNoteLength
  provenance : ProvenanceFits entry.provenance
  retiredBy : ProvenanceFits entry.retiredBy

def AuthorityFits (entry : AuthorityEntry) : Prop := ProvenanceFits entry.provenance

structure AuditFits (entry : AuditEntry) : Prop where
  op : entry.op.length ≤ maxOpLength
  provenance : ProvenanceFits entry.provenance

def AuthorityEntry.key (entry : AuthorityEntry) : Incarnation :=
  ⟨entry.publisher, entry.boot⟩

/-- The tables are keyed and hold what validation admits. -/
structure Tables (image : StateImage) : Prop where
  classes : Keyed (fun entry : ClassEntry => entry.definition.id)
    (ClassFits image.limits) image.classes
  scopes : Keyed (fun entry : ScopeEntry => entry.definition.id)
    (ScopeFits image.limits) image.scopes
  policies : Keyed (fun entry : PolicyEntry => entry.definition.id)
    (PolicyFits image.limits) image.policies
  subjects : Keyed (fun entry : SubjectEntry => entry.definition.id)
    (SubjectFits image.limits) image.subjects
  assignments : Keyed (fun entry : AssignmentEntry => entry.assignment.id)
    (AssignmentFits image.limits) image.assignments
  authority : Keyed AuthorityEntry.key AuthorityFits image.authority

/-- The tables and the audit ring have at most as many entries as the limits say. -/
structure Sizes (image : StateImage) : Prop where
  classes : image.classes.size ≤ image.limits.maxClasses
  scopes : image.scopes.size ≤ image.limits.maxScopes
  policies : image.policies.size ≤ image.limits.maxPolicies
  subjects : image.subjects.size ≤ image.limits.maxSubjects
  assignments : image.assignments.size ≤ image.limits.maxAssignments
  audit : image.audit.length ≤ image.limits.maxAuditEntries

structure Bounded (image : StateImage) : Prop where
  tables : Tables image
  sizes : Sizes image
  audit : ∀ entry ∈ image.audit, AuditFits entry

theorem bounded_empty (limits : Limits) : Bounded { limits } where
  tables := ⟨.empty, .empty, .empty, .empty, .empty, .empty⟩
  sizes := ⟨Nat.zero_le _, Nat.zero_le _, Nat.zero_le _, Nat.zero_le _, Nat.zero_le _,
    Nat.zero_le _⟩
  audit := by
    intro entry hentry
    cases hentry

theorem length_pushAudit_le {audit : List AuditEntry} {limits : Limits}
    (h : audit.length ≤ limits.maxAuditEntries) (entry : AuditEntry) :
    (pushAudit audit entry limits).length ≤ limits.maxAuditEntries := by
  unfold pushAudit
  split
  · exact h
  · split
    · rw [List.length_append, List.length_drop, List.length_singleton]
      omega
    · rw [List.length_append, List.length_singleton]
      omega

theorem mem_pushAudit {audit : List AuditEntry} {limits : Limits} {entry found : AuditEntry}
    (h : found ∈ pushAudit audit entry limits) : found ∈ audit ∨ found = entry := by
  unfold pushAudit at h
  split at h
  · exact .inl h
  · split at h
    · rcases List.mem_append.mp h with h | h
      · exact .inl (List.mem_of_mem_drop h)
      · exact .inr (List.mem_singleton.mp h)
    · rcases List.mem_append.mp h with h | h
      · exact .inl h
      · exact .inr (List.mem_singleton.mp h)

theorem Bounded.appendAudit {image : StateImage} (h : Bounded image) {entry : AuditEntry}
    (hentry : AuditFits entry) : Bounded (appendAudit image entry image.limits) where
  tables := { h.tables with }
  sizes := { h.sizes with audit := length_pushAudit_le h.sizes.audit entry }
  audit found hfound := by
    rcases mem_pushAudit hfound with hold | rfl
    · exact h.audit found hold
    · exact hentry

theorem provenanceFits_provenanceOf (image : StateImage) (mutation : Mutation)
    (expected : Generation) : ProvenanceFits (provenanceOf image mutation expected) :=
  mutation.op.length_name_le

theorem Bounded.recordAccepted {image : StateImage} (h : Bounded image)
    (mutation : Mutation) (expected : Generation) :
    Bounded (recordAccepted image mutation expected) := by
  have hentry : AuditFits (auditOf mutation (provenanceOf image mutation expected)
      expected) :=
    ⟨mutation.op.length_name_le, provenanceFits_provenanceOf image mutation expected⟩
  have hnumbered : Bounded { image with
      nextAuditSequence := image.nextAuditSequence + 1 } :=
    ⟨{ h.tables with }, { h.sizes with }, h.audit⟩
  exact hnumbered.appendAudit hentry

/-- The table a definition goes to has an entry for it already, or room. -/
def HasRoom (image : StateImage) : MutationOp → Prop
  | .defineClass d => image.classes.contains d.id = true ∨
      image.classes.size < image.limits.maxClasses
  | .defineScope d => image.scopes.contains d.id = true ∨
      image.scopes.size < image.limits.maxScopes
  | .definePolicy d => image.policies.contains d.id = true ∨
      image.policies.size < image.limits.maxPolicies
  | .defineSubject d => image.subjects.contains d.id = true ∨
      image.subjects.size < image.limits.maxSubjects
  | .assign a => image.assignments.contains a.id = true ∨
      image.assignments.size < image.limits.maxAssignments
  | .retireAssignment _ | .grantAuthority | .fenceAuthority _ _ | .advanceEpoch => True

theorem room_of_checkRoom {K V : Type} [Ord K] [Std.TransOrd K]
    {table : Std.ExtTreeMap K V} {id : K} {limit : Nat} {what : Bytes} {u : Unit}
    (h : checkRoom table id limit what = .ok u) :
    table.contains id = true ∨ table.size < limit := by
  rw [checkRoom, failIf_eq_ok, not_and, ge_iff_le, not_le] at h
  by_cases hmem : table.contains id = true
  · exact .inl hmem
  · exact .inr (h ((Bool.not_eq_true _).mp hmem))

theorem hasRoom_of_validateMutation {image : StateImage} {mutation : Mutation}
    (h : validateMutation image mutation = .ok ()) : HasRoom image mutation.op := by
  obtain ⟨op⟩ := mutation
  cases op with
  | defineClass d =>
      simp only [validateMutation, validateClass, bind_eq_ok, failIf_eq_ok,
        exists_const] at h
      obtain ⟨-, -, -, u, -, v, -, w, hroom, -⟩ := h
      exact room_of_checkRoom hroom
  | defineScope d =>
      simp only [validateMutation, validateScope, bind_eq_ok, failIf_eq_ok,
        exists_const] at h
      obtain ⟨-, u, -, v, -, w, -, hroom⟩ := h
      exact room_of_checkRoom hroom
  | definePolicy d =>
      simp only [validateMutation, validatePolicy, bind_eq_ok, failIf_eq_ok,
        exists_const] at h
      obtain ⟨-, u, -, hscope⟩ := h
      cases hfind : image.scopes[d.scope]? with
      | none => simp [hfind] at hscope
      | some scope =>
          simp only [hfind, bind_eq_ok, failIf_eq_ok, exists_const] at hscope
          obtain ⟨-, -, v, -, w, -, hroom⟩ := hscope
          exact room_of_checkRoom hroom
  | defineSubject d =>
      simp only [validateMutation, validateSubject, bind_eq_ok, failIf_eq_ok,
        exists_const] at h
      obtain ⟨-, u, -, v, -, hroom⟩ := h
      exact room_of_checkRoom hroom
  | assign a =>
      simp only [validateMutation, validateAssignment, bind_eq_ok, failIf_eq_ok,
        exists_const] at h
      obtain ⟨-, _, -, _, -, _, -, _, -, _, -, _, -, _, -, _, -, _, -, _, -, _, -, hroom⟩ := h
      exact room_of_checkRoom hroom
  | retireAssignment target => trivial
  | grantAuthority => trivial
  | fenceAuthority publisher boot => trivial
  | advanceEpoch => trivial

theorem retirementReason_le {image : StateImage} {mutation : Mutation}
    {target : PriorityAssignmentId} (hop : mutation.op = .retireAssignment target)
    (h : validateMutation image mutation = .ok ()) :
    mutation.reason.length ≤ image.limits.maxNoteLength := by
  simp only [validateMutation, hop, validateRetirement, bind_eq_ok, failIf_eq_ok,
    exists_const] at h
  exact length_le_of_checkTextBounds h.2.2

section Performed

variable {image : StateImage} {provenance : Provenance}

/-- Admitting a definition keeps its table keyed and good, when entries stay good
under a new provenance and the proposed definition is good under any set generation. -/
theorem keyed_admitted {tag : IdTag} {Def : Type} {kind : EntityKind tag Def}
    (good : Entry Def → Prop) {d : Def} {entry : Entry Def}
    (h : Keyed (fun entry => kind.id entry.definition) good (kind.table image))
    (hentry : Admitted kind image d provenance entry)
    (hid : ∀ generation, kind.id (kind.setGeneration d generation) = kind.id d)
    (hkeep : ∀ old, good old → good { old with provenance })
    (hnew : ∀ generation, generation.isSet = true →
      good { definition := kind.setGeneration d generation, provenance }) :
    Keyed (fun entry => kind.id entry.definition) good
      ((kind.table image).insert (kind.id d) entry) := by
  cases hentry with
  | @refreshed old hold hsame =>
      exact h.insert (hkeep old (h.good _ old hold)) (h.key_eq _ old hold)
  | stored hset hchanged => exact h.insert (hnew _ hset) (hid _)

theorem Tables.defineClass (h : Tables image) (hprovenance : ProvenanceFits provenance)
    {d : PriorityClassDef} {entry : ClassEntry}
    (hentry : Admitted classKind image d provenance entry)
    (hsized : OpSized image.limits (.defineClass d)) :
    Tables { image with classes := image.classes.insert d.id entry } := by
  obtain ⟨hassigned, hrank, hdescription, hparents⟩ := hsized
  have hstored : storedRank d.precedence = d.precedence := by
    simp [storedRank, hassigned]
  have hkeyed := keyed_admitted _ h.classes hentry (fun _ => rfl)
    (fun old hold => { hold with provenance := hprovenance })
    (fun _ _ => ⟨⟨fun _ => hrank, hstored⟩, hdescription, hparents, hprovenance⟩)
  exact { h with classes := hkeyed }

theorem Tables.defineScope (h : Tables image) (hprovenance : ProvenanceFits provenance)
    {d : PolicyScopeDef} {entry : ScopeEntry}
    (hentry : Admitted scopeKind image d provenance entry)
    (hsized : OpSized image.limits (.defineScope d)) :
    Tables { image with scopes := image.scopes.insert d.id entry } := by
  have hkeyed := keyed_admitted _ h.scopes hentry (fun _ => rfl)
    (fun old hold => { hold with provenance := hprovenance })
    (fun _ _ => ⟨hsized, hprovenance⟩)
  exact { h with scopes := hkeyed }

theorem Tables.definePolicy (h : Tables image) (hprovenance : ProvenanceFits provenance)
    {d : PolicyDef} {entry : PolicyEntry}
    (hentry : Admitted policyKind image d provenance entry)
    (hsized : OpSized image.limits (.definePolicy d)) :
    Tables { image with policies := image.policies.insert d.id entry } := by
  have hkeyed := keyed_admitted _ h.policies hentry (fun _ => rfl)
    (fun old hold => { hold with provenance := hprovenance })
    (fun _ _ => ⟨hsized.1, hsized.2, hprovenance⟩)
  exact { h with policies := hkeyed }

theorem Tables.defineSubject (h : Tables image) (hprovenance : ProvenanceFits provenance)
    {d : SubjectDef} {entry : SubjectEntry}
    (hentry : Admitted subjectKind image d provenance entry)
    (hsized : OpSized image.limits (.defineSubject d)) :
    Tables { image with subjects := image.subjects.insert d.id entry } := by
  have hkeyed := keyed_admitted _ h.subjects hentry (fun _ => rfl)
    (fun old hold => { hold with provenance := hprovenance })
    (fun _ _ => ⟨hsized.1, hsized.2, hprovenance⟩)
  exact { h with subjects := hkeyed }

theorem provenanceFits_default : ProvenanceFits {} := Nat.zero_le _

theorem Tables.assign (h : Tables image) (hprovenance : ProvenanceFits provenance)
    {a : PriorityAssignment} {result : StateImage}
    (hadmitted : AssignmentAdmitted image a provenance result)
    (hsized : OpSized image.limits (.assign a)) : Tables result := by
  cases hadmitted with
  | @refreshed old hold hsame =>
      have hfits : AssignmentFits image.limits { old with provenance } :=
        { h.assignments.good _ old hold with provenance := hprovenance }
      have hkey : old.assignment.id = a.id := h.assignments.key_eq _ old hold
      exact { h with assignments := h.assignments.insert hfits hkey }
  | stored hset hchanged =>
      have hfits : AssignmentFits image.limits
          { assignment := { a with generation := bumpAssignment image a.id },
            provenance } :=
        ⟨hsized, Nat.zero_le _, hprovenance, provenanceFits_default⟩
      exact { h with assignments := h.assignments.insert hfits rfl }

theorem Tables.retire (h : Tables image) (hprovenance : ProvenanceFits provenance)
    {target : PriorityAssignmentId} {entry : AssignmentEntry}
    (hentry : image.assignments[target]? = some entry) (generation : Generation)
    {reason : Bytes} (hreason : reason.length ≤ image.limits.maxNoteLength) :
    Tables { image with
      assignments := image.assignments.insert target { entry with
        assignment := { entry.assignment with generation }
        active := false
        retirementReason := reason
        retiredBy := provenance } } := by
  have hold := h.assignments.good _ entry hentry
  have hkey : entry.assignment.id = target := h.assignments.key_eq _ entry hentry
  have hfits : AssignmentFits image.limits { entry with
      assignment := { entry.assignment with generation }
      active := false
      retirementReason := reason
      retiredBy := provenance } :=
    ⟨hold.note, hreason, hold.provenance, hprovenance⟩
  exact { h with assignments := h.assignments.insert hfits hkey }

theorem key_supersede (publisher : PublisherId) (boot : BootId) (key : Incarnation)
    (entry : AuthorityEntry) :
    AuthorityEntry.key (supersede publisher boot key entry) = AuthorityEntry.key entry := by
  unfold supersede
  split <;> rfl

theorem key_expireStale (epoch : FabricEpoch) (entry : AuthorityEntry) :
    AuthorityEntry.key (expireStale epoch entry) = AuthorityEntry.key entry := by
  unfold expireStale
  split <;> rfl

theorem authorityFits_supersede (publisher : PublisherId) (boot : BootId)
    (key : Incarnation) {entry : AuthorityEntry} (h : AuthorityFits entry) :
    AuthorityFits (supersede publisher boot key entry) := by
  unfold supersede
  split <;> exact h

theorem authorityFits_expireStale (epoch : FabricEpoch) {entry : AuthorityEntry}
    (h : AuthorityFits entry) : AuthorityFits (expireStale epoch entry) := by
  unfold expireStale
  split <;> exact h

theorem Tables.fence (h : Tables image) (hprovenance : ProvenanceFits provenance)
    (publisher : PublisherId) (boot : BootId) :
    Tables (fenceAuthority image publisher boot provenance) := by
  refine { h with authority := h.authority.insert ?_ ?_ }
  · cases image.authority[Incarnation.mk publisher boot]? <;> exact hprovenance
  · cases hfound : image.authority[Incarnation.mk publisher boot]? with
    | none => rfl
    | some entry => exact h.authority.key_eq _ entry hfound

theorem tables_of_performed {mutation : Mutation} {result : StateImage}
    (h : Performed image mutation provenance result) (htables : Tables image)
    (hprovenance : ProvenanceFits provenance)
    (hsized : OpSized image.limits mutation.op)
    (hreason : ∀ target, mutation.op = .retireAssignment target →
      mutation.reason.length ≤ image.limits.maxNoteLength) :
    Tables result := by
  cases h with
  | «class» d entry hop hentry =>
      rw [hop] at hsized
      exact htables.defineClass hprovenance hentry hsized
  | scope d entry hop hentry =>
      rw [hop] at hsized
      exact htables.defineScope hprovenance hentry hsized
  | policy d entry hop hentry =>
      rw [hop] at hsized
      exact htables.definePolicy hprovenance hentry hsized
  | subject d entry hop hentry =>
      rw [hop] at hsized
      exact htables.defineSubject hprovenance hentry hsized
  | assign a result hop hadmitted =>
      rw [hop] at hsized
      exact htables.assign hprovenance hadmitted hsized
  | retire target entry generation hop hentry hnext =>
      exact htables.retire hprovenance hentry generation (hreason target hop)
  | grant hop hpositive hroom =>
      have hmapped := htables.authority.map (key_supersede mutation.publisher mutation.boot)
        fun key entry => authorityFits_supersede mutation.publisher mutation.boot key
      have hgranted : AuthorityFits
          { publisher := mutation.publisher, boot := mutation.boot, epoch := image.epoch,
            token := ⟨image.nextFencingToken⟩, state := .granted, provenance } :=
        hprovenance
      exact { htables with authority := hmapped.insert hgranted rfl }
  | fence publisher boot hop => exact htables.fence hprovenance publisher boot
  | advance epoch hop hnext =>
      have hmapped := htables.authority.map (fun _ => key_expireStale epoch)
        fun _ _ => authorityFits_expireStale epoch
      exact { htables with authority := hmapped }

theorem sizes_of_performed {mutation : Mutation} {result : StateImage}
    (h : Performed image mutation provenance result) (hsizes : Sizes image)
    (hroom : HasRoom image mutation.op) : Sizes result := by
  cases h with
  | «class» d entry hop hentry =>
      rw [hop] at hroom
      exact { hsizes with classes := size_insert_le entry hsizes.classes hroom }
  | scope d entry hop hentry =>
      rw [hop] at hroom
      exact { hsizes with scopes := size_insert_le entry hsizes.scopes hroom }
  | policy d entry hop hentry =>
      rw [hop] at hroom
      exact { hsizes with policies := size_insert_le entry hsizes.policies hroom }
  | subject d entry hop hentry =>
      rw [hop] at hroom
      exact { hsizes with subjects := size_insert_le entry hsizes.subjects hroom }
  | assign a result hop hadmitted =>
      rw [hop] at hroom
      cases hadmitted with
      | refreshed hold hsame =>
          exact { hsizes with assignments := size_insert_le _ hsizes.assignments hroom }
      | stored hset hchanged =>
          exact { hsizes with assignments := size_insert_le _ hsizes.assignments hroom }
  | retire target entry generation hop hentry hnext =>
      have hcontains : image.assignments.contains target = true := by
        rw [Std.ExtTreeMap.contains_eq_isSome_getElem?, hentry]
        rfl
      exact { hsizes with
        assignments := size_insert_le _ hsizes.assignments (.inl hcontains) }
  | grant hop hpositive hroom => exact { hsizes with }
  | fence publisher boot hop => exact { hsizes with }
  | advance epoch hop hnext => exact { hsizes with }

theorem audit_of_performed {mutation : Mutation} {result : StateImage}
    (h : Performed image mutation provenance result) : result.audit = image.audit := by
  cases h with
  | assign a result hop hadmitted => cases hadmitted <;> rfl
  | _ => rfl

end Performed

theorem hasRoom_recordAccepted {image : StateImage} {mutation : Mutation}
    {expected : Generation} (h : HasRoom image mutation.op) :
    HasRoom (recordAccepted image mutation expected) mutation.op := by
  cases hop : mutation.op <;> (rw [hop] at h; exact h)

theorem bounded_applyMutation {image : StateImage} (h : Bounded image) (mutation : Mutation)
    (replay : Bool) : Bounded (applyMutation image mutation replay).2 := by
  cases happly : applyMutation image mutation replay with
  | mk result image' =>
      cases result with
      | error e =>
          rcases applyMutation_eq_error happly with rfl | ⟨expected, rfl⟩
          · exact h
          · exact h.recordAccepted mutation expected
      | ok u =>
          obtain ⟨expected, hadmissible, happlied⟩ := applyMutation_eq_ok_iff.mp happly
          have hrecorded := h.recordAccepted mutation expected
          cases happlied with
          | repeated hrepeated => exact hrecorded
          | performed hfresh hperform =>
              have hperformed := perform_eq_ok hperform
              have hsized : OpSized image.limits mutation.op :=
                opSized_of_validateMutation hadmissible.valid
              have hroom : HasRoom image mutation.op :=
                hasRoom_of_validateMutation hadmissible.valid
              have hreason (target) (hop : mutation.op = .retireAssignment target) :
                  mutation.reason.length ≤ image.limits.maxNoteLength :=
                retirementReason_le hop hadmissible.valid
              have htables := tables_of_performed hperformed hrecorded.tables
                (provenanceFits_provenanceOf image mutation expected) hsized hreason
              have hsizes := sizes_of_performed hperformed hrecorded.sizes
                (hasRoom_recordAccepted hroom)
              refine ⟨{ htables with }, { hsizes with }, ?_⟩
              rw [audit_of_performed hperformed]
              exact hrecorded.audit

end PriorityFabric.Bounds
