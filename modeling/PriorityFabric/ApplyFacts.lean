import PriorityFabric.Readable
import PriorityFabric.DerivedIndex

/-!
What an application does, once and for all: the checks it passed, the image it
leaves, that replay repeats the live path, and that counters never run out
before the state generation does.
-/

namespace PriorityFabric.ApplyFacts

open PriorityFabric.Lib.LittleEndian
open PriorityFabric.Basics
open PriorityFabric.Ident
open PriorityFabric.Model
open PriorityFabric.State
open PriorityFabric.StateCodec
open PriorityFabric.Validate
open PriorityFabric.Apply
open PriorityFabric.Readable (plannedGeneration withoutSystem)

/-! ## Inversion -/

structure Admissible (image : StateImage) (mutation : Mutation) (replay : Bool)
    (expected : Generation) : Prop where
  valid : validateMutation image mutation = .ok ()
  authorized : replay = false → mutation.system = false →
    checkAuthority image mutation = .ok ()
  expected_eq : expected = plannedGeneration image mutation
  next_exists : isIdempotent image mutation = false → image.generation.next ≠ none
  resulting : mutation.resultingGeneration.isSet = true →
    mutation.resultingGeneration.value = expected.value

theorem checkLiveAuthority_eq_ok_iff {image : StateImage} {mutation : Mutation}
    {replay : Bool} :
    checkLiveAuthority image mutation replay = .ok () ↔
      (replay = false → mutation.system = false →
        checkAuthority image mutation = .ok ()) := by
  unfold checkLiveAuthority
  split <;> simp_all

theorem admissible_eq_ok_iff {image : StateImage} {mutation : Mutation} {replay : Bool}
    {expected : Generation} :
    admissible image mutation replay = .ok expected ↔
      Admissible image mutation replay expected := by
  simp only [admissible, bind_eq_ok, failIf_eq_ok, exists_const, not_and, ne_eq, not_not,
    pure, Except.pure, Except.ok.injEq]
  constructor
  · rintro ⟨u, hvalid, v, hauthority, hnext, hresulting, rfl⟩
    exact ⟨hvalid, checkLiveAuthority_eq_ok_iff.mp hauthority, rfl, hnext, hresulting⟩
  · rintro ⟨hvalid, hauthority, rfl, hnext, hresulting⟩
    exact ⟨(), hvalid, (), checkLiveAuthority_eq_ok_iff.mpr hauthority, hnext, hresulting,
      rfl⟩

/-- What a successful application leaves behind. -/
inductive Applied (image : StateImage) (mutation : Mutation) (expected : Generation) :
    StateImage → Prop
  | repeated (h : isIdempotent image mutation = true) :
      Applied image mutation expected (recordAccepted image mutation expected)
  | performed {result : StateImage} (h : isIdempotent image mutation = false)
      (hperform : perform (recordAccepted image mutation expected) mutation
        (provenanceOf image mutation expected) = .ok result) :
      Applied image mutation expected { result with generation := expected }

theorem applyMutation_eq_ok_iff {image image' : StateImage} {mutation : Mutation}
    {replay : Bool} :
    applyMutation image mutation replay = (.ok (), image') ↔
      ∃ expected, Admissible image mutation replay expected ∧
        Applied image mutation expected image' := by
  simp only [← admissible_eq_ok_iff]
  unfold applyMutation
  cases hadmissible : admissible image mutation replay with
  | error e => simp
  | ok expected =>
      simp only [Except.ok.injEq, exists_eq_left']
      cases hidempotent : isIdempotent image mutation with
      | true =>
          simp only [if_true, Prod.mk.injEq, true_and]
          constructor
          · rintro rfl
            exact .repeated hidempotent
          · rintro (h | ⟨h, -⟩)
            · rfl
            · rw [hidempotent] at h
              cases h
      | false =>
          simp only [Bool.false_eq_true, if_false]
          cases hperform : perform (recordAccepted image mutation expected) mutation
              (provenanceOf image mutation expected) with
          | error e =>
              constructor
              · intro h
                cases h
              · rintro (h | ⟨-, h⟩)
                · rw [hidempotent] at h
                  cases h
                · rw [hperform] at h
                  cases h
          | ok result =>
              constructor
              · intro h
                cases h
                exact .performed hidempotent hperform
              · rintro (h | ⟨-, h⟩)
                · rw [hidempotent] at h
                  cases h
                · rw [hperform] at h
                  cases h
                  rfl

/-- A failed application leaves the image as it was, or with the mutation already
recorded. -/
theorem applyMutation_eq_error {image image' : StateImage} {mutation : Mutation}
    {replay : Bool} {e : Status}
    (h : applyMutation image mutation replay = (.error e, image')) :
    image' = image ∨ ∃ expected, image' = recordAccepted image mutation expected := by
  simp only [applyMutation] at h
  split at h
  · cases h
    exact .inl rfl
  · split at h
    · cases h
    · split at h
      · cases h
        exact .inr ⟨_, rfl⟩
      · cases h

/-! ## Replay repeats the live path -/

theorem applyMutation_replay_self {image image' : StateImage} {mutation : Mutation}
    {replay : Bool} (h : applyMutation image mutation replay = (.ok (), image')) :
    applyMutation image mutation true = (.ok (), image') := by
  obtain ⟨expected, hadmissible, happlied⟩ := applyMutation_eq_ok_iff.mp h
  refine applyMutation_eq_ok_iff.mpr ⟨expected, ?_, happlied⟩
  exact ⟨hadmissible.valid, fun h => Bool.noConfusion h, hadmissible.expected_eq,
    hadmissible.next_exists, hadmissible.resulting⟩

theorem applied_withoutSystem {image image' : StateImage} {mutation : Mutation}
    {expected : Generation} (h : Applied image mutation expected image') :
    Applied image (withoutSystem mutation) expected image' := by
  cases h with
  | repeated h => exact .repeated h
  | performed h hperform => exact .performed h hperform

theorem applyMutation_replay {image image' : StateImage} {mutation : Mutation}
    {replay : Bool} (h : applyMutation image mutation replay = (.ok (), image')) :
    applyMutation image (withoutSystem mutation) true = (.ok (), image') := by
  obtain ⟨expected, hadmissible, happlied⟩ :=
    applyMutation_eq_ok_iff.mp (applyMutation_replay_self h)
  exact applyMutation_eq_ok_iff.mpr ⟨expected, { hadmissible with
    authorized := fun h => Bool.noConfusion h }, applied_withoutSystem happlied⟩

/-! ## The effect on tables -/

/-- What stands in a table after a definition was admitted. -/
inductive Admitted {tag : IdTag} {Def : Type} (kind : EntityKind tag Def)
    (image : StateImage) (d : Def) (provenance : Provenance) : Entry Def → Prop
  | refreshed {old : Entry Def} (hold : (kind.table image)[kind.id d]? = some old)
      (hsame : kind.sameContent old.definition d = true) :
      Admitted kind image d provenance { old with provenance }
  | stored (hset : (kind.bump image d).isSet = true)
      (hchanged : kind.unchanged image d = false) :
      Admitted kind image d provenance
        { definition := kind.setGeneration d (kind.bump image d), provenance }

theorem accept_eq_ok {tag : IdTag} {Def : Type} {kind : EntityKind tag Def}
    {image result : StateImage} {d : Def} {provenance : Provenance}
    (h : kind.accept image d provenance = .ok result) :
    ∃ entry, Admitted kind image d provenance entry ∧
      result = kind.setTable image ((kind.table image).insert (kind.id d) entry) := by
  have hstore (hchanged : kind.unchanged image d = false)
      (h : kind.store image d provenance = .ok result) :
      ∃ entry, Admitted kind image d provenance entry ∧
        result = kind.setTable image ((kind.table image).insert (kind.id d) entry) := by
    simp only [EntityKind.store, bind_eq_ok, failIf_eq_ok, exists_const, pure, Except.pure,
      Except.ok.injEq, Bool.not_eq_false] at h
    exact ⟨_, .stored h.1 hchanged, h.2.symm⟩
  unfold EntityKind.accept at h
  cases hold : (kind.table image)[kind.id d]? with
  | none =>
      simp only [hold] at h
      exact hstore (by simp [EntityKind.unchanged, hold]) h
  | some old =>
      simp only [hold] at h
      split at h
      · rename_i hsame
        cases h
        exact ⟨_, .refreshed hold hsame, rfl⟩
      · rename_i hsame
        exact hstore (by simpa [EntityKind.unchanged, hold] using hsame) h

/-- What stands in the assignment table after an assignment was admitted. -/
inductive AssignmentAdmitted (image : StateImage) (a : PriorityAssignment)
    (provenance : Provenance) : StateImage → Prop
  | refreshed {old : AssignmentEntry} (hold : image.assignments[a.id]? = some old)
      (hsame : (old.active && sameAssignmentContent old.assignment a) = true) :
      AssignmentAdmitted image a provenance { image with
        assignments := image.assignments.insert a.id { old with provenance } }
  | stored (hset : (bumpAssignment image a.id).isSet = true)
      (hchanged : assignmentUnchanged image a = false) :
      AssignmentAdmitted image a provenance { image with
        assignments := image.assignments.insert a.id
          { assignment := { a with generation := bumpAssignment image a.id }, provenance }
        assignmentsBySubject := image.assignmentsBySubject.insert a.subject
          (insertSorted a.id (image.assignmentsBySubject.getD a.subject [])) }

theorem admitAssignment_eq_ok {image result : StateImage} {a : PriorityAssignment}
    {provenance : Provenance} (h : admitAssignment image a provenance = .ok result) :
    AssignmentAdmitted image a provenance result := by
  have hstore (hchanged : assignmentUnchanged image a = false)
      (h : storeAssignment image a provenance = .ok result) :
      AssignmentAdmitted image a provenance result := by
    simp only [storeAssignment, bind_eq_ok, failIf_eq_ok, exists_const, pure, Except.pure,
      Except.ok.injEq, Bool.not_eq_false] at h
    obtain ⟨hset, rfl⟩ := h
    exact .stored hset hchanged
  unfold admitAssignment at h
  cases hold : image.assignments[a.id]? with
  | none =>
      simp only [hold] at h
      exact hstore (by simp [assignmentUnchanged, hold]) h
  | some old =>
      simp only [hold] at h
      split at h
      · rename_i hsame
        cases h
        exact .refreshed hold hsame
      · rename_i hsame
        exact hstore (by simpa [assignmentUnchanged, hold] using hsame) h

/-- Everything `perform` can do. -/
inductive Performed (image : StateImage) (mutation : Mutation) (provenance : Provenance) :
    StateImage → Prop
  | class (d entry) (hop : mutation.op = .defineClass d)
      (h : Admitted classKind image d provenance entry) :
      Performed image mutation provenance
        { image with classes := image.classes.insert d.id entry }
  | scope (d entry) (hop : mutation.op = .defineScope d)
      (h : Admitted scopeKind image d provenance entry) :
      Performed image mutation provenance
        { image with scopes := image.scopes.insert d.id entry }
  | policy (d entry) (hop : mutation.op = .definePolicy d)
      (h : Admitted policyKind image d provenance entry) :
      Performed image mutation provenance
        { image with policies := image.policies.insert d.id entry }
  | subject (d entry) (hop : mutation.op = .defineSubject d)
      (h : Admitted subjectKind image d provenance entry) :
      Performed image mutation provenance
        { image with subjects := image.subjects.insert d.id entry }
  | assign (a result) (hop : mutation.op = .assign a)
      (h : AssignmentAdmitted image a provenance result) :
      Performed image mutation provenance result
  | retire (target entry generation) (hop : mutation.op = .retireAssignment target)
      (hentry : image.assignments[target]? = some entry)
      (hnext : entry.assignment.generation.next = some generation) :
      Performed image mutation provenance { image with
        assignments := image.assignments.insert target { entry with
          assignment := { entry.assignment with generation }
          active := false
          retirementReason := mutation.reason
          retiredBy := provenance } }
  | grant (hop : mutation.op = .grantAuthority) (hpositive : image.nextFencingToken ≠ 0)
      (hroom : image.nextFencingToken ≠ UInt64.ofNat (2 ^ 64 - 1)) :
      Performed image mutation provenance { image with
        authority := (image.authority.map
            (supersede mutation.publisher mutation.boot)).insert
          ⟨mutation.publisher, mutation.boot⟩
          { publisher := mutation.publisher, boot := mutation.boot, epoch := image.epoch,
            token := ⟨image.nextFencingToken⟩, state := .granted, provenance }
        nextFencingToken := image.nextFencingToken + 1 }
  | fence (publisher boot) (hop : mutation.op = .fenceAuthority publisher boot) :
      Performed image mutation provenance (fenceAuthority image publisher boot provenance)
  | advance (epoch) (hop : mutation.op = .advanceEpoch)
      (hnext : image.epoch.next = some epoch) :
      Performed image mutation provenance { image with
        epoch
        authority := image.authority.map fun _ entry => expireStale epoch entry }

theorem perform_eq_ok {image result : StateImage} {mutation : Mutation}
    {provenance : Provenance} (h : perform image mutation provenance = .ok result) :
    Performed image mutation provenance result := by
  unfold perform at h
  cases hop : mutation.op with
  | defineClass d =>
      simp only [hop] at h
      obtain ⟨entry, hentry, rfl⟩ := accept_eq_ok h
      exact .class d entry hop hentry
  | defineScope d =>
      simp only [hop] at h
      obtain ⟨entry, hentry, rfl⟩ := accept_eq_ok h
      exact .scope d entry hop hentry
  | definePolicy d =>
      simp only [hop] at h
      obtain ⟨entry, hentry, rfl⟩ := accept_eq_ok h
      exact .policy d entry hop hentry
  | defineSubject d =>
      simp only [hop] at h
      obtain ⟨entry, hentry, rfl⟩ := accept_eq_ok h
      exact .subject d entry hop hentry
  | assign a =>
      simp only [hop] at h
      exact .assign a result hop (admitAssignment_eq_ok h)
  | retireAssignment target =>
      simp only [hop, retireAssignment] at h
      split at h
      · cases h
      · rename_i entry hentry
        split at h
        · cases h
        · rename_i generation hnext
          cases h
          exact .retire target entry generation hop hentry hnext
  | grantAuthority =>
      simp only [hop, grantAuthority, bind_eq_ok, failIf_eq_ok, exists_const, pure,
        Except.pure, Except.ok.injEq, not_or] at h
      obtain ⟨⟨hpositive, hroom⟩, rfl⟩ := h
      exact .grant hop hpositive hroom
  | fenceAuthority publisher boot =>
      simp only [hop, Except.ok.injEq] at h
      subst h
      exact .fence publisher boot hop
  | advanceEpoch =>
      simp only [hop, Apply.advanceEpoch] at h
      split at h
      · cases h
      · rename_i epoch hnext
        cases h
        exact .advance epoch hop hnext

/-! ## Frame -/

structure SameFrame (image image' : StateImage) : Prop where
  limits : image'.limits = image.limits
  health : image'.health = image.health
  healthDetail : image'.healthDetail = image.healthDetail
  lastSequence : image'.lastSequence = image.lastSequence

theorem applied_frame {image image' : StateImage} {mutation : Mutation}
    {expected : Generation} (h : Applied image mutation expected image') :
    SameFrame image image' := by
  cases h with
  | repeated h => exact ⟨rfl, rfl, rfl, rfl⟩
  | performed h hperform =>
      cases perform_eq_ok hperform with
      | assign a result hop hadmitted => cases hadmitted <;> exact ⟨rfl, rfl, rfl, rfl⟩
      | _ => exact ⟨rfl, rfl, rfl, rfl⟩

theorem applyMutation_frame {image image' : StateImage} {mutation : Mutation}
    {replay : Bool} (h : applyMutation image mutation replay = (.ok (), image')) :
    SameFrame image image' := by
  obtain ⟨expected, -, happlied⟩ := applyMutation_eq_ok_iff.mp h
  exact applied_frame happlied

/-! ## Counters -/

theorem next_value {g g' : Generation} (h : g.next = some g') :
    g'.value.toNat = g.value.toNat + 1 := by
  unfold Generation.next at h
  split at h
  · cases h
  · rename_i hmax
    cases h
    have hlt := g.value.toNat_lt
    have hne : g.value.toNat ≠ 2 ^ 64 - 1 := by
      intro heq
      apply hmax
      rw [← UInt64.toNat_inj, heq]
      rfl
    rw [UInt64.toNat_add]
    simp only [UInt64.reduceToNat]
    omega

theorem next_of_le {g bound : Generation} (hle : g.value ≤ bound.value)
    (hbound : bound.next ≠ none) : ∃ g', g.next = some g' := by
  unfold Generation.next at hbound ⊢
  split
  · rename_i hmax
    rw [hmax] at hle
    have hlt := bound.value.toNat_lt
    have hge : 2 ^ 64 - 1 ≤ bound.value.toNat := UInt64.le_iff_toNat_le.mp hle
    have heq : bound.value = UInt64.ofNat (2 ^ 64 - 1) := by
      rw [← UInt64.toNat_inj]
      change _ = 2 ^ 64 - 1
      omega
    simp [heq] at hbound
  · exact ⟨_, rfl⟩

theorem isSet_of_next {g g' : Generation} (h : g.next = some g') : g'.isSet = true := by
  have hvalue := next_value h
  simp only [Generation.isSet, bne_iff_ne, ne_eq]
  intro hzero
  rw [hzero] at hvalue
  simp at hvalue

section Tables

variable {K V : Type} [Ord K] [Std.TransOrd K]

/-- No entry of the table has a generation above the bound. -/
def TableCounted (generation : V → Generation) (table : Std.ExtTreeMap K V)
    (bound : Generation) : Prop :=
  ∀ (key : K) (entry : V), table[key]? = some entry →
    (generation entry).value ≤ bound.value

theorem TableCounted.mono {generation : V → Generation} {table : Std.ExtTreeMap K V}
    {bound bound' : Generation} (h : TableCounted generation table bound)
    (hle : bound.value ≤ bound'.value) : TableCounted generation table bound' := by
  intro key entry hentry
  exact UInt64.le_trans (h key entry hentry) hle

theorem TableCounted.insert {generation : V → Generation} {table : Std.ExtTreeMap K V}
    {bound : Generation} (h : TableCounted generation table bound) (key : K) {entry : V}
    (hentry : (generation entry).value ≤ bound.value) :
    TableCounted generation (table.insert key entry) bound := by
  intro other found hfound
  rw [Std.ExtTreeMap.getElem?_insert] at hfound
  split at hfound
  · cases hfound
    exact hentry
  · exact h other found hfound

end Tables

/-- No counter is ahead of the state generation. -/
structure Counted (image : StateImage) : Prop where
  classes : TableCounted (·.definition.generation) image.classes image.generation
  scopes : TableCounted (·.definition.generation) image.scopes image.generation
  policies : TableCounted (·.definition.generation) image.policies image.generation
  subjects : TableCounted (·.definition.generation) image.subjects image.generation
  assignments : TableCounted (·.assignment.generation) image.assignments image.generation
  token_ne : image.nextFencingToken ≠ 0
  token_le : image.nextFencingToken.toNat ≤ image.generation.value.toNat + 1

theorem counted_empty (limits : Limits) : Counted { limits } where
  classes := by intro key entry h; simp at h
  scopes := by intro key entry h; simp at h
  policies := by intro key entry h; simp at h
  subjects := by intro key entry h; simp at h
  assignments := by intro key entry h; simp at h
  token_ne := by simp
  token_le := by simp

theorem Counted.advance {image : StateImage} (h : Counted image) {expected : Generation}
    (hle : image.generation.value ≤ expected.value) :
    Counted { image with generation := expected } where
  classes := h.classes.mono hle
  scopes := h.scopes.mono hle
  policies := h.policies.mono hle
  subjects := h.subjects.mono hle
  assignments := h.assignments.mono hle
  token_ne := h.token_ne
  token_le := h.token_le.trans (Nat.succ_le_succ (UInt64.le_iff_toNat_le.mp hle))

theorem le_of_next {g g' : Generation} (h : g.next = some g') : g.value ≤ g'.value := by
  have hvalue := next_value h
  rw [UInt64.le_iff_toNat_le]
  omega

/-- The successor of a stored generation is at most the next state generation. -/
theorem bumped_le {V : Type} {generation : V → Generation} {found : Option V}
    {bound expected : Generation}
    (hfound : ∀ entry, found = some entry → (generation entry).value ≤ bound.value)
    (hnext : bound.next = some expected) :
    (found.elim .first fun entry => (generation entry).next.getD .unset).value ≤
      expected.value := by
  have hexpected := next_value hnext
  rw [UInt64.le_iff_toNat_le]
  cases found with
  | none =>
      change 1 ≤ _
      omega
  | some entry =>
      have hle := UInt64.le_iff_toNat_le.mp (hfound entry rfl)
      simp only [Option.elim_some]
      cases hentry : (generation entry).next with
      | none => exact Nat.zero_le _
      | some g =>
          have hvalue := next_value hentry
          simp only [Option.getD_some]
          omega

theorem bumped_isSet {V : Type} {generation : V → Generation} {found : Option V}
    {bound : Generation}
    (hfound : ∀ entry, found = some entry → (generation entry).value ≤ bound.value)
    (hnext : bound.next ≠ none) :
    (found.elim .first fun entry => (generation entry).next.getD .unset).isSet = true := by
  cases found with
  | none => rfl
  | some entry =>
      obtain ⟨g, hg⟩ := next_of_le (hfound entry rfl) hnext
      simp only [Option.elim_some, hg, Option.getD_some]
      exact isSet_of_next hg

theorem Admitted.generation_le {tag : IdTag} {Def : Type} {kind : EntityKind tag Def}
    {image : StateImage} {d : Def} {provenance : Provenance} {entry : Entry Def}
    {expected : Generation} (h : Admitted kind image d provenance entry)
    (hset : ∀ d g, kind.generation (kind.setGeneration d g) = g)
    (htable : TableCounted (fun entry => kind.generation entry.definition)
      (kind.table image) image.generation)
    (hnext : image.generation.next = some expected) :
    (kind.generation entry.definition).value ≤ expected.value := by
  cases h with
  | @refreshed old hold hsame =>
      exact UInt64.le_trans (htable _ old hold) (le_of_next hnext)
  | stored hisSet hchanged =>
      rw [hset]
      exact bumped_le (htable (kind.id d)) hnext

theorem Performed.counted {image result : StateImage} {mutation : Mutation}
    {provenance : Provenance} {expected : Generation}
    (h : Performed image mutation provenance result) (hcounted : Counted image)
    (hnext : image.generation.next = some expected) :
    Counted { result with generation := expected } := by
  have hadvanced := hcounted.advance (le_of_next hnext)
  cases h with
  | «class» d entry hop hentry =>
      have hle := hentry.generation_le (fun _ _ => rfl) hcounted.classes hnext
      exact { hadvanced with classes := hadvanced.classes.insert d.id hle }
  | scope d entry hop hentry =>
      have hle := hentry.generation_le (fun _ _ => rfl) hcounted.scopes hnext
      exact { hadvanced with scopes := hadvanced.scopes.insert d.id hle }
  | policy d entry hop hentry =>
      have hle := hentry.generation_le (fun _ _ => rfl) hcounted.policies hnext
      exact { hadvanced with policies := hadvanced.policies.insert d.id hle }
  | subject d entry hop hentry =>
      have hle := hentry.generation_le (fun _ _ => rfl) hcounted.subjects hnext
      exact { hadvanced with subjects := hadvanced.subjects.insert d.id hle }
  | assign a result hop hadmitted =>
      cases hadmitted with
      | refreshed hold hsame =>
          have hle := UInt64.le_trans (hcounted.assignments _ _ hold) (le_of_next hnext)
          exact { hadvanced with assignments := hadvanced.assignments.insert a.id hle }
      | stored hset hchanged =>
          have hle := bumped_le (hcounted.assignments a.id) hnext
          exact { hadvanced with assignments := hadvanced.assignments.insert a.id hle }
  | retire target entry generation hop hentry hgeneration =>
      have hle : entry.assignment.generation.value.toNat ≤ image.generation.value.toNat :=
        UInt64.le_iff_toNat_le.mp (hcounted.assignments _ _ hentry)
      have hvalue := next_value hgeneration
      have hexpected := next_value hnext
      have hretired : generation.value ≤ expected.value := by
        rw [UInt64.le_iff_toNat_le]
        omega
      exact { hadvanced with assignments := hadvanced.assignments.insert target hretired }
  | grant hop hpositive hroom =>
      have hlt := image.nextFencingToken.toNat_lt
      have hmax : image.nextFencingToken.toNat ≠ 2 ^ 64 - 1 := by
        intro heq
        apply hroom
        rw [← UInt64.toNat_inj, heq]
        rfl
      have hsucc : (image.nextFencingToken + 1).toNat =
          image.nextFencingToken.toNat + 1 := by
        rw [UInt64.toNat_add]
        simp only [UInt64.reduceToNat]
        omega
      refine { hadvanced with token_ne := ?_, token_le := ?_ }
      · intro hzero
        have := congrArg UInt64.toNat hzero
        simp only [hsucc] at this
        simp at this
      · have hle := hcounted.token_le
        have hexpected := next_value hnext
        change (image.nextFencingToken + 1).toNat ≤ expected.value.toNat + 1
        omega
  | fence publisher boot hop => exact { hadvanced with }
  | advance epoch hop hepoch => exact { hadvanced with }

theorem applied_counted {image image' : StateImage} {mutation : Mutation} {replay : Bool}
    {expected : Generation} (hadmissible : Admissible image mutation replay expected)
    (h : Applied image mutation expected image') (hcounted : Counted image) :
    Counted image' := by
  cases h with
  | repeated h => exact { hcounted with }
  | performed hfresh hperform =>
      have hnext : image.generation.next = some expected := by
        obtain ⟨g, hg⟩ := Option.ne_none_iff_exists'.mp (hadmissible.next_exists hfresh)
        rw [hadmissible.expected_eq]
        simp [plannedGeneration, hfresh, hg]
      have hrecorded : Counted (recordAccepted image mutation expected) :=
        { hcounted with }
      exact (perform_eq_ok hperform).counted hrecorded hnext

theorem applyMutation_counted {image image' : StateImage} {mutation : Mutation}
    {replay : Bool} (h : applyMutation image mutation replay = (.ok (), image'))
    (hcounted : Counted image) : Counted image' := by
  obtain ⟨expected, hadmissible, happlied⟩ := applyMutation_eq_ok_iff.mp h
  exact applied_counted hadmissible happlied hcounted

/-! ## No late failure -/

/-- A grant has a fencing token left to hand out. -/
def TokenLeft (image : StateImage) (mutation : Mutation) : Prop :=
  mutation.op = .grantAuthority → image.nextFencingToken ≠ UInt64.ofNat (2 ^ 64 - 1)

theorem accept_succeeds {tag : IdTag} {Def : Type} {kind : EntityKind tag Def}
    {image : StateImage} (d : Def) (provenance : Provenance)
    (htable : TableCounted (fun entry => kind.generation entry.definition)
      (kind.table image) image.generation)
    (hnext : image.generation.next ≠ none) :
    ∃ result, kind.accept image d provenance = .ok result := by
  have hset : (kind.bump image d).isSet = true := bumped_isSet (htable (kind.id d)) hnext
  have hstore : ∃ result, kind.store image d provenance = .ok result := by
    simp only [EntityKind.store, bind_eq_ok, failIf_eq_ok, exists_const, hset, pure,
      Except.pure, Bool.true_eq_false, not_false_eq_true, true_and, Except.ok.injEq,
      exists_eq']
  unfold EntityKind.accept
  split
  · split
    · exact ⟨_, rfl⟩
    · exact hstore
  · exact hstore

theorem admitAssignment_succeeds {image : StateImage} (a : PriorityAssignment)
    (provenance : Provenance)
    (htable : TableCounted (·.assignment.generation) image.assignments image.generation)
    (hnext : image.generation.next ≠ none) :
    ∃ result, admitAssignment image a provenance = .ok result := by
  have hset : (bumpAssignment image a.id).isSet = true := bumped_isSet (htable a.id) hnext
  have hstore : ∃ result, storeAssignment image a provenance = .ok result := by
    simp only [storeAssignment, bind_eq_ok, failIf_eq_ok, exists_const, hset, pure,
      Except.pure, Bool.true_eq_false, not_false_eq_true, true_and, Except.ok.injEq,
      exists_eq']
  unfold admitAssignment
  split
  · split
    · exact ⟨_, rfl⟩
    · exact hstore
  · exact hstore

/-- While the state generation has a successor, a validated state change goes
through. -/
theorem perform_succeeds {image : StateImage} {mutation : Mutation}
    (provenance : Provenance) (expected : Generation)
    (hvalid : validateMutation image mutation = .ok ()) (hcounted : Counted image)
    (hnext : image.generation.next ≠ none) (htoken : TokenLeft image mutation) :
    ∃ result, perform (recordAccepted image mutation expected) mutation provenance =
      .ok result := by
  have hrecorded : Counted (recordAccepted image mutation expected) := { hcounted with }
  unfold perform
  cases hop : mutation.op with
  | defineClass d => exact accept_succeeds d provenance hrecorded.classes hnext
  | defineScope d => exact accept_succeeds d provenance hrecorded.scopes hnext
  | definePolicy d => exact accept_succeeds d provenance hrecorded.policies hnext
  | defineSubject d => exact accept_succeeds d provenance hrecorded.subjects hnext
  | assign a => exact admitAssignment_succeeds a provenance hrecorded.assignments hnext
  | retireAssignment target =>
      simp only [validateMutation, hop, validateRetirement, bind_eq_ok, failIf_eq_ok,
        exists_const, Bool.not_eq_false] at hvalid
      have hfound : target ∈ image.assignments := by
        rw [Std.ExtTreeMap.mem_iff_contains]
        exact hvalid.2.1
      obtain ⟨entry, hentry⟩ : ∃ entry, image.assignments[target]? = some entry :=
        ⟨_, Std.ExtTreeMap.getElem?_eq_some_getElem hfound⟩
      obtain ⟨generation, hgeneration⟩ :=
        next_of_le (hcounted.assignments target entry hentry) hnext
      have hrecordedEntry : (recordAccepted image mutation expected).assignments[target]? =
          some entry := hentry
      simp only [Apply.retireAssignment, hrecordedEntry, hgeneration, Except.ok.injEq,
        exists_eq']
  | grantAuthority =>
      have hroom : ¬ ((recordAccepted image mutation expected).nextFencingToken = 0 ∨
          (recordAccepted image mutation expected).nextFencingToken =
            UInt64.ofNat (2 ^ 64 - 1)) := by
        rintro (hzero | hmax)
        · exact hcounted.token_ne hzero
        · exact htoken hop hmax
      simp only [Apply.grantAuthority, bind_eq_ok, failIf_eq_ok, exists_const, hroom,
        not_false_eq_true, true_and, pure, Except.pure, Except.ok.injEq, exists_eq']
  | fenceAuthority publisher boot => exact ⟨_, rfl⟩
  | advanceEpoch =>
      simp only [validateMutation, hop, failIf_eq_ok] at hvalid
      obtain ⟨epoch, hepoch⟩ := Option.ne_none_iff_exists'.mp hvalid
      have hrecordedEpoch : (recordAccepted image mutation expected).epoch.next =
          some epoch := hepoch
      simp only [Apply.advanceEpoch, hrecordedEpoch, Except.ok.injEq, exists_eq']

theorem applyMutation_succeeds {image : StateImage} {mutation : Mutation} {replay : Bool}
    (hvalid : validateMutation image mutation = .ok ())
    (hauthorized : replay = false → mutation.system = false →
      checkAuthority image mutation = .ok ())
    (hset : (plannedGeneration image mutation).isSet = true)
    (hresulting : mutation.resultingGeneration = plannedGeneration image mutation)
    (hcounted : Counted image) (htoken : TokenLeft image mutation) :
    ∃ image', applyMutation image mutation replay = (.ok (), image') := by
  have hnext : isIdempotent image mutation = false → image.generation.next ≠ none := by
    intro hfresh hnone
    simp [plannedGeneration, hfresh, hnone, Generation.isSet, Generation.unset] at hset
  have hadmissible : Admissible image mutation replay (plannedGeneration image mutation) :=
    ⟨hvalid, hauthorized, rfl, hnext, fun _ => by rw [hresulting]⟩
  cases hidempotent : isIdempotent image mutation with
  | true =>
      exact ⟨_, applyMutation_eq_ok_iff.mpr ⟨_, hadmissible, .repeated hidempotent⟩⟩
  | false =>
      obtain ⟨result, hresult⟩ := perform_succeeds
        (provenanceOf image mutation (plannedGeneration image mutation))
        (plannedGeneration image mutation) hvalid hcounted (hnext hidempotent) htoken
      exact ⟨_, applyMutation_eq_ok_iff.mpr
        ⟨_, hadmissible, .performed hidempotent hresult⟩⟩

theorem applyMutation_generation {image image' : StateImage} {mutation : Mutation}
    {replay : Bool} (h : applyMutation image mutation replay = (.ok (), image')) :
    image'.generation = plannedGeneration image mutation := by
  obtain ⟨expected, hadmissible, happlied⟩ := applyMutation_eq_ok_iff.mp h
  have hexpected := hadmissible.expected_eq
  cases happlied with
  | repeated hidempotent =>
      simp only [plannedGeneration, hidempotent, if_true]
      rfl
  | performed hfresh hperform => exact hexpected

end PriorityFabric.ApplyFacts
