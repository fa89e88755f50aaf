import PriorityFabric.Authority
import PriorityFabric.Checkpoints

/-!
How many entries a reached state holds.

The tables of definitions, the assignments and the audit ring never outgrow their limits.
The authority table does: nothing counts publishers, and fencing a boot that was never seen
adds it without counting boots.
-/

namespace PriorityFabric.Populations

open PriorityFabric.Lib.LittleEndian
open PriorityFabric.Basics
open PriorityFabric.Ident
open PriorityFabric.Model
open PriorityFabric.State
open PriorityFabric.Validate
open PriorityFabric.Apply
open PriorityFabric.Bounds
open PriorityFabric.Durability
open PriorityFabric.Store
open PriorityFabric.Committing
open PriorityFabric.Serving
open PriorityFabric.Runtime
open PriorityFabric.Runtime.FabricRuntime
open PriorityFabric.CommitRuns
open PriorityFabric.Calls
open PriorityFabric.Lifetimes
open PriorityFabric.Authority
open PriorityFabric.Checkpoints

/-- The incarnations the authority table knows. -/
def incarnationSet (image : StateImage) : Finset Incarnation := image.authority.keys.toFinset

def publisherSet (image : StateImage) : Finset PublisherId :=
  (incarnationSet image).image (·.publisher)

def bootSet (image : StateImage) (publisher : PublisherId) : Finset Incarnation :=
  (incarnationSet image).filter (·.publisher = publisher)

/-- Publishers, and boots of each publisher, are within their limits. -/
structure AuthorityWithin (image : StateImage) : Prop where
  publishers : (publisherSet image).card ≤ image.limits.maxPublishers
  boots : ∀ publisher, (bootSet image publisher).card ≤ image.limits.maxBootsPerPublisher

/-- The incarnation is known, or both its publisher and the table have room for it. -/
def Admits (image : StateImage) (key : Incarnation) : Prop :=
  key ∈ incarnationSet image ∨
    (bootSet image key.publisher).card < image.limits.maxBootsPerPublisher ∧
      (key.publisher ∈ publisherSet image ∨
        (publisherSet image).card < image.limits.maxPublishers)

theorem mem_incarnationSet {image : StateImage} {key : Incarnation} :
    key ∈ incarnationSet image ↔ key ∈ image.authority := by
  simp [incarnationSet]

theorem incarnationSet_congr {image image' : StateImage}
    (h : image'.authority.keys = image.authority.keys) :
    incarnationSet image' = incarnationSet image := by
  rw [incarnationSet, incarnationSet, h]

section Table

variable {image image' : StateImage}

theorem AuthorityWithin.congr (h : AuthorityWithin image)
    (hkeys : incarnationSet image' = incarnationSet image)
    (hlimits : image'.limits = image.limits) : AuthorityWithin image' := by
  constructor
  · rw [publisherSet, hkeys, hlimits]
    exact h.publishers
  · intro publisher
    rw [bootSet, hkeys, hlimits]
    exact h.boots publisher

theorem card_insert_le_of_room {α : Type} [DecidableEq α] {s : Finset α} {a : α} {bound : Nat}
    (h : s.card ≤ bound) (hroom : a ∈ s ∨ s.card < bound) : (insert a s).card ≤ bound := by
  rcases hroom with hmem | hroom
  · rw [Finset.insert_eq_of_mem hmem]
    exact h
  · exact (Finset.card_insert_le a s).trans hroom

theorem AuthorityWithin.insert (h : AuthorityWithin image) {key : Incarnation}
    (hkeys : incarnationSet image' = insert key (incarnationSet image))
    (hlimits : image'.limits = image.limits) (hadmits : Admits image key) :
    AuthorityWithin image' := by
  rcases hadmits with hknown | ⟨hboots, hpublishers⟩
  · rw [Finset.insert_eq_of_mem hknown] at hkeys
    exact h.congr hkeys hlimits
  · constructor
    · rw [publisherSet, hkeys, Finset.image_insert, hlimits]
      exact card_insert_le_of_room h.publishers hpublishers
    · intro publisher
      rw [bootSet, hkeys, Finset.filter_insert, hlimits]
      split
      · rename_i hsame
        rw [hsame] at hboots
        exact card_insert_le_of_room (h.boots publisher) (.inr hboots)
      · exact h.boots publisher

theorem incarnationSet_insert {table : Std.ExtTreeMap Incarnation AuthorityEntry}
    {key : Incarnation} {entry : AuthorityEntry} (h : image'.authority = table.insert key entry)
    (htable : table.keys = image.authority.keys) :
    incarnationSet image' = insert key (incarnationSet image) := by
  ext other
  rw [Finset.mem_insert, mem_incarnationSet, mem_incarnationSet, h, Std.ExtTreeMap.mem_insert,
    Std.LawfulEqOrd.compare_eq_iff_eq, ← Std.ExtTreeMap.mem_keys, htable,
    Std.ExtTreeMap.mem_keys]
  exact ⟨fun h => h.imp Eq.symm id, fun h => h.imp Eq.symm id⟩

theorem length_incarnations (image : StateImage) (publisher : PublisherId) :
    (incarnations image publisher).length = (bootSet image publisher).card := by
  have hkeys : bootSet image publisher =
      (image.authority.keys.filter (·.publisher = publisher)).toFinset := by
    rw [List.toFinset_filter]
    simp [bootSet, incarnationSet]
  have hnodup : (image.authority.keys.filter (·.publisher = publisher)).Nodup :=
    Std.ExtTreeMap.nodup_keys.filter _
  rw [hkeys, List.toFinset_card_of_nodup hnodup, incarnations]
  rw [← Std.ExtTreeMap.map_fst_toList_eq_keys, List.filter_map, List.length_map]
  rfl

end Table

/-- A grant is made to a known publisher, or while there is room for one more; a fence names an
incarnation the table admits. -/
def HasRoom (image : StateImage) (mutation : Mutation) : Prop :=
  match mutation.op with
  | .grantAuthority => mutation.publisher ∈ publisherSet image ∨
      (publisherSet image).card < image.limits.maxPublishers
  | .fenceAuthority publisher boot => Admits image ⟨publisher, boot⟩
  | _ => True

theorem admits_of_validateGrant {image : StateImage} {mutation : Mutation}
    (h : validateGrant image mutation = .ok ())
    (hroom : mutation.publisher ∈ publisherSet image ∨
      (publisherSet image).card < image.limits.maxPublishers) :
    Admits image ⟨mutation.publisher, mutation.boot⟩ := by
  simp only [validateGrant, bind_eq_ok, failIf_eq_ok, exists_const] at h
  obtain ⟨-, -, -, hboots⟩ := h
  split at hboots
  · rename_i hgranted
    obtain ⟨entry, hentry, -⟩ := Option.map_eq_some_iff.mp hgranted
    left
    rw [mem_incarnationSet, Std.ExtTreeMap.mem_iff_isSome_getElem?, hentry]
    rfl
  · simp only [failIf_eq_ok, ge_iff_le, not_le, length_incarnations] at hboots
    exact .inr ⟨hboots, hroom⟩

theorem authorityWithin_governed {a b : StateImage} {mutation : Mutation}
    (h : AuthorityWithin a) (hroom : HasRoom a mutation) (hgoverned : Governed a mutation b)
    (hlimits : b.limits = a.limits) : AuthorityWithin b := by
  cases hgoverned with
  | kept hop hepoch htoken hauthority =>
      exact h.congr (incarnationSet_congr (by rw [hauthority])) hlimits
  | granted provenance hop hvalid hepoch hpositive hleft htoken hauthority =>
      simp only [HasRoom, hop] at hroom
      exact h.insert (incarnationSet_insert hauthority Std.ExtTreeMap.keys_map) hlimits
        (admits_of_validateGrant hvalid hroom)
  | fenced publisher boot provenance hop hepoch htoken hauthority =>
      simp only [HasRoom, hop] at hroom
      exact h.insert (incarnationSet_insert hauthority rfl) hlimits hroom
  | advanced epoch hop hnext hepoch htoken hauthority =>
      exact h.congr (incarnationSet_congr (by rw [hauthority, Std.ExtTreeMap.keys_map])) hlimits

theorem authorityWithin_sameRecord {a b : StateImage} (h : AuthorityWithin a)
    (hsame : SameRecord b a) (hlimits : b.limits = a.limits) : AuthorityWithin b :=
  h.congr (incarnationSet_congr (by rw [hsame.authority])) hlimits

theorem authorityWithin_commit {s : StoreState} {mutation : Mutation}
    (h : AuthorityWithin s.live) (hroom : HasRoom s.live mutation) :
    AuthorityWithin (Store.commit s mutation).2.live := by
  have hlimits : (Store.commit s mutation).2.live.limits = s.live.limits :=
    commitWriting_limits s mutation _ _
  have heffect := commit_effect s mutation
  generalize Store.commit s mutation = result at heffect hlimits ⊢
  cases heffect with
  | refused e s' hsame => exact authorityWithin_sameRecord h hsame hlimits
  | applied s' image happly hsame =>
      have himage : image.limits = s.live.limits := by
        have hkept := applyMutation_limits s.live (planOf s.live mutation) false
        rw [happly] at hkept
        exact hkept
      have hplanned : HasRoom s.live (planOf s.live mutation) := hroom
      have hwithin := authorityWithin_governed h hplanned (applyMutation_governed happly) himage
      exact authorityWithin_sameRecord hwithin hsame (hlimits.trans himage.symm)

/-- The states of a store under a runtime that recovered a table within the limits and whose
commits all found room. -/
inductive Roomy : StoreState → Prop
  | opened {dir : Directory} {options : RuntimeOptions}
      {entropy : List.Vector UInt8 storeKeyBytes} {opened : Opened}
      (h : openStore dir options.store entropy = .ok opened)
      (hauthority : AuthorityWithin opened.image) :
      Roomy (startRuntime options opened).state
  | committed {s : StoreState} (h : Roomy s) (mutation : Mutation)
      (hroom : HasRoom s.live mutation) : Roomy (Store.commit s mutation).2
  | rejected {s : StoreState} (h : Roomy s) (op : Bytes) (status : Status) (actor : Session)
      (now : UInt64) (hop : op.length ≤ 64) :
      Roomy { s with live := recordRejection s.live s.store.options.limits op status actor now }
  | checkpointed {s : StoreState} (h : Roomy s) : Roomy (Store.checkpoint s).2
  | verified {s : StoreState} (h : Roomy s) (report : IntegrityReport) (dir : Directory)
      (hverify : Store.verify s = .ok (report, dir)) : Roomy { s with dir }
  | closed {s : StoreState} (h : Roomy s) : Roomy { s with store := closedStore s.store }

theorem Roomy.reached {s : StoreState} (h : Roomy s) : Reached s := by
  induction h with
  | opened h hauthority => exact .opened h
  | committed h mutation hroom ih => exact .step ih (.commit _ mutation)
  | rejected h op status actor now hop ih => exact .step ih (.reject _ op status actor now hop)
  | checkpointed h ih => exact .step ih (.checkpoint _)
  | verified h report dir hverify ih => exact .step ih (.verify _ report dir hverify)
  | closed h ih => exact .step ih (.close _)

theorem Roomy.authorityWithin {s : StoreState} (h : Roomy s) : AuthorityWithin s.live := by
  induction h with
  | @opened dir options entropy opened hopen hauthority =>
      have hwithin := within_openStore hopen
      refine hauthority.congr (incarnationSet_congr ?_) hwithin.2.symm
      exact Std.ExtTreeMap.keys_map
  | committed h mutation hroom ih => exact authorityWithin_commit ih hroom
  | rejected h op status actor now hop ih => exact ih.congr rfl rfl
  | @checkpointed s h ih =>
      rw [checkpoint_live]
      exact ih
  | verified h report dir hverify ih => exact ih
  | closed h ih => exact ih

/-- Every collection has at most as many members as its limit says. -/
structure Populated (image : StateImage) : Prop where
  sizes : Sizes image
  authority : AuthorityWithin image

/-- Where every commit finds room in the authority table, every collection of every reached
state is within its limit. -/
theorem populated_of_roomy {s : StoreState} (h : Roomy s) :
    s.live.limits = s.store.options.limits ∧ Populated s.live := by
  have hwithin := within_of_reached h.reached
  exact ⟨hwithin.2, hwithin.1.sizes, h.authorityWithin⟩

theorem authorityWithin_empty (limits : Limits) : AuthorityWithin { limits } := by
  constructor
  · exact Nat.zero_le _
  · intro publisher
    exact Nat.zero_le _

def systemGrant : Mutation :=
  { op := .grantAuthority, publisher := somePublisher, boot := someBoot, system := true }

theorem populated_of_roomy_granted :
    ∃ opened, openStore ∅ creatingRuntime.store zeroKey = .ok opened ∧
      (incarnationSet (Store.commit (startRuntime creatingRuntime opened).state
        systemGrant).2.live).card = 1 ∧
      Populated (Store.commit (startRuntime creatingRuntime opened).state systemGrant).2.live := by
  obtain ⟨opened, hopen⟩ := openStore_empty
  have hgranted : (match openStore ∅ creating zeroKey with
      | .ok opened => (incarnationSet (Store.commit
          (startRuntime creatingRuntime opened).state systemGrant).2.live).card
      | .error _ => 0) = 1 := by decide
  rw [hopen] at hgranted
  have hauthority : opened.image.authority = ∅ := by
    obtain ⟨-, hcreate⟩ := createStore_of_openStore (by simp) hopen
    simp only [createStore, bind_eq_ok, pure, Except.pure, Except.ok.injEq] at hcreate
    obtain ⟨-, -, -, -, found, -, rfl⟩ := hcreate
    rfl
  have hkeys : incarnationSet opened.image = ∅ := by
    rw [incarnationSet, hauthority]
    rfl
  have hroomy : Roomy (startRuntime creatingRuntime opened).state := by
    refine .opened hopen ((authorityWithin_empty opened.image.limits).congr ?_ rfl)
    rw [hkeys]
    rfl
  have hroom : HasRoom (startRuntime creatingRuntime opened).state.live systemGrant := by
    have hlive : incarnationSet (startRuntime creatingRuntime opened).state.live = ∅ := by
      rw [← hkeys]
      exact incarnationSet_congr Std.ExtTreeMap.keys_map
    right
    rw [publisherSet, hlive]
    exact (by decide : (0 : Nat) < 4096)
  exact ⟨opened, hopen, hgranted, (populated_of_roomy (hroomy.committed systemGrant hroom)).2⟩

def tight : RuntimeOptions := { limits := { maxBootsPerPublisher := 1 }, createIfMissing := true }

/-- Grant one boot and let it fence another one of the same publisher. -/
def crowd (r : FabricRuntime) : FabricRuntime :=
  (Calls.perform (Calls.perform r 0 (.grantAuthority somePublisher someBoot)).2 0
    (.fence firstSession somePublisher otherBoot [])).2

theorem fenced_boot_not_counted :
    ¬ ∀ r : FabricRuntime, Reachable r → Populated r.image := by
  intro h
  have hcount : (match (openRuntime ∅ tight zeroKey 0).1 with
      | .ok r => decide ((bootSet (crowd r).image somePublisher).card ≤
          (crowd r).image.limits.maxBootsPerPublisher)
      | .error _ => true) = false := by decide +kernel
  cases hopen : openRuntime ∅ tight zeroKey 0 with
  | mk result dir =>
      rw [hopen] at hcount
      cases result with
      | error e => cases hcount
      | ok r =>
          have hreachable : Reachable (crowd r) := ((Reachable.opened hopen).called 0 _).called 0 _
          have hboots := (h (crowd r) hreachable).authority.boots somePublisher
          exact absurd hboots (of_decide_eq_false hcount)

end PriorityFabric.Populations
