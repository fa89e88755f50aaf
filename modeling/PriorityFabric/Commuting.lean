import PriorityFabric.Fading
import PriorityFabric.Guarding
import PriorityFabric.Isolation
import PriorityFabric.Populations

/-!
Assignments under new ids may be published in any order.

Both orders leave the same assignments in the same buckets, up to the sequence numbers and
times in their provenance, and no decision depends on those.
-/

namespace PriorityFabric.Commuting

open PriorityFabric.Lib.LittleEndian
open PriorityFabric.Lib.KeyedTable (getElem?_insert_of_ne)
open PriorityFabric.Basics
open PriorityFabric.Ident
open PriorityFabric.Model
open PriorityFabric.State
open PriorityFabric.Apply hiding perform
open PriorityFabric.ApplyFacts
open PriorityFabric.Store
open PriorityFabric.Serving
open PriorityFabric.Runtime
open PriorityFabric.Runtime.FabricRuntime
open PriorityFabric.Evaluate
open PriorityFabric.UsableEvidence
open PriorityFabric.Holdings
open PriorityFabric.Calls
open PriorityFabric.CommitRuns
open PriorityFabric.Authority
open PriorityFabric.Views
open PriorityFabric.Fading
open PriorityFabric.Guarding
open PriorityFabric.Isolation (getD_insert_of_ne)

section Buckets

variable {i j : PriorityAssignmentId}

theorem isLT_of_not_isLT {head : PriorityAssignmentId} (hj : ¬ (compare head j).isLT = true)
    (hi : (compare head i).isLT = true) : (compare j i).isLT = true := by
  have hle : (compare j head).isLE = true := by
    rw [← Std.OrientedCmp.isGE_eq_isLE]
    cases hcompare : compare head j with
    | lt => simp [hcompare] at hj
    | eq => rfl
    | gt => rfl
  rw [Ordering.isLT_iff_eq_lt] at hi ⊢
  exact Std.TransCmp.lt_of_isLE_of_lt hle hi

theorem isLT_total (h : i ≠ j) : (compare i j).isLT = !(compare j i).isLT := by
  rw [← Std.OrientedCmp.isGT_eq_isLT]
  cases hcompare : compare j i with
  | lt => rfl
  | eq => exact absurd (Std.LawfulEqOrd.eq_of_compare hcompare).symm h
  | gt => rfl

theorem insertSorted_cons (id head : PriorityAssignmentId) (bucket : List PriorityAssignmentId) :
    insertSorted id (head :: bucket) =
      if (compare head id).isLT = true then head :: insertSorted id bucket
      else id :: head :: bucket := by
  unfold insertSorted
  by_cases h : (compare head id).isLT = true
  · simp [h]
  · simp [h]

theorem insertSorted_comm (h : i ≠ j) (bucket : List PriorityAssignmentId) :
    insertSorted i (insertSorted j bucket) = insertSorted j (insertSorted i bucket) := by
  have htotal := isLT_total h
  induction bucket with
  | nil =>
      have hnil (id : PriorityAssignmentId) : insertSorted id [] = [id] := rfl
      simp only [hnil, insertSorted_cons, htotal]
      cases (compare j i).isLT <;> rfl
  | cons head bucket ih =>
      rw [insertSorted_cons, insertSorted_cons]
      by_cases hi : (compare head i).isLT = true
      · by_cases hj : (compare head j).isLT = true
        · simp only [hi, hj, if_true, insertSorted_cons, ih]
        · have hlt := isLT_of_not_isLT hj hi
          simp [hi, hj, insertSorted_cons, hlt]
      · by_cases hj : (compare head j).isLT = true
        · have hlt := isLT_of_not_isLT hi hj
          simp [hi, hj, insertSorted_cons, hlt]
        · rw [if_neg hi, if_neg hj, insertSorted_cons, insertSorted_cons, insertSorted_cons,
            insertSorted_cons, if_neg hi, if_neg hj, htotal]
          cases (compare j i).isLT <;> rfl

end Buckets

theorem live_of_commit {s s' : StoreState} {mutation : Mutation}
    (h : Store.commit s mutation = (.ok (), s')) :
    ∃ image sequence, applyMutation s.live (planOf s.live mutation) false = (.ok (), image) ∧
      s'.live = { image with lastSequence := sequence } := by
  unfold Store.commit commitWriting at h
  cases hplan : planCommit s.store s.live mutation with
  | error e =>
      rw [hplan] at h
      cases h
  | ok planned =>
      obtain rfl := Lifetimes.planCommit_eq_planOf hplan
      simp only [hplan] at h
      cases hroll : rollSegmentIfNeeded s.dir s.store with
      | error e =>
          rw [hroll] at h
          cases h
      | ok rolled =>
          obtain ⟨dir, store⟩ := rolled
          simp only [hroll, journalCommit] at h
          split at h
          · cases h
          · split at h
            · cases h
            · rename_i live happly
              split at h
              · cases h
              · split at h
                · cases h
                · cases h
                  exact ⟨live, _, happly, rfl⟩

theorem image_of_publish {r r' : FabricRuntime} {α : Type} {now : UInt64} {actor : Session}
    {op : Bytes} {mutation : Mutation} {value : CommitOutcome → StateImage → α} {a : α}
    (h : r.publish now actor op mutation value = (.ok a, r')) :
    ∃ image sequence, applyMutation r.image (planOf r.image mutation) false = (.ok (), image) ∧
      r'.image = { image with lastSequence := sequence } := by
  unfold publish commitMutation at h
  simp only at h
  cases hcommit : Store.commit r.state mutation with
  | mk status state =>
      cases status with
      | error e =>
          simp only [hcommit, rejectCall] at h
          cases h
      | ok u =>
          simp only [hcommit] at h
          cases h
          exact live_of_commit hcommit

theorem image_of_assign {r r' : FabricRuntime} {now : UInt64} {session : Session}
    {a : PriorityAssignment} {generation : Generation}
    (h : r.assign now session a = (.ok generation, r')) :
    ∃ x image sequence, stamped r.image a = some x ∧
      applyMutation r.image (planOf r.image
        (baseMutation session (.assign x) (text "assign") now)) false = (.ok (), image) ∧
      r'.image = { image with lastSequence := sequence } := by
  unfold FabricRuntime.assign underSession at h
  split at h
  · cases h
  · split at h
    · cases h
    · split at h
      · cases h
      · rename_i hkind
        unfold stamped
        rw [if_neg hkind]
        cases hsubject : r.image.subjects[a.subject]? with
        | none =>
            simp only [hsubject, rejectUndefined, rejectCall] at h
            cases h
        | some subject =>
            cases hscope : r.image.scopes[a.scope]? with
            | none =>
                simp only [hsubject, hscope, rejectUndefined, rejectCall] at h
                cases h
            | some scope =>
                cases hcls : r.image.classes[a.cls]? with
                | none =>
                    simp only [hsubject, hscope, hcls, rejectUndefined, rejectCall] at h
                    cases h
                | some cls =>
                    cases hpolicy : a.policy with
                    | none =>
                        simp only [hsubject, hscope, hcls, hpolicy] at h
                        obtain ⟨image, sequence, happly, himage⟩ := image_of_publish h
                        exact ⟨_, image, sequence, rfl, happly, himage⟩
                    | some policy =>
                        cases hentry : r.image.policies[policy]? with
                        | none =>
                            simp only [hsubject, hscope, hcls, hpolicy, hentry,
                              rejectUndefined, rejectCall] at h
                            cases h
                        | some entry =>
                            simp only [hsubject, hscope, hcls, hpolicy, hentry] at h
                            obtain ⟨image, sequence, happly, himage⟩ := image_of_publish h
                            refine ⟨_, image, sequence, ?_, happly, himage⟩
                            simp [policyGenerationOf, hentry]

/-- The assignments of an image, faded, and their buckets. -/
structure Listing where
  entry : PriorityAssignmentId → Option AssignmentEntry
  bucket : SubjectId → List PriorityAssignmentId

def listing (image : StateImage) : Listing where
  entry := fun id => (image.assignments[id]?).map faded
  bucket := fun subject => image.assignmentsBySubject.getD subject []

def newEntry (session : Session) (a : PriorityAssignment) : AssignmentEntry where
  assignment := { a with generation := .first }
  provenance :=
    { publisher := session.publisher, boot := session.boot, epoch := session.epoch }

/-- A listing with one more assignment, stamped by the registry of `setting`. -/
def Listing.add (setting : StateImage) (view : Listing) (call : Session × PriorityAssignment) :
    Listing where
  entry := fun id =>
    if id = call.2.id then (stamped setting call.2).map (newEntry call.1) else view.entry id
  bucket := fun subject =>
    if subject = call.2.subject then insertSorted call.2.id (view.bucket subject)
    else view.bucket subject

theorem stamped_eq_some {image : StateImage} {a x : PriorityAssignment}
    (h : stamped image a = some x) : x.id = a.id ∧ x.subject = a.subject := by
  unfold stamped at h
  split at h
  · cases h
  · simp only [Option.bind_eq_bind, Option.bind_eq_some_iff, Option.pure_def,
      Option.some.injEq] at h
    obtain ⟨-, -, -, -, -, -, -, -, rfl⟩ := h
    exact ⟨rfl, rfl⟩

theorem add_comm {setting : StateImage} {c c' : Session × PriorityAssignment}
    (h : c.2.id ≠ c'.2.id) (view : Listing) :
    (view.add setting c).add setting c' = (view.add setting c').add setting c := by
  simp only [Listing.add, Listing.mk.injEq]
  constructor
  · funext id
    by_cases hid : id = c.2.id
    · subst hid
      simp [h]
    · simp [hid]
  · funext subject
    by_cases hsubject : subject = c.2.subject
    · by_cases hsubject' : subject = c'.2.subject
      · simp only [if_pos hsubject, if_pos hsubject']
        exact insertSorted_comm h.symm _
      · simp only [if_pos hsubject, if_neg hsubject']
    · simp only [if_neg hsubject]

/-- The runtime accepted these assignments one after the other, whenever that was. -/
inductive Published : FabricRuntime → List (Session × PriorityAssignment) → FabricRuntime → Prop
  | nil (r : FabricRuntime) : Published r [] r
  | cons {r r' r'' : FabricRuntime} {now : UInt64} {session : Session} {a : PriorityAssignment}
      {generation : Generation} {calls : List (Session × PriorityAssignment)}
      (h : r.assign now session a = (.ok generation, r')) (hrest : Published r' calls r'') :
      Published r ((session, a) :: calls) r''

/-- An accepted assignment under a new id is added to the listing; nothing else that an
evaluation goes by changes. -/
theorem listing_of_assign {r r' : FabricRuntime} {now : UInt64} {session : Session}
    {a : PriorityAssignment} {generation : Generation}
    (h : r.assign now session a = (.ok generation, r'))
    (hnew : r.image.assignments[a.id]? = none) :
    overlaid r.image r'.image = r'.image ∧
      (∀ id, id ≠ a.id → r'.image.assignments[id]? = r.image.assignments[id]?) ∧
      listing r'.image = (listing r.image).add r.image (session, a) := by
  obtain ⟨x, image, sequence, hstamped, happly, himage⟩ := image_of_assign h
  obtain ⟨hid, hsubject⟩ := stamped_eq_some hstamped
  rw [← hid] at hnew
  obtain ⟨expected, -, happlied⟩ := applyMutation_eq_ok_iff.mp happly
  rw [himage]
  cases happlied with
  | repeated hrepeated => simp [isIdempotent, planOf, baseMutation, hnew] at hrepeated
  | performed hfresh hperform =>
      cases admitAssignment_eq_ok hperform with
      | refreshed hold hsame =>
          have hnone := hnew.symm.trans hold
          cases hnone
      | stored hset hchanged =>
          have hfirst : bumpAssignment (recordAccepted r.image (planOf r.image
              (baseMutation session (.assign x) (text "assign") now)) expected) x.id =
                .first := by
            have hsame : (recordAccepted r.image (planOf r.image
              (baseMutation session (.assign x) (text "assign") now)) expected).assignments =
                r.image.assignments := rfl
            rw [bumpAssignment, hsame, hnew]
            rfl
          refine ⟨rfl, ?_, ?_⟩
          · intro id hne
            rw [← hid] at hne
            exact getElem?_insert_of_ne _ (Ne.symm hne)
          · simp only [listing, Listing.add, Listing.mk.injEq, hstamped, ← hid, ← hsubject,
              Option.map_some]
            constructor
            · funext id
              by_cases heq : id = x.id
              · subst heq
                rw [if_pos rfl, Std.ExtTreeMap.getElem?_insert_self, hfirst]
                rfl
              · rw [if_neg heq, getElem?_insert_of_ne _ (Ne.symm heq)]
                rfl
            · funext subject
              by_cases heq : subject = x.subject
              · subst heq
                rw [if_pos rfl, Std.ExtTreeMap.getD_insert_self]
                rfl
              · rw [if_neg heq, getD_insert_of_ne _ _ heq]
                rfl

/-- A run of accepted assignments under new ids adds them one after the other. -/
theorem listing_of_published {r r' : FabricRuntime}
    {calls : List (Session × PriorityAssignment)} (h : Published r calls r')
    (hdistinct : (calls.map (·.2.id)).Nodup)
    (hnew : ∀ call ∈ calls, r.image.assignments[call.2.id]? = none) :
    overlaid r.image r'.image = r'.image ∧
      listing r'.image = calls.foldl (Listing.add r.image) (listing r.image) := by
  induction h with
  | nil r => exact ⟨rfl, rfl⟩
  | @cons r r' r'' now session a generation calls hassign hrest ih =>
      obtain ⟨hsetting, hkept, hlisting⟩ :=
        listing_of_assign hassign (hnew (session, a) (by simp))
      simp only [List.map_cons, List.nodup_cons] at hdistinct
      obtain ⟨hsetting', hlisting'⟩ := ih hdistinct.2 (by
        intro call hcall
        rw [hkept call.2.id]
        · exact hnew call (List.mem_cons_of_mem _ hcall)
        · intro heq
          exact hdistinct.1 (heq ▸ List.mem_map_of_mem hcall))
      have hadd : Listing.add r'.image = Listing.add r.image := by
        rw [← hsetting]
        rfl
      refine ⟨?_, ?_⟩
      · rw [← hsetting', ← hsetting]
        rfl
      · rw [hlisting', hlisting, hadd]
        rfl

/-- Images with the same setting and the same listing give decisions that say the same. -/
theorem essence_of_listing {a b : StateImage} (hsetting : overlaid a b = b)
    (hlisting : listing b = listing a) (query : PriorityQuery) :
    essence (evaluateQuery b query) = essence (evaluateQuery a query) := by
  have hentry := congrArg Listing.entry hlisting
  have hbucket := congrArg Listing.bucket hlisting
  have hheld (holder : SubjectId) :
      heldBy (fadedImage b) holder = heldBy (fadedImage a) holder := by
    unfold heldBy entriesOf
    have hsame := congrFun hbucket holder
    simp only [listing] at hsame
    have hbuckets : (fadedImage b).assignmentsBySubject.getD holder [] =
        (fadedImage a).assignmentsBySubject.getD holder [] := hsame
    rw [hbuckets]
    refine List.filterMap_congr fun id _ => ?_
    have hid := congrFun hentry id
    simp only [listing] at hid
    simp only [fadedImage, Std.ExtTreeMap.getElem?_map]
    exact hid
  have hholdings : SameHoldings (fadedImage a) (fadedImage b) query.subject :=
    fun holder _ => hheld holder
  have hevaluated := essence_of_unstamped (evaluateQuery_overlaid hholdings)
  have hoverlaid : overlaid (fadedImage a) (fadedImage b) = fadedImage b := by
    rw [← hsetting]
    rfl
  rw [hoverlaid] at hevaluated
  rw [← essence_fadedImage b, hevaluated, essence_fadedImage a]

/-- Assignments under distinct new ids, all accepted in two orders: every query gets the same
answer from both results. -/
theorem publication_order_irrelevant {r r₁ r₂ : FabricRuntime}
    {calls calls' : List (Session × PriorityAssignment)} (hperm : calls.Perm calls')
    (hdistinct : (calls.map (·.2.id)).Nodup)
    (hnew : ∀ call ∈ calls, r.image.assignments[call.2.id]? = none)
    (h₁ : Published r calls r₁) (h₂ : Published r calls' r₂) (query : PriorityQuery) :
    essence (evaluateQuery r₂.image query) = essence (evaluateQuery r₁.image query) := by
  obtain ⟨hsetting₁, hlisting₁⟩ := listing_of_published h₁ hdistinct hnew
  obtain ⟨hsetting₂, hlisting₂⟩ := listing_of_published h₂
    ((hperm.map _).nodup_iff.mp hdistinct) fun call hcall => hnew call (hperm.mem_iff.mpr hcall)
  refine essence_of_listing ?_ ?_ query
  · rw [← hsetting₂, ← hsetting₁]
    rfl
  · rw [hlisting₁, hlisting₂]
    refine (hperm.foldl_eq' ?_ _).symm
    intro c hc c' hc' view
    by_cases hsame : c.2.id = c'.2.id
    · have heq : c = c' := List.inj_on_of_nodup_map hdistinct hc hc' hsame
      rw [heq]
    · exact add_comm hsame view

/-- A granted publisher has defined a class, a scope and a subject. -/
def prepared (r : FabricRuntime) : FabricRuntime :=
  (perform (perform (perform (perform r 0 (.grantAuthority somePublisher someBoot)).2 0
    (.defineClass firstSession { id := ⟨[97], wellFormed_a⟩, precedence := .make 7 })).2 0
    (.defineScope firstSession { id := ⟨[97], wellFormed_a⟩ })).2 0
    (.defineSubject firstSession { id := ⟨[97], wellFormed_a⟩ })).2

def oneAssignment (id : PriorityAssignmentId) : PriorityAssignment where
  id := id
  subject := ⟨[97], wellFormed_a⟩
  scope := ⟨[97], wellFormed_a⟩
  cls := ⟨[97], wellFormed_a⟩

def twoCalls : List (Session × PriorityAssignment) :=
  [(firstSession, oneAssignment ⟨[97], wellFormed_a⟩),
    (firstSession, oneAssignment ⟨[98], wellFormed_b⟩)]

def publishAll (r : FabricRuntime) : List (Session × PriorityAssignment) → FabricRuntime
  | [] => r
  | call :: calls => publishAll (r.assign 0 call.1 call.2).2 calls

def acceptsAll (r : FabricRuntime) : List (Session × PriorityAssignment) → Bool
  | [] => true
  | call :: calls =>
      (r.assign 0 call.1 call.2).1.isOk && acceptsAll (r.assign 0 call.1 call.2).2 calls

theorem published_of_acceptsAll {r : FabricRuntime}
    {calls : List (Session × PriorityAssignment)} (h : acceptsAll r calls = true) :
    Published r calls (publishAll r calls) := by
  induction calls generalizing r with
  | nil => exact .nil r
  | cons call calls ih =>
      simp only [acceptsAll, Bool.and_eq_true] at h
      cases hassign : r.assign 0 call.1 call.2 with
      | mk status r' =>
          rw [hassign] at h
          cases status with
          | error e => cases h.1
          | ok generation =>
              simp only [publishAll, hassign]
              exact .cons hassign (ih h.2)

theorem publication_order_irrelevant_two :
    ∃ r, Published r twoCalls (publishAll r twoCalls) ∧
      Published r twoCalls.reverse (publishAll r twoCalls.reverse) ∧ ∀ query,
        essence (evaluateQuery (publishAll r twoCalls.reverse).image query) =
          essence (evaluateQuery (publishAll r twoCalls).image query) := by
  obtain ⟨opened, hopen⟩ := openStore_empty
  have haccepted : (match openStore ∅ creating zeroKey with
      | .ok opened =>
          let r := prepared (startRuntime creatingRuntime opened)
          acceptsAll r twoCalls && acceptsAll r twoCalls.reverse &&
            r.image.assignments.isEmpty
      | .error _ => false) = true := by decide +kernel
  rw [hopen] at haccepted
  simp only [Bool.and_eq_true] at haccepted
  obtain ⟨⟨hforward, hbackward⟩, hempty⟩ := haccepted
  refine ⟨_, published_of_acceptsAll hforward, published_of_acceptsAll hbackward, ?_⟩
  intro query
  refine publication_order_irrelevant (List.reverse_perm twoCalls).symm (by decide) ?_
    (published_of_acceptsAll hforward) (published_of_acceptsAll hbackward) query
  intro call hcall
  rw [Std.ExtTreeMap.isEmpty_iff] at hempty
  rw [hempty]
  exact Std.ExtTreeMap.getElem?_empty

end PriorityFabric.Commuting
