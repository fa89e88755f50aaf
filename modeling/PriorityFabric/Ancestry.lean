import PriorityFabric.Inheritance

/-!
The breadth-first walk over the parents of a subject lists every ancestor at its
distance, or gives up for one of three reasons.
-/

namespace PriorityFabric.Ancestry

open Relation
open PriorityFabric.Lib.LittleEndian
open PriorityFabric.Lib.Walks
open PriorityFabric.Basics
open PriorityFabric.Ident
open PriorityFabric.Model
open PriorityFabric.State
open PriorityFabric.Inheritance

variable {image : StateImage} {id : SubjectId}

/-- The walk came to an ancestor that is too far away. -/
def tooDeep (image : StateImage) (id : SubjectId) : Status :=
  makeError .limitExceeded
    (text "subject '" ++ id.value ++ text "' has an inheritance chain deeper than " ++
      decimal image.limits.maxInheritanceDepth)

/-- The walk came to more ancestors than a query may look at. -/
def tooMany (image : StateImage) (id : SubjectId) : Status :=
  makeError .limitExceeded
    (text "subject '" ++ id.value ++ text "' has more than " ++
      decimal image.limits.maxQuerySteps ++ text " ancestors")

/-- The level after a new entry was recorded. -/
def recorded (level : AncestorLevel) (entry : SubjectId × Nat) (parents : List SubjectId) :
    AncestorLevel where
  seen := entry.1 :: level.seen
  out := level.out ++ [entry]
  next := level.next ++ parents.map (·, entry.2 + 1)

/-- What a step of the walk can do. -/
inductive Stepped (image : StateImage) (id : SubjectId) (level : AncestorLevel)
    (entry : SubjectId × Nat) : Result AncestorLevel → Prop
  | known (hseen : entry.1 ∈ level.seen) : Stepped image id level entry (.ok level)
  | deep (hnew : entry.1 ∉ level.seen) (hdepth : image.limits.maxInheritanceDepth < entry.2) :
      Stepped image id level entry (.error (tooDeep image id))
  | undefined (hnew : entry.1 ∉ level.seen) (hnode : image.subjects[entry.1]? = none)
      (status : Status) : Stepped image id level entry (.error status)
  | many (hnew : entry.1 ∉ level.seen)
      (hcount : image.limits.maxQuerySteps < level.out.length + 1) :
      Stepped image id level entry (.error (tooMany image id))
  | listed (hnew : entry.1 ∉ level.seen)
      (hdepth : entry.2 ≤ image.limits.maxInheritanceDepth)
      (hcount : level.out.length + 1 ≤ image.limits.maxQuerySteps) :
      Stepped image id level entry (.ok (recorded level entry (subjectParents image entry.1)))

theorem stepped_ancestorStep (image : StateImage) (id : SubjectId) (level : AncestorLevel)
    (entry : SubjectId × Nat) :
    Stepped image id level entry (ancestorStep image id level entry) := by
  unfold ancestorStep
  split
  · rename_i hseen
    exact .known hseen
  · rename_i hnew
    by_cases hdepth : entry.2 > image.limits.maxInheritanceDepth
    · rw [failIf, if_pos hdepth]
      exact .deep hnew hdepth
    · rw [failIf, if_neg hdepth]
      cases hnode : image.subjects[entry.1]? with
      | none => exact .undefined hnew hnode _
      | some node =>
          have hparents : subjectParents image entry.1 = node.definition.inheritsFrom := by
            simp [subjectParents, hnode]
          by_cases hcount : (level.out ++ [entry]).length > image.limits.maxQuerySteps
          · simp only [failIf, if_pos hcount]
            exact .many hnew (by simpa using hcount)
          · simp only [failIf, if_neg hcount]
            have hlisted : Stepped image id level entry
                (.ok (recorded level entry (subjectParents image entry.1))) :=
              .listed hnew (Nat.le_of_not_gt hdepth) (by simpa using hcount)
            rw [recorded, hparents] at hlisted
            exact hlisted

/-- The walk at distance `n`, with `rest` of the frontier still to do: what is nearer was
seen, what was seen is listed at its distance, and nothing between is forgotten. -/
structure LevelAt (image : StateImage) (id : SubjectId) (n : Nat) (level : AncestorLevel)
    (rest : List (SubjectId × Nat)) : Prop where
  start : id ∈ level.seen
  near : ∀ m y, m < n → Hops (SubjectEdge image) m id y → y ∈ level.seen
  here : ∀ y, Hops (SubjectEdge image) n id y → y ∈ level.seen ∨ y ∈ rest.map (·.1)
  listed : ∀ y, y ∈ level.seen → y = id ∨ ∃ m, (y, m) ∈ level.out
  out : ∀ entry ∈ level.out, entry.1 ≠ id ∧
    entry.2 ≤ image.limits.maxInheritanceDepth ∧
    Distance (SubjectEdge image) entry.2 id entry.1
  outSeen : ∀ entry ∈ level.out, entry.1 ∈ level.seen
  distinct : (level.out.map (·.1)).Nodup
  expanded : ∀ z ∈ level.seen, ∀ y, SubjectEdge image z y →
    y ∈ level.seen ∨ y ∈ rest.map (·.1) ∨ y ∈ level.next.map (·.1)
  rest : ∀ entry ∈ rest, entry.2 = n ∧ Hops (SubjectEdge image) n id entry.1
  next : ∀ entry ∈ level.next, entry.2 = n + 1 ∧
    Hops (SubjectEdge image) (n + 1) id entry.1

section Level

variable {n : Nat} {level : AncestorLevel} {entry : SubjectId × Nat}
  {rest : List (SubjectId × Nat)}

theorem LevelAt.skip (h : LevelAt image id n level (entry :: rest))
    (hseen : entry.1 ∈ level.seen) : LevelAt image id n level rest := by
  refine { h with here := ?_, expanded := ?_, rest := ?_ }
  · intro y hy
    rcases h.here y hy with hold | hmem
    · exact .inl hold
    · rcases List.mem_cons.mp hmem with rfl | hmem
      · exact .inl hseen
      · exact .inr hmem
  · intro z hz y hy
    rcases h.expanded z hz y hy with hold | hmem | hnext
    · exact .inl hold
    · rcases List.mem_cons.mp hmem with rfl | hmem
      · exact .inl hseen
      · exact .inr (.inl hmem)
    · exact .inr (.inr hnext)
  · exact fun found hfound => h.rest found (List.mem_cons_of_mem _ hfound)

theorem LevelAt.distinct_record (h : LevelAt image id n level rest)
    (hnew : entry.1 ∉ level.seen) : ((level.out ++ [entry]).map (·.1)).Nodup := by
  rw [List.map_append, List.map_singleton, ← List.concat_eq_append]
  refine h.distinct.concat fun hmem => ?_
  obtain ⟨found, hfound, heq⟩ := List.mem_map.mp hmem
  exact hnew (heq ▸ h.outSeen found hfound)

theorem LevelAt.record (h : LevelAt image id n level (entry :: rest))
    (hnew : entry.1 ∉ level.seen) (hdepth : entry.2 ≤ image.limits.maxInheritanceDepth) :
    LevelAt image id n (recorded level entry (subjectParents image entry.1)) rest := by
  obtain ⟨hdistance, hhops⟩ := h.rest entry List.mem_cons_self
  constructor
  · exact List.mem_cons_of_mem _ h.start
  · exact fun m y hm hy => List.mem_cons_of_mem _ (h.near m y hm hy)
  · intro y hy
    rcases h.here y hy with hold | hmem
    · exact .inl (List.mem_cons_of_mem _ hold)
    · rcases List.mem_cons.mp hmem with rfl | hmem
      · exact .inl List.mem_cons_self
      · exact .inr hmem
  · intro y hy
    rcases List.mem_cons.mp hy with rfl | hy
    · exact .inr ⟨entry.2, List.mem_append_right _ List.mem_cons_self⟩
    · rcases h.listed y hy with rfl | ⟨m, hm⟩
      · exact .inl rfl
      · exact .inr ⟨m, List.mem_append_left _ hm⟩
  · intro found hfound
    rcases List.mem_append.mp hfound with hold | hlast
    · exact h.out found hold
    · obtain rfl := List.mem_singleton.mp hlast
      refine ⟨fun heq => hnew (heq ▸ h.start), hdepth, ?_, ?_⟩
      · rw [hdistance]
        exact hhops
      · intro m hm hy
        exact hnew (h.near m found.1 (hdistance ▸ hm) hy)
  · intro found hfound
    rcases List.mem_append.mp hfound with hold | hlast
    · exact List.mem_cons_of_mem _ (h.outSeen found hold)
    · obtain rfl := List.mem_singleton.mp hlast
      exact List.mem_cons_self
  · exact h.distinct_record hnew
  · intro z hz y hy
    rcases List.mem_cons.mp hz with rfl | hz
    · refine .inr (.inr ?_)
      simp only [recorded, List.map_append, List.map_map, List.mem_append, List.mem_map]
      exact .inr ⟨y, hy, rfl⟩
    · rcases h.expanded z hz y hy with hold | hmem | hnext
      · exact .inl (List.mem_cons_of_mem _ hold)
      · rcases List.mem_cons.mp hmem with rfl | hmem
        · exact .inl List.mem_cons_self
        · exact .inr (.inl hmem)
      · refine .inr (.inr ?_)
        rw [recorded, List.map_append]
        exact List.mem_append_left _ hnext
  · exact fun found hfound => h.rest found (List.mem_cons_of_mem _ hfound)
  · intro found hfound
    rcases List.mem_append.mp hfound with hold | hparent
    · exact h.next found hold
    · obtain ⟨parent, hmem, rfl⟩ := List.mem_map.mp hparent
      exact ⟨by rw [hdistance], hhops.tail hmem⟩

theorem LevelAt.fold {level' : AncestorLevel} (h : LevelAt image id n level rest)
    (hfold : rest.foldlM (ancestorStep image id) level = .ok level') :
    LevelAt image id n level' [] := by
  induction rest generalizing level with
  | nil =>
      cases hfold
      exact h
  | cons entry rest ih =>
      rw [List.foldlM_cons, bind_eq_ok] at hfold
      obtain ⟨mid, hmid, hrest⟩ := hfold
      have hstep := stepped_ancestorStep image id level entry
      rw [hmid] at hstep
      cases hstep with
      | known hseen => exact ih (h.skip hseen) hrest
      | listed hnew hdepth hcount => exact ih (h.record hnew hdepth) hrest

theorem LevelAt.advance (h : LevelAt image id n level []) :
    LevelAt image id (n + 1) { seen := level.seen, out := level.out } level.next := by
  refine ⟨h.start, ?_, ?_, h.listed, h.out, h.outSeen, h.distinct, ?_, h.next, by simp⟩
  · intro m y hm hy
    rcases Nat.lt_succ_iff_lt_or_eq.mp hm with hlt | rfl
    · exact h.near m y hlt hy
    · simpa using h.here y hy
  · intro y hy
    obtain ⟨z, hz, hedge⟩ := hy.last
    have hseen : z ∈ level.seen := by simpa using h.here z hz
    simpa using h.expanded z hseen y hedge
  · intro z hz y hy
    have hexpanded := h.expanded z hz y hy
    simp only [List.map_nil, List.not_mem_nil, false_or] at hexpanded
    rcases hexpanded with hold | hnext
    · exact .inl hold
    · exact .inr (.inl hnext)

/-- Everything is in reach, and defined. -/
structure InReach (image : StateImage) (id : SubjectId) : Prop where
  shallow : ∀ n y, Hops (SubjectEdge image) n id y →
    ∃ m ≤ image.limits.maxInheritanceDepth, Hops (SubjectEdge image) m id y
  defined : ∀ n y, Hops (SubjectEdge image) (n + 1) id y → y ∈ image.subjects

/-- The subject has more ancestors than a query may look at. -/
def Crowded (image : StateImage) (id : SubjectId) : Prop :=
  ∃ ancestors : List SubjectId, ancestors.Nodup ∧
    (∀ ancestor ∈ ancestors, ∃ m, Hops (SubjectEdge image) (m + 1) id ancestor) ∧
    image.limits.maxQuerySteps < ancestors.length

/-- More than a query may look at are ancestors beside the subject itself. -/
def Outnumbered (image : StateImage) (id : SubjectId) : Prop :=
  ∃ ancestors : List SubjectId, ancestors.Nodup ∧
    (∀ ancestor ∈ ancestors, ancestor ≠ id ∧ ∃ m, Hops (SubjectEdge image) (m + 1) id ancestor) ∧
    image.limits.maxQuerySteps < ancestors.length

theorem Outnumbered.crowded (h : Outnumbered image id) : Crowded image id := by
  obtain ⟨ancestors, hnodup, hancestors, hcount⟩ := h
  exact ⟨ancestors, hnodup, fun ancestor hmem => (hancestors ancestor hmem).2, hcount⟩

theorem LevelAt.outnumbered (h : LevelAt image id (n + 1) level (entry :: rest))
    (hnew : entry.1 ∉ level.seen)
    (hcount : image.limits.maxQuerySteps < level.out.length + 1) : Outnumbered image id := by
  refine ⟨(level.out ++ [entry]).map (·.1), h.distinct_record hnew, ?_, by simpa using hcount⟩
  intro ancestor hancestor
  obtain ⟨found, hfound, rfl⟩ := List.mem_map.mp hancestor
  rcases List.mem_append.mp hfound with hold | hlast
  · obtain ⟨hne, -, hdistance⟩ := h.out found hold
    refine ⟨hne, ?_⟩
    cases hm : found.2 with
    | zero =>
        rw [hm] at hdistance
        exact absurd hdistance.1.symm hne
    | succ m =>
        rw [hm] at hdistance
        exact ⟨m, hdistance.1⟩
  · obtain rfl := List.mem_singleton.mp hlast
    exact ⟨fun heq => hnew (heq ▸ h.start), n, (h.rest found List.mem_cons_self).2⟩

theorem LevelAt.fold_error (hreach : InReach image id) {e : Status}
    (h : LevelAt image id (n + 1) level rest)
    (hfold : rest.foldlM (ancestorStep image id) level = .error e) :
    e = tooMany image id ∧ Outnumbered image id := by
  induction rest generalizing level with
  | nil => cases hfold
  | cons entry rest ih =>
      obtain ⟨hdistance, hhops⟩ := h.rest entry List.mem_cons_self
      rw [List.foldlM_cons] at hfold
      have hstep := stepped_ancestorStep image id level entry
      cases hmid : ancestorStep image id level entry with
      | error status =>
          rw [hmid] at hfold hstep
          cases hfold
          cases hstep with
          | deep hnew hdepth =>
              obtain ⟨m, hm, hy⟩ := hreach.shallow _ _ hhops
              exact absurd (h.near m entry.1 (by omega) hy) hnew
          | undefined hnew hnode =>
              have hmem := hreach.defined n entry.1 hhops
              rw [Std.ExtTreeMap.mem_iff_contains,
                Std.ExtTreeMap.contains_eq_isSome_getElem?, hnode] at hmem
              cases hmem
          | many hnew hcount => exact ⟨rfl, h.outnumbered hnew hcount⟩
      | ok mid =>
          rw [hmid] at hfold hstep
          cases hstep with
          | known hseen => exact ih (h.skip hseen) hfold
          | listed hnew hdepth hcount => exact ih (h.record hnew hdepth) hfold

end Level

theorem levelAt_start (image : StateImage) (id : SubjectId) :
    LevelAt image id 1 { seen := [id], out := [] }
      ((subjectParents image id).map (·, 1)) := by
  refine ⟨by simp, ?_, ?_, by simp, by simp, by simp, by simp, ?_, ?_, by simp⟩
  · intro m y hm hy
    obtain rfl : m = 0 := by omega
    obtain rfl := hy
    simp
  · rintro y ⟨z, hz, rfl⟩
    refine .inr ?_
    simp only [List.map_map, List.mem_map]
    exact ⟨z, hz, rfl⟩
  · intro z hz y hy
    obtain rfl := List.mem_singleton.mp hz
    refine .inr (.inl ?_)
    simp only [List.map_map, List.mem_map]
    exact ⟨y, hy, rfl⟩
  · intro entry hentry
    obtain ⟨parent, hmem, rfl⟩ := List.mem_map.mp hentry
    exact ⟨rfl, parent, hmem, rfl⟩

/-- The list of all ancestors, each at its distance. -/
def Complete (image : StateImage) (id : SubjectId) (out : List (SubjectId × Nat)) : Prop :=
  ∀ y m, (y, m) ∈ out ↔ y ≠ id ∧ Distance (SubjectEdge image) m id y

theorem complete_of_seen {n : Nat} {level : AncestorLevel} {rest : List (SubjectId × Nat)}
    (h : LevelAt image id n level rest)
    (hseen : ∀ m y, Hops (SubjectEdge image) m id y → y ∈ level.seen) :
    Complete image id level.out := by
  intro y m
  constructor
  · intro hmem
    exact ⟨(h.out _ hmem).1, (h.out _ hmem).2.2⟩
  · rintro ⟨hne, hdistance⟩
    rcases h.listed y (hseen m y hdistance.1) with rfl | ⟨m', hm'⟩
    · exact absurd rfl hne
    · rw [hdistance.unique (h.out _ hm').2.2]
      exact hm'

theorem seen_of_empty {n : Nat} {level : AncestorLevel} (h : LevelAt image id n level [])
    (hnext : level.next = []) (m : Nat) (y : SubjectId)
    (hy : Hops (SubjectEdge image) m id y) : y ∈ level.seen := by
  induction m generalizing y with
  | zero =>
      obtain rfl := hy
      exact h.start
  | succ m ih =>
      obtain ⟨z, hz, hedge⟩ := hy.last
      simpa [hnext] using h.expanded z (ih z hz) y hedge

theorem seen_of_far {n : Nat} {level : AncestorLevel} {rest : List (SubjectId × Nat)}
    (h : LevelAt image id n level rest) (hfar : image.limits.maxInheritanceDepth + 2 ≤ n)
    (m : Nat) (y : SubjectId) (hy : Hops (SubjectEdge image) m id y) : y ∈ level.seen := by
  induction m generalizing y with
  | zero =>
      obtain rfl := hy
      exact h.start
  | succ m ih =>
      obtain ⟨z, hz, hedge⟩ := hy.last
      rcases h.listed z (ih z hz) with rfl | ⟨d, hd⟩
      · exact h.near 1 y (by omega) ⟨y, hedge, rfl⟩
      · obtain ⟨-, hdepth, hdistance⟩ := h.out _ hd
        exact h.near (d + 1) y (by simp only at hdepth; omega) (hdistance.1.tail hedge)

/-- A walk that comes to its end ends at a level from which there is nothing new to see. -/
theorem ancestorLoop_level {fuel n : Nat} {seen : List SubjectId}
    {out frontier result : List (SubjectId × Nat)}
    (h : LevelAt image id n { seen, out } frontier)
    (hfuel : image.limits.maxInheritanceDepth + 2 ≤ n + fuel)
    (hloop : ancestorLoop image id fuel seen out frontier = .ok result) :
    ∃ last level rest, LevelAt image id last level rest ∧ level.out = result ∧
      ∀ m y, Hops (SubjectEdge image) m id y → y ∈ level.seen := by
  induction fuel generalizing n seen out frontier with
  | zero =>
      cases hloop
      exact ⟨_, _, _, h, rfl, seen_of_far h hfuel⟩
  | succ fuel ih =>
      cases frontier with
      | nil =>
          cases hloop
          exact ⟨_, _, _, h, rfl, seen_of_empty h rfl⟩
      | cons entry rest =>
          rw [ancestorLoop, bind_eq_ok] at hloop
          obtain ⟨level, hfold, hrest⟩ := hloop
          exact ih (h.fold hfold).advance (by omega) hrest

theorem ancestorLoop_error (hreach : InReach image id) {fuel n : Nat} {seen : List SubjectId}
    {out frontier : List (SubjectId × Nat)} {e : Status}
    (h : LevelAt image id (n + 1) { seen, out } frontier)
    (hloop : ancestorLoop image id fuel seen out frontier = .error e) :
    e = tooMany image id ∧ Outnumbered image id := by
  induction fuel generalizing n seen out frontier with
  | zero => cases hloop
  | succ fuel ih =>
      cases frontier with
      | nil => cases hloop
      | cons entry rest =>
          rw [ancestorLoop] at hloop
          cases hfold : (entry :: rest).foldlM (ancestorStep image id) { seen, out } with
          | error status =>
              rw [hfold] at hloop
              cases hloop
              exact h.fold_error hreach hfold
          | ok level =>
              rw [hfold] at hloop
              exact ih (h.fold hfold).advance hloop

theorem subjectAncestors_eq_ok {ancestors : List (SubjectId × Nat)}
    (h : subjectAncestors image id = .ok ancestors) :
    id ∈ image.subjects ∧ ∃ out,
      ancestorLoop image id (image.limits.maxInheritanceDepth + 2) [id] []
        ((subjectParents image id).map (·, 1)) = .ok out ∧
      ancestors = out.mergeSort fun a b =>
        a.2 < b.2 || (a.2 == b.2 && (compare a.1 b.1).isLE) := by
  unfold subjectAncestors at h
  cases hroot : image.subjects[id]? with
  | none => simp [hroot] at h
  | some root =>
      simp only [hroot, bind_eq_ok, pure, Except.pure, Except.ok.injEq] at h
      obtain ⟨out, hloop, rfl⟩ := h
      refine ⟨?_, out, ?_, rfl⟩
      · rw [Std.ExtTreeMap.mem_iff_contains, Std.ExtTreeMap.contains_eq_isSome_getElem?, hroot]
        rfl
      · simpa only [subjectParents, hroot, Option.map_some, Option.getD_some] using hloop

theorem subjectAncestors_complete {ancestors : List (SubjectId × Nat)}
    (h : subjectAncestors image id = .ok ancestors) : Complete image id ancestors := by
  obtain ⟨-, out, hloop, rfl⟩ := subjectAncestors_eq_ok h
  obtain ⟨last, level, rest, hlevel, rfl, hseen⟩ :=
    ancestorLoop_level (levelAt_start image id) (by omega) hloop
  intro y m
  rw [List.mem_mergeSort]
  exact complete_of_seen hlevel hseen y m

/-- In reach, a defined subject has its ancestors listed unless there are too many. -/
theorem subjectAncestors_error (hreach : InReach image id) {e : Status}
    (hdefined : id ∈ image.subjects) (h : subjectAncestors image id = .error e) :
    e = tooMany image id ∧ Outnumbered image id := by
  have hroot := Std.ExtTreeMap.getElem?_eq_some_getElem hdefined
  unfold subjectAncestors at h
  simp only [hroot] at h
  have hstart := levelAt_start image id
  simp only [subjectParents, hroot, Option.map_some, Option.getD_some] at hstart
  cases hloop : ancestorLoop image id (image.limits.maxInheritanceDepth + 2) [id] []
      (image.subjects[id].definition.inheritsFrom.map (·, 1)) with
  | error status =>
      rw [hloop] at h
      cases h
      exact ancestorLoop_error hreach hstart hloop
  | ok out =>
      rw [hloop] at h
      cases h

end PriorityFabric.Ancestry
