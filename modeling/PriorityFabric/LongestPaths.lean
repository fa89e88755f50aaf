import PriorityFabric.Inheritance

/-!
The depth of a class is the length of its longest way up.

`classDepth` walks the inheritance graph with a stack of its own, whatever the
parent lists say.  Every depth it records is final: a failure mark stands for a
class that has no depth, on a cycle, a dangling chain or a chain beyond the limit.
-/

namespace PriorityFabric.LongestPaths

open Relation
open PriorityFabric.Lib.Walks
open PriorityFabric.Basics
open PriorityFabric.Ident
open PriorityFabric.Model
open PriorityFabric.State
open PriorityFabric.Inheritance

/-- Every way up from the class leads through registered classes and is within the limit;
the longest has `d` steps. -/
structure Rooted (image : StateImage) (cls : PriorityClassId) (d : Nat) : Prop where
  known : ∀ y, ReflTransGen (ClassEdge image) cls y → y ∈ image.classes
  longest : Longest (ClassEdge image) d cls
  within : d ≤ image.limits.maxInheritanceDepth

section Rooted

variable {image : StateImage} {cls parent : PriorityClassId} {d : Nat}

theorem Rooted.upward (h : Rooted image cls d) (hedge : ClassEdge image cls parent) :
    ∃ e, Rooted image parent e ∧ e + 1 ≤ d := by
  have hone (n : Nat) (y : PriorityClassId) (hwalk : Hops (ClassEdge image) n parent y) :
      n + 1 ≤ d := h.longest.2 (n + 1) y ⟨parent, hedge, hwalk⟩
  have hpositive := hone 0 parent rfl
  have hwithin := h.within
  have hbound (n : Nat) (y : PriorityClassId) (hwalk : Hops (ClassEdge image) n parent y) :
      n ≤ d - 1 := Nat.le_sub_one_of_lt (hone n y hwalk)
  obtain ⟨e, he, hlongest⟩ := exists_longest hbound
  exact ⟨e, ⟨fun y hy => h.known y (.head hedge hy), hlongest, by omega⟩, by omega⟩

theorem rooted_of_parents (hdefined : cls ∈ image.classes)
    (hparents : ∀ parent, ClassEdge image cls parent → ∃ e, Rooted image parent e ∧ e + 1 ≤ d)
    (hreached : d = 0 ∨ ∃ parent e, ClassEdge image cls parent ∧ Rooted image parent e ∧
      d = e + 1)
    (hwithin : d ≤ image.limits.maxInheritanceDepth) : Rooted image cls d := by
  refine ⟨fun y hy => ?_, ⟨?_, fun m y hwalk => ?_⟩, hwithin⟩
  · rcases hy.cases_head with rfl | ⟨parent, hedge, hrest⟩
    · exact hdefined
    · obtain ⟨e, hrooted, -⟩ := hparents parent hedge
      exact hrooted.known y hrest
  · rcases hreached with rfl | ⟨parent, e, hedge, hrooted, rfl⟩
    · exact ⟨cls, rfl⟩
    · obtain ⟨y, hy⟩ := hrooted.longest.1
      exact ⟨y, parent, hedge, hy⟩
  · cases m with
    | zero => exact Nat.zero_le d
    | succ m =>
        obtain ⟨parent, hedge, hrest⟩ := hwalk
        obtain ⟨e, hrooted, hle⟩ := hparents parent hedge
        have := hrooted.longest.2 m y hrest
        omega

theorem not_rooted_of_cycle (h : TransGen (ClassEdge image) cls cls) (n : Nat) :
    ¬ Rooted image cls n :=
  fun hrooted => not_cycle_of_bounded hrooted.longest.2 .refl h

end Rooted

def Judged (image : StateImage) (cls : PriorityClassId) (d : Int) : Prop :=
  (0 ≤ d ∧ Rooted image cls d.toNat) ∨ (d < 0 ∧ ∀ n, ¬ Rooted image cls n)

/-- One more than the depth of the deepest parent, or the mark of a parent without depth. -/
theorem settledDepth_cases {image : StateImage}
    {depth : Std.ExtTreeMap PriorityClassId Int} {parents : List PriorityClassId}
    (hparents : ∀ parent ∈ parents, ∃ d, depth[parent]? = some d ∧ Judged image parent d)
    (best : Nat) :
    (∃ r : Nat, settledDepth depth best parents = r ∧ best ≤ r ∧
        (∀ parent ∈ parents, ∃ e, Rooted image parent e ∧ e + 1 ≤ r) ∧
        (r = best ∨ ∃ parent ∈ parents, ∃ e, Rooted image parent e ∧ r = e + 1)) ∨
      (settledDepth depth best parents = -1 ∧
        ∃ parent ∈ parents, ∀ n, ¬ Rooted image parent n) := by
  induction parents generalizing best with
  | nil => exact .inl ⟨best, rfl, le_refl _, by simp, .inl rfl⟩
  | cons parent rest ih =>
      obtain ⟨d, hd, hjudged⟩ := hparents parent List.mem_cons_self
      simp only [settledDepth, hd]
      rcases hjudged with ⟨hpos, hrooted⟩ | ⟨hneg, hbad⟩
      · rw [if_neg (by omega)]
        have hmax : max (best : Int) (d + 1) = (max best (d.toNat + 1) : Nat) := by omega
        rw [hmax]
        rcases ih (fun other hother => hparents other (List.mem_cons_of_mem _ hother))
            (max best (d.toNat + 1)) with
          ⟨r, hr, hle, hall, hreached⟩ | ⟨hr, other, hother, hbad⟩
        · refine .inl ⟨r, hr, (le_max_left _ _).trans hle, fun other hother => ?_, ?_⟩
          · rcases List.mem_cons.mp hother with rfl | hother
            · exact ⟨d.toNat, hrooted, (le_max_right _ _).trans hle⟩
            · exact hall other hother
          · rcases hreached with heq | ⟨other, hother, e, he, heq⟩
            · rcases max_choice best (d.toNat + 1) with hchoice | hchoice
              · exact .inl (heq.trans hchoice)
              · exact .inr ⟨parent, List.mem_cons_self, _, hrooted, heq.trans hchoice⟩
            · exact .inr ⟨other, List.mem_cons_of_mem _ hother, e, he, heq⟩
        · exact .inr ⟨hr, other, List.mem_cons_of_mem _ hother, hbad⟩
      · rw [if_pos hneg]
        exact .inr ⟨rfl, parent, List.mem_cons_self, hbad⟩

theorem judged_settledDepth {image : StateImage} {cls : PriorityClassId}
    {depth : Std.ExtTreeMap PriorityClassId Int} (hdefined : cls ∈ image.classes)
    (hparents : ∀ parent ∈ classParents image cls,
      ∃ d, depth[parent]? = some d ∧ Judged image parent d) :
    Judged image cls
      (if settledDepth depth 0 (classParents image cls) ≥ 0 ∧
          settledDepth depth 0 (classParents image cls) > image.limits.maxInheritanceDepth then
        -1 else settledDepth depth 0 (classParents image cls)) := by
  rcases settledDepth_cases hparents 0 with
    ⟨r, hr, -, hall, hreached⟩ | ⟨hr, parent, hparent, hbad⟩
  · rw [Nat.cast_zero] at hr
    rw [hr]
    by_cases hdeep : (r : Int) > image.limits.maxInheritanceDepth
    · rw [if_pos ⟨by omega, hdeep⟩]
      refine .inr ⟨by omega, fun n hrooted => ?_⟩
      rcases hreached with rfl | ⟨parent, hparent, e, he, rfl⟩
      · omega
      · obtain ⟨y, hy⟩ := he.longest.1
        have hle := hrooted.longest.2 (e + 1) y ⟨parent, hparent, hy⟩
        have hwithin := hrooted.within
        omega
    · rw [if_neg fun h => hdeep h.2]
      refine .inl ⟨by omega, ?_⟩
      rw [Int.toNat_natCast]
      refine rooted_of_parents hdefined hall ?_ (by omega)
      rcases hreached with rfl | ⟨parent, hparent, e, he, heq⟩
      · exact .inl rfl
      · exact .inr ⟨parent, e, hparent, he, heq⟩
  · rw [Nat.cast_zero] at hr
    rw [hr, if_neg (by omega)]
    refine .inr ⟨by omega, fun n hrooted => ?_⟩
    obtain ⟨e, he, -⟩ := hrooted.upward hparent
    exact hbad e he

/-- The parents of every class under expansion have a depth, or stand above it. -/
def Covered (image : StateImage) (depth : Std.ExtTreeMap PriorityClassId Int) :
    (upper : List PriorityClassId) → List (PriorityClassId × Bool) → Prop
  | _, [] => True
  | upper, (cls, expanded) :: rest =>
      (expanded = true → ∀ parent, ClassEdge image cls parent →
        parent ∈ depth ∨ parent ∈ upper) ∧ Covered image depth (cls :: upper) rest

theorem Covered.mono {image : StateImage} {depth depth' : Std.ExtTreeMap PriorityClassId Int}
    {upper upper' : List PriorityClassId} {stack : List (PriorityClassId × Bool)}
    (h : Covered image depth upper stack) (hdepth : ∀ cls, cls ∈ depth → cls ∈ depth')
    (hupper : ∀ cls ∈ upper, cls ∈ depth' ∨ cls ∈ upper') :
    Covered image depth' upper' stack := by
  induction stack generalizing upper upper' with
  | nil => trivial
  | cons entry rest ih =>
      refine ⟨fun hexpanded parent hedge => ?_, ih h.2 fun cls hcls => ?_⟩
      · rcases h.1 hexpanded parent hedge with hold | hmem
        · exact .inl (hdepth parent hold)
        · exact hupper parent hmem
      · rcases List.mem_cons.mp hcls with rfl | hcls
        · exact .inr List.mem_cons_self
        · rcases hupper cls hcls with hold | hmem
          · exact .inl hold
          · exact .inr (List.mem_cons_of_mem _ hmem)

theorem covered_append {image : StateImage} {depth : Std.ExtTreeMap PriorityClassId Int}
    {upper fresh : List PriorityClassId} {stack : List (PriorityClassId × Bool)}
    (h : Covered image depth (fresh.reverse ++ upper) stack) :
    Covered image depth upper (fresh.map (·, false) ++ stack) := by
  induction fresh generalizing upper with
  | nil => exact h
  | cons first rest ih =>
      refine ⟨fun hexpanded => Bool.noConfusion hexpanded, ih ?_⟩
      rw [List.reverse_cons, List.append_assoc] at h
      exact h

/-- The classes a walk can come to: those that are registered, and beside them the class it
starts from and the parents that are listed somewhere. -/
def nodes (image : StateImage) (id : PriorityClassId) : Finset PriorityClassId :=
  nodesOf image.classes ∪ insert id ((nodesOf image.classes).biUnion fun cls =>
    (classParents image cls).toFinset) \ nodesOf image.classes

/-- The walk of `classDepth`, under way. -/
structure Walking (image : StateImage) (id : PriorityClassId) (walk : DepthWalk) : Prop where
  judged : ∀ cls d, walk.depth[cls]? = some d → Judged image cls d
  busy : ∀ cls ∈ walk.inProgress, (cls, true) ∈ walk.stack ∨ cls ∈ walk.depth
  above : walk.stack.Pairwise fun upper lower =>
    lower.2 = true → TransGen (ClassEdge image) lower.1 upper.1
  covered : Covered image walk.depth [] walk.stack
  inside : ∀ entry ∈ walk.stack, entry.1 ∈ nodes image id
  goal : id ∈ walk.depth ∨ id ∈ walk.stack.map (·.1)

def unexpanded (image : StateImage) (id : PriorityClassId) (walk : DepthWalk) :
    Finset PriorityClassId :=
  (nodes image id).filter fun cls => cls ∉ walk.depth ∧ cls ∉ walk.inProgress

def toPop (image : StateImage) (id : PriorityClassId) (walk : DepthWalk) : Nat :=
  walk.stack.length + ∑ cls ∈ unexpanded image id walk, (1 + (classParents image cls).length)

section Walk

variable {image : StateImage} {id current : PriorityClassId} {walk : DepthWalk}
  {stack : List (PriorityClassId × Bool)} {expanded : Bool}

theorem mem_nodes_of_edge {cls parent : PriorityClassId} (h : ClassEdge image cls parent) :
    parent ∈ nodes image id := by
  have hcls : cls ∈ nodesOf image.classes := by
    rw [mem_nodesOf]
    by_contra hnot
    simp [ClassEdge, classParents, Std.ExtTreeMap.getElem?_eq_none hnot] at h
  by_cases hparent : parent ∈ nodesOf image.classes
  · exact Finset.mem_union_left _ hparent
  · refine Finset.mem_union_right _ (Finset.mem_sdiff.mpr ⟨?_, hparent⟩)
    refine Finset.mem_insert_of_mem (Finset.mem_biUnion.mpr ⟨cls, hcls, ?_⟩)
    exact List.mem_toFinset.mpr h

theorem Walking.skip (h : Walking image id { walk with stack := (current, false) :: stack })
    (hknown : current ∈ walk.depth) : Walking image id { walk with stack } := by
  refine ⟨h.judged, ?_, h.above.tail, ?_, ?_, ?_⟩
  · intro cls hcls
    rcases h.busy cls hcls with hmem | hdepth
    · rcases List.mem_cons.mp hmem with heq | hmem
      · cases heq
      · exact .inl hmem
    · exact .inr hdepth
  · refine h.covered.2.mono (fun _ hcls => hcls) fun cls hcls => ?_
    obtain rfl := List.mem_singleton.mp hcls
    exact .inl hknown
  · exact fun entry hentry => h.inside entry (List.mem_cons_of_mem _ hentry)
  · rcases h.goal with hdepth | hmem
    · exact .inl hdepth
    · rcases List.mem_cons.mp hmem with rfl | hmem
      · exact .inl hknown
      · exact .inr hmem

theorem Walking.settle
    (h : Walking image id { walk with stack := (current, expanded) :: stack })
    {d : Int} (hd : Judged image current d) {inProgress : List PriorityClassId}
    (hsubset : inProgress ⊆ walk.inProgress) :
    Walking image id { depth := walk.depth.insert current d, inProgress, stack } := by
  have hgrown (cls : PriorityClassId) (hcls : cls ∈ walk.depth) :
      cls ∈ walk.depth.insert current d := Std.ExtTreeMap.mem_insert.mpr (.inr hcls)
  have hself : current ∈ walk.depth.insert current d := Std.ExtTreeMap.mem_insert_self
  refine ⟨?_, ?_, h.above.tail, ?_, ?_, ?_⟩
  · intro cls found hfound
    rw [Std.ExtTreeMap.getElem?_insert] at hfound
    split at hfound
    · rename_i heq
      obtain rfl := Std.LawfulEqOrd.eq_of_compare heq
      cases hfound
      exact hd
    · exact h.judged cls found hfound
  · intro cls hcls
    rcases h.busy cls (hsubset hcls) with hmem | hdepth
    · rcases List.mem_cons.mp hmem with heq | hmem
      · cases heq
        exact .inr hself
      · exact .inl hmem
    · exact .inr (hgrown cls hdepth)
  · refine h.covered.2.mono hgrown fun cls hcls => ?_
    obtain rfl := List.mem_singleton.mp hcls
    exact .inl hself
  · exact fun entry hentry => h.inside entry (List.mem_cons_of_mem _ hentry)
  · rcases h.goal with hdepth | hmem
    · exact .inl (hgrown id hdepth)
    · rcases List.mem_cons.mp hmem with rfl | hmem
      · exact .inl hself
      · exact .inr hmem

/-- A class is expanded: it goes back below those of its parents that have no depth. -/
theorem Walking.expand
    (h : Walking image id { walk with stack := (current, false) :: stack })
    {fresh : List PriorityClassId}
    (hfresh : ∀ parent, parent ∈ fresh ↔ ClassEdge image current parent ∧ parent ∉ walk.depth) :
    Walking image id { depth := walk.depth, inProgress := current :: walk.inProgress,
                       stack := fresh.map (·, false) ++ (current, true) :: stack } := by
  have hbelow (lower : PriorityClassId × Bool) (hlower : lower ∈ stack)
      (hexpanded : lower.2 = true) : TransGen (ClassEdge image) lower.1 current :=
    List.rel_of_pairwise_cons h.above hlower hexpanded
  refine ⟨h.judged, ?_, ?_, ?_, ?_, ?_⟩
  · intro cls hcls
    rcases List.mem_cons.mp hcls with rfl | hcls
    · exact .inl (List.mem_append_right _ List.mem_cons_self)
    · rcases h.busy cls hcls with hmem | hdepth
      · rcases List.mem_cons.mp hmem with heq | hmem
        · cases heq
        · exact .inl (List.mem_append_right _ (List.mem_cons_of_mem _ hmem))
      · exact .inr hdepth
  · refine List.pairwise_append.mpr ⟨?_, ?_, ?_⟩
    · rw [List.pairwise_map]
      exact List.pairwise_of_forall fun _ _ hfalse => Bool.noConfusion hfalse
    · exact List.pairwise_cons.mpr ⟨hbelow, h.above.tail⟩
    · intro upper hupper lower hlower hexpanded
      obtain ⟨parent, hparent, rfl⟩ := List.mem_map.mp hupper
      have hedge := ((hfresh parent).mp hparent).1
      rcases List.mem_cons.mp hlower with rfl | hlower
      · exact .single hedge
      · exact (hbelow lower hlower hexpanded).tail hedge
  · apply covered_append
    refine ⟨fun _ parent hedge => ?_, ?_⟩
    · by_cases hdepth : parent ∈ walk.depth
      · exact .inl hdepth
      · refine .inr ?_
        rw [List.append_nil, List.mem_reverse]
        exact (hfresh parent).mpr ⟨hedge, hdepth⟩
    · refine h.covered.2.mono (fun _ hcls => hcls) fun cls hcls => ?_
      obtain rfl := List.mem_singleton.mp hcls
      exact .inr List.mem_cons_self
  · intro entry hentry
    rcases List.mem_append.mp hentry with hnew | hold
    · obtain ⟨parent, hparent, rfl⟩ := List.mem_map.mp hnew
      exact mem_nodes_of_edge ((hfresh parent).mp hparent).1
    · rcases List.mem_cons.mp hold with rfl | hold
      · exact h.inside (current, false) List.mem_cons_self
      · exact h.inside entry (List.mem_cons_of_mem _ hold)
  · rcases h.goal with hdepth | hmem
    · exact .inl hdepth
    · refine .inr ?_
      rw [List.map_append]
      exact List.mem_append_right _ hmem

/-- What is met again while it is under expansion, and has no depth yet, is on a cycle. -/
theorem Walking.cycle
    (h : Walking image id { walk with stack := (current, false) :: stack })
    (hunknown : current ∉ walk.depth) (hbusy : current ∈ walk.inProgress) :
    TransGen (ClassEdge image) current current := by
  rcases h.busy current hbusy with hmem | hdepth
  · rcases List.mem_cons.mp hmem with heq | hmem
    · cases heq
    · exact List.rel_of_pairwise_cons h.above hmem rfl
  · exact absurd hdepth hunknown

theorem Walking.judged_top
    (h : Walking image id { walk with stack := (current, true) :: stack })
    (hdefined : current ∈ image.classes) :
    Judged image current
      (if settledDepth walk.depth 0 (classParents image current) ≥ 0 ∧
          settledDepth walk.depth 0 (classParents image current) >
            image.limits.maxInheritanceDepth then
        -1 else settledDepth walk.depth 0 (classParents image current)) := by
  refine judged_settledDepth hdefined fun parent hparent => ?_
  have hmem : parent ∈ walk.depth := by simpa using h.covered.1 rfl parent hparent
  have hfound := Std.ExtTreeMap.getElem?_eq_some_getElem hmem
  exact ⟨_, hfound, h.judged parent _ hfound⟩

theorem toPop_settle {inProgress : List PriorityClassId} {d : Int}
    (hkept : ∀ cls ∈ walk.inProgress, cls = current ∨ cls ∈ inProgress) :
    toPop image id { depth := walk.depth.insert current d, inProgress, stack } + 1 ≤
      toPop image id { walk with stack := (current, expanded) :: stack } := by
  have hsubset :
      unexpanded image id ⟨walk.depth.insert current d, inProgress, stack⟩ ⊆
        unexpanded image id { walk with stack := (current, expanded) :: stack } := by
    intro cls hcls
    simp only [unexpanded, Finset.mem_filter, Std.ExtTreeMap.mem_insert, not_or,
      Std.LawfulEqOrd.compare_eq_iff_eq] at hcls ⊢
    obtain ⟨hnode, ⟨hne, hdepth⟩, hidle⟩ := hcls
    refine ⟨hnode, hdepth, fun hbusy => ?_⟩
    rcases hkept cls hbusy with heq | hmem
    · exact hne heq.symm
    · exact hidle hmem
  have hsum := Finset.sum_le_sum_of_subset (f := fun cls =>
    1 + (classParents image cls).length) hsubset
  simp only [toPop, List.length_cons]
  omega

theorem toPop_expand (hinside : current ∈ nodes image id) (hunknown : current ∉ walk.depth)
    (hidle : current ∉ walk.inProgress) {fresh : List PriorityClassId}
    (hfresh : fresh.length ≤ (classParents image current).length) :
    toPop image id { depth := walk.depth, inProgress := current :: walk.inProgress,
                     stack := fresh.map (·, false) ++ (current, true) :: stack } + 1 ≤
      toPop image id { walk with stack := (current, false) :: stack } := by
  have herase :
      unexpanded image id ⟨walk.depth, current :: walk.inProgress,
          fresh.map (·, false) ++ (current, true) :: stack⟩ =
        (unexpanded image id { walk with stack := (current, false) :: stack }).erase current := by
    ext cls
    simp only [unexpanded, Finset.mem_filter, Finset.mem_erase, List.mem_cons, not_or]
    tauto
  have hmem : current ∈ unexpanded image id { walk with stack := (current, false) :: stack } := by
    simp only [unexpanded, Finset.mem_filter]
    exact ⟨hinside, hunknown, hidle⟩
  have hsum := Finset.add_sum_erase _ (fun cls => 1 + (classParents image cls).length) hmem
  simp only [toPop, herase, List.length_append, List.length_map, List.length_cons]
  omega

theorem Walking.step (walk : DepthWalk)
    (h : Walking image id { walk with stack := (current, expanded) :: stack }) :
    Walking image id (depthStep image { walk with stack } current expanded) ∧
      toPop image id (depthStep image { walk with stack } current expanded) + 1 ≤
        toPop image id { walk with stack := (current, expanded) :: stack } := by
  cases expanded with
  | true =>
      have hkept : ∀ cls ∈ walk.inProgress,
          cls = current ∨ cls ∈ walk.inProgress.erase current := by
        intro cls hcls
        by_cases heq : cls = current
        · exact .inl heq
        · exact .inr ((List.mem_erase_of_ne heq).mpr hcls)
      by_cases hdefined : current ∈ image.classes
      · have hentry := Std.ExtTreeMap.getElem?_eq_some_getElem hdefined
        have hparents : classParents image current =
            image.classes[current].definition.inheritsFrom := by
          simp [classParents, hentry]
        have hjudged := h.judged_top hdefined
        simp only [depthStep, hentry, if_true, ← hparents]
        exact ⟨h.settle hjudged (List.erase_subset), toPop_settle hkept⟩
      · have hentry := Std.ExtTreeMap.getElem?_eq_none hdefined
        have hjudged : Judged image current (-1) :=
          .inr ⟨by omega, fun n hrooted => hdefined (hrooted.known current .refl)⟩
        simp only [depthStep, hentry, if_true]
        exact ⟨h.settle hjudged (List.erase_subset), toPop_settle hkept⟩
  | false =>
      by_cases hknown : current ∈ walk.depth
      · have hstep : depthStep image { walk with stack } current false = { walk with stack } := by
          simp [depthStep, hknown]
        rw [hstep]
        refine ⟨h.skip hknown, ?_⟩
        simp only [toPop, unexpanded, List.length_cons]
        omega
      · by_cases hbusy : current ∈ walk.inProgress
        · have hstep : depthStep image { walk with stack } current false =
              { depth := walk.depth.insert current (-1), inProgress := walk.inProgress,
                stack } := by
            simp [depthStep, hknown, hbusy]
          rw [hstep]
          have hjudged : Judged image current (-1) :=
            .inr ⟨by omega, not_rooted_of_cycle (h.cycle hknown hbusy)⟩
          exact ⟨h.settle hjudged (List.Subset.refl _), toPop_settle fun cls hcls => .inr hcls⟩
        · have hstep : depthStep image { walk with stack } current false =
              { depth := walk.depth, inProgress := current :: walk.inProgress
                stack := ((classParents image current).filter fun parent =>
                  !walk.depth.contains parent).reverse.map (·, false) ++
                    (current, true) :: stack } := by
            simp [depthStep, hknown, hbusy]
          rw [hstep]
          refine ⟨h.expand fun parent => ?_,
            toPop_expand (h.inside _ List.mem_cons_self) hknown hbusy ?_⟩
          · simp only [List.mem_reverse, List.mem_filter, ClassEdge, Bool.not_eq_true',
              Std.ExtTreeMap.mem_iff_contains, Bool.not_eq_true]
          · rw [List.length_reverse]
            exact List.length_filter_le _ _

theorem Walking.loop {fuel : Nat} (h : Walking image id walk)
    (hfuel : toPop image id walk ≤ fuel) :
    Walking image id (depthLoop image fuel walk) ∧ (depthLoop image fuel walk).stack = [] := by
  induction fuel generalizing walk with
  | zero =>
      have hempty : walk.stack.length = 0 := by
        unfold toPop at hfuel
        omega
      exact ⟨h, List.length_eq_zero_iff.mp hempty⟩
  | succ fuel ih =>
      obtain ⟨depth, inProgress, stack⟩ := walk
      cases stack with
      | nil => exact ⟨h, rfl⟩
      | cons top rest =>
          obtain ⟨hwalking, hpops⟩ := Walking.step ⟨depth, inProgress, rest⟩ h
          exact ih hwalking (Nat.le_of_succ_le_succ (hpops.trans hfuel))

end Walk

theorem sum_parents_eq (image : StateImage) (f : PriorityClassId → Nat → Nat) :
    ∑ cls ∈ nodesOf image.classes, f cls (classParents image cls).length =
      (image.classes.toList.map fun entry =>
        f entry.1 entry.2.definition.inheritsFrom.length).sum := by
  have hnodup : image.classes.keys.Nodup := Std.ExtTreeMap.nodup_keys
  have hkeys : image.classes.keys = image.classes.toList.map (·.1) :=
    Std.ExtTreeMap.map_fst_toList_eq_keys.symm
  rw [nodesOf, List.sum_toFinset _ hnodup, hkeys, List.map_map]
  congr 1
  refine List.map_congr_left fun entry hentry => ?_
  have hfound := Std.ExtTreeMap.mem_toList_iff_getElem?_eq_some.mp hentry
  simp [classParents, hfound]

theorem classParents_eq_nil {image : StateImage} {cls : PriorityClassId}
    (h : cls ∉ nodesOf image.classes) : classParents image cls = [] := by
  rw [mem_nodesOf] at h
  simp [classParents, Std.ExtTreeMap.getElem?_eq_none h]

theorem toPop_start_le (image : StateImage) (id : PriorityClassId) :
    toPop image id { stack := [(id, false)] } ≤ depthFuel image := by
  have hall : unexpanded image id { stack := [(id, false)] } = nodes image id := by
    simp [unexpanded]
  have hbeside : ∑ cls ∈ insert id ((nodesOf image.classes).biUnion fun cls =>
        (classParents image cls).toFinset) \ nodesOf image.classes,
        (1 + (classParents image cls).length) ≤
      1 + ∑ cls ∈ nodesOf image.classes, (classParents image cls).length := by
    rw [Finset.sum_congr rfl fun cls hcls => by
      rw [classParents_eq_nil (Finset.mem_sdiff.mp hcls).2, List.length_nil],
      ← Finset.card_eq_sum_ones]
    refine (Finset.card_le_card Finset.sdiff_subset).trans ?_
    refine (Finset.card_insert_le _ _).trans ?_
    rw [Nat.add_comm]
    refine Nat.add_le_add_left (Finset.card_biUnion_le.trans ?_) 1
    exact Finset.sum_le_sum fun cls _ => List.toFinset_card_le _
  have hsplit := Finset.sum_union (f := fun cls => 1 + (classParents image cls).length)
    (Finset.disjoint_sdiff (s := nodesOf image.classes)
      (t := insert id ((nodesOf image.classes).biUnion fun cls =>
        (classParents image cls).toFinset)))
  have htwice : ∑ cls ∈ nodesOf image.classes, (1 + (classParents image cls).length) +
      ∑ cls ∈ nodesOf image.classes, (classParents image cls).length =
        (image.classes.toList.map fun entry =>
          1 + 2 * entry.2.definition.inheritsFrom.length).sum := by
    rw [← Finset.sum_add_distrib, ← sum_parents_eq image fun _ n => 1 + 2 * n]
    refine Finset.sum_congr rfl fun cls _ => ?_
    omega
  simp only [toPop, hall, nodes, hsplit, depthFuel, List.length_singleton]
  omega

theorem walking_start (image : StateImage) (id : PriorityClassId) :
    Walking image id { stack := [(id, false)] } := by
  have hinside : id ∈ nodes image id := by
    by_cases hid : id ∈ nodesOf image.classes
    · exact Finset.mem_union_left _ hid
    · exact Finset.mem_union_right _
        (Finset.mem_sdiff.mpr ⟨Finset.mem_insert_self _ _, hid⟩)
  refine ⟨by simp, by simp, by simp, ?_, by simpa using hinside, by simp⟩
  exact ⟨fun hexpanded => Bool.noConfusion hexpanded, trivial⟩

theorem classDepth_judged (image : StateImage) (id : PriorityClassId) :
    (depthLoop image (depthFuel image) { stack := [(id, false)] }).stack = [] ∧
      Judged image id (classDepth image id) := by
  obtain ⟨hwalking, hempty⟩ := (walking_start image id).loop (toPop_start_le image id)
  have hmem : id ∈ (depthLoop image (depthFuel image) { stack := [(id, false)] }).depth := by
    simpa [hempty] using hwalking.goal
  have hfound := Std.ExtTreeMap.getElem?_eq_some_getElem hmem
  have hvalue : classDepth image id =
      (depthLoop image (depthFuel image) { stack := [(id, false)] }).depth[id] := by
    simp only [classDepth, Std.ExtTreeMap.getD_eq_getD_getElem?, hfound, Option.getD_some]
  rw [hvalue]
  exact ⟨hempty, hwalking.judged id _ hfound⟩

theorem classDepth_nonneg_iff (image : StateImage) (id : PriorityClassId) :
    0 ≤ classDepth image id ↔ ∃ d, Rooted image id d := by
  rcases (classDepth_judged image id).2 with ⟨hpos, hrooted⟩ | ⟨hneg, hbad⟩
  · exact ⟨fun _ => ⟨_, hrooted⟩, fun _ => hpos⟩
  · refine ⟨fun hpos => absurd hpos (by omega), ?_⟩
    rintro ⟨d, hrooted⟩
    exact absurd hrooted (hbad d)

/-- A class has a depth if it and all its ancestors are registered, no cycle can be reached
from it and every way up is within the limit. -/
theorem exists_rooted_iff (image : StateImage) (id : PriorityClassId) :
    (∃ d, Rooted image id d) ↔
      (∀ y, ReflTransGen (ClassEdge image) id y → y ∈ image.classes) ∧
      (∀ y, ReflTransGen (ClassEdge image) id y → ¬ TransGen (ClassEdge image) y y) ∧
      ∀ n y, Hops (ClassEdge image) n id y → n ≤ image.limits.maxInheritanceDepth := by
  constructor
  · rintro ⟨d, hrooted⟩
    refine ⟨hrooted.known, fun y => not_cycle_of_bounded hrooted.longest.2, fun n y hwalk => ?_⟩
    exact (hrooted.longest.2 n y hwalk).trans hrooted.within
  · rintro ⟨hknown, -, hbound⟩
    obtain ⟨d, hd, hlongest⟩ := exists_longest hbound
    exact ⟨d, hknown, hlongest, hd⟩

/-- On every graph `class_depth` ends; it returns a depth exactly for the classes that have
one, and then the length of the longest way up. -/
theorem class_depth_is_longest_path (image : StateImage) (id : PriorityClassId) :
    (depthLoop image (depthFuel image) { stack := [(id, false)] }).stack = [] ∧
      (0 ≤ classDepth image id ↔
        (∀ y, ReflTransGen (ClassEdge image) id y → y ∈ image.classes) ∧
        (∀ y, ReflTransGen (ClassEdge image) id y → ¬ TransGen (ClassEdge image) y y) ∧
        ∀ n y, Hops (ClassEdge image) n id y → n ≤ image.limits.maxInheritanceDepth) ∧
      (0 ≤ classDepth image id →
        Longest (ClassEdge image) (classDepth image id).toNat id) := by
  obtain ⟨hempty, hjudged⟩ := classDepth_judged image id
  refine ⟨hempty, ?_, fun hpos => ?_⟩
  · rw [classDepth_nonneg_iff, exists_rooted_iff]
  · rcases hjudged with ⟨-, hrooted⟩ | ⟨hneg, -⟩
    · exact hrooted.longest
    · omega

end PriorityFabric.LongestPaths
