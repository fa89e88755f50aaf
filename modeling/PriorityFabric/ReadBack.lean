import PriorityFabric.Calls

/-!
Which acknowledged records can be read at the next open.
-/

namespace PriorityFabric.ReadBack

open PriorityFabric.Lib.LittleEndian
open PriorityFabric.Basics
open PriorityFabric.Ident
open PriorityFabric.Model
open PriorityFabric.State
open PriorityFabric.StateCodec
open PriorityFabric.Durability
open PriorityFabric.Store
open PriorityFabric.Runtime
open PriorityFabric.Runtime.FabricRuntime
open PriorityFabric.Readable
open PriorityFabric.Serving
open PriorityFabric.CommitRuns
open PriorityFabric.Calls

theorem planned_of_commit {s s' : StoreState} {mutation : Mutation}
    (h : commit s mutation = (.ok (), s')) :
    Planned s.store s.live mutation (planOf s.live mutation) := by
  unfold commit commitWriting at h
  cases hplan : planCommit s.store s.live mutation with
  | error e =>
      rw [hplan] at h
      cases h
  | ok planned =>
      have hplanned := planCommit_eq_ok_iff.mp hplan
      have heq : planned = planOf s.live mutation := hplanned.planned_eq
      rwa [heq] at hplanned

/-- In any state a runtime goes through, an accepted mutation reads back as it was
planned if and only if its identifiers are set and within the length limit and
its reason is within the note limit. -/
theorem accepted_reads_back_iff {s s' : StoreState} {mutation : Mutation}
    (hreached : Reached s) (haccepted : commit s mutation = (.ok (), s')) :
    decodeMutation (encodeMutation (planOf s.live mutation)) s.store.options.limits =
        .ok (withoutSystem (planOf s.live mutation)) ↔
      RecordFits s.store.options.limits mutation := by
  have hconfigured := hreached.configured
  have hiff := decodeMutation_planned_iff hconfigured.admissible hconfigured.limits
    (planned_of_commit haccepted)
  rw [hiff]
  constructor
  · rintro ⟨hids, hreason⟩
    exact ⟨hids, hreason⟩
  · exact recordFits_planned s.live

/-- Options under which an empty directory becomes a fabric. -/
def opening : RuntimeOptions := { createIfMissing := true }

/-- A runtime on a fresh store whose one publisher holds authority, with the
session. -/
def grantedRuntime : Result (Session × FabricRuntime) :=
  match openRuntime ∅ opening zeroKey 0 with
  | (.error e, _) => .error e
  | (.ok r, _) =>
      match r.grantAuthority 0 somePublisher someBoot with
      | (.error e, _) => .error e
      | (.ok session, r) => .ok (session, r)

theorem reachable_grantedRuntime {session : Session} {r : FabricRuntime}
    (h : grantedRuntime = .ok (session, r)) : Reachable r := by
  unfold grantedRuntime at h
  split at h
  · cases h
  · rename_i fresh dir hopen
    split at h
    · cases h
    · rename_i granted after hgrant
      cases h
      have hcalled := Reachable.called (.opened hopen) 0
        (.grantAuthority somePublisher someBoot)
      rwa [perform, snd_outcome, hgrant] at hcalled

/-- An epoch advance under a session, as the runtime journals it. -/
def advanceWith (session : Session) (reason : Bytes) : Mutation :=
  baseMutation session .advanceEpoch reason 0

/-- The granted publisher's epoch advance is accepted, under the default limits. -/
def acceptsReason (reason : Bytes) : Bool :=
  match grantedRuntime with
  | .ok (session, r) => (commit r.state (advanceWith session reason)).1.isOk &&
      decide (r.state.store.options.limits = {}) &&
      decide (session.publisher = somePublisher)
  | .error _ => false

theorem acceptsReason_eq_true {reason : Bytes} (h : acceptsReason reason = true) :
    ∃ session r s', grantedRuntime = .ok (session, r) ∧
      commit r.state (advanceWith session reason) = (.ok (), s') ∧
      r.state.store.options.limits = {} ∧ session.publisher = somePublisher := by
  unfold acceptsReason at h
  cases hruntime : grantedRuntime with
  | error e =>
      rw [hruntime] at h
      cases h
  | ok found =>
      obtain ⟨session, r⟩ := found
      rw [hruntime] at h
      simp only [Bool.and_eq_true, decide_eq_true_eq] at h
      obtain ⟨⟨hok, hlimits⟩, hpublisher⟩ := h
      cases hcommit : commit r.state (advanceWith session reason) with
      | mk status s' =>
          cases status with
          | error e =>
              rw [hcommit] at hok
              cases hok
          | ok u => exact ⟨session, r, s', rfl, hcommit, hlimits, hpublisher⟩

theorem recordFits_advanceWith {limits : Limits} {session : Session} {reason : Bytes}
    (hlimits : limits = {}) (hpublisher : session.publisher = somePublisher) :
    RecordFits limits (advanceWith session reason) ↔ reason.length ≤ 512 := by
  subst hlimits
  constructor
  · exact fun h => h.reason
  · intro hreason
    refine ⟨?_, hreason⟩
    intro id hid
    have hid : id = [112] := by
      simpa [advanceWith, baseMutation, hpublisher, somePublisher, opIds] using hid
    subst hid
    decide

/-- A short reason reads back. -/
theorem accepted_reads_back_short :
    ∃ session r s', grantedRuntime = .ok (session, r) ∧ Reachable r ∧
      commit r.state (advanceWith session [97]) = (.ok (), s') ∧
      decodeMutation (encodeMutation (planOf r.state.live (advanceWith session [97])))
          r.state.store.options.limits =
        .ok (withoutSystem (planOf r.state.live (advanceWith session [97]))) := by
  obtain ⟨session, r, s', hruntime, hcommit, hlimits, hpublisher⟩ :=
    @acceptsReason_eq_true [97] (by decide +kernel)
  have hreachable := reachable_grantedRuntime hruntime
  refine ⟨session, r, s', hruntime, hreachable, hcommit, ?_⟩
  refine (accepted_reads_back_iff hreachable.reached.1 hcommit).mpr ?_
  exact (recordFits_advanceWith hlimits hpublisher).mpr (by decide)

def longReason : Bytes := List.replicate 513 97

/-- An epoch advance with a long reason is acknowledged and cannot be read back. -/
theorem long_reason_accepted_not_read_back :
    ∃ session r s', grantedRuntime = .ok (session, r) ∧ Reachable r ∧
      commit r.state (advanceWith session longReason) = (.ok (), s') ∧
      decodeMutation (encodeMutation (planOf r.state.live (advanceWith session longReason)))
          r.state.store.options.limits ≠
        .ok (withoutSystem (planOf r.state.live (advanceWith session longReason))) := by
  obtain ⟨session, r, s', hruntime, hcommit, hlimits, hpublisher⟩ :=
    @acceptsReason_eq_true longReason (by decide +kernel)
  have hreachable := reachable_grantedRuntime hruntime
  have hconfigured := hreachable.reached.1.configured
  refine ⟨session, r, s', hruntime, hreachable, hcommit, ?_⟩
  intro hdecode
  have hfits := (decodeMutation_planned_iff hconfigured.admissible hconfigured.limits
    (planned_of_commit hcommit)).mp hdecode
  have hlength : longReason.length = 513 := List.length_replicate
  have hreason : longReason.length ≤ r.state.store.options.limits.maxNoteLength :=
    hfits.reason
  rw [hlimits, hlength] at hreason
  exact absurd hreason (by decide)

end PriorityFabric.ReadBack
