import PriorityFabric.Lib.Rings
import PriorityFabric.Snapshots
import PriorityFabric.Node

/-!
The audit trail of a process.

Calls add to a log that is never rewritten; the audit ring is its end.  Nothing that is
recorded changes without an entry, and an entry of a refusal is what its caller was told.
-/

namespace PriorityFabric.Trails

open PriorityFabric.Lib.LittleEndian
open PriorityFabric.Lib.Rings
open PriorityFabric.Basics
open PriorityFabric.Ident
open PriorityFabric.Model
open PriorityFabric.State
open PriorityFabric.Validate
open PriorityFabric.Apply hiding perform
open PriorityFabric.ApplyFacts
open PriorityFabric.Readable (Planned planCommit_eq_ok_iff)
open PriorityFabric.Durability
open PriorityFabric.Store
open PriorityFabric.Committing
open PriorityFabric.Serving
open PriorityFabric.Runtime
open PriorityFabric.Runtime.FabricRuntime
open PriorityFabric.Calls
open PriorityFabric.Lifetimes
open PriorityFabric.Snapshots
open PriorityFabric.Checkpoints (within_of_reached)
open PriorityFabric.Node (FabricNode)
open PriorityFabric.CommitRuns (zeroKey)

/-- The image has taken up these entries, numbered from its audit counter on. -/
structure Traced (a b : StateImage) (log : List AuditEntry) : Prop where
  limits : b.limits = a.limits
  ring : b.audit = log.foldl (push a.limits.maxAuditEntries) a.audit
  next : b.nextAuditSequence = a.nextAuditSequence + UInt64.ofNat log.length
  numbered : log.map (·.sequence) =
    (List.range log.length).map fun i => a.nextAuditSequence + UInt64.ofNat i

section Traced

variable {a b c : StateImage} {log log' : List AuditEntry}

theorem Traced.refl (a : StateImage) : Traced a a [] :=
  ⟨rfl, rfl, (UInt64.add_zero _).symm, rfl⟩

theorem Traced.trans (h : Traced a b log) (h' : Traced b c log') : Traced a c (log ++ log') where
  limits := h'.limits.trans h.limits
  ring := by rw [h'.ring, h.ring, h.limits, List.foldl_append]
  next := by rw [h'.next, h.next, List.length_append, UInt64.ofNat_add, UInt64.add_assoc]
  numbered := by
    rw [List.map_append, h.numbered, h'.numbered, List.length_append, List.range_add,
      List.map_append, List.map_map, h.next]
    congr 2
    funext i
    rw [Function.comp_apply, UInt64.ofNat_add, UInt64.add_assoc]

theorem traced_push {entry : AuditEntry} (hlimits : b.limits = a.limits)
    (hring : b.audit = pushAudit a.audit entry a.limits)
    (hnext : b.nextAuditSequence = a.nextAuditSequence + 1)
    (hsequence : entry.sequence = a.nextAuditSequence) : Traced a b [entry] where
  limits := hlimits
  ring := hring
  next := hnext
  numbered := by
    rw [List.map_singleton, hsequence, List.length_singleton, List.range_one, List.map_singleton]
    exact congrArg (fun n => [n]) (UInt64.add_zero _).symm

theorem traced_recordAccepted (a : StateImage) (mutation : Mutation) (expected : Generation) :
    Traced a (recordAccepted a mutation expected)
      [auditOf mutation (provenanceOf a mutation expected) expected] :=
  traced_push rfl rfl rfl rfl

theorem trail_of_performed {mutation : Mutation} {provenance : Provenance}
    (h : Performed a mutation provenance b) :
    b.limits = a.limits ∧ b.audit = a.audit ∧ b.nextAuditSequence = a.nextAuditSequence := by
  cases h with
  | assign a' result hop hadmitted => cases hadmitted <;> exact ⟨rfl, rfl, rfl⟩
  | _ => exact ⟨rfl, rfl, rfl⟩

theorem traced_of_apply {mutation : Mutation}
    (h : applyMutation a mutation false = (.ok (), b)) :
    ∃ entry : AuditEntry, entry.result = .ok ∧ Traced a b [entry] := by
  obtain ⟨expected, -, happlied⟩ := applyMutation_eq_ok_iff.mp h
  refine ⟨auditOf mutation (provenanceOf a mutation expected) expected, rfl, ?_⟩
  have hrecorded := traced_recordAccepted a mutation expected
  cases happlied with
  | repeated hrepeated => exact hrecorded
  | performed hfresh hperform =>
      obtain ⟨hlimits, haudit, hnext⟩ := trail_of_performed (perform_eq_ok hperform)
      exact ⟨hlimits.trans hrecorded.limits, haudit.trans hrecorded.ring,
        hnext.trans hrecorded.next, hrecorded.numbered⟩

theorem traced_of_apply_error {mutation : Mutation} {e : Status}
    (h : applyMutation a mutation false = (.error e, b)) :
    ∃ log, (∀ entry ∈ log, entry.result = .ok) ∧ Traced a b log := by
  rcases applyMutation_eq_error h with rfl | ⟨expected, rfl⟩
  · exact ⟨[], by simp, .refl _⟩
  · refine ⟨_, ?_, traced_recordAccepted a mutation expected⟩
    intro entry hentry
    rw [List.mem_singleton] at hentry
    subst hentry
    rfl

end Traced

/-- What a commit adds: one entry, or nothing but entries that are no refusals. -/
inductive CommitTrail {α : Type} (live : StateImage) : Result α × StoreState → Prop
  | refused (e : Status) (s : StoreState) (log : List AuditEntry)
      (hok : ∀ entry ∈ log, entry.result = .ok) (htraced : Traced live s.live log)
      (hsame : SameRecord s.live live) : CommitTrail live (.error e, s)
  | applied (value : α) (s : StoreState) (entry : AuditEntry) (hok : entry.result = .ok)
      (htraced : Traced live s.live [entry]) : CommitTrail live (.ok value, s)

theorem journalCommit_trail {s : StoreState} {mutation : Mutation} {store : DurableStore}
    (hplanned : Planned store s.live mutation (planOf s.live mutation)) :
    CommitTrail s.live (journalCommit s (planOf s.live mutation) .complete .complete) := by
  by_cases hopen : s.store.segmentOpen = true
  · cases happly : applyMutation s.live (planOf s.live mutation) false with
    | mk status image =>
        cases status with
        | error e =>
            rw [journalCommit_stranded hopen happly]
            obtain ⟨log, hok, htraced⟩ := traced_of_apply_error happly
            exact .refused e _ log hok htraced (sameRecord_applyMutation_error happly)
        | ok u =>
            rw [journalCommit_accepted hopen happly (generation_of_planned hplanned happly)]
            obtain ⟨entry, hok, htraced⟩ := traced_of_apply happly
            exact .applied () _ entry hok
              ⟨htraced.limits, htraced.ring, htraced.next, htraced.numbered⟩
  · have hclosed : s.store.segmentOpen = false := by simpa using hopen
    have hfail : ∃ e, journalCommit s (planOf s.live mutation) .complete .complete =
        (.error e, s) := by
      simp only [journalCommit, appendRecord, hclosed, if_true]
      exact ⟨_, rfl⟩
    obtain ⟨e, he⟩ := hfail
    rw [he]
    exact .refused e s [] (by simp) (.refl _) (.refl _)

theorem commitMutation_trail (s : StoreState) (mutation : Mutation) :
    CommitTrail s.live (commitMutation s mutation) := by
  have hcommit : CommitTrail s.live (Store.commit s mutation) := by
    unfold Store.commit commitWriting
    cases hplan : planCommit s.store s.live mutation with
    | error e => exact .refused e s [] (by simp) (.refl _) (.refl _)
    | ok planned =>
        obtain rfl := planCommit_eq_planOf hplan
        have hplanned := planCommit_eq_ok_iff.mp hplan
        cases hroll : rollSegmentIfNeeded s.dir s.store with
        | error e => exact .refused e s [] (by simp) (.refl _) (.refl _)
        | ok rolled =>
            obtain ⟨dir, store⟩ := rolled
            exact journalCommit_trail (s := { s with dir, store }) hplanned
  unfold commitMutation
  generalize Store.commit s mutation = result at hcommit ⊢
  cases hcommit with
  | refused e s' log hok htraced hsame => exact .refused e s' log hok htraced hsame
  | applied value s' entry hok htraced => exact .applied _ s' entry hok htraced

/-- What a call that ended with this status leaves in the trail. -/
structure Records (a : StateImage) (status : Option Status) (b : StateImage)
    (log : List AuditEntry) : Prop where
  traced : Traced a b log
  refusals : ∀ entry ∈ log, entry.result ≠ .ok →
    ∃ e, status = some e ∧ entry.result = e.code ∧ entry.detail = e.message
  silent : log = [] → SameRecord b a

def Leaves (r : FabricRuntime) (call : Option Status × FabricRuntime) : Prop :=
  call.2.limits = r.limits ∧ ∃ log, Records r.image call.1 call.2.image log

section Calls

variable {r : FabricRuntime} {α : Type}

theorem leaves_same {r' : FabricRuntime} (status : Option Status) (hlimits : r'.limits = r.limits)
    (h : r'.image = r.image) : Leaves r (status, r') := by
  refine ⟨hlimits, [], ?_, by simp, fun _ => ?_⟩
  · change Traced r.image r'.image []
    rw [h]
    exact .refl _
  · change SameRecord r'.image r.image
    rw [h]
    exact .refl _

theorem leaves_here (result : Result α) : Leaves r (outcome (result, r)) := by
  cases result with
  | error e => exact leaves_same _ rfl rfl
  | ok value => exact leaves_same _ rfl rfl

theorem leaves_rejectCall (state : StoreState) {log : List AuditEntry}
    (hlimits : r.limits = r.image.limits) (hok : ∀ entry ∈ log, entry.result = .ok)
    (htraced : Traced r.image state.live log) (op : Bytes) (e : Status) (actor : Session)
    (now : UInt64) :
    Leaves r (outcome ((r.withState state).rejectCall (α := α) op e actor now)) := by
  have hbound : r.limits = state.live.limits := hlimits.trans htraced.limits.symm
  obtain ⟨entry, hcode, hmessage, hpushed⟩ : ∃ entry : AuditEntry, entry.result = e.code ∧
      entry.detail = e.message ∧
      Traced state.live (recordRejection state.live r.limits op e actor now) [entry] := by
    refine ⟨_, ?_, ?_, traced_push rfl (congrArg (pushAudit _ _) hbound) rfl ?_⟩
    all_goals rfl
  refine ⟨rfl, log ++ [entry], htraced.trans hpushed, ?_, by simp⟩
  intro found hfound hrefused
  rcases List.mem_append.mp hfound with hold | hnew
  · exact absurd (hok found hold) hrefused
  · rw [List.mem_singleton] at hnew
    subst hnew
    exact ⟨e, rfl, hcode, hmessage⟩

theorem leaves_publish (hlimits : r.limits = r.image.limits) (now : UInt64) (actor : Session)
    (op : Bytes) (mutation : Mutation) (value : CommitOutcome → StateImage → α) :
    Leaves r (outcome (r.publish now actor op mutation value)) := by
  have hcommit := commitMutation_trail r.state mutation
  unfold FabricRuntime.publish
  generalize commitMutation r.state mutation = result at hcommit ⊢
  cases hcommit with
  | refused e state log hok htraced hsame =>
      exact leaves_rejectCall state hlimits hok htraced op e actor now
  | applied commit state entry hok htraced =>
      refine ⟨rfl, [entry], htraced, ?_, by simp⟩
      intro found hfound hrefused
      rw [List.mem_singleton] at hfound
      subst hfound
      exact absurd hok hrefused

theorem leaves_reject (hlimits : r.limits = r.image.limits) (op : Bytes) (e : Status)
    (actor : Session) (now : UInt64) :
    Leaves r (outcome (r.rejectCall (α := α) op e actor now)) :=
  leaves_rejectCall r.state hlimits (by simp) (.refl _) op e actor now

theorem leaves_underSession {actor : Session} {body : Result α × FabricRuntime}
    (h : Leaves r (outcome body)) : Leaves r (outcome (r.underSession actor body)) := by
  unfold FabricRuntime.underSession
  split
  · exact leaves_here _
  · split
    · exact leaves_here _
    · exact h

theorem Leaves.after {state : StoreState} {entry : AuditEntry} (hok : entry.result = .ok)
    (htraced : Traced r.image state.live [entry]) {call : Option Status × FabricRuntime}
    (h : Leaves (r.withState state) call) : Leaves r call := by
  obtain ⟨hlimits, log, hrecords⟩ := h
  refine ⟨hlimits, [entry] ++ log, htraced.trans hrecords.traced, ?_, by simp⟩
  intro found hfound hrefused
  rcases List.mem_append.mp hfound with hfirst | hlater
  · rw [List.mem_singleton] at hfirst
    subst hfirst
    exact absurd hok hrefused
  · exact hrecords.refusals found hlater hrefused

theorem leaves_refused {state : StoreState} {log : List AuditEntry}
    (hok : ∀ entry ∈ log, entry.result = .ok) (htraced : Traced r.image state.live log)
    (hsame : SameRecord state.live r.image) (e : Status) :
    Leaves r (some e, r.withState state) :=
  ⟨rfl, log, htraced, fun entry hentry hrefused => absurd (hok entry hentry) hrefused,
    fun _ => hsame⟩

theorem leaves_grant (publisher : PublisherId) (boot : BootId) (now : UInt64) :
    Leaves r (outcome (r.grant publisher boot now)) := by
  have hcommit := commitMutation_trail r.state { baseMutation
    (bootstrapSession r.image publisher boot) .grantAuthority
    (text "authority granted") now with system := true }
  unfold FabricRuntime.grant
  simp only
  generalize commitMutation r.state _ = result at hcommit ⊢
  cases hcommit with
  | refused e state log hok htraced hsame => exact leaves_refused hok htraced hsame e
  | applied commit state entry hok htraced =>
      refine Leaves.after hok htraced ?_
      simp only
      split
      · exact leaves_here _
      · exact leaves_here _

theorem leaves_takeOver (publisher : PublisherId) (boot : BootId) (now : UInt64) :
    Leaves r (outcome (r.takeOver publisher boot now)) := by
  unfold FabricRuntime.takeOver
  simp only
  split
  · generalize ({ baseMutation (bootstrapSession r.image publisher boot) .advanceEpoch _ now with
      system := true } : Mutation) = mutation
    have hcommit := commitMutation_trail r.state mutation
    generalize commitMutation r.state mutation = result at hcommit ⊢
    cases hcommit with
    | refused e state log hok htraced hsame => exact leaves_refused hok htraced hsame e
    | applied commit state entry hok htraced =>
        exact Leaves.after hok htraced (leaves_grant publisher boot now)
  · exact leaves_grant publisher boot now

theorem leaves_grantAuthority (now : UInt64) (publisher : PublisherId) (boot : BootId) :
    Leaves r (outcome (r.grantAuthority now publisher boot)) := by
  unfold FabricRuntime.grantAuthority
  split
  · exact leaves_here _
  · split
    · exact leaves_here _
    · split
      · exact leaves_here _
      · split
        · exact leaves_here _
        · split
          · split
            · exact leaves_here _
            · split
              · exact leaves_here _
              · exact leaves_takeOver publisher boot now
          · split
            · exact leaves_here _
            · exact leaves_takeOver publisher boot now

theorem image_integrityReport (r : FabricRuntime) : r.integrityReport.2.image = r.image := by
  unfold integrityReport
  split
  · rfl
  · split <;> rfl

theorem image_checkpointRuntime (r : FabricRuntime) :
    r.checkpointRuntime.2.image = r.image := by
  unfold checkpointRuntime
  split
  · rfl
  · exact checkpoint_live r.state

theorem image_close (r : FabricRuntime) : r.close.image = r.image := by
  unfold close
  split <;> rfl

theorem leaves_perform (hlimits : r.limits = r.image.limits) (now : UInt64) (call : Call) :
    Leaves r (perform r now call) := by
  cases call with
  | grantAuthority publisher boot => exact leaves_grantAuthority now publisher boot
  | advanceEpoch actor reason =>
      exact leaves_underSession (leaves_publish hlimits now actor _ _ _)
  | fence actor publisher boot reason =>
      rw [perform, fence]
      split
      · exact leaves_here _
      · split
        · exact leaves_here _
        · split
          · exact leaves_here _
          · exact leaves_publish hlimits now actor _ _ _
  | defineClass actor d => exact leaves_underSession (leaves_publish hlimits now actor _ _ _)
  | defineScope actor d => exact leaves_underSession (leaves_publish hlimits now actor _ _ _)
  | definePolicy actor d =>
      refine leaves_underSession ?_
      split
      · exact leaves_reject hlimits _ _ _ _
      · exact leaves_publish hlimits now actor _ _ _
  | defineSubject actor d => exact leaves_underSession (leaves_publish hlimits now actor _ _ _)
  | assign actor a =>
      refine leaves_underSession ?_
      split
      · exact leaves_here _
      · split
        · exact leaves_reject hlimits _ _ _ _
        · split
          · exact leaves_reject hlimits _ _ _ _
          · split
            · exact leaves_reject hlimits _ _ _ _
            · split
              · exact leaves_publish hlimits now actor _ _ _
              · split
                · exact leaves_reject hlimits _ _ _ _
                · exact leaves_publish hlimits now actor _ _ _
  | retireAssignment actor id reason =>
      exact leaves_underSession (leaves_publish hlimits now actor _ _ _)
  | integrityReport =>
      refine leaves_same _ ?_ (image_integrityReport r)
      unfold integrityReport
      split
      · rfl
      · split <;> rfl
  | checkpoint =>
      have hkept : (outcome r.checkpointRuntime).2.limits = r.limits := by
        rw [snd_outcome, checkpointRuntime]
        split <;> rfl
      have himage : (outcome r.checkpointRuntime).2.image = r.image := by
        rw [snd_outcome, image_checkpointRuntime]
      exact leaves_same _ hkept himage
  | close =>
      refine leaves_same _ ?_ (image_close r)
      unfold close
      split <;> rfl

end Calls

theorem exists_logs {r : FabricRuntime} (hlimits : r.limits = r.image.limits)
    (calls : List (UInt64 × Call)) :
    ∃ logs : List (List AuditEntry), logs.length = calls.length ∧
      Traced r.image (performAll r calls).image logs.flatten ∧
      ∀ (k : Nat) (now : UInt64) (call : Call) (log : List AuditEntry),
        calls[k]? = some (now, call) → logs[k]? = some log →
        let before := performAll r (calls.take k)
        Records before.image (perform before now call).1 (perform before now call).2.image
          log := by
  induction calls generalizing r with
  | nil => exact ⟨[], rfl, .refl _, by simp⟩
  | cons first calls ih =>
      obtain ⟨hkept, log, hrecords⟩ := leaves_perform hlimits first.1 first.2
      have hlimits' : (perform r first.1 first.2).2.limits =
          (perform r first.1 first.2).2.image.limits := by
        rw [hkept, hlimits]
        exact hrecords.traced.limits.symm
      obtain ⟨logs, hlength, htraced, hcalls⟩ := ih hlimits'
      refine ⟨log :: logs, by simp [hlength], ?_, ?_⟩
      · rw [List.flatten_cons]
        exact hrecords.traced.trans htraced
      · intro k now call found hcall hlog
        cases k with
        | zero =>
            cases hcall
            cases hlog
            exact hrecords
        | succ k => exact hcalls k now call found hcall hlog

theorem auditTail_eq_latest (image : StateImage) (bound : Nat) :
    FabricNode.auditTail image bound = latest bound image.audit := by
  unfold FabricNode.auditTail latest
  congr 1
  omega

/-- Over a run the audit ring is the end of one log: what was there at the start, and then
what each call added, numbered without gaps.  A call that added nothing changed nothing that
is recorded, and an entry of a refusal is the error its call ended with. -/
theorem audit_ring_is_end_of_log {r : FabricRuntime} (h : Reachable r)
    (calls : List (UInt64 × Call)) :
    ∃ logs : List (List AuditEntry), logs.length = calls.length ∧
      (performAll r calls).image.audit =
        latest r.limits.maxAuditEntries (r.image.audit ++ logs.flatten) ∧
      (∀ bound ≤ r.limits.maxAuditEntries,
        FabricNode.auditTail (performAll r calls).image bound =
          latest bound (r.image.audit ++ logs.flatten)) ∧
      (performAll r calls).image.nextAuditSequence =
        r.image.nextAuditSequence + UInt64.ofNat logs.flatten.length ∧
      (∀ (i : Nat) (entry : AuditEntry), logs.flatten[i]? = some entry →
        entry.sequence = r.image.nextAuditSequence + UInt64.ofNat i) ∧
      ∀ (k : Nat) (now : UInt64) (call : Call) (log : List AuditEntry),
        calls[k]? = some (now, call) → logs[k]? = some log →
        let before := performAll r (calls.take k)
        (log = [] → SameRecord (perform before now call).2.image before.image) ∧
        ∀ entry ∈ log, entry.result ≠ .ok → ∃ e, (perform before now call).1 = some e ∧
          entry.result = e.code ∧ entry.detail = e.message := by
  have hlimits := limits_image h
  obtain ⟨logs, hlength, htraced, hcalls⟩ := exists_logs hlimits.symm calls
  have hring : r.image.audit.length ≤ r.limits.maxAuditEntries := by
    rw [← hlimits]
    exact (within_of_reached h.reached.1).1.sizes.audit
  have haudit : (performAll r calls).image.audit =
      latest r.limits.maxAuditEntries (r.image.audit ++ logs.flatten) := by
    rw [htraced.ring, hlimits, ← foldl_push_latest, latest_of_length_le hring]
  refine ⟨logs, hlength, haudit, ?_, htraced.next, ?_, ?_⟩
  · intro bound hbound
    rw [auditTail_eq_latest, haudit, latest_latest hbound]
  · intro i entry hentry
    obtain ⟨hi, -⟩ := List.getElem?_eq_some_iff.mp hentry
    have hnumber := congrArg (fun numbers => numbers[i]?) htraced.numbered
    simpa only [List.getElem?_map, hentry, List.getElem?_range hi, Option.map_some,
      Option.some.injEq] using hnumber
  · intro k now call log hcall hlog
    exact ⟨(hcalls k now call log hcall hlog).silent,
      (hcalls k now call log hcall hlog).refusals⟩

/-- What a new runtime records of an epoch advance under a session nobody was granted. -/
def recordsRefusal (r : FabricRuntime) : Bool :=
  r.image.audit.isEmpty &&
    (performAll r [(0, .advanceEpoch firstSession [])]).image.audit.any (·.result ≠ .ok)

theorem audit_ring_is_end_of_log_refused :
    ∃ (r : FabricRuntime) (logs : List (List AuditEntry)) (entry : AuditEntry), Reachable r ∧
      logs.length = 1 ∧ entry ∈ logs.flatten ∧ entry.result ≠ .ok ∧
      (performAll r [(0, .advanceEpoch firstSession [])]).image.audit =
        latest r.limits.maxAuditEntries (r.image.audit ++ logs.flatten) := by
  have hrun : (openRuntime ∅ (creatingWithin 268435456) zeroKey 0).1.toOption.any
      recordsRefusal = true := by decide
  generalize hopen : openRuntime ∅ (creatingWithin 268435456) zeroKey 0 = result at hrun
  obtain ⟨status, dir⟩ := result
  cases status with
  | error e => cases hrun
  | ok r =>
      simp only [Except.toOption, Option.any_some, recordsRefusal, Bool.and_eq_true,
        List.isEmpty_iff, List.any_eq_true, decide_eq_true_eq] at hrun
      obtain ⟨hblank, entry, hentry, hrefused⟩ := hrun
      obtain ⟨logs, hlength, haudit, -⟩ :=
        audit_ring_is_end_of_log (.opened hopen) [(0, .advanceEpoch firstSession [])]
      refine ⟨r, logs, entry, .opened hopen, hlength, ?_, hrefused, haudit⟩
      rw [haudit, hblank, List.nil_append] at hentry
      exact List.mem_of_mem_drop hentry

end PriorityFabric.Trails
