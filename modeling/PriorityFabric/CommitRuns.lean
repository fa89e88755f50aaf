import PriorityFabric.Unfinished

/-!
Runs of commits on a fresh store.

A mutation may be refused before anything is written, or by the authority check
after its pending record is in the journal.  Only the first kind of refusal
leaves the journal as it was: the sequence number of a stranded pending record is
used again by the next commit, and replay stops there.
-/

namespace PriorityFabric.CommitRuns

open PriorityFabric.Lib.LittleEndian
open PriorityFabric.Basics
open PriorityFabric.Ident
open PriorityFabric.Model
open PriorityFabric.State
open PriorityFabric.StateCodec
open PriorityFabric.Validate
open PriorityFabric.Apply
open PriorityFabric.Durability
open PriorityFabric.JournalScan
open PriorityFabric.Store
open PriorityFabric.Readable
open PriorityFabric.ApplyFacts
open PriorityFabric.StoreFiles
open PriorityFabric.Replaying
open PriorityFabric.StateDirectory
open PriorityFabric.Committing
open PriorityFabric.DerivedIndex
open PriorityFabric.Serving
open PriorityFabric.Unfinished

/-- Hand mutations to the store one after the other: the accepted ones as they
were planned, and the state reached. -/
def commitAll : StoreState → List Mutation → List Mutation × StoreState
  | s, [] => ([], s)
  | s, mutation :: rest =>
      match commit s mutation with
      | (.error _, next) => commitAll next rest
      | (.ok (), next) =>
          let result := commitAll next rest
          (planOf s.live mutation :: result.1, result.2)

/-- Every mutation settles in the state it is handed to. -/
def AllSettle : StoreState → List Mutation → Prop
  | _, [] => True
  | s, mutation :: rest => Settles s mutation ∧ AllSettle (commit s mutation).2 rest

/-- A store that was never checkpointed serves the acknowledged mutations. -/
def Faithful (s : StoreState) (acknowledged : List Mutation) : Prop :=
  ∃ segments, Serves s (freshLedger s.store.options.limits segments) acknowledged

theorem Faithful.tokenLeft {s : StoreState} {acknowledged : List Mutation}
    (h : Faithful s acknowledged) (mutation : Mutation) : TokenLeft s.live mutation := by
  obtain ⟨segments, hserves⟩ := h
  obtain ⟨replayed, hplay, hsame⟩ := hserves.image
  have hgeneration := playback_generation_le hplay
  have hlength := Serving.Journal.length_le hserves.journal
  have htoken := hserves.counted.token_le
  have heq : s.live.generation = replayed.generation := by
    rw [hsame.eq_withIndex]
    rfl
  intro _ hmax
  rw [hmax, heq] at htoken
  change 2 ^ 64 - 1 ≤ _ at htoken
  change _ ≤ 0 + _ at hgeneration
  omega

/-- One commit that settles: either nothing changed, or the mutation was added. -/
theorem Faithful.commit {s : StoreState} {acknowledged : List Mutation}
    {mutation : Mutation} (h : Faithful s acknowledged) (hsettles : Settles s mutation) :
    (∃ e, commit s mutation = (.error e, s)) ∨
      ∃ next, commit s mutation = (.ok (), next) ∧
        Faithful next (acknowledged ++ [planOf s.live mutation]) := by
  have htoken := h.tokenLeft mutation
  obtain ⟨segments, hserves⟩ := h
  rcases hserves.commit hsettles fun _ _ _ => htoken with
    hrefused | ⟨next, segments', hcommit, hnext⟩
  · exact .inl hrefused
  · refine .inr ⟨next, hcommit, segments', ?_⟩
    have hoptions := commit_options s mutation
    rw [hcommit] at hoptions
    change next.store.options = s.store.options at hoptions
    rw [hoptions]
    exact hnext

theorem commitAll_faithful {s : StoreState} {acknowledged mutations : List Mutation}
    (h : Faithful s acknowledged) (hsettle : AllSettle s mutations) :
    Faithful (commitAll s mutations).2 (acknowledged ++ (commitAll s mutations).1) := by
  induction mutations generalizing s acknowledged with
  | nil =>
      rw [commitAll, List.append_nil]
      exact h
  | cons mutation mutations ih =>
      obtain ⟨hfirst, hrest⟩ := hsettle
      rcases h.commit hfirst with ⟨e, hcommit⟩ | ⟨next, hcommit, hnext⟩
      · rw [hcommit] at hrest
        simp only [commitAll, hcommit]
        exact ih h hrest
      · rw [hcommit] at hrest
        have hlast := ih hnext hrest
        rw [List.append_assoc, List.singleton_append] at hlast
        simp only [commitAll, hcommit]
        exact hlast

/-- The journal replays healthy, and replay applies exactly the given mutations in
order. -/
def ReplaysExactly (s : StoreState) (mutations : List Mutation) : Prop :=
  ∃ replayed, replay s.dir s.store.options s.store.key = .ok replayed ∧
    replayed.report.health = .healthy ∧
    replayed.report.recordsApplied = mutations.length ∧
    playback { limits := s.store.options.limits } mutations = .ok replayed.image

theorem Faithful.replaysExactly {s : StoreState} {acknowledged : List Mutation}
    (h : Faithful s acknowledged) : ReplaysExactly s acknowledged := by
  obtain ⟨segments, hserves⟩ := h
  obtain ⟨replayed, hreplay, hhealth, happlied, hplay, -⟩ := hserves.replay
  refine ⟨replayed, hreplay, hhealth, ?_, hplay⟩
  change _ = 0 + _ at happlied
  rwa [Nat.zero_add] at happlied

theorem faithful_openStore {dir : Directory} {options : Options}
    {entropy : List.Vector UInt8 storeKeyBytes} {opened : Opened}
    (hfresh : dir.contains manifestName = false)
    (hopen : openStore dir options entropy = .ok opened)
    (hsegments : 1 ≤ options.limits.maxJournalSegments) :
    Faithful (openedState opened) [] := by
  obtain ⟨hlimits, hcreate⟩ := createStore_of_openStore hfresh hopen
  obtain ⟨hoptions, himage, hjournal⟩ := journal_createStore hlimits hsegments hcreate
  have hlive : (openedState opened).live = { limits := options.limits } := himage
  have hstore : (openedState opened).store.options = options := hoptions
  refine ⟨[[]], ?_⟩
  rw [hstore]
  refine
    { journal := hjournal
      image := ⟨{ limits := options.limits }, rfl, ?_⟩
      counted := ?_
      limits := ?_
      healthy := ?_ }
  · rw [hlive]
    exact SameState.refl _
  · rw [hlive]
    exact counted_empty options.limits
  · rw [hstore, hlive]
  · rw [hlive]

/-- Any mix of accepted and refused mutations handed to a fresh store leaves a
journal that replays to exactly the accepted ones, as long as every mutation
settles and the limits admit a segment. -/
theorem fresh_commits_replay_exactly {dir : Directory} {options : Options}
    {entropy : List.Vector UInt8 storeKeyBytes} {opened : Opened}
    (hfresh : dir.contains manifestName = false)
    (hopen : openStore dir options entropy = .ok opened)
    (hsegments : 1 ≤ options.limits.maxJournalSegments) (mutations : List Mutation)
    (hsettle : AllSettle (openedState opened) mutations) :
    ReplaysExactly (commitAll (openedState opened) mutations).2
      (commitAll (openedState opened) mutations).1 :=
  (commitAll_faithful (faithful_openStore hfresh hopen hsegments) hsettle).replaysExactly

def zeroKey : List.Vector UInt8 storeKeyBytes := List.Vector.replicate storeKeyBytes 0

/-- Options under which an empty directory becomes a store. -/
def creating : Options := { createIfMissing := true }

def somePublisher : PublisherId := ⟨[112], wellFormed_p⟩

/-- An epoch advance the fabric itself makes. -/
def systemAdvance : Mutation :=
  { op := .advanceEpoch, publisher := somePublisher, system := true }

theorem openStore_empty : ∃ opened, openStore ∅ creating zeroKey = .ok opened := by
  cases h : openStore ∅ creating zeroKey with
  | error e =>
      have hok : (openStore ∅ creating zeroKey).isOk = true := by decide
      rw [h] at hok
      cases hok
  | ok opened => exact ⟨opened, rfl⟩

theorem recordFits_systemAdvance : RecordFits ({} : Limits) systemAdvance := by
  refine ⟨?_, by decide⟩
  intro id hid
  have : id = [112] := by simpa [systemAdvance, somePublisher, opIds] using hid
  subst this
  decide

theorem options_of_openStore_empty {opened : Opened}
    (h : openStore ∅ creating zeroKey = .ok opened) : opened.store.options = creating := by
  obtain ⟨hlimits, hcreate⟩ := createStore_of_openStore (by simp) h
  exact (journal_createStore hlimits (by decide) hcreate).1

theorem settles_systemAdvance {s : StoreState}
    (hlimits : s.store.options.limits = ({} : Limits)) : Settles s systemAdvance where
  authorized _ _ _ h := Bool.noConfusion h
  fits _ _ _ := by
    rw [hlimits]
    exact recordFits_systemAdvance

theorem fresh_commits_replay_exactly_twice :
    ∃ opened, openStore ∅ creating zeroKey = .ok opened ∧
      (commitAll (openedState opened) [systemAdvance, systemAdvance]).1.length = 2 ∧
      ReplaysExactly (commitAll (openedState opened) [systemAdvance, systemAdvance]).2
        (commitAll (openedState opened) [systemAdvance, systemAdvance]).1 := by
  obtain ⟨opened, hopen⟩ := openStore_empty
  have hfresh : (∅ : Directory).contains manifestName = false := by simp
  have haccepted : (openStore ∅ creating zeroKey).toOption.map (fun opened =>
      (commitAll (openedState opened) [systemAdvance, systemAdvance]).1.length) = some 2 := by
    decide
  rw [hopen] at haccepted
  have hlimits : opened.store.options.limits = ({} : Limits) := by
    rw [options_of_openStore_empty hopen]
    rfl
  refine ⟨opened, hopen, Option.some.inj haccepted, ?_⟩
  refine fresh_commits_replay_exactly hfresh hopen (by decide) _ ⟨?_, ?_, trivial⟩
  · exact settles_systemAdvance hlimits
  · refine settles_systemAdvance ?_
    rw [commit_options]
    exact hlimits

/-- No mutation of the list reaches its first write. -/
def Stalls (s : StoreState) (mutations : List Mutation) : Prop :=
  ∀ mutation ∈ mutations, ∀ planned rolled, ¬ Journaled s mutation planned rolled

theorem commitAll_stalls {s : StoreState} {mutations : List Mutation}
    (hopen : s.store.segmentOpen = true) (h : Stalls s mutations) :
    commitAll s mutations = ([], s) := by
  induction mutations with
  | nil => rfl
  | cons mutation mutations ih =>
      obtain ⟨e, hcommit⟩ := commit_unjournaled hopen (h mutation (by simp))
      rw [commitAll, hcommit]
      exact ih fun m hm => h m (by simp [hm])

theorem Broken.commitAll {s : StoreState} {ledger : Ledger} (h : Broken s ledger)
    (mutations : List Mutation) :
    ∃ segments, Broken (commitAll s mutations).2 { ledger with segments } := by
  induction mutations generalizing s ledger with
  | nil => exact ⟨ledger.segments, h⟩
  | cons mutation mutations ih =>
      obtain ⟨segments, hnext⟩ := h.committed mutation
      obtain ⟨segments', hlast⟩ := ih hnext
      refine ⟨segments', ?_⟩
      rw [CommitRuns.commitAll]
      generalize commit s mutation = result at hlast
      obtain ⟨status, next⟩ := result
      cases status with
      | error e => exact hlast
      | ok u => exact hlast

/-- Once a mutation reaches its first write behind a dangling record, replay is lost. -/
theorem Dangling.commitAll {s : StoreState} {ledger : Ledger} {image : StateImage}
    {applied : Nat} {left : Mutation} {mutations : List Mutation}
    (h : Dangling s ledger image applied left) (hreaches : ¬ Stalls s mutations) :
    ∃ segments, Broken (commitAll s mutations).2 { ledger with segments } := by
  obtain ⟨front, records, hcursor⟩ := h.cursor
  induction mutations with
  | nil => exact absurd (fun _ hm => by cases hm) hreaches
  | cons mutation mutations ih =>
      by_cases hjournaled : ∃ planned rolled, Journaled s mutation planned rolled
      · obtain ⟨segments, hbroken⟩ := h.journaled hjournaled
        obtain ⟨segments', hlast⟩ := Broken.commitAll hbroken mutations
        refine ⟨segments', ?_⟩
        rw [CommitRuns.commitAll]
        generalize commit s mutation = result at hlast
        obtain ⟨status, next⟩ := result
        cases status with
        | error e => exact hlast
        | ok u => exact hlast
      · have hnot (planned : Mutation) (rolled : StoreState) :
            ¬ Journaled s mutation planned rolled := fun hj => hjournaled ⟨planned, rolled, hj⟩
        obtain ⟨e, hcommit⟩ := commit_unjournaled hcursor.opened hnot
        rw [CommitRuns.commitAll, hcommit]
        refine ih fun hstalls => hreaches ?_
        rintro m hm
        rcases List.mem_cons.mp hm with rfl | hm
        · exact hnot
        · exact hstalls m hm

/-- The mutation reaches its first write and is refused after it. -/
def Strands (s : StoreState) (mutation : Mutation) : Prop :=
  (∃ planned rolled, Journaled s mutation planned rolled) ∧
    (commit s mutation).1 ≠ .ok ()

/-- A mutation that is stranded leaves its pending record behind, which replay passes over
until another mutation reaches its first write. -/
theorem stranded_replays_iff {s : StoreState} {acknowledged : List Mutation}
    {mutation : Mutation} (h : Faithful s acknowledged) (hstrands : Strands s mutation)
    (later : List Mutation) :
    ReplaysExactly (commitAll s (mutation :: later)).2
        (acknowledged ++ (commitAll s (mutation :: later)).1) ↔
      Stalls (commit s mutation).2 later := by
  obtain ⟨segments, hserves⟩ := h
  obtain ⟨image, hplay, -⟩ := hserves.image
  obtain ⟨front, records, hcursor⟩ := hserves.journal.cursor
  obtain ⟨⟨planned, rolled, hjournaled⟩, hrefused⟩ := hstrands
  have hcommitted := commit_committed hcursor.opened mutation
  generalize hresult : commit s mutation = result at hcommitted hrefused
  cases hcommitted with
  | refused e hnot => exact absurd hjournaled (hnot _ _)
  | accepted hjournaled happly => exact absurd rfl hrefused
  | @stranded planned rolled live e hjournaled happly =>
      obtain ⟨front, records, hdangling, hcursor, -⟩ :=
        Serves.stranded hserves hplay hjournaled live
      have hoptions : (stranded rolled planned live).store.options = s.store.options :=
        (rollSegmentIfNeeded_same hjournaled.roll).options
      have hrun : commitAll s (mutation :: later) =
          commitAll (stranded rolled planned live) later := by rw [commitAll, hresult]
      rw [hrun]
      constructor
      · rintro ⟨replayed, hreplay, hhealthy, -⟩
        by_contra hreaches
        obtain ⟨segments', hbroken⟩ := Dangling.commitAll hdangling hreaches
        obtain ⟨other, hother, hdegraded⟩ := hbroken.replay
        rw [hreplay] at hother
        cases hother
        rw [hdegraded] at hhealthy
        cases hhealthy
      · intro hstalls
        rw [commitAll_stalls hcursor.opened hstalls]
        obtain ⟨replayed, hreplay, hrecovered⟩ := hdangling.replay
        refine ⟨replayed, hreplay, hrecovered.health, ?_, ?_⟩
        · rw [hrecovered.applied, List.append_nil]
          exact Nat.zero_add _
        · rw [hrecovered.image, hoptions, List.append_nil]
          exact hplay

/-- An epoch advance by a publisher that holds no authority. -/
def unauthorizedAdvance : Mutation := { op := .advanceEpoch, publisher := somePublisher }

/-- One refused mutation followed by an accepted one makes a fresh store
unrecoverable. -/
theorem refused_then_accepted_not_replayed :
    ∃ opened, openStore ∅ creating zeroKey = .ok opened ∧
      ¬ ReplaysExactly
        (commitAll (openedState opened) [unauthorizedAdvance, systemAdvance]).2
        (commitAll (openedState opened) [unauthorizedAdvance, systemAdvance]).1 := by
  obtain ⟨opened, hopen⟩ := openStore_empty
  refine ⟨opened, hopen, ?_⟩
  have hfaithful := faithful_openStore (by simp) hopen (by decide)
  -- The first mutation is refused after one record was written, the second accepted.
  have hrun : (openStore ∅ creating zeroKey).toOption.map (fun opened =>
      let first := commit (openedState opened) unauthorizedAdvance
      (opened.store.journalRecords, first.1.isOk, first.2.store.journalRecords,
        (commit first.2 systemAdvance).1.isOk)) = some (0, false, 1, true) := by
    decide
  rw [hopen] at hrun
  simp only [Except.toOption, Option.map_some, Option.some.injEq, Prod.mk.injEq] at hrun
  obtain ⟨hnone, hfirst, hwritten, hsecond⟩ := hrun
  obtain ⟨front, records, hcursor⟩ : ∃ front records,
      Cursor (openedState opened) _ front records := hfaithful.choose_spec.journal.cursor
  have hstrands : Strands (openedState opened) unauthorizedAdvance := by
    refine ⟨?_, fun hok => by rw [hok] at hfirst; cases hfirst⟩
    by_contra hnot
    obtain ⟨e, hcommit⟩ := commit_unjournaled hcursor.opened fun planned rolled hjournaled =>
      hnot ⟨planned, rolled, hjournaled⟩
    rw [hcommit] at hwritten
    change opened.store.journalRecords = 1 at hwritten
    omega
  intro hreplays
  refine absurd ((stranded_replays_iff hfaithful hstrands [systemAdvance]).mp hreplays)
    fun hstalls => ?_
  obtain ⟨front', records', more, hnext, -, -⟩ :=
    Cursor.committed hcursor unauthorizedAdvance
  obtain ⟨e, hcommit⟩ := commit_unjournaled hnext.opened (hstalls systemAdvance (by simp))
  rw [hcommit] at hsecond
  cases hsecond

end PriorityFabric.CommitRuns
