import PriorityFabric.Restarts

/-!
What the histories of a store acknowledge and what its openings apply.

The journal leads to an image that the served one goes with: a restart expires grants in
the served image, and a checkpoint makes that one the base of the next journal.
-/

namespace PriorityFabric.Histories

open PriorityFabric.Lib.RelatedTables
open PriorityFabric.Basics
open PriorityFabric.Ident
open PriorityFabric.Model
open PriorityFabric.State
open PriorityFabric.StateCodec
open PriorityFabric.StateRoundTrip
open PriorityFabric.Apply
open PriorityFabric.ApplyFacts
open PriorityFabric.DerivedIndex
open PriorityFabric.Durability
open PriorityFabric.Store
open PriorityFabric.StoreFiles
open PriorityFabric.Readable
open PriorityFabric.Replaying
open PriorityFabric.StateDirectory
open PriorityFabric.Committing
open PriorityFabric.Serving
open PriorityFabric.CommitRuns
open PriorityFabric.Reopening
open PriorityFabric.Checkpoints
open PriorityFabric.Snapshots
open PriorityFabric.Inspection
open PriorityFabric.Selection
open PriorityFabric.CheckpointCrashes
open PriorityFabric.IntegrityReports
open PriorityFabric.Restarts
open PriorityFabric.Calls (checkpoint_options)
open PriorityFabric.Lifetimes (governs)

/-! ## Images that go together -/

/-- The images differ in the states of their grants at most. -/
structure Alike (live image : StateImage) : Prop where
  rest : live = withAuthority image live.authority
  entries : Related AlikeEntry live.authority image.authority

theorem alikeEntry_refl (entry : AuthorityEntry) : AlikeEntry entry entry := ⟨rfl, .inl rfl⟩

theorem Alike.refl (image : StateImage) : Alike image image := ⟨rfl, .refl alikeEntry_refl _⟩

theorem alikeEntry_normalize {entry old : AuthorityEntry} (h : AlikeEntry entry old) :
    AlikeEntry (normalizeEntry entry) old := by
  unfold normalizeEntry
  split
  · rename_i hgranted
    refine ⟨?_, ?_⟩
    · rw [h.rest]
    · rcases h.state with hstate | ⟨hother, -⟩
      · refine .inr ⟨by simp, by simp, ?_⟩
        rw [← hstate, hgranted]
        simp
      · exact absurd hgranted hother
  · exact h

theorem Alike.normalize {live image : StateImage} (h : Alike live image) :
    Alike (normalizeImage live) image := by
  refine ⟨?_, ?_⟩
  · rw [h.rest]
    rfl
  · have hmap := h.entries.map (f := fun _ entry => normalizeEntry entry)
      (g := fun _ old => old) fun _ _ _ _ _ hpair => alikeEntry_normalize hpair
    have hsame : (image.authority.map fun _ old => old) = image.authority := by
      apply Std.ExtTreeMap.ext_getElem?
      intro k
      rw [Std.ExtTreeMap.getElem?_map, Option.map_id_fun', id]
    rwa [hsame] at hmap

theorem Alike.numbered {live image : StateImage} (h : Alike live image) (sequence : UInt64) :
    Alike { live with lastSequence := sequence } { image with lastSequence := sequence } :=
  ⟨congrArg (fun found : StateImage => { found with lastSequence := sequence }) h.rest, h.entries⟩

theorem alikeEntry_supersede {publisher : PublisherId} {boot : BootId} {k : Incarnation}
    {entry old : AuthorityEntry} (h : AlikeEntry entry old) :
    AlikeEntry (supersede publisher boot k entry) (supersede publisher boot k old) := by
  obtain ⟨hrest, hstate⟩ := h
  rcases hstate with hstate | ⟨hgranted, hfenced, hother⟩
  · rw [hstate] at hrest
    rw [hrest]
    exact alikeEntry_refl _
  · have hkept : supersede publisher boot k entry = entry := by
      simp [supersede, hgranted]
    rw [hkept, supersede]
    split
    · exact ⟨hrest, .inr ⟨hgranted, hfenced, by simp⟩⟩
    · exact ⟨hrest, .inr ⟨hgranted, hfenced, hother⟩⟩

theorem alikeEntry_expireStale {epoch : FabricEpoch} {entry old : AuthorityEntry}
    (h : AlikeEntry entry old) :
    AlikeEntry (expireStale epoch entry) (expireStale epoch old) := by
  obtain ⟨hrest, hstate⟩ := h
  rcases hstate with hstate | ⟨hgranted, hfenced, hother⟩
  · rw [hstate] at hrest
    rw [hrest]
    exact alikeEntry_refl _
  · have hkept : expireStale epoch entry = entry := by
      simp [expireStale, hgranted]
    rw [hkept, expireStale]
    split
    · exact ⟨hrest, .inr ⟨hgranted, hfenced, by simp⟩⟩
    · exact ⟨hrest, .inr ⟨hgranted, hfenced, hother⟩⟩

section Apply

variable {image : StateImage} {table : AuthorityTable} {mutation : Mutation}

theorem alike_fenceAuthority {publisher : PublisherId} {boot : BootId}
    {provenance : Provenance} (h : Related AlikeEntry table image.authority) :
    Alike (Apply.fenceAuthority (withAuthority image table) publisher boot provenance)
      (Apply.fenceAuthority image publisher boot provenance) := by
  refine ⟨rfl, ?_⟩
  have htable : (withAuthority image table).authority = table := rfl
  unfold Apply.fenceAuthority
  refine h.insert _ ?_
  simp only [htable]
  cases hentry : table[Incarnation.mk publisher boot]? with
  | none =>
      rw [h.none_iff.mp hentry]
      exact alikeEntry_refl _
  | some entry =>
      obtain ⟨old, hold, hpair⟩ := h.exists_of_some hentry
      rw [hold, hpair.rest]
      exact alikeEntry_refl _

theorem perform_alike {provenance : Provenance} {result : StateImage}
    (halike : Related AlikeEntry table image.authority)
    (h : perform (withAuthority image table) mutation provenance = .ok result) :
    ∃ result', perform image mutation provenance = .ok result' ∧ Alike result result' := by
  cases hop : governs mutation.op with
  | false =>
      rw [perform_withAuthority hop] at h
      cases hperform : perform image mutation provenance with
      | error e =>
          rw [hperform] at h
          cases h
      | ok result' =>
          rw [hperform] at h
          cases h
          refine ⟨result', rfl, rfl, ?_⟩
          rw [(perform_keeps hop hperform).1]
          exact halike
  | true =>
      cases perform_eq_ok h with
      | grant hm hpositive hroom =>
          have hcounter : ¬ (image.nextFencingToken = 0 ∨
              image.nextFencingToken = UInt64.ofNat (2 ^ 64 - 1)) := by
            rintro (hzero | hmax)
            · exact hpositive hzero
            · exact hroom hmax
          have hperform : perform image mutation provenance = .ok { image with
              authority := (image.authority.map
                  (supersede mutation.publisher mutation.boot)).insert
                ⟨mutation.publisher, mutation.boot⟩
                { publisher := mutation.publisher, boot := mutation.boot,
                  epoch := image.epoch, token := ⟨image.nextFencingToken⟩, state := .granted,
                  provenance }
              nextFencingToken := image.nextFencingToken + 1 } := by
            simp only [perform, hm, Apply.grantAuthority, failIf, hcounter, if_false, bind,
              Except.bind, pure, Except.pure]
          have hmap : Related AlikeEntry
              (table.map (supersede mutation.publisher mutation.boot))
              (image.authority.map (supersede mutation.publisher mutation.boot)) :=
            halike.map fun _ _ _ _ _ hpair => alikeEntry_supersede hpair
          refine ⟨_, hperform, rfl, ?_⟩
          exact hmap.insert _ (alikeEntry_refl _)
      | fence publisher boot hm =>
          exact ⟨_, by simp only [perform, hm], alike_fenceAuthority halike⟩
      | advance epoch hm hnext =>
          have hnext' : image.epoch.next = some epoch := hnext
          have hperform : perform image mutation provenance = .ok { image with
              epoch
              authority := image.authority.map fun _ entry => expireStale epoch entry } := by
            simp only [perform, hm, Apply.advanceEpoch, hnext']
          have hmap : Related AlikeEntry (table.map fun _ entry => expireStale epoch entry)
              (image.authority.map fun _ entry => expireStale epoch entry) :=
            halike.map fun _ _ _ _ _ hpair => alikeEntry_expireStale hpair
          exact ⟨_, hperform, rfl, hmap⟩
      | retire target entry generation hm hentry hnext =>
          rw [hm] at hop
          cases hop
      | _ =>
          rename_i hm _
          rw [hm] at hop
          cases hop

/-- What the served image accepts, the image of the journal accepts beside it. -/
theorem applyMutation_alike {live live' : StateImage} (h : Alike live image)
    (happly : applyMutation live mutation true = (.ok (), live')) :
    ∃ image', applyMutation image mutation true = (.ok (), image') ∧ Alike live' image' := by
  obtain ⟨hrest, hentries⟩ := h
  generalize live.authority = table at hrest hentries
  subst hrest
  refine applyMutation_along hentries (fun g hpair => ⟨?_, hpair.entries⟩)
    (fun expected => ⟨rfl, hentries⟩) (fun expected provenance result hperform => ?_) happly
  · exact congrArg (fun found : StateImage => { found with generation := g }) hpair.rest
  · exact @perform_alike (recordAccepted image mutation expected) table mutation _ result
      hentries hperform

end Apply

/-! ## What has been applied -/

/-- The mutations, applied in turn to the image of a new store, lead to the image.  Grants
may expire in between, and the index may be derived again. -/
inductive Led (limits : Limits) : List Mutation → StateImage → Prop
  | created : Led limits [] { limits }
  | applied {mutations : List Mutation} {mutation : Mutation} {a b : StateImage}
      (h : Led limits mutations a) (happly : playOne a mutation = .ok b) :
      Led limits (mutations ++ [mutation]) b
  | expired {mutations : List Mutation} {a : StateImage} (h : Led limits mutations a) :
      Led limits mutations (normalizeImage a)
  | indexed {mutations : List Mutation} {a b : StateImage} (h : Led limits mutations a)
      (hsame : SameState b a) : Led limits mutations b

theorem Led.playback {limits : Limits} {folded mutations : List Mutation}
    {base image : StateImage} (h : Led limits folded base)
    (hplay : playback base mutations = .ok image) : Led limits (folded ++ mutations) image := by
  induction mutations generalizing folded base with
  | nil =>
      cases hplay
      rwa [List.append_nil]
  | cons mutation mutations ih =>
      rw [playback_cons] at hplay
      cases hone : playOne base mutation with
      | error e =>
          rw [hone] at hplay
          cases hplay
      | ok next =>
          rw [hone] at hplay
          rw [List.append_cons]
          exact ih (h.applied hone) hplay

/-! ## The invariant -/

/-- The store serves what the acknowledged mutations lead to, and so do its files: the
journal starts where the first of them end and holds the others. -/
structure Kept (limits : Limits) (acked : List Mutation) (s : StoreState) : Prop where
  options : s.store.options.limits = limits
  within : Within limits s.live
  led : Led limits acked s.live
  follows : ∃ ledger mutations image folded, FollowsBy Alike s ledger mutations image ∧
    Led limits folded ledger.base ∧ acked = folded ++ mutations

/-- The directory has not become a store, or it is that of one. -/
def KeptDir (limits : Limits) (acked : List Mutation) (dir : Directory) : Prop :=
  dir.contains manifestName = false ∧ acked = [] ∨ ∃ s, s.dir = dir ∧ Kept limits acked s

section Kept

variable {limits : Limits} {acked : List Mutation} {s : StoreState}

theorem FollowsBy.alike {ledger : Ledger} {mutations : List Mutation} {image : StateImage}
    (h : FollowsBy Alike s ledger mutations image) :
    Counted s.live ∧ s.live.limits = image.limits ∧ s.live.health = .healthy ∧
      s.live.lastSequence = image.lastSequence := by
  obtain ⟨index, hbeside⟩ := h.beside
  have hlive : s.live = withIndex (withAuthority image s.live.authority)
      s.live.assignmentsBySubject := by
    have hrest := congrArg (withIndex · s.live.assignmentsBySubject) hbeside.rest
    exact hrest
  rw [hlive]
  exact ⟨{ h.counted with }, rfl, h.healthy, rfl⟩

theorem serves_options {ledger : Ledger} {mutations : List Mutation}
    (h : Serves s ledger mutations) {options : Options}
    (hlimits : options.limits = s.store.options.limits) :
    Serves { s with store := { s.store with options } } ledger mutations := by
  obtain ⟨front, records, hcursor⟩ := h.journal.cursor
  refine
    { journal :=
        { h.journal with
          cursor := ⟨front, records, { hcursor with admissible := ?_, holds := ?_, measured := ?_ }⟩
          carried := ?_ }
      image := h.image
      counted := h.counted
      limits := h.limits.trans hlimits.symm
      healthy := h.healthy }
  · change limitsWithinCompiledCeiling options.limits = true
    rw [hlimits]
    exact hcursor.admissible
  · change Holds s.dir options.limits s.store.key ledger
    rw [hlimits]
    exact hcursor.holds
  · have hmeasured := hcursor.measured
    unfold Measured at hmeasured ⊢
    change _ ∨ _ + options.limits.maxRecordPayload + _ ≤ options.limits.maxStateBytes
    rw [hlimits]
    exact hmeasured
  · intro mutation hmutation
    change Carried options.limits mutation
    rw [hlimits]
    exact h.journal.carried mutation hmutation

theorem Serves.kept {ledger : Ledger} {folded mutations : List Mutation}
    (h : Serves s ledger mutations) (hplay : playback ledger.base mutations = .ok s.live)
    (hled : Led limits folded ledger.base) (hoptions : s.store.options.limits = limits)
    (hwithin : Within limits s.live) : Kept limits (folded ++ mutations) s where
  options := hoptions
  within := hwithin
  led := hled.playback hplay
  follows := ⟨ledger, mutations, s.live, folded,
    { journal := h.journal
      played := hplay
      beside := ⟨s.live.assignmentsBySubject, Alike.refl _⟩
      counted := h.counted
      limits := h.limits
      healthy := h.healthy }, hled, rfl⟩

theorem kept_created {dir : Directory} {options : Options} {opened : Opened}
    {entropy : List.Vector UInt8 storeKeyBytes}
    (hsegments : 1 ≤ options.limits.maxJournalSegments)
    (hfresh : dir.contains manifestName = false)
    (hopen : openStore dir options entropy = .ok opened) :
    Kept options.limits [] (openedState opened) := by
  obtain ⟨hlimits, hcreate⟩ := createStore_of_openStore hfresh hopen
  obtain ⟨hoptions, himage, hjournal⟩ := journal_createStore hlimits hsegments hcreate
  have hstore : (openedState opened).store.options = options := hoptions
  have hlive : (openedState opened).live = { limits := options.limits } := himage
  have hserves : Serves (openedState opened) (freshLedger options.limits [[]]) [] :=
    { journal := hjournal
      image := ⟨_, rfl, by rw [hlive]; exact SameState.refl _⟩
      counted := by
        rw [hlive]
        exact counted_empty options.limits
      limits := by rw [hlive, hstore]
      healthy := by rw [hlive] }
  refine Serves.kept hserves ?_ .created (congrArg Options.limits hstore) ?_
  · rw [hlive]
    rfl
  · exact within_openStore hopen

theorem Kept.reopen (h : Kept limits acked s) {options : Options}
    (hlimits : options.limits = limits) (entropy : List.Vector UInt8 storeKeyBytes) :
    ∃ opened, openStore s.dir options entropy = .ok opened ∧ opened.report.health = .healthy ∧
      Led limits acked opened.image ∧
      (Measurable (withLock s.dir options) limits → Kept limits acked (openedState opened)) := by
  obtain ⟨ledger, mutations, image, folded, hfollows, hled, rfl⟩ := h.follows
  have hserves := serves_options (FollowsBy.serves hfollows) (hlimits.trans h.options.symm)
  obtain ⟨opened, hopen, hhealth, hoptions, -, hplay, hnext⟩ := Serves.reopen hserves entropy
  refine ⟨opened, hopen, hhealth, hled.playback hplay, fun hmeasurable => ?_⟩
  have hserved : Serves (openedState opened) ledger mutations := by
    refine hnext ?_
    change Measurable (withLock s.dir options) options.limits
    rw [hlimits]
    exact hmeasurable
  refine Serves.kept hserved hplay hled ?_ ?_
  · exact (congrArg Options.limits hoptions).trans hlimits
  · rw [← hlimits]
    exact within_openStore hopen

theorem Kept.expired (h : Kept limits acked s) :
    Kept limits acked { s with live := normalizeImage s.live } := by
  obtain ⟨ledger, mutations, image, folded, hfollows, hled, hacked⟩ := h.follows
  obtain ⟨front, records, hcursor⟩ := hfollows.journal.cursor
  obtain ⟨index, hbeside⟩ := hfollows.beside
  exact
    { options := h.options
      within := within_normalizeImage h.within
      led := h.led.expired
      follows := ⟨ledger, mutations, image, folded,
        { journal := { hfollows.journal with cursor := ⟨front, records, { hcursor with }⟩ }
          played := hfollows.played
          beside := ⟨index, hbeside.normalize⟩
          counted := hfollows.counted
          limits := hfollows.limits
          healthy := hfollows.healthy }, hled, hacked⟩ }

theorem Kept.verifying (h : Kept limits acked s) : verifying s = s := by
  obtain ⟨ledger, mutations, image, folded, hfollows, -⟩ := h.follows
  obtain ⟨replayed, index, hreplay, -, hdir, -⟩ := Serves.replays (FollowsBy.serves hfollows)
  unfold Selection.verifying
  cases hverify : verify s with
  | error e => rfl
  | ok found =>
      obtain ⟨report, dir⟩ := found
      obtain ⟨replayed', hreplay', rfl⟩ := dir_of_verify.mp ⟨report, hverify⟩
      have hsame : replayed' = replayed := Except.ok.inj (hreplay'.symm.trans hreplay)
      change { s with dir := replayed'.dir } = s
      rw [hsame, hdir]

/-- A commit fails before it writes, or the mutation is acknowledged, journaled and served. -/
theorem Kept.commit (h : Kept limits acked s) {mutation : Mutation}
    (hsettles : Settles s mutation)
    (htoken : ∀ planned rolled, Journaled s mutation planned rolled → TokenLeft s.live mutation) :
    (∃ e, Store.commit s mutation = (.error e, s)) ∨
      ∃ next, Store.commit s mutation = (.ok (), next) ∧
        Kept limits (acked ++ [planOf s.live mutation]) next := by
  obtain ⟨ledger, mutations, image, folded, hfollows, hled, rfl⟩ := h.follows
  obtain ⟨front, records, hcursor⟩ := hfollows.journal.cursor
  obtain ⟨hcounted, hlimits, -, hlast⟩ := FollowsBy.alike hfollows
  have hwithin := within_commitWriting h.within mutation .complete .complete
  have hoptions := commit_options s mutation
  generalize hresult : Store.commit s mutation = result at hoptions
  have hcommitted := commit_committed hcursor.opened mutation
  rw [hresult] at hcommitted
  cases hcommitted with
  | refused e hnot => exact .inl ⟨e, rfl⟩
  | stranded e hjournaled happly =>
      obtain ⟨live, hlive⟩ := applyMutation_planned hjournaled.plan
        (hsettles.authorized _ _ hjournaled) hcounted (htoken _ _ hjournaled)
      rw [hlive] at happly
      cases happly
  | accepted hjournaled happly =>
      obtain ⟨segments, image', hnext, live, hreplay, hserved⟩ := FollowsBy.accepted hfollows
        hresult (hsettles.fits _ _ hjournaled) hlimits
        (fun sequence hpair => hpair.numbered sequence)
        (fun index live hpair happly => applyMutation_alike hpair happly)
      refine .inr ⟨_, rfl, ?_⟩
      refine
        { options := (congrArg Options.limits hoptions).trans h.options
          within := ?_
          led := ?_
          follows := ⟨_, _, image', folded, hnext, hled, List.append_assoc _ _ _⟩ }
      · change Within limits (Store.commit s mutation).2.live at hwithin
        rwa [hresult] at hwithin
      · refine h.led.applied ?_
        rw [hserved, playOne_eq_ok hreplay, hlast]

theorem Kept.movedOn (h : Kept limits acked s) (hfolds : Folds s) (hroom : ¬ CounterSpent s)
    (hreadable : SnapshotReadable s.live) {count : Nat} (hcount : count ≤ retiredSegments s) :
    Kept limits acked (movedOn s count) := by
  obtain ⟨ledger, mutations, image, folded, hfollows, -⟩ := h.follows
  have hwithin : Within s.store.options.limits s.live := by
    rw [h.options]
    exact h.within
  obtain ⟨hcounted, -, -, hlast⟩ := FollowsBy.alike hfollows
  obtain ⟨durable, hdurable, -⟩ := durable_beside (FollowsBy.serves hfollows) hwithin hroom
  have hserves := serves_movedOn hdurable hfolds hroom hreadable hcounted
    (by rw [hfollows.journal.next_eq hfollows.played, hlast]) hcount
  have hsame := stored_eq hwithin.1 hreadable
  obtain ⟨hbase, hlimits, hhealthy⟩ := Serves.replayed hserves rfl
  have hbeside : Alike
      (withIndex s.live (rebuildIndexes (storedImage s.live)).assignmentsBySubject)
      (rebuildIndexes (storedImage s.live)) := by
    rw [← hsame.symm.eq_withIndex]
    exact Alike.refl _
  exact
    { options := h.options
      within := h.within
      led := h.led
      follows := ⟨_, [], _, acked,
        { journal := hserves.journal
          played := rfl
          beside := ⟨_, hbeside⟩
          counted := hbase
          limits := hlimits
          healthy := hhealthy }, h.led.indexed hsame.symm, (List.append_nil _).symm⟩ }

theorem Kept.checkpoint (h : Kept limits acked s)
    (hfolds : Folds s → ¬ CounterSpent s ∧ SnapshotReadable s.live) :
    Kept limits acked (Store.checkpoint s).2 := by
  unfold Store.checkpoint
  cases hsnapshot : withSnapshot s with
  | error e => exact h
  | ok dir =>
      obtain ⟨hfolded, rfl⟩ := withSnapshot_iff.mp hsnapshot
      obtain ⟨hroom, hreadable⟩ := hfolds hfolded
      have hnext : ¬ ((s.store.segmentIndex + 1) % 2 ^ 32 + 1) % 2 ^ 32 ≥
          s.store.options.limits.maxJournalSegments := hroom
      simp only [hnext, if_false]
      exact h.movedOn hfolded hroom hreadable (le_refl _)

/-- The manifest that is there names no snapshot but the one that is written. -/
def NamesNoOther (s : StoreState) : Prop :=
  ∀ manifest, readManifest s.dir s.store.key = .ok manifest → manifest.snapshotPresent = true →
    s.dir[snapshotName]? = some (encodeSnapshot s.store.key (encodeState s.live))

theorem Kept.snapshotDir (h : Kept limits acked s) (hnames : NamesNoOther s) :
    Kept limits acked { s with dir := snapshotDir s } := by
  obtain ⟨ledger, mutations, image, folded, hfollows, hled, hacked⟩ := h.follows
  obtain ⟨front, records, hcursor⟩ := hfollows.journal.cursor
  have hmanifest := readManifest_eq_ok hcursor.holds.manifest_file hcursor.holds.manifest_fits
  cases hpresent : ledger.manifest.snapshotPresent with
  | true =>
      have hdir : Snapshots.snapshotDir s = s.dir :=
        insert_of_getElem? (hnames _ hmanifest hpresent)
      rw [hdir]
      exact h
  | false =>
      have hstart : replayStart (Snapshots.snapshotDir s) s.store.options.limits s.store.key
          ledger.manifest = .ok ledger.start := by
        rw [← hcursor.holds.start]
        simp only [replayStart, startingImage, hpresent, Bool.false_eq_true, if_false]
      have hholds := holds_snapshotDir hcursor.holds hstart
      exact
        { options := h.options
          within := h.within
          led := h.led
          follows := ⟨ledger, mutations, image, folded,
            { journal := { hfollows.journal with
                cursor := ⟨front, records, { hcursor with holds := hholds }⟩ }
              played := hfollows.played
              beside := hfollows.beside
              counted := hfollows.counted
              limits := hfollows.limits
              healthy := hfollows.healthy }, hled, hacked⟩ }

theorem Kept.crashing (h : Kept limits acked s) {stage : Stage}
    (hstops : ¬ StopsShort (.running s) (.crashes stage))
    (hfolds : Folds s → SnapshotReadable s.live ∧ (stage = .snapshotReplaced → NamesNoOther s)) :
    KeptDir limits acked (crashing s stage) := by
  unfold Selection.crashing
  cases hsnapshot : withSnapshot s with
  | error e => exact .inr ⟨s, rfl, h⟩
  | ok dir =>
      obtain ⟨hfolded, -⟩ := withSnapshot_iff.mp hsnapshot
      obtain ⟨hreadable, hnames⟩ := hfolds hfolded
      cases stage with
      | snapshotReplaced => exact .inr ⟨_, rfl, h.snapshotDir (hnames rfl)⟩
      | manifestReplaced => exact absurd ⟨hfolded, .inl rfl⟩ hstops
      | segmentOpened removed =>
          have hroom : ¬ CounterSpent s := fun hspent =>
            hstops ⟨hfolded, .inr ⟨by simp, hspent⟩⟩
          simp only [stageDir, hroom, if_false]
          exact .inr ⟨_, rfl, h.movedOn hfolded hroom hreadable (Nat.min_le_right _ _)⟩

end Kept

/-! ## Runs -/

/-- The mutation an act acknowledges, as it is journaled. -/
def acknowledges (site : Site) (act : Act) : List Mutation :=
  match site, act with
  | .running s, .commits mutation pendingWrite commitWrite =>
      if (commitWriting s mutation pendingWrite commitWrite).1.isOk then [planOf s.live mutation]
      else []
  | _, _ => []

def acknowledged : Site → List Act → List Mutation
  | _, [] => []
  | site, act :: acts => acknowledges site act ++ acknowledged (site.after act) acts

/-- No write fails and no journaled mutation is refused or unreadable; the owner of the image
expires grants at most; what a checkpoint writes reads back and replaces no snapshot that the
old manifest names when the process ends there; and openings have the same limits. -/
def Proper (limits : Limits) : Site → Act → Prop
  | .closed dir, .opens options _ => options.limits = limits ∧
      (dir.contains manifestName = true → Measurable (withLock dir options) limits)
  | .running s, .commits mutation pendingWrite commitWrite =>
      pendingWrite = .complete ∧ commitWrite = .complete ∧ Settles s mutation ∧
        ∀ planned rolled, Journaled s mutation planned rolled → TokenLeft s.live mutation
  | .running s, .changes image => image = normalizeImage s.live
  | .running s, .checkpoints => Folds s → SnapshotReadable s.live
  | .running s, .crashes stage =>
      Folds s → SnapshotReadable s.live ∧ (stage = .snapshotReplaced → NamesNoOther s)
  | _, _ => True

def AllProper (limits : Limits) : Site → List Act → Prop
  | _, [] => True
  | site, act :: acts => Proper limits site act ∧ AllProper limits (site.after act) acts

def KeptSite (limits : Limits) (acked : List Mutation) : Site → Prop
  | .closed dir => KeptDir limits acked dir
  | .running s => Kept limits acked s

section Runs

variable {limits : Limits} {acked : List Mutation} {site : Site}

theorem kept_opening (hsegments : 1 ≤ limits.maxJournalSegments) {dir : Directory}
    (h : KeptDir limits acked dir) {options : Options}
    {entropy : List.Vector UInt8 storeKeyBytes}
    (hproper : Proper limits (.closed dir) (.opens options entropy)) :
    KeptSite limits acked (opening dir options entropy) := by
  obtain ⟨rfl, hmeasurable⟩ := hproper
  unfold opening
  rcases h with ⟨hfresh, rfl⟩ | ⟨s, rfl, hkept⟩
  · cases hopen : openStore dir options entropy with
    | ok opened => exact kept_created hsegments hfresh hopen
    | error e =>
        refine .inl ⟨?_, rfl⟩
        rw [Std.ExtTreeMap.contains_eq_isSome_getElem?, (sameLinks_withLock dir options).manifest,
          ← Std.ExtTreeMap.contains_eq_isSome_getElem?]
        exact hfresh
  · obtain ⟨opened, hopen, -, -, hnext⟩ := hkept.reopen rfl entropy
    obtain ⟨ledger, mutations, image, folded, hfollows, -⟩ := hkept.follows
    obtain ⟨front, records, hcursor⟩ := hfollows.journal.cursor
    rw [hopen]
    exact hnext (hmeasurable (contains_of_getElem? hcursor.holds.manifest_file))

theorem kept_after (hsegments : 1 ≤ limits.maxJournalSegments) (h : KeptSite limits acked site)
    {act : Act} (hstops : ¬ StopsShort site act) (hproper : Proper limits site act) :
    KeptSite limits (acked ++ acknowledges site act) (site.after act) := by
  cases site with
  | closed dir =>
      have hnone : acked ++ acknowledges (.closed dir) act = acked := List.append_nil _
      rw [hnone]
      cases act with
      | opens options entropy => exact kept_opening hsegments h hproper
      | _ => exact h
  | running s =>
      cases act with
      | commits mutation pendingWrite commitWrite =>
          obtain ⟨rfl, rfl, hsettles, htoken⟩ := hproper
          have hkept := Kept.commit h hsettles htoken
          change KeptSite limits (acked ++ if (Store.commit s mutation).1.isOk then
            [planOf s.live mutation] else []) (.running (Store.commit s mutation).2)
          rcases hkept with ⟨e, hcommit⟩ | ⟨next, hcommit, hnext⟩
          · rw [hcommit]
            exact (List.append_nil acked).symm ▸ h
          · rw [hcommit]
            exact hnext
      | changes image =>
          obtain rfl : image = normalizeImage s.live := hproper
          exact (List.append_nil acked).symm ▸ Kept.expired h
      | verifies =>
          have hsame := Kept.verifying h
          change KeptSite limits (acked ++ []) (.running (verifying s))
          rw [hsame, List.append_nil]
          exact h
      | checkpoints =>
          exact (List.append_nil acked).symm ▸ Kept.checkpoint h fun hfolds =>
            ⟨fun hspent => hstops ⟨hfolds, hspent⟩, hproper hfolds⟩
      | crashes stage => exact (List.append_nil acked).symm ▸ Kept.crashing h hstops hproper
      | leaves => exact (List.append_nil acked).symm ▸ Or.inr ⟨s, rfl, h⟩
      | opens options entropy => exact (List.append_nil acked).symm ▸ h

theorem kept_course (hsegments : 1 ≤ limits.maxJournalSegments) {acts : List Act}
    (h : KeptSite limits acked site) (hstops : Unbroken site acts)
    (hproper : AllProper limits site acts) :
    KeptSite limits (acked ++ acknowledged site acts) (site.course acts) := by
  induction acts generalizing acked site with
  | nil => exact (List.append_nil acked).symm ▸ h
  | cons act acts ih =>
      have hnext := ih (kept_after hsegments h hstops.1 hproper.1) hstops.2 hproper.2
      rwa [List.append_assoc] at hnext

end Runs

/-- In a history in which no checkpoint stops short, an open store appends to a segment the
manifest refers to, and replay reads that segment until a manifest has passed it.  Where
nothing else goes wrong in it, every opening that follows applies all it acknowledged. -/
theorem acknowledged_commits_applied {dir : Directory}
    (hnew : dir.contains manifestName = false) {acts : List Act}
    (hacts : Unbroken (.closed dir) acts) :
    (∀ s, (Site.closed dir).course acts = .running s →
      ∃ manifest, readManifest s.dir s.store.key = .ok manifest ∧
        manifest.firstSegment ≤ s.store.segmentIndex ∧
        s.store.segmentIndex ∈ discoverSegments s.dir manifest.firstSegment ∧
        ∀ later, Unbroken (.running s) later →
          ∃ key manifest', readStoreKey ((Site.running s).course later).dir = .ok key ∧
            readManifest ((Site.running s).course later).dir key = .ok manifest' ∧
            (s.store.segmentIndex < manifest'.firstSegment ∨
              s.store.segmentIndex ∈ discoverSegments ((Site.running s).course later).dir
                manifest'.firstSegment)) ∧
    ∀ limits final, 1 ≤ limits.maxJournalSegments → AllProper limits (.closed dir) acts →
      (Site.closed dir).course acts = .closed final →
      final.contains manifestName = false ∧ acknowledged (.closed dir) acts = [] ∨
        ∀ options entropy, options.limits = limits →
          ∃ opened, openStore final options entropy = .ok opened ∧
            opened.report.health = .healthy ∧
            Led limits (acknowledged (.closed dir) acts) opened.image := by
  refine ⟨fun s hrun => segment_selected hnew hacts hrun,
    fun limits final hsegments hproper hend => ?_⟩
  have hstart : KeptSite limits [] (.closed dir) := .inl ⟨hnew, rfl⟩
  have hkept := kept_course hsegments hstart hacts hproper
  rw [hend, List.nil_append] at hkept
  rcases hkept with hnone | ⟨s, rfl, hkept⟩
  · exact .inl hnone
  · refine .inr fun options entropy hlimits => ?_
    obtain ⟨opened, hopen, hhealth, hled, -⟩ := hkept.reopen hlimits entropy
    exact ⟨opened, hopen, hhealth, hled⟩

def foldedBetween : List Act :=
  [.opens creating zeroKey, .commits systemAdvance .complete .complete, .checkpoints,
    .commits systemAdvance .complete .complete, .leaves]

def committedOnce (opened : Opened) : StoreState :=
  (commitWriting (openedState opened) systemAdvance .complete .complete).2

def committedTwice (opened : Opened) : Result Unit × StoreState :=
  commitWriting (checkpoint (committedOnce opened)).2 systemAdvance .complete .complete

/-- What is asked of the history, and that both commits are acknowledged. -/
def foldedBetweenFacts (opened : Opened) : List Bool :=
  [(commitWriting (openedState opened) systemAdvance .complete .complete).1.isOk,
    decide (CounterSpent (committedOnce opened)),
    decide (SnapshotReadable (committedOnce opened).live),
    (committedTwice opened).1.isOk,
    (committedTwice opened).2.dir.contains manifestName]

theorem acknowledged_commits_applied_twice :
    ∃ final opened, (Site.closed ∅).course foldedBetween = .closed final ∧
      openStore final creating zeroKey = .ok opened ∧
      (acknowledged (.closed ∅) foldedBetween).length = 2 ∧
      Led {} (acknowledged (.closed ∅) foldedBetween) opened.image := by
  obtain ⟨first, hopen⟩ := openStore_empty
  have hfound : (openStore ∅ creating zeroKey).toOption.map foldedBetweenFacts =
      some [true, false, true, true, true] := by
    decide +kernel
  rw [hopen] at hfound
  simp only [Except.toOption, Option.map_some, foldedBetweenFacts, Option.some.injEq,
    List.cons.injEq, and_true, decide_eq_false_iff_not, decide_eq_true_eq] at hfound
  obtain ⟨hok, hroom, hreadable, hagain, hmanifest⟩ := hfound
  have hopening : opening ∅ creating zeroKey = .running (openedState first) := by
    unfold opening
    rw [hopen]
  have hend : (Site.closed ∅).course foldedBetween = .closed (committedTwice first).2.dir := by
    simp only [Site.course, foldedBetween, List.foldl_cons, List.foldl_nil, Site.after, hopening,
      Act.onStore, committedTwice, committedOnce]
  have hunbroken : Unbroken (.closed ∅) foldedBetween := by
    simp only [Unbroken, foldedBetween, Site.after, hopening, Act.onStore, StopsShort,
      not_false_eq_true, true_and, and_true]
    exact fun hstops => hroom hstops.2
  have hstore : (openedState first).store.options = creating := options_of_openStore_empty hopen
  have hproper : AllProper {} (.closed ∅) foldedBetween := by
    simp only [AllProper, foldedBetween, Site.after, hopening, Act.onStore, Proper, true_and,
      and_true]
    refine ⟨⟨rfl, by simp⟩, ⟨settles_systemAdvance ?_, fun _ _ _ hop => by cases hop⟩,
      fun _ => hreadable, settles_systemAdvance ?_, fun _ _ _ hop => by cases hop⟩
    · rw [hstore]
      rfl
    · rw [checkpoint_options, commitWriting_options, hstore]
      rfl
  have hcounted : (acknowledged (.closed ∅) foldedBetween).length = 2 := by
    simp only [committedTwice, committedOnce] at hagain
    simp only [acknowledged, foldedBetween, Site.after, hopening, Act.onStore, acknowledges, hok,
      hagain, if_true, List.nil_append, List.append_nil, List.length_append, List.length_singleton]
  rcases (acknowledged_commits_applied (by simp) hunbroken).2 {} _ (by decide) hproper hend with
    ⟨hnone, -⟩ | hopens
  · rw [hmanifest] at hnone
    cases hnone
  · obtain ⟨opened, hagain, -, hled⟩ := hopens creating zeroKey rfl
    exact ⟨_, opened, hend, hagain, hcounted, hled⟩

end PriorityFabric.Histories
