import PriorityFabric.CommitRuns

/-!
What replay makes of a journal whose bytes were altered.

The scan of a segment ends at the first altered record.  Whether replay takes that for
damage depends on the header it finds there, and on whether a later segment exists.
-/

namespace PriorityFabric.AlteredJournals

open PriorityFabric.Lib.LittleEndian
open PriorityFabric.Lib.KeyedTable (getElem?_insert_of_ne)
open PriorityFabric.Basics
open PriorityFabric.Hashing
open PriorityFabric.Model
open PriorityFabric.Codec
open PriorityFabric.State
open PriorityFabric.StateCodec
open PriorityFabric.Durability
open PriorityFabric.JournalScan
open PriorityFabric.Store
open PriorityFabric.Readable
open PriorityFabric.StoreFiles
open PriorityFabric.Replaying
open PriorityFabric.StateDirectory
open PriorityFabric.Committing
open PriorityFabric.Serving
open PriorityFabric.CommitRuns

/-! ## Framing -/

/-- No record that fits begins here: the scan counts nothing as damaged. -/
def Unframed (limits : Limits) (data : Bytes) : Prop :=
  data.length < recordHeaderBytes ∨ fieldAt data 0 4 ≠ journalMagic ∨
    fieldAt data 4 2 ≠ formatVersion ∨ RecordKind.ofNat? (fieldAt data 6 2) = none ∨
    fieldAt data 16 4 > limits.maxRecordPayload ∨
    journalRecordBytes (fieldAt data 16 4) = 0 ∨
    data.length < journalRecordBytes (fieldAt data 16 4)

/-- A stop of the scan counts a failure exactly when the header frames a record. -/
theorem scanRecord_stop (key : Bytes) (limits : Limits) (offset : Nat) (data : Bytes) :
    (¬ Unframed limits data ∧
        ∃ found total, scanRecord key limits offset data = .record found total) ∨
      (Unframed limits data ∧ ∃ detail, scanRecord key limits offset data = .stop detail 0) ∨
      (¬ Unframed limits data ∧
        ∃ detail, scanRecord key limits offset data = .stop detail 1) := by
  unfold scanRecord
  split
  · rename_i hshort
    exact .inr (.inl ⟨.inl hshort, _, rfl⟩)
  · rename_i hlong
    split
    · rename_i hmagic
      exact .inr (.inl ⟨.inr (.inl hmagic), _, rfl⟩)
    · rename_i hmagic
      split
      · rename_i hformat
        exact .inr (.inl ⟨.inr (.inr (.inl hformat)), _, rfl⟩)
      · rename_i hformat
        split
        · rename_i hkind
          exact .inr (.inl ⟨.inr (.inr (.inr (.inl hkind))), _, rfl⟩)
        · rename_i kind hkind
          dsimp only
          split
          · rename_i hlimit
            exact .inr (.inl ⟨.inr (.inr (.inr (.inr (.inl hlimit)))), _, rfl⟩)
          · rename_i hlimit
            split
            · rename_i htotal
              exact .inr (.inl ⟨.inr (.inr (.inr (.inr (.inr htotal)))), _, rfl⟩)
            · rename_i htotal
              have hframed : ¬ Unframed limits data := by
                rintro (h | h | h | h | h | h)
                · exact hlong h
                · exact hmagic h
                · exact hformat h
                · rw [hkind] at h
                  cases h
                · exact hlimit h
                · exact htotal h
              split
              · exact .inr (.inr ⟨hframed, _, rfl⟩)
              · split
                · exact .inr (.inr ⟨hframed, _, rfl⟩)
                · exact .inl ⟨hframed, _, _, rfl⟩

theorem not_record_of_unframed {key : Bytes} {limits : Limits} {offset total : Nat}
    {data : Bytes} {found : JournalRecord} (h : Unframed limits data) :
    scanRecord key limits offset data ≠ .record found total := by
  intro hrecord
  rcases scanRecord_stop key limits offset data with
    ⟨hframed, -⟩ | ⟨-, detail, hstop⟩ | ⟨hframed, -⟩
  · exact hframed h
  · rw [hrecord] at hstop
    cases hstop
  · exact hframed h

/-! ## The first altered record -/

/-- The content goes on with `rest` where one of the records should stand. -/
structure AlteredAt (key : Bytes) (records : List JournalRecord) (content : Bytes)
    (front : List JournalRecord) (rest : Bytes) : Prop where
  content : content = journalBytes key front ++ rest
  record : ∃ record back, records = front ++ record :: back ∧
    ¬ encodeJournalRecord record key <+: rest

/-- What the scan accepts in the place of a record is that record. -/
def Unforged (limits : Limits) (key : Bytes) (records : List JournalRecord)
    (content : Bytes) : Prop :=
  ∀ front record back rest offset found total, records = front ++ record :: back →
    content = journalBytes key front ++ rest →
    scanRecord key limits offset rest = .record found total →
    encodeJournalRecord record key <+: rest

theorem exists_alteredAt {key : Bytes} {records : List JournalRecord} {content : Bytes}
    (hlength : content.length = (journalBytes key records).length)
    (hne : content ≠ journalBytes key records) :
    ∃ front rest, AlteredAt key records content front rest := by
  induction records generalizing content with
  | nil =>
      refine absurd ?_ hne
      exact List.eq_nil_of_length_eq_zero hlength
  | cons record records ih =>
      have hcons : journalBytes key (record :: records) =
          encodeJournalRecord record key ++ journalBytes key records := List.flatMap_cons
      by_cases hbegins : encodeJournalRecord record key <+: content
      · obtain ⟨tail, rfl⟩ := hbegins
        rw [hcons, List.length_append, List.length_append, Nat.add_left_cancel_iff] at hlength
        have htail : tail ≠ journalBytes key records := by
          rintro rfl
          exact hne hcons.symm
        obtain ⟨front, rest, htailEq, found, back, hsplit, hnot⟩ := ih hlength htail
        refine ⟨record :: front, rest, ?_, found, back, by rw [hsplit]; rfl, hnot⟩
        rw [htailEq, ← List.append_assoc]
        rfl
      · exact ⟨[], content, rfl, record, records, rfl, hbegins⟩

section Segment

variable {limits : Limits} {key content rest : Bytes} {records front : List JournalRecord}

theorem AlteredAt.rest_pos (h : AlteredAt key records content front rest)
    (hlength : content.length = (journalBytes key records).length) : 0 < rest.length := by
  obtain ⟨record, back, hsplit, -⟩ := h.record
  have hrecord := length_encodeJournalRecord record key
  rw [h.content, hsplit] at hlength
  simp only [journalBytes, List.flatMap_append, List.flatMap_cons, List.length_append]
    at hlength
  omega

theorem scan_altered {dir : Directory} {name : Bytes} (hkey : key ≠ [])
    (hfile : dir[name]? = some content) (hfits : SegmentFits limits key records 0)
    (hlength : content.length = (journalBytes key records).length)
    (h : AlteredAt key records content front rest)
    (hunforged : Unforged limits key records content) :
    ∃ scan, scanJournalSegment dir name key limits = .ok scan ∧ scan.records = front ∧
      scan.trailingBytes = rest.length ∧
      (Unframed limits rest ∧ scan = { scanned front rest.length with
          failureDetail := scan.failureDetail } ∨
        ¬ Unframed limits rest ∧ 0 < scan.integrityFailures) := by
  obtain ⟨record, back, hsplit, hnot⟩ := h.record
  have hbytes : content.length ≤ limits.maxStateBytes := by
    have hbytes := hfits.bytes
    omega
  have hpositive := h.rest_pos hlength
  have hempty : rest.isEmpty = false := by
    rw [List.isEmpty_eq_false_iff]
    exact List.ne_nil_of_length_pos hpositive
  have hfit : PayloadsFit limits front := fun found hfound =>
    hfits.payloads found (by rw [hsplit]; exact List.mem_append_left _ hfound)
  obtain ⟨more, hroom⟩ : ∃ more, maxRecordsPerSegment = (more + 1) + front.length := by
    have hcount := hfits.count
    rw [hsplit, List.length_append, List.length_cons] at hcount
    exact ⟨maxRecordsPerSegment - front.length - 1, by omega⟩
  have hloop : scanLoop key limits maxRecordsPerSegment 0 content {} =
      scanLoop key limits (more + 1) (0 + (journalBytes key front).length) rest
        { records := front, recordsRead := 0 + front.length } := by
    rw [hroom, h.content, scanLoop_journalBytes hfit]
    rfl
  have hscan : scanJournalSegment dir name key limits =
      .ok (scanLoop key limits maxRecordsPerSegment 0 content {}) := by
    simp only [scanJournalSegment, bind_eq_ok, failIf_eq_ok, exists_const, pure, Except.pure,
      Except.ok.injEq]
    exact ⟨hkey, _, readFile_eq_ok hfile hbytes, rfl⟩
  refine ⟨_, hscan, ?_⟩
  rw [hloop, scanLoop, hempty]
  simp only [Bool.false_eq_true, if_false]
  rcases scanRecord_stop key limits (0 + (journalBytes key front).length) rest with
    ⟨-, found, total, hfound⟩ | ⟨hunframed, detail, hstop⟩ | ⟨hframed, detail, hstop⟩
  · exact absurd (hunforged _ _ _ _ _ _ _ hsplit h.content hfound) hnot
  · rw [hstop]
    refine ⟨rfl, rfl, .inl ⟨hunframed, ?_⟩⟩
    simp only [scanned, Nat.zero_add]
  · rw [hstop]
    exact ⟨rfl, rfl, .inr ⟨hframed, Nat.zero_lt_succ _⟩⟩

end Segment

/-! ## Replay of the altered segment -/

theorem replayRecords_degraded {limits : Limits} {replay : Replay}
    (h : replay.report.health = .degraded) (records : List JournalRecord) :
    (replayRecords limits replay records).report.health = .degraded := by
  induction records generalizing replay with
  | nil => exact h
  | cons record records ih =>
      rw [replayRecords]
      cases hrecord : replayRecord limits replay record with
      | error stopped => exact replayRecord_degraded hrecord
      | ok next => exact ih ((replayRecord_health hrecord).trans h)

section Segment

variable {limits : Limits} {key content rest : Bytes} {records front : List JournalRecord}
  {dir : Directory} {index : Nat} {replay middle : Replay}

/-- Damage that the header frames, or that a later segment follows, degrades the store; so
does a rejected record before it. -/
theorem replaySegments_detects (hkey : key ≠ [])
    (hfile : dir[journalSegmentName index]? = some content)
    (hfits : SegmentFits limits key records 0)
    (hlength : content.length = (journalBytes key records).length)
    (h : AlteredAt key records content front rest)
    (hunforged : Unforged limits key records content) {indexes : List Nat}
    (hdetects : ¬ Unframed limits rest ∨ indexes ≠ [] ∨
      ∃ stopped, Stops limits replay front stopped) :
    ∃ stopped, replaySegments limits key (index :: indexes) dir replay = .ok (dir, stopped) ∧
      stopped.report.health = .degraded := by
  obtain ⟨scan, hscan, hrecords, htrailing, hverdict⟩ :=
    scan_altered hkey hfile hfits hlength h hunforged
  have hpositive := h.rest_pos hlength
  rw [replaySegments]
  simp only [hscan, bind, Except.bind, hrecords, htrailing]
  by_cases hdegraded :
      (replayRecords limits (replay.account scan) front).report.health = .degraded
  · simp only [hdegraded, if_true]
    exact ⟨_, rfl, hdegraded⟩
  · rcases hverdict with ⟨hunframed, heq⟩ | ⟨-, hfailures⟩
    · have haccount : replay.account scan = Replay.seen replay front.length := by
        rw [heq, ← account_scanned replay front rest.length]
        rfl
      rcases hdetects with hframed | hlater | ⟨stopped, hstops⟩
      · exact absurd hunframed hframed
      · have hmore : indexes.isEmpty = false := by
          rwa [List.isEmpty_eq_false_iff]
        simp only [hdegraded, if_false, gt_iff_lt, hpositive, if_true, hmore,
          Bool.false_eq_true]
        exact ⟨_, rfl, rfl⟩
      · refine absurd ?_ hdegraded
        rw [haccount, (hstops.seen front.length).replayRecords_eq]
        exact hstops.degraded
    · refine absurd (replayRecords_degraded ?_ front) hdegraded
      rw [Replay.account, if_pos hfailures]

theorem replaySegments_cuts (hkey : key ≠ [])
    (hfile : dir[journalSegmentName index]? = some content)
    (hfits : SegmentFits limits key records 0)
    (hlength : content.length = (journalBytes key records).length)
    (h : AlteredAt key records content front rest)
    (hunforged : Unforged limits key records content)
    (hhealth : replay.report.health = .healthy) (hrun : Runs limits replay front middle)
    (hunframed : Unframed limits rest) :
    replaySegments limits key [index] dir replay =
      .ok (truncateTail dir (journalSegmentName index) rest.length,
        Replay.cut (Replay.seen middle front.length) rest.length) := by
  obtain ⟨scan, hscan, hrecords, htrailing, hverdict⟩ :=
    scan_altered hkey hfile hfits hlength h hunforged
  have hpositive := h.rest_pos hlength
  obtain ⟨-, heq⟩ := hverdict.resolve_right fun hframed => hframed.1 hunframed
  have haccount : replay.account scan = Replay.seen replay front.length := by
    rw [heq, ← account_scanned replay front rest.length]
    rfl
  have hmiddle : middle.report.health = .healthy := by rw [hrun.health, hhealth]
  have hdegraded := not_degraded_seen hmiddle front.length
  rw [replaySegments]
  simp only [hscan, bind, Except.bind, hrecords, htrailing, haccount,
    (hrun.seen front.length).replayRecords_eq, hdegraded, if_false, gt_iff_lt, hpositive,
    if_true, List.isEmpty_nil]
  rfl

end Segment

/-! ## Altered directories -/

/-- Bytes inside the segments differ; no file has another length. -/
structure Altered (dir dir' : Directory) (key : Bytes) (ledger : Ledger) : Prop where
  others : ∀ name, (∀ i < ledger.segments.length,
    journalSegmentName (ledger.manifest.firstSegment + i) ≠ name) → dir'[name]? = dir[name]?
  files : ∀ i records, ledger.segments[i]? = some records →
    ∃ content, dir'[journalSegmentName (ledger.manifest.firstSegment + i)]? = some content ∧
      content.length = (journalBytes key records).length
  changed : dir' ≠ dir

/-- No altered record verifies under the key. -/
def NoneForged (dir' : Directory) (limits : Limits) (key : Bytes) (ledger : Ledger) : Prop :=
  ∀ i records content, ledger.segments[i]? = some records →
    dir'[journalSegmentName (ledger.manifest.firstSegment + i)]? = some content →
    Unforged limits key records content

/-- Only the last segment is altered, the records before its first altered one replay, and
where that one should stand no record is framed. -/
def LooksUnfinished (dir' : Directory) (limits : Limits) (key : Bytes) (ledger : Ledger) :
    Prop :=
  ∃ earlier records content front rest, ledger.segments = earlier ++ [records] ∧
    SegmentFiles dir' key ledger.manifest.firstSegment earlier ∧
    dir'[journalSegmentName (ledger.manifest.firstSegment + earlier.length)]? = some content ∧
    AlteredAt key records content front rest ∧ Unframed limits rest ∧
    ∃ middle, Runs limits ledger.start (earlier.flatten ++ front) middle

/-- Replay refuses the directory, or calls it degraded and leaves it as it is. -/
def Detected (dir : Directory) (options : Options) (key : Bytes) : Prop :=
  ∀ replayed, replay dir options key = .ok replayed →
    replayed.report.health = .degraded ∧ replayed.dir = dir

theorem exists_altered {dir : Directory} {key : Bytes} {segments : List (List JournalRecord)}
    {first : Nat}
    (hfiles : ∀ i records, segments[i]? = some records →
      ∃ content, dir[journalSegmentName (first + i)]? = some content)
    (hnot : ¬ SegmentFiles dir key first segments) :
    ∃ earlier records later content, segments = earlier ++ records :: later ∧
      SegmentFiles dir key first earlier ∧
      dir[journalSegmentName (first + earlier.length)]? = some content ∧
      content ≠ journalBytes key records := by
  induction segments generalizing first with
  | nil =>
      refine absurd ?_ hnot
      intro i records hrecords
      cases hrecords
  | cons records segments ih =>
      obtain ⟨content, hcontent⟩ := hfiles 0 records rfl
      by_cases hsame : content = journalBytes key records
      · have hrest : ¬ SegmentFiles dir key (first + 1) segments := by
          intro hrest
          refine hnot fun i found hfound => ?_
          cases i with
          | zero =>
              cases hfound
              rw [hcontent, hsame]
          | succ i =>
              rw [← hrest i found hfound, Nat.add_assoc, Nat.add_comm 1 i]
        obtain ⟨earlier, found, later, altered, hsplit, hearlier, haltered, hne⟩ :=
          ih (fun i found hfound => by
            rw [Nat.add_assoc, Nat.add_comm 1 i]
            exact hfiles (i + 1) found hfound) hrest
        refine ⟨records :: earlier, found, later, altered, by rw [hsplit]; rfl, ?_, ?_, hne⟩
        · intro i kept hkept
          cases i with
          | zero =>
              cases hkept
              rw [hcontent, hsame]
          | succ i =>
              rw [← hearlier i kept hkept, Nat.add_assoc, Nat.add_comm 1 i]
        · rw [← haltered, List.length_cons, Nat.add_assoc, Nat.add_comm 1 earlier.length]
      · refine ⟨[], records, segments, content, rfl, ?_, hcontent, hsame⟩
        intro i kept hkept
        cases hkept

theorem runs_or_stops (limits : Limits) (replay : Replay) (records : List JournalRecord) :
    (∃ last, Runs limits replay records last) ∨ ∃ stopped, Stops limits replay records stopped := by
  induction records generalizing replay with
  | nil => exact .inl ⟨replay, .nil replay⟩
  | cons record records ih =>
      cases hrecord : replayRecord limits replay record with
      | error stopped => exact .inr ⟨stopped, .here records hrecord⟩
      | ok next =>
          rcases ih next with ⟨last, hrun⟩ | ⟨stopped, hstops⟩
          · exact .inl ⟨last, .cons hrecord hrun⟩
          · exact .inr ⟨stopped, .later hrecord hstops⟩

section Replays

variable {dir dir' : Directory} {options : Options} {key : Bytes} {ledger : Ledger}

theorem replay_altered (h : Holds dir options.limits key ledger)
    (halt : Altered dir dir' key ledger) {found : Directory} {finished : Replay}
    (hsegments : replaySegments options.limits key
      (List.range' ledger.manifest.firstSegment ledger.segments.length) dir' ledger.start =
        .ok (found, finished)) :
    replay dir' options key = .ok (concluded found finished) := by
  have hbound := h.names.bound
  have hother {name : Bytes} (hname : parseJournalSegmentName name = none) :
      dir'[name]? = dir[name]? :=
    halt.others name fun i hi => journalSegmentName_ne (by omega) hname
  refine replay_eq ((hother parse_manifestName).trans h.manifest_file) h.manifest_fits
    ((replayStart_congr (hother parse_snapshotName) _ _ _).trans h.start) ?_ h.count hsegments
  refine h.names.congr fun name index hparse => ?_
  rw [Std.ExtTreeMap.mem_iff_isSome_getElem?, Std.ExtTreeMap.mem_iff_isSome_getElem?]
  by_cases hsegment : ∃ i, i < ledger.segments.length ∧
      journalSegmentName (ledger.manifest.firstSegment + i) = name
  · obtain ⟨i, hi, rfl⟩ := hsegment
    obtain ⟨content, hcontent, -⟩ := halt.files i _ (List.getElem?_eq_getElem hi)
    rw [hcontent, h.files i _ (List.getElem?_eq_getElem hi)]
    rfl
  · rw [halt.others name fun i hi heq => hsegment ⟨i, hi, heq⟩]

section Split

variable {earlier later : List (List JournalRecord)} {records : List JournalRecord}

theorem range'_segments (hsplit : ledger.segments = earlier ++ records :: later) :
    List.range' ledger.manifest.firstSegment ledger.segments.length =
      List.range' ledger.manifest.firstSegment earlier.length ++
        (ledger.manifest.firstSegment + earlier.length) ::
          List.range' (ledger.manifest.firstSegment + earlier.length + 1) later.length := by
  rw [hsplit, List.length_append, List.length_cons, ← List.range'_append, Nat.one_mul,
    List.range'_succ]

theorem Holds.earlier_fits (h : Holds dir options.limits key ledger)
    (hsplit : ledger.segments = earlier ++ records :: later) :
    ∀ segment ∈ earlier, SegmentFits options.limits key segment 0 := by
  intro segment hsegment
  refine h.fits segment ?_
  rw [hsplit]
  exact List.mem_append_left _ hsegment

/-- The altered segment: what it held, and that its content has the same length. -/
theorem Altered.segment (h : Holds dir options.limits key ledger)
    (halt : Altered dir dir' key ledger)
    (hsplit : ledger.segments = earlier ++ records :: later) {content : Bytes}
    (hcontent : dir'[journalSegmentName (ledger.manifest.firstSegment + earlier.length)]? =
      some content) :
    ledger.segments[earlier.length]? = some records ∧
      SegmentFits options.limits key records 0 ∧
      content.length = (journalBytes key records).length := by
  have hplace : ledger.segments[earlier.length]? = some records := by
    rw [hsplit]
    simp
  obtain ⟨content', hcontent', hlength⟩ := halt.files _ _ hplace
  rw [hcontent] at hcontent'
  cases hcontent'
  exact ⟨hplace, h.fits records (List.mem_of_getElem? hplace), hlength⟩

end Split

/-- What looks like an unfinished append is cut off, and the store is called healthy. -/
theorem replay_of_looksUnfinished (h : Holds dir options.limits key ledger)
    (halt : Altered dir dir' key ledger) (hforged : NoneForged dir' options.limits key ledger)
    (hlooks : LooksUnfinished dir' options.limits key ledger) :
    ∃ replayed, replay dir' options key = .ok replayed ∧
      replayed.report.health = .healthy := by
  obtain ⟨earlier, records, content, front, rest, hsplit, hearlier, hcontent, hat, hunframed,
    middle, hruns⟩ := hlooks
  have hkey := key_ne_nil (length_of_readStoreKey h.key_file)
  obtain ⟨hplace, hfits, hlength⟩ := Altered.segment h halt hsplit hcontent
  obtain ⟨before, hbefore, hfront⟩ := hruns.split
  have hhealth : (Replay.seen before earlier.flatten.length).report.health = .healthy :=
    hbefore.health
  have hpassed := replaySegments_files hkey hearlier (Holds.earlier_fits h hsplit) rfl hbefore
    [ledger.manifest.firstSegment + earlier.length]
  have hcuts := replaySegments_cuts hkey hcontent hfits hlength hat
    (hforged _ _ _ hplace hcontent) hhealth (hfront.seen _) hunframed
  have hsegments := range'_segments hsplit
  rw [List.length_nil, List.range'_zero] at hsegments
  refine ⟨_, replay_altered h halt (by rw [hsegments]; exact hpassed.trans hcuts), ?_⟩
  rw [health_concluded]
  exact hfront.health.trans hhealth

theorem exists_altered_of_ne (h : Holds dir options.limits key ledger)
    (halt : Altered dir dir' key ledger) :
    ¬ SegmentFiles dir' key ledger.manifest.firstSegment ledger.segments := by
  intro hsame
  refine halt.changed (Std.ExtTreeMap.ext_getElem? fun name => ?_)
  by_cases hsegment : ∃ i, i < ledger.segments.length ∧
      journalSegmentName (ledger.manifest.firstSegment + i) = name
  · obtain ⟨i, hi, rfl⟩ := hsegment
    rw [hsame i _ (List.getElem?_eq_getElem hi), h.files i _ (List.getElem?_eq_getElem hi)]
  · exact halt.others name fun i hi heq => hsegment ⟨i, hi, heq⟩

theorem detected_of_not_looksUnfinished (h : Holds dir options.limits key ledger)
    (halt : Altered dir dir' key ledger) (hforged : NoneForged dir' options.limits key ledger)
    (hlooks : ¬ LooksUnfinished dir' options.limits key ledger) :
    Detected dir' options key := by
  have hkey := key_ne_nil (length_of_readStoreKey h.key_file)
  obtain ⟨earlier, records, later, content, hsplit, hearlier, hcontent, hne⟩ :=
    exists_altered (fun i records hrecords =>
      (halt.files i records hrecords).imp fun _ hfile => hfile.1) (exists_altered_of_ne h halt)
  obtain ⟨hplace, hfits, hlength⟩ := Altered.segment h halt hsplit hcontent
  obtain ⟨front, rest, hat⟩ := exists_alteredAt hlength hne
  have hunforged := hforged _ _ _ hplace hcontent
  have hearlierFits := Holds.earlier_fits h hsplit
  have hstopped : ∃ stopped, replaySegments options.limits key
      (List.range' ledger.manifest.firstSegment ledger.segments.length) dir' ledger.start =
        .ok (dir', stopped) ∧ stopped.report.health = .degraded := by
    rw [range'_segments hsplit]
    rcases runs_or_stops options.limits ledger.start earlier.flatten with
      ⟨before, hbefore⟩ | ⟨stopped, hstops⟩
    · rw [replaySegments_files hkey hearlier hearlierFits rfl hbefore]
      refine replaySegments_detects hkey hcontent hfits hlength hat hunforged ?_
      by_cases hlater : later = []
      · subst hlater
        rcases runs_or_stops options.limits before front with ⟨middle, hfront⟩ | ⟨stopped, hstops⟩
        · exact .inl fun hunframed => hlooks ⟨earlier, records, content, front, rest, hsplit,
            hearlier, hcontent, hat, hunframed, middle, hbefore.append hfront⟩
        · exact .inr (.inr ⟨_, hstops.seen _⟩)
      · refine .inr (.inl fun hnil => hlater ?_)
        have hcount := congrArg List.length hnil
        rw [List.length_range'] at hcount
        exact List.length_eq_zero_iff.mp hcount
    · obtain ⟨count, hcount⟩ := replaySegments_stops hkey hearlier hearlierFits rfl hstops _
      exact ⟨_, hcount, hstops.degraded⟩
  obtain ⟨stopped, hsegments, hdegraded⟩ := hstopped
  intro replayed hreplay
  rw [replay_altered h halt hsegments] at hreplay
  cases hreplay
  exact ⟨(health_concluded _ _).trans hdegraded, rfl⟩

/-- Replay notices an alteration exactly when it does not look like an unfinished append. -/
theorem altered_journal_detected_iff (h : Holds dir options.limits key ledger)
    (halt : Altered dir dir' key ledger) (hforged : NoneForged dir' options.limits key ledger) :
    Detected dir' options key ↔ ¬ LooksUnfinished dir' options.limits key ledger := by
  constructor
  · intro hdetected hlooks
    obtain ⟨replayed, hreplay, hhealth⟩ := replay_of_looksUnfinished h halt hforged hlooks
    have hdegraded := (hdetected replayed hreplay).1
    rw [hhealth] at hdegraded
    cases hdegraded
  · exact detected_of_not_looksUnfinished h halt hforged

end Replays

/-! ## Journals of accepted commits -/

/-- The states of a store that accepts one mutation after the other. -/
inductive Commits (first : StoreState) : StoreState → Prop
  | start : Commits first first
  | accepted {s next : StoreState} {mutation : Mutation} (h : Commits first s)
      (hcommit : commit s mutation = (.ok (), next)) : Commits first next

def flipFirst : Bytes → Bytes
  | [] => []
  | byte :: rest => (byte ^^^ 255) :: rest

theorem length_flipFirst (bytes : Bytes) : (flipFirst bytes).length = bytes.length := by
  cases bytes <;> rfl

theorem begins_with_magic (record : JournalRecord) (key : Bytes) :
    ∃ rest, encodeJournalRecord record key = appendLe 4 journalMagic ++ rest := by
  rw [encodeJournalRecord, recordHeader]
  simp only [List.append_assoc]
  exact ⟨_, rfl⟩

theorem fieldAt_flipFirst {record : JournalRecord} {key data : Bytes}
    (h : encodeJournalRecord record key <+: data) :
    fieldAt (flipFirst data) 0 4 ≠ journalMagic := by
  obtain ⟨rest, hrest⟩ := begins_with_magic record key
  obtain ⟨tail, rfl⟩ := h
  rw [hrest, List.append_assoc]
  have hmagic : appendLe 4 journalMagic = [80, 70, 74, 49] := by decide
  rw [hmagic]
  have hread : fieldAt (flipFirst ([80, 70, 74, 49] ++ (rest ++ tail))) 0 4 =
      readLe [80 ^^^ 255, 70, 74, 49] := rfl
  rw [hread]
  decide

theorem fieldAt_of_begins {record : JournalRecord} {key data : Bytes}
    (h : encodeJournalRecord record key <+: data) : fieldAt data 0 4 = journalMagic := by
  obtain ⟨rest, hrest⟩ := begins_with_magic record key
  obtain ⟨tail, rfl⟩ := h
  rw [hrest, List.append_assoc]
  exact @fieldAt_append [] _ 0 4 _ rfl (by decide)

theorem unforged_journalBytes (limits : Limits) (key : Bytes) (records : List JournalRecord) :
    Unforged limits key records (journalBytes key records) := by
  intro front record back rest offset found total hsplit hcontent hrecord
  rw [hsplit, journalBytes_append, List.append_cancel_left_eq] at hcontent
  rw [← hcontent]
  exact List.prefix_append _ _

theorem unforged_flipFirst (limits : Limits) (key : Bytes) (records : List JournalRecord) :
    Unforged limits key records (flipFirst (journalBytes key records)) := by
  intro front record back rest offset found total hsplit hcontent hrecord
  have hflipped : fieldAt (flipFirst (journalBytes key records)) 0 4 ≠ journalMagic := by
    cases records with
    | nil => simp at hsplit
    | cons first more => exact fieldAt_flipFirst (List.prefix_append _ _)
  cases front with
  | nil =>
      have hrest : rest = flipFirst (journalBytes key records) := hcontent.symm
      rw [← hrest] at hflipped
      exact absurd hrecord (not_record_of_unframed (.inr (.inl hflipped)))
  | cons first front =>
      refine absurd (@fieldAt_of_begins first key _ ?_) hflipped
      rw [hcontent]
      exact (List.prefix_append _ _).trans (List.prefix_append _ _)

section Flipped

variable {s : StoreState} {ledger : Ledger} {mutations : List Mutation}
  {front : List (List JournalRecord)} {records : List JournalRecord}

/-- The directory with the first byte of its last segment altered. -/
def flippedDir (s : StoreState) (ledger : Ledger) (front : List (List JournalRecord))
    (records : List JournalRecord) : Directory :=
  s.dir.insert (lastName ledger front) (flipFirst (journalBytes s.store.key records))

theorem flipped_altered (h : Cursor s ledger front records) (hne : records ≠ []) :
    Altered s.dir (flippedDir s ledger front records) s.store.key ledger ∧
      NoneForged (flippedDir s ledger front records) s.store.options.limits s.store.key
        ledger := by
  have hlast := h.last
  have hbound := h.holds.names.bound
  have hlength : ledger.segments.length = front.length + 1 := by
    rw [hlast]
    simp
  have hplace : ledger.segments[front.length]? = some records := by
    rw [hlast]
    simp
  have hsegment {i : Nat} (hi : i < ledger.segments.length) (hother : i ≠ front.length) :
      (flippedDir s ledger front records)[
          journalSegmentName (ledger.manifest.firstSegment + i)]? =
        s.dir[journalSegmentName (ledger.manifest.firstSegment + i)]? := by
    refine getElem?_insert_of_ne _ fun heq => hother ?_
    have := journalSegmentName_injective (by omega) (by omega) heq
    omega
  have hflipped : (flippedDir s ledger front records)[lastName ledger front]? =
      some (flipFirst (journalBytes s.store.key records)) :=
    Std.ExtTreeMap.getElem?_insert_self
  refine ⟨⟨?_, ?_, ?_⟩, ?_⟩
  · intro name hname
    exact getElem?_insert_of_ne _ (hname front.length (by omega))
  · intro i found hfound
    have hi : i < ledger.segments.length := (List.getElem?_eq_some_iff.mp hfound).1
    by_cases hplaced : i = front.length
    · subst hplaced
      rw [hplace] at hfound
      cases hfound
      exact ⟨_, hflipped, length_flipFirst _⟩
    · exact ⟨_, (hsegment hi hplaced).trans (h.holds.files i found hfound), rfl⟩
  · intro hsame
    have hfile := h.holds.last_file hlast
    rw [← hsame, hflipped, Option.some.injEq] at hfile
    obtain ⟨record, back, rfl⟩ := List.exists_cons_of_ne_nil hne
    have hbegins : encodeJournalRecord record s.store.key <+:
        journalBytes s.store.key (record :: back) := List.prefix_append _ _
    refine fieldAt_flipFirst hbegins ?_
    rw [hfile]
    exact fieldAt_of_begins hbegins
  · intro i found content hfound hcontent
    have hi : i < ledger.segments.length := (List.getElem?_eq_some_iff.mp hfound).1
    by_cases hplaced : i = front.length
    · subst hplaced
      rw [hplace] at hfound
      cases hfound
      obtain rfl : flipFirst (journalBytes s.store.key records) = content :=
        Option.some.inj (hflipped.symm.trans hcontent)
      exact unforged_flipFirst _ _ _
    · rw [hsegment hi hplaced, h.holds.files i found hfound, Option.some.injEq] at hcontent
      rw [← hcontent]
      exact unforged_journalBytes _ _ _

theorem flipped_looksUnfinished (h : Serves s ledger mutations)
    (hcursor : Cursor s ledger front records) (hne : records ≠ []) :
    LooksUnfinished (flippedDir s ledger front records) s.store.options.limits s.store.key
      ledger := by
  obtain ⟨image, hplay, -⟩ := h.image
  have hruns := h.journal.runs hplay
  have hflat : ledger.records = front.flatten ++ records := by
    rw [Ledger.records, hcursor.last]
    simp
  rw [hflat] at hruns
  obtain ⟨middle, hfront, -⟩ := hruns.split
  obtain ⟨record, back, rfl⟩ := List.exists_cons_of_ne_nil hne
  have hmagic := @fieldAt_flipFirst record s.store.key
    (journalBytes s.store.key (record :: back)) (List.prefix_append _ _)
  refine ⟨front, record :: back, _, [], _, hcursor.last,
    hcursor.holds.front_files hcursor.last _, Std.ExtTreeMap.getElem?_insert_self,
    ⟨rfl, record, back, rfl, fun hbegins => hmagic (fieldAt_of_begins hbegins)⟩,
    .inr (.inl hmagic), middle, ?_⟩
  rw [List.append_nil]
  exact hfront

end Flipped

theorem exists_committed :
    ∃ opened s ledger mutations front records, openStore ∅ creating zeroKey = .ok opened ∧
      Commits (openedState opened) s ∧ Serves s ledger mutations ∧
      Cursor s ledger front records ∧ records ≠ [] := by
  obtain ⟨opened, hopen⟩ := openStore_empty
  have hoptions : (openedState opened).store.options = creating :=
    options_of_openStore_empty hopen
  obtain ⟨segments, hserves⟩ := faithful_openStore (by simp) hopen (by decide)
  have hcommitted : (openStore ∅ creating zeroKey).toOption.map
      (fun opened => ((commit (openedState opened) systemAdvance).1.isOk,
        decide (0 < (commit (openedState opened) systemAdvance).2.store.segmentBytes))) =
      some (true, true) := by
    decide
  rw [hopen] at hcommitted
  simp only [Except.toOption, Option.map_some, Option.some.injEq, Prod.mk.injEq,
    decide_eq_true_eq] at hcommitted
  obtain ⟨hok, hbytes⟩ := hcommitted
  generalize hcommit : commit (openedState opened) systemAdvance = result at hok hbytes
  obtain ⟨status, s⟩ := result
  cases status with
  | error e => cases hok
  | ok u =>
      have hfits : RecordFits (openedState opened).store.options.limits systemAdvance := by
        rw [hoptions]
        exact recordFits_systemAdvance
      obtain ⟨segments', hnext⟩ := hserves.accepted hcommit hfits
      obtain ⟨front, records, hcursor⟩ := hnext.journal.cursor
      refine ⟨opened, s, _, _, front, records, hopen, .accepted .start hcommit, hnext, hcursor, ?_⟩
      rintro rfl
      rw [hcursor.bytes] at hbytes
      exact absurd hbytes (lt_irrefl 0)

theorem altered_journal_detected_iff_flipped :
    ∃ opened s dir', openStore ∅ creating zeroKey = .ok opened ∧
      Commits (openedState opened) s ∧ s.dir ≠ dir' ∧
      ¬ Detected dir' s.store.options s.store.key := by
  obtain ⟨opened, s, ledger, mutations, front, records, hopen, hcommits, hserves, hcursor, hne⟩ :=
    exists_committed
  obtain ⟨halt, hforged⟩ := flipped_altered hcursor hne
  refine ⟨opened, s, _, hopen, hcommits, halt.changed.symm, fun hdetected => ?_⟩
  exact (altered_journal_detected_iff hcursor.holds halt hforged).mp hdetected
    (flipped_looksUnfinished hserves hcursor hne)

/-- The magic value of the last segment's first record is altered: its mutations are gone,
and the store is called healthy. -/
theorem altered_journal_called_healthy :
    ∃ opened s dir' ledger replayed, openStore ∅ creating zeroKey = .ok opened ∧
      Commits (openedState opened) s ∧ Holds s.dir s.store.options.limits s.store.key ledger ∧
      Altered s.dir dir' s.store.key ledger ∧
      NoneForged dir' s.store.options.limits s.store.key ledger ∧
      replay dir' s.store.options s.store.key = .ok replayed ∧
      replayed.report.health = .healthy := by
  obtain ⟨opened, s, ledger, mutations, front, records, hopen, hcommits, hserves, hcursor, hne⟩ :=
    exists_committed
  obtain ⟨halt, hforged⟩ := flipped_altered hcursor hne
  obtain ⟨replayed, hreplay, hhealth⟩ := replay_of_looksUnfinished hcursor.holds halt hforged
    (flipped_looksUnfinished hserves hcursor hne)
  exact ⟨opened, s, _, ledger, replayed, hopen, hcommits, hcursor.holds, halt, hforged, hreplay,
    hhealth⟩

end PriorityFabric.AlteredJournals
