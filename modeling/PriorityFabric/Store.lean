import PriorityFabric.Apply
import PriorityFabric.Durability

/-!
The durable store: manifest, snapshot, journal replay, opening, committing,
checkpointing and verification.

File operations act on a `Directory`.  A write of the journal may be cut short;
replacing the manifest or the snapshot is atomic.
-/

namespace PriorityFabric.Store

open PriorityFabric.Lib.LittleEndian
open PriorityFabric.Basics
open PriorityFabric.Ident
open PriorityFabric.Hashing
open PriorityFabric.Model
open PriorityFabric.Codec
open PriorityFabric.ModelCodec
open PriorityFabric.State
open PriorityFabric.StateCodec
open PriorityFabric.Apply
open PriorityFabric.Durability

structure Options where
  limits : Limits := {}
  createIfMissing : Bool := false
  exclusiveLock : Bool := true

/-- The journal rolls to a new segment when the current one reaches this size. -/
def segmentRollBytes : Nat := 64 * 1024 * 1024

/-- The open store: the key, the append cursor and the sequence counter.
`segmentOpen` says whether there is a segment to append to. -/
structure DurableStore where
  options : Options
  key : Bytes
  segmentIndex : Nat := 0
  segmentBytes : Nat := 0
  durableBytes : Nat := 0
  journalRecords : Nat := 0
  nextSequence : UInt64 := 1
  segmentOpen : Bool := false
  isOpen : Bool := false

structure Manifest where
  epoch : FabricEpoch := {}
  stateGeneration : Generation := {}
  lastSequence : UInt64 := 0
  firstSegment : Nat := 0
  snapshotPresent : Bool := false
  snapshotDigest : Digest := {}
  snapshotBytes : Nat := 0

def manifestPayload (manifest : Manifest) : Bytes :=
  appendLe 4 manifestMagic ++
    (appendLe 2 formatVersion ++
    (appendLe 8 manifest.epoch.value.toNat ++
    (appendLe 8 manifest.stateGeneration.value.toNat ++
    (appendLe 8 manifest.lastSequence.toNat ++
    (appendLe 4 manifest.firstSegment ++
    (appendLe 1 manifest.snapshotPresent.toNat ++
    (encodeDigest manifest.snapshotDigest ++
    appendLe 8 manifest.snapshotBytes)))))))

def manifestPayloadBytes : Nat := 75

def encodeManifest (key : Bytes) (manifest : Manifest) : Bytes :=
  let payload := manifestPayload manifest
  let crc := appendLe 4 (crc32c payload).toNat
  payload ++ (crc ++ recordMac key payload crc)

def decodeManifest (key data : Bytes) : Result Manifest := do
  let expected := manifestPayloadBytes + 4 + recordMacBytes
  failIf (data.length ≠ expected) .corrupt
    (text "manifest has " ++ decimal data.length ++ text " bytes, expected " ++
      decimal expected)
  failIf (fieldAt data 0 4 ≠ manifestMagic) .corrupt
    (text "manifest has a wrong magic value")
  failIf (fieldAt data 4 2 ≠ formatVersion) .unsupported
    (text "manifest was written by format version " ++ decimal (fieldAt data 4 2))
  let payload := data.take manifestPayloadBytes
  failIf (fieldAt data manifestPayloadBytes 4 ≠ (crc32c payload).toNat) .integrityFailure
    (text "manifest failed its checksum")
  let crc := (data.drop manifestPayloadBytes).take 4
  failIf ((data.drop (manifestPayloadBytes + 4)).take recordMacBytes ≠
      recordMac key payload crc) .integrityFailure
    (text "manifest failed authentication; it was altered or belongs to another store")
  let present := fieldAt data 34 1
  failIf (present > 1) .corrupt (text "manifest carries an invalid snapshot flag")
  return { epoch := ⟨UInt64.ofNat (fieldAt data 6 8)⟩
           stateGeneration := ⟨UInt64.ofNat (fieldAt data 14 8)⟩
           lastSequence := UInt64.ofNat (fieldAt data 22 8)
           firstSegment := fieldAt data 30 4
           snapshotPresent := present == 1
           snapshotDigest := digestOfBytes ((data.drop 35).take 32)
           snapshotBytes := fieldAt data 67 8 }

def readManifest (dir : Directory) (key : Bytes) : Result Manifest := do
  let data ← readFile dir manifestName 4096
  decodeManifest key data

def writeManifest (dir : Directory) (key : Bytes) (manifest : Manifest) : Directory :=
  dir.insert manifestName (encodeManifest key manifest)

def snapshotHeaderBytes : Nat := 42

def snapshotHeader (payload : Bytes) : Bytes :=
  appendLe 4 snapshotMagic ++
    (appendLe 2 formatVersion ++
    (appendLe 4 payload.length ++ encodeDigest (Sha256.hash payload)))

def encodeSnapshot (key payload : Bytes) : Bytes :=
  snapshotHeader payload ++ (payload ++ recordMac key (snapshotHeader payload) payload)

def writeSnapshot (dir : Directory) (store : DurableStore) (image : StateImage) :
    Result Directory := do
  let payload := encodeState image
  failIf (payload.length > store.options.limits.maxStateBytes) .limitExceeded
    (text "state image is " ++ decimal payload.length ++
      text " bytes, the durable growth bound is " ++
      decimal store.options.limits.maxStateBytes)
  return dir.insert snapshotName (encodeSnapshot store.key payload)

def readSnapshot (dir : Directory) (limits : Limits) (key : Bytes)
    (manifest : Manifest) : Result StateImage := do
  let data ← readFile dir snapshotName limits.maxStateBytes
  failIf (data.length < snapshotHeaderBytes + recordMacBytes) .truncated
    (text "snapshot is shorter than its fixed header")
  failIf (fieldAt data 0 4 ≠ snapshotMagic) .corrupt
    (text "snapshot has a wrong magic value")
  failIf (fieldAt data 4 2 ≠ formatVersion) .unsupported
    (text "snapshot was written by format version " ++ decimal (fieldAt data 4 2))
  let payloadLength := fieldAt data 6 4
  failIf (snapshotHeaderBytes + payloadLength + recordMacBytes ≠ data.length) .truncated
    (text "snapshot declares " ++ decimal payloadLength ++
      text " payload bytes but the file holds " ++ decimal data.length)
  failIf (payloadLength > limits.maxStateBytes) .limitExceeded
    (text "snapshot payload exceeds the growth bound")
  let declared := digestOfBytes ((data.drop 10).take 32)
  let payload := (data.drop snapshotHeaderBytes).take payloadLength
  failIf (Sha256.hash payload ≠ declared) .integrityFailure
    (text "snapshot payload digest does not match the declared digest")
  let header := data.take snapshotHeaderBytes
  failIf ((data.drop (snapshotHeaderBytes + payloadLength)).take recordMacBytes ≠
      recordMac key header payload) .integrityFailure
    (text "snapshot failed authentication; it was altered or belongs to another store")
  failIf (manifest.snapshotPresent = true ∧ manifest.snapshotDigest ≠ declared)
    .integrityFailure
    (text "snapshot does not match the digest recorded in the manifest")
  decodeState payload limits

def encodeCommitPayload (sequence : UInt64) (digest : Digest) : Bytes :=
  appendLe 8 sequence.toNat ++ encodeDigest digest

def decodeCommitPayload (payload : Bytes) : Result (UInt64 × Digest) := do
  failIf (payload.length ≠ 40) .corrupt
    (text "commit record carries " ++ decimal payload.length ++ text " bytes, expected " ++
      decimal 40)
  return (UInt64.ofNat (fieldAt payload 0 8), digestOfBytes ((payload.drop 8).take 32))

/-- A replay in progress: the image built so far, the report, the sequence the
next commit must carry and the pending payloads by sequence. -/
structure Replay where
  image : StateImage
  report : IntegrityReport := {}
  expectedSequence : UInt64
  pending : Std.ExtTreeMap UInt64 Bytes := ∅

def Replay.reject (replay : Replay) (detail : Bytes) : Replay :=
  { replay with report := { replay.report with
      recordsRejected := replay.report.recordsRejected + 1
      health := .degraded
      detail := detail } }

/-- Keep the payload of a pending record until its commit. -/
def replayPending (replay : Replay) (record : JournalRecord) : Except Replay Replay :=
  if record.sequence < replay.expectedSequence then
    .error (replay.reject (text "journal repeats sequence " ++
      decimal record.sequence.toNat ++ text ", which is already committed"))
  else if replay.pending.contains record.sequence then
    .error (replay.reject (text "journal holds two pending records for sequence " ++
      decimal record.sequence.toNat))
  else
    .ok { replay with pending := replay.pending.insert record.sequence record.payload }

def replayApply (replay : Replay) (sequence : UInt64) (mutation : Mutation) :
    Except Replay Replay :=
  match applyMutation replay.image mutation true with
  | (.error e, image) =>
      .error ({ replay with image := image }.reject (text "replaying sequence " ++
        decimal sequence.toNat ++ text " failed: " ++ e.message))
  | (.ok (), image) =>
      .ok { image := { image with lastSequence := sequence }
            report := { replay.report with
              recordsApplied := replay.report.recordsApplied + 1 }
            expectedSequence := sequence + 1
            pending := replay.pending.erase sequence }

/-- Match a commit record with its pending record and apply the mutation. -/
def replayCommit (limits : Limits) (replay : Replay) (record : JournalRecord) :
    Except Replay Replay :=
  match decodeCommitPayload record.payload with
  | .error e => .error (replay.reject e.message)
  | .ok (sequence, digest) =>
      if sequence ≠ record.sequence then
        .error (replay.reject (text "commit record for sequence " ++
          decimal record.sequence.toNat ++ text " names sequence " ++
          decimal sequence.toNat))
      else
        match replay.pending[sequence]? with
        | none =>
            .error (replay.reject (text "commit record for sequence " ++
              decimal sequence.toNat ++ text " has no matching pending record"))
        | some payload =>
            match decodeMutation payload limits with
            | .error e => .error (replay.reject e.message)
            | .ok mutation =>
                if sequence ≠ replay.expectedSequence then
                  .error (replay.reject (text "journal jumps from sequence " ++
                    decimal (replay.expectedSequence - 1).toNat ++ text " to " ++
                    decimal sequence.toNat))
                else if Sha256.hash (encodeMutation mutation) ≠ digest then
                  .error (replay.reject (text "commit record digest does not match the " ++
                    text "pending payload for sequence " ++ decimal sequence.toNat))
                else replayApply replay sequence mutation

/-- One record: go on with the result, or stop with it. -/
def replayRecord (limits : Limits) (replay : Replay) (record : JournalRecord) :
    Except Replay Replay :=
  match record.kind with
  | .pending => replayPending replay record
  | .commit => replayCommit limits replay record

/-- The records of one segment, up to the first one that is rejected. -/
def replayRecords (limits : Limits) : Replay → List JournalRecord → Replay
  | replay, [] => replay
  | replay, record :: rest =>
      match replayRecord limits replay record with
      | .error stopped => stopped
      | .ok next => replayRecords limits next rest

def Replay.account (replay : Replay) (scan : JournalScanResult) : Replay :=
  let report := { replay.report with
    recordsScanned := replay.report.recordsScanned + scan.recordsRead }
  if scan.integrityFailures > 0 then
    { replay with report := { report with
        recordsRejected := report.recordsRejected + scan.integrityFailures
        health := .degraded
        detail := scan.failureDetail } }
  else { replay with report }

def truncateTail (dir : Directory) (name : Bytes) (trailing : Nat) : Directory :=
  let content := dir.getD name []
  dir.insert name (content.take (content.length - trailing))

/-- The segments in order.  Unusable bytes at the end of the last segment are an
unfinished append and are cut off; anywhere else they are damage. -/
def replaySegments (limits : Limits) (key : Bytes) :
    List Nat → Directory → Replay → Result (Directory × Replay)
  | [], dir, replay => .ok (dir, replay)
  | index :: rest, dir, replay => do
      let name := journalSegmentName index
      let scan ← scanJournalSegment dir name key limits
      let replay := replayRecords limits (replay.account scan) scan.records
      if replay.report.health = .degraded then return (dir, replay)
      else if scan.trailingBytes > 0 then
        if rest.isEmpty then
          return (truncateTail dir name scan.trailingBytes,
            { replay with report := { replay.report with
                unfinishedAttempts := replay.report.unfinishedAttempts + scan.trailingBytes
                trailingBytesDiscarded :=
                  replay.report.trailingBytesDiscarded + scan.trailingBytes } })
        else
          return (dir, { replay with report := { replay.report with
              health := .degraded
              detail := text "journal segment " ++ decimal index ++ text " ends with " ++
                decimal scan.trailingBytes ++
                text " unusable bytes while a later segment exists" } })
      else replaySegments limits key rest dir replay

/-- The segment indexes the directory's file names claim. -/
def segmentIndices (dir : Directory) : List Nat :=
  dir.keys.filterMap parseJournalSegmentName

/-- The segments the manifest refers to, in ascending order. -/
def discoverSegments (dir : Directory) (firstSegment : Nat) : List Nat :=
  ((segmentIndices dir).filter (firstSegment ≤ ·)).mergeSort

/-- Complete the report and mark a degraded image. -/
def Replay.conclude (replay : Replay) : IntegrityReport × StateImage :=
  let report := replay.report
  let report := if report.health = .healthy ∧ replay.pending.isEmpty = false then
      { report with unfinishedAttempts := report.unfinishedAttempts + replay.pending.size }
    else report
  let ok := report.health == .healthy
  let report := { report with
    ok := ok
    stateGeneration := replay.image.generation
    epoch := replay.image.epoch
    stateDigest := stateDigest replay.image
    detail := if report.detail.isEmpty then
        (if ok then text "durable state verified" else text "durable state is degraded")
      else report.detail }
  if ok then (report, replay.image)
  else (report, { replay.image with health := .degraded, healthDetail := report.detail })

/-- What a replay returns: the report, the image and the directory, whose last
segment may have been truncated. -/
structure Replayed where
  report : IntegrityReport
  image : StateImage
  dir : Directory

/-- The replay of a directory that holds no manifest. -/
def freshReplay (limits : Limits) (dir : Directory) (detail : Bytes) : Replayed :=
  let image : StateImage := { limits }
  { report := { ok := true, health := .healthy, detail,
                stateGeneration := image.generation, epoch := image.epoch,
                stateDigest := stateDigest image }
    image := image
    dir := dir }

def startingImage (dir : Directory) (limits : Limits) (key : Bytes) (manifest : Manifest) :
    Result StateImage :=
  if manifest.snapshotPresent then readSnapshot dir limits key manifest
  else .ok { limits }

/-- The image and the counters a replay starts from; a snapshot counts as one
applied record. -/
def replayStart (dir : Directory) (limits : Limits) (key : Bytes) (manifest : Manifest) :
    Result Replay := do
  let image ← startingImage dir limits key manifest
  return { image := { image with
             epoch := manifest.epoch
             generation := manifest.stateGeneration
             lastSequence := manifest.lastSequence }
           report := { recordsApplied := manifest.snapshotPresent.toNat }
           expectedSequence := manifest.lastSequence + 1 }

def replay (dir : Directory) (options : Options) (key : Bytes) : Result Replayed := do
  let limits := options.limits
  if dir.contains manifestName = false then
    return freshReplay limits dir
      (text "fresh state directory: no manifest, no journal, no snapshot")
  else
    let manifest ← readManifest dir key
    let start ← replayStart dir limits key manifest
    let segments := discoverSegments dir manifest.firstSegment
    failIf (segments.length > limits.maxJournalSegments) .limitExceeded
      (text "state directory holds " ++ decimal segments.length ++
        text " journal segments, limit is " ++ decimal limits.maxJournalSegments)
    let (dir, finished) ← replaySegments limits key segments dir start
    let (report, image) := finished.conclude
    return { report, image, dir }

/-- Open a file for appending, creating it when it is missing. -/
def openAppend (dir : Directory) (name : Bytes) : Directory := dir.insertIfNew name []

def fileSize (dir : Directory) (name : Bytes) : Nat := (dir.getD name []).length

/-- The durable size as the store measures it: zero when it cannot be. -/
def measureDurableBytes (dir : Directory) : Nat :=
  match directoryBytes dir 4096 with
  | .ok total => total
  | .error _ => 0

/-- An open store, the image it recovered, the report and the directory. -/
structure Opened where
  store : DurableStore
  image : StateImage
  report : IntegrityReport
  dir : Directory

/-- The key of a new store: the one the directory holds, or a random one. -/
def obtainKey (dir : Directory) (entropy : List.Vector UInt8 storeKeyBytes) :
    Result (Bytes × Directory) :=
  if dir.contains keyName then (readStoreKey dir).map (·, dir)
  else .ok (entropy.toList, dir.insert keyName (encodeKeyFile entropy.toList))

/-- Create a store in a directory that holds none. -/
def createStore (dir : Directory) (options : Options)
    (entropy : List.Vector UInt8 storeKeyBytes) : Result Opened := do
  failIf (options.createIfMissing = false) .notFound
    (text "the state directory holds no fabric store and create_if_missing is false")
  let stray := dir.keys.find? fun name => (parseJournalSegmentName name).isSome
  failIf (stray ≠ none) .corrupt
    (text "state directory holds journal segment '" ++ stray.getD [] ++
      text "' but no manifest; refusing to guess which records are authoritative")
  let (key, dir) ← obtainKey dir entropy
  let dir := writeManifest dir key {}
  let fresh := freshReplay options.limits dir (text "created a new fabric store")
  return { store := { options, key, durableBytes := measureDurableBytes dir,
                      segmentOpen := true, isOpen := true }
           image := fresh.image
           report := fresh.report
           dir := openAppend dir (journalSegmentName 0) }

/-- Recover the store a directory holds and resume appending after its highest
segment. -/
def resumeStore (dir : Directory) (options : Options) : Result Opened := do
  let key ← readStoreKey dir
  let replayed ← replay dir options key
  let report := if replayed.image.health = .degraded then
      { replayed.report with health := .degraded, ok := false }
    else replayed.report
  let segmentIndex := (segmentIndices replayed.dir).foldl max 0
  let name := journalSegmentName segmentIndex
  let dir := openAppend replayed.dir name
  return { store := { options, key, segmentIndex
                      segmentBytes := fileSize dir name
                      durableBytes := measureDurableBytes dir
                      nextSequence := replayed.image.lastSequence + 1
                      segmentOpen := true, isOpen := true }
           image := replayed.image
           report
           dir }

/-- Taking the lock creates its file, which is never removed. -/
def withLock (dir : Directory) (options : Options) : Directory :=
  if options.exclusiveLock then openAppend dir lockName else dir

/-- Open a state directory; `entropy` is the random key of a new store. -/
def openStore (dir : Directory) (options : Options)
    (entropy : List.Vector UInt8 storeKeyBytes) : Result Opened := do
  failIf (limitsWithinCompiledCeiling options.limits = false) .limitExceeded
    (text "the requested limits exceed the compiled ceiling")
  let dir := withLock dir options
  if dir.contains manifestName = false then createStore dir options entropy
  else resumeStore dir options

/-- The directory, the open store and the image it serves. -/
structure StoreState where
  dir : Directory
  store : DurableStore
  live : StateImage

/-- How a write of the journal ends. -/
inductive WriteOutcome where
  | complete
  | short (written : Nat)
  | unflushed
  deriving DecidableEq, Repr

def rollSegmentIfNeeded (dir : Directory) (store : DurableStore) :
    Result (Directory × DurableStore) :=
  if store.segmentBytes < segmentRollBytes then .ok (dir, store)
  else do
    let next := (store.segmentIndex + 1) % 2 ^ 32
    failIf (next ≥ store.options.limits.maxJournalSegments) .limitExceeded
      (text "journal has reached " ++ decimal next ++
        text " segments; run a checkpoint to compact the store")
    let name := journalSegmentName next
    let dir := openAppend dir name
    return (dir, { store with
      segmentIndex := next
      segmentBytes := fileSize dir name
      segmentOpen := true })

def appendBytes (dir : Directory) (store : DurableStore) (bytes : Bytes) : Directory :=
  let name := journalSegmentName store.segmentIndex
  dir.insert name (dir.getD name [] ++ bytes)

def appendRecord (dir : Directory) (store : DurableStore) (record : Bytes)
    (outcome : WriteOutcome) : Result Unit × Directory × DurableStore :=
  if store.segmentOpen = false then
    (.error (makeError .notReady (text "the journal segment is not open")), dir, store)
  else
    match outcome with
    | .complete =>
        (.ok (), appendBytes dir store record,
          { store with
            segmentBytes := store.segmentBytes + record.length
            durableBytes := store.durableBytes + record.length })
    | .short written =>
        (.error (makeError .ioError (text "write failed")),
          appendBytes dir store (record.take written), store)
    | .unflushed =>
        (.error (makeError .ioError (text "flush failed")),
          appendBytes dir store record, store)

/-- The mutation as it will be journaled, after every check that precedes the
first write. -/
def planCommit (store : DurableStore) (live : StateImage) (mutation : Mutation) :
    Result Mutation := do
  failIf (store.isOpen = false) .notReady (text "the store is not open")
  failIf (live.health ≠ .healthy) .degraded
    (text "the store is degraded (" ++ live.healthDetail ++
      text "); refusing to extend it until the state is repaired")
  Validate.validateMutation live mutation
  let planned := { mutation with
    resultingGeneration := if isIdempotent live mutation then live.generation
      else live.generation.next.getD .unset }
  failIf (planned.resultingGeneration.isSet = false) .overflow
    (text "the fabric state generation counter is exhausted")
  let payload := encodeMutation planned
  failIf (payload.length > store.options.limits.maxRecordPayload) .limitExceeded
    (text "mutation encodes to " ++ decimal payload.length ++
      text " bytes, the record limit is " ++
      decimal store.options.limits.maxRecordPayload)
  failIf (store.durableBytes + journalRecordBytes payload.length + journalRecordBytes 40 >
      store.options.limits.maxStateBytes) .limitExceeded
    (text "committing this mutation would grow the durable store beyond " ++
      decimal store.options.limits.maxStateBytes ++ text " bytes; run a checkpoint")
  return planned

def pendingRecord (sequence : UInt64) (planned : Mutation) : JournalRecord :=
  ⟨.pending, sequence, encodeMutation planned⟩

def commitRecord (sequence : UInt64) (planned : Mutation) : JournalRecord :=
  ⟨.commit, sequence, encodeCommitPayload sequence (Sha256.hash (encodeMutation planned))⟩

/-- Journal the plan, apply it and confirm it; the two outcomes are those of the
pending and of the commit record. -/
def journalCommit (s : StoreState) (planned : Mutation)
    (pendingWrite commitWrite : WriteOutcome) : Result Unit × StoreState :=
  let sequence := s.store.nextSequence
  let pending := encodeJournalRecord (pendingRecord sequence planned) s.store.key
  match appendRecord s.dir s.store pending pendingWrite with
  | (.error e, dir, store) => (.error e, { s with dir, store })
  | (.ok (), dir, store) =>
      let store := { store with journalRecords := store.journalRecords + 1 }
      match applyMutation s.live planned false with
      | (.error e, live) => (.error e, { dir, store, live })
      | (.ok (), live) =>
          if live.generation.value ≠ planned.resultingGeneration.value then
            (.error (makeError .internal
              (text "the applier produced generation " ++
                decimal live.generation.value.toNat ++ text " but the plan said " ++
                decimal planned.resultingGeneration.value.toNat)), { dir, store, live })
          else
            let record := encodeJournalRecord (commitRecord sequence planned) store.key
            match appendRecord dir store record commitWrite with
            | (.error e, dir, store) => (.error e, { dir, store, live })
            | (.ok (), dir, store) =>
                (.ok (), { dir
                           store := { store with
                             journalRecords := store.journalRecords + 1
                             nextSequence := store.nextSequence + 1 }
                           live := { live with lastSequence := sequence } })

/-- Journal and apply one mutation, with the given outcomes of its two writes. -/
def commitWriting (s : StoreState) (mutation : Mutation)
    (pendingWrite commitWrite : WriteOutcome) : Result Unit × StoreState :=
  match planCommit s.store s.live mutation with
  | .error e => (.error e, s)
  | .ok planned =>
      match rollSegmentIfNeeded s.dir s.store with
      | .error e => (.error e, s)
      | .ok (dir, store) =>
          journalCommit { s with dir, store } planned pendingWrite commitWrite

/-- Journal and apply one mutation; no write fails. -/
def commit (s : StoreState) (mutation : Mutation) : Result Unit × StoreState :=
  commitWriting s mutation .complete .complete

/-- The manifest a checkpoint writes once the snapshot is in place. -/
def checkpointManifest (dir : Directory) (s : StoreState) : Manifest where
  epoch := s.live.epoch
  stateGeneration := s.live.generation
  lastSequence := s.live.lastSequence
  firstSegment := (s.store.segmentIndex + 1) % 2 ^ 32
  snapshotPresent := true
  snapshotDigest := Sha256.hash (encodeState s.live)
  snapshotBytes := fileSize dir snapshotName

def removeSegments (dir : Directory) (count : Nat) : Directory :=
  (List.range count).foldl (fun dir index => dir.erase (journalSegmentName index)) dir

/-- The number of segments a checkpoint removes: those up to the old index that
the new manifest no longer refers to. -/
def retiredSegments (s : StoreState) : Nat :=
  min (s.store.segmentIndex + 1) ((s.store.segmentIndex + 1) % 2 ^ 32)

/-- The directory once the snapshot, the manifest and the new segment are in
place. -/
def withSnapshot (s : StoreState) : Result Directory := do
  failIf (s.store.isOpen = false) .notReady (text "the store is not open")
  failIf (s.live.health ≠ .healthy) .degraded
    (text "the store is degraded; refusing to snapshot degraded state")
  writeSnapshot s.dir s.store s.live

def withManifest (s : StoreState) (dir : Directory) : Directory :=
  writeManifest dir s.store.key (checkpointManifest dir s)

/-- Fold the journal into a snapshot and start a new segment. -/
def checkpoint (s : StoreState) : Result Generation × StoreState :=
  match withSnapshot s with
  | .error e => (.error e, s)
  | .ok dir =>
      let dir := withManifest s dir
      let next := (s.store.segmentIndex + 1) % 2 ^ 32
      let store := { s.store with segmentIndex := next, segmentOpen := false }
      if (next + 1) % 2 ^ 32 ≥ s.store.options.limits.maxJournalSegments then
        (.error (makeError .limitExceeded
          (text "journal segment counter is exhausted")), { s with dir, store })
      else
        let name := journalSegmentName next
        let dir := openAppend dir name
        let dir' := removeSegments dir (retiredSegments s)
        (.ok s.live.generation, { s with
          dir := dir'
          store := { store with
            segmentOpen := true
            segmentBytes := fileSize dir name
            durableBytes := measureDurableBytes dir' } })

/-- Recovery never restores authority: a live grant reads as expired. -/
def normalizeEntry (entry : AuthorityEntry) : AuthorityEntry :=
  if entry.state = .granted then { entry with state := .expired } else entry

def normalizeImage (image : StateImage) : StateImage :=
  { image with authority := image.authority.map fun _ entry => normalizeEntry entry }

/-- Replay the durable bytes and compare the result with the live image, both
normalized.  The replay may truncate a torn segment. -/
def verify (s : StoreState) : Result (IntegrityReport × Directory) := do
  let replayed ← replay s.dir s.store.options s.store.key
  let report := replayed.report
  if report.health = .healthy then
    let live := normalizeImage s.live
    let scratch := normalizeImage replayed.image
    let report := { report with
      stateDigest := stateDigest scratch
      stateGeneration := scratch.generation
      epoch := scratch.epoch }
    if report.stateDigest ≠ stateDigest live then
      return ({ report with
        ok := false
        health := .degraded
        detail := text "the live image does not match a fresh replay of the durable store" },
        replayed.dir)
    else if report.stateGeneration ≠ live.generation ∨ report.epoch ≠ live.epoch then
      return ({ report with
        ok := false
        health := .degraded
        detail := text "the live image generation or epoch does not match the durable store" },
        replayed.dir)
    else return ({ report with ok := true }, replayed.dir)
  else return (report, replayed.dir)

end PriorityFabric.Store
