import PriorityFabric.Codec

/-!
The state directory and the journal: file names, the store key, records and the
scan that reads them back.
-/

namespace PriorityFabric.Durability

open PriorityFabric.Lib.LittleEndian
open PriorityFabric.Basics
open PriorityFabric.Hashing
open PriorityFabric.Codec

/-- The regular files of a state directory, by name. -/
abbrev Directory := Std.ExtTreeMap Bytes Bytes

/-- Read a whole file of at most `maxBytes` bytes. -/
def readFile (dir : Directory) (name : Bytes) (maxBytes : Nat) : Result Bytes :=
  match dir[name]? with
  | none =>
      .error (makeError .ioError
        (text "cannot determine the size of '" ++ name ++ text "'"))
  | some content => do
      failIf (content.length > maxBytes) .limitExceeded
        (text "durable artifact '" ++ name ++ text "' is " ++ decimal content.length ++
          text " bytes, limit is " ++ decimal maxBytes)
      return content

/-- Sum of the sizes of all files; a directory with too many entries is not
measured. -/
def directoryBytes (dir : Directory) (maxEntries : Nat) : Result Nat := do
  failIf (dir.size > maxEntries) .limitExceeded
    (text "state directory holds more than " ++ decimal maxEntries ++ text " entries")
  return (dir.toList.map (·.2.length)).sum

def journalMagic : Nat := 0x314A4650
def snapshotMagic : Nat := 0x31534650
def manifestMagic : Nat := 0x314D4650
def keyMagic : Nat := 0x314B4650

def recordHeaderBytes : Nat := 24
def recordMacBytes : Nat := 16
def recordOverheadBytes : Nat := 40

def manifestName : Bytes := text "manifest.pfm"
def snapshotName : Bytes := text "snapshot.pfs"
def keyName : Bytes := text "key.pfk"
def lockName : Bytes := text "lock.pfk"
def journalBaseName : Bytes := text "journal"
def journalExtension : Bytes := text ".pfj"

/-- `journal.pfj` for segment 0, `journal.<n>.pfj` for the others. -/
def journalSegmentName (index : Nat) : Bytes :=
  if index = 0 then journalBaseName ++ journalExtension
  else journalBaseName ++ text "." ++ decimal index ++ journalExtension

/-- The number written by decimal digits, if they are all digits. -/
def parseDigits : (value : Nat) → Bytes → Option Nat
  | value, [] => some value
  | value, c :: rest =>
      if c < 48 ∨ 57 < c then none
      else parseDigits (value * 10 + (c.toNat - 48)) rest

/-- The segment index a file name claims.  Leading zeros are accepted. -/
def parseJournalSegmentName (name : Bytes) : Option Nat :=
  if name.length < journalBaseName.length + journalExtension.length then none
  else if name.take journalBaseName.length ≠ journalBaseName then none
  else if name.drop (name.length - journalExtension.length) ≠ journalExtension then none
  else
    let middle := (name.take (name.length - journalExtension.length)).drop
      journalBaseName.length
    match middle with
    | [] => some 0
    | dot :: digits =>
        if dot ≠ 46 then none
        else if digits.isEmpty || digits.length > 10 then none
        else
          match parseDigits 0 digits with
          | none => none
          | some value => if value = 0 ∨ value > 0xFFFFFFFF then none else some value

/-- Lifecycle marker of a journal record. -/
inductive RecordKind where
  | pending | commit
  deriving DecidableEq, Repr

def RecordKind.toNat : RecordKind → Nat
  | pending => 1
  | commit => 2

def RecordKind.ofNat? : Nat → Option RecordKind
  | 1 => some pending
  | 2 => some commit
  | _ => none

@[simp] theorem RecordKind.ofNat?_toNat (kind : RecordKind) :
    RecordKind.ofNat? kind.toNat = some kind := by
  cases kind <;> rfl

structure JournalRecord where
  kind : RecordKind
  sequence : UInt64
  payload : Bytes
  deriving DecidableEq

/-- Bytes a record with a payload of that size occupies; zero on overflow. -/
def journalRecordBytes (payloadSize : Nat) : Nat :=
  if payloadSize + recordOverheadBytes < 2 ^ 64 then payloadSize + recordOverheadBytes
  else 0

def recordMac (key header payload : Bytes) : Bytes :=
  ((hmacSha256 key (header ++ payload)).bytes.toList).take recordMacBytes

def recordHeader (record : JournalRecord) : Bytes :=
  appendLe 4 journalMagic ++
    (appendLe 2 formatVersion ++
    (appendLe 2 record.kind.toNat ++
    (appendLe 8 record.sequence.toNat ++
    (appendLe 4 record.payload.length ++
    appendLe 4 (crc32c record.payload).toNat))))

def encodeJournalRecord (record : JournalRecord) (key : Bytes) : Bytes :=
  recordHeader record ++
    (record.payload ++ recordMac key (recordHeader record) record.payload)

/-- Outcome of scanning one journal segment. -/
structure JournalScanResult where
  records : List JournalRecord := []
  trailingBytes : Nat := 0
  integrityFailures : Nat := 0
  recordsRead : Nat := 0
  failureDetail : Bytes := []
  deriving DecidableEq

/-- What stands at the scan's position: a verified record and its size, or the
reason to stop and the number of integrity failures it counts. -/
inductive ScanStep where
  | stop (detail : Bytes) (failures : Nat)
  | record (record : JournalRecord) (total : Nat)
  deriving DecidableEq

def fieldAt (data : Bytes) (offset width : Nat) : Nat :=
  readLe ((data.drop offset).take width)

/-- The scan's message about the record at an offset. -/
def atOffset (offset : Nat) (what : Bytes) : Bytes :=
  text "journal record at offset " ++ decimal offset ++ what

/-- Read one record from the front of the remaining bytes. -/
def scanRecord (key : Bytes) (limits : Limits) (offset : Nat) (data : Bytes) :
    ScanStep :=
  if data.length < recordHeaderBytes then .stop [] 0
  else if fieldAt data 0 4 ≠ journalMagic then
    .stop (atOffset offset (text " has a wrong magic value")) 0
  else if fieldAt data 4 2 ≠ formatVersion then
    .stop (atOffset offset (text " declares format version " ++
      decimal (fieldAt data 4 2) ++ text "; this build implements " ++
      decimal formatVersion)) 0
  else
    match RecordKind.ofNat? (fieldAt data 6 2) with
    | none =>
        .stop (atOffset offset (text " declares an unknown kind " ++
          decimal (fieldAt data 6 2))) 0
    | some kind =>
        let payloadLength := fieldAt data 16 4
        if payloadLength > limits.maxRecordPayload then
          .stop (atOffset offset (text " declares a payload of " ++
            decimal payloadLength ++ text " bytes, limit is " ++
            decimal limits.maxRecordPayload)) 0
        else
          let total := journalRecordBytes payloadLength
          if total = 0 ∨ data.length < total then .stop [] 0
          else
            let payload := (data.drop recordHeaderBytes).take payloadLength
            if (crc32c payload).toNat ≠ fieldAt data 20 4 then
              .stop (atOffset offset (text " failed its framing checksum")) 1
            else if (data.drop (recordHeaderBytes + payloadLength)).take recordMacBytes ≠
                recordMac key (data.take recordHeaderBytes) payload then
              .stop (atOffset offset (text " failed authentication; the record was " ++
                text "altered or the key does not belong to this store")) 1
            else
              .record { kind, sequence := UInt64.ofNat (fieldAt data 8 8), payload } total

def maxRecordsPerSegment : Nat := 4000000

/-- Scan record after record; `room` is how many more the scan will hold. -/
def scanLoop (key : Bytes) (limits : Limits) :
    (room offset : Nat) → (data : Bytes) → JournalScanResult → JournalScanResult
  | room, offset, data, result =>
      if data.isEmpty then result
      else
        match room with
        | 0 =>
            { result with
              failureDetail := text "segment holds more than " ++
                decimal maxRecordsPerSegment ++ text " records"
              trailingBytes := data.length }
        | room + 1 =>
            match scanRecord key limits offset data with
            | .stop detail failures =>
                { result with
                  failureDetail := detail
                  trailingBytes := data.length
                  integrityFailures := result.integrityFailures + failures }
            | .record record total =>
                scanLoop key limits room (offset + total) (data.drop total)
                  { result with
                    records := result.records ++ [record]
                    recordsRead := result.recordsRead + 1 }

/-- Scan one segment file under the store key. -/
def scanJournalSegment (dir : Directory) (name key : Bytes) (limits : Limits) :
    Result JournalScanResult := do
  failIf (key = []) .invalidArgument
    (text "a journal scan without the store key is not verification")
  let data ← readFile dir name limits.maxStateBytes
  return scanLoop key limits maxRecordsPerSegment 0 data {}

def storeKeyBytes : Nat := 32

def keyFileBody (key : Bytes) : Bytes :=
  appendLe 4 keyMagic ++ (appendLe 2 formatVersion ++ (appendLe 4 key.length ++ key))

def encodeKeyFile (key : Bytes) : Bytes :=
  keyFileBody key ++ appendLe 4 (crc32c (keyFileBody key)).toNat

def decodeKeyFile (content : Bytes) : Result Bytes := do
  failIf (content.length < 14) .corrupt
    (text "store key file is shorter than its fixed header")
  failIf (fieldAt content 0 4 ≠ keyMagic) .corrupt
    (text "store key file has a wrong magic value")
  failIf (fieldAt content 4 2 ≠ formatVersion) .unsupported
    (text "store key file was written by format version " ++ decimal (fieldAt content 4 2) ++
      text ", this build implements " ++ decimal formatVersion)
  let length := fieldAt content 6 4
  failIf (14 + length ≠ content.length) .corrupt
    (text "store key file length field does not match the file size")
  failIf (fieldAt content (10 + length) 4 ≠
      (crc32c (content.take (content.length - 4))).toNat) .integrityFailure
    (text "store key file failed its checksum; refusing to use a damaged key")
  failIf (length ≠ storeKeyBytes) .corrupt
    (text "store key is " ++ decimal length ++ text " bytes, expected " ++
      decimal storeKeyBytes)
  return (content.drop 10).take length

def readStoreKey (dir : Directory) : Result Bytes := do
  failIf (dir.contains keyName = false) .notFound
    (text "state directory has no " ++ keyName ++
      text "; refusing to open an unauthenticated store")
  let content ← readFile dir keyName 4096
  decodeKeyFile content

end PriorityFabric.Durability
