import PriorityFabric.Durability

/-!
The journal scan inverts appending.

A segment that is a sequence of encoded records followed by a torn one scans to
exactly those records, and reports the torn bytes as trailing.
-/

namespace PriorityFabric.JournalScan

open PriorityFabric.Lib.LittleEndian
open PriorityFabric.Basics
open PriorityFabric.Hashing
open PriorityFabric.Codec
open PriorityFabric.Durability

@[simp] theorem length_recordHeader (record : JournalRecord) :
    (recordHeader record).length = 24 := by
  simp [recordHeader]

@[simp] theorem length_recordMac (key header payload : Bytes) :
    (recordMac key header payload).length = 16 := by
  simp [recordMac, recordMacBytes]

@[simp] theorem length_encodeJournalRecord (record : JournalRecord) (key : Bytes) :
    (encodeJournalRecord record key).length = record.payload.length + 40 := by
  simp [encodeJournalRecord]
  omega

theorem fieldAt_append {front rest : Bytes} {offset width value : Nat}
    (hoffset : front.length = offset) (hvalue : value < 256 ^ width) :
    fieldAt (front ++ (appendLe width value ++ rest)) offset width = value := by
  rw [fieldAt, List.drop_left' hoffset, List.take_left' (length_appendLe width value),
    readLe_appendLe hvalue]

theorem fieldAt_recordHeader (record : JournalRecord) (rest : Bytes)
    (hpayload : record.payload.length < 2 ^ 32) :
    fieldAt (recordHeader record ++ rest) 0 4 = journalMagic ∧
      fieldAt (recordHeader record ++ rest) 4 2 = formatVersion ∧
      fieldAt (recordHeader record ++ rest) 6 2 = record.kind.toNat ∧
      fieldAt (recordHeader record ++ rest) 8 8 = record.sequence.toNat ∧
      fieldAt (recordHeader record ++ rest) 16 4 = record.payload.length ∧
      fieldAt (recordHeader record ++ rest) 20 4 = (crc32c record.payload).toNat := by
  have hkind : record.kind.toNat < 256 ^ 2 := by
    cases record.kind <;> decide
  have hsequence : record.sequence.toNat < 256 ^ 8 :=
    lt_of_lt_of_eq record.sequence.toNat_lt (by norm_num)
  have hlength : record.payload.length < 256 ^ 4 := lt_of_lt_of_eq hpayload (by norm_num)
  have hcrc : (crc32c record.payload).toNat < 256 ^ 4 :=
    lt_of_lt_of_eq (crc32c record.payload).toNat_lt (by norm_num)
  simp only [recordHeader, List.append_assoc]
  refine ⟨?_, ?_, ?_, ?_, ?_, ?_⟩
  · exact @fieldAt_append [] _ 0 4 _ rfl (by decide)
  · exact fieldAt_append (length_appendLe 4 _) (by decide)
  · rw [← List.append_assoc]
    exact fieldAt_append (by simp) hkind
  · rw [← List.append_assoc, ← List.append_assoc]
    exact fieldAt_append (by simp) hsequence
  · rw [← List.append_assoc, ← List.append_assoc, ← List.append_assoc]
    exact fieldAt_append (by simp) hlength
  · rw [← List.append_assoc, ← List.append_assoc, ← List.append_assoc,
      ← List.append_assoc]
    exact fieldAt_append (by simp) hcrc

theorem scanRecord_encodeJournalRecord {limits : Limits} {record : JournalRecord}
    (key : Bytes) (offset : Nat) (rest : Bytes)
    (hlimit : record.payload.length ≤ limits.maxRecordPayload)
    (hpayload : record.payload.length < 2 ^ 32) :
    scanRecord key limits offset (encodeJournalRecord record key ++ rest) =
      .record record (record.payload.length + 40) := by
  have hlength := length_encodeJournalRecord record key
  have htotal : journalRecordBytes record.payload.length = record.payload.length + 40 := by
    rw [journalRecordBytes, recordOverheadBytes, if_pos (by omega)]
  have hbytes : encodeJournalRecord record key ++ rest = recordHeader record ++
      (record.payload ++ (recordMac key (recordHeader record) record.payload ++ rest)) := by
    simp [encodeJournalRecord]
  obtain ⟨hmagic, hformat, hkind, hsequence, hlen, hcrc⟩ := fieldAt_recordHeader record
    (record.payload ++ (recordMac key (recordHeader record) record.payload ++ rest)) hpayload
  have hheader := length_recordHeader record
  have htake : ((recordHeader record ++ (record.payload ++
      (recordMac key (recordHeader record) record.payload ++ rest))).drop 24).take
        record.payload.length = record.payload := by
    rw [List.drop_left' hheader, List.take_left' rfl]
  have hmac : ((recordHeader record ++ (record.payload ++
      (recordMac key (recordHeader record) record.payload ++ rest))).drop
        (24 + record.payload.length)).take 16 =
      recordMac key (recordHeader record) record.payload := by
    rw [← List.drop_drop, List.drop_left' hheader, List.drop_left' rfl,
      List.take_left' (length_recordMac _ _ _)]
  have hlong : ¬ (recordHeader record ++ (record.payload ++
      (recordMac key (recordHeader record) record.payload ++ rest))).length <
        record.payload.length + 40 := by
    simp only [List.length_append, length_recordHeader, length_recordMac]
    omega
  rw [hbytes]
  simp only [scanRecord, recordHeaderBytes, recordMacBytes, hmagic, hformat, hkind,
    hsequence, hlen, hcrc, htotal, htake, hmac, RecordKind.ofNat?_toNat,
    List.take_left' hheader, ne_eq, not_true_eq_false, if_false, gt_iff_lt,
    not_lt.mpr hlimit, UInt64.ofNat_toNat]
  rw [if_neg (by omega), if_neg (by omega)]

theorem scanRecord_torn {limits : Limits} {record : JournalRecord} {count : Nat}
    (key : Bytes) (offset : Nat)
    (hlimit : record.payload.length ≤ limits.maxRecordPayload)
    (hpayload : record.payload.length < 2 ^ 32)
    (hcount : count < record.payload.length + 40) :
    scanRecord key limits offset ((encodeJournalRecord record key).take count) =
      .stop [] 0 := by
  have hlength := length_encodeJournalRecord record key
  by_cases hshort : count < 24
  · have htake : ((encodeJournalRecord record key).take count).length < 24 := by
      simp only [List.length_take]
      omega
    rw [scanRecord, recordHeaderBytes, if_pos htake]
  · have hheader := length_recordHeader record
    have hbytes : (encodeJournalRecord record key).take count = recordHeader record ++
        ((record.payload ++ recordMac key (recordHeader record) record.payload).take
          (count - 24)) := by
      rw [encodeJournalRecord, List.take_append, hheader,
        List.take_of_length_le (by omega)]
    have htotal : journalRecordBytes record.payload.length =
        record.payload.length + 40 := by
      rw [journalRecordBytes, recordOverheadBytes, if_pos (by omega)]
    obtain ⟨hmagic, hformat, hkind, -, hlen, -⟩ := fieldAt_recordHeader record
      ((record.payload ++ recordMac key (recordHeader record) record.payload).take
        (count - 24)) hpayload
    have hfits : (recordHeader record ++ ((record.payload ++
        recordMac key (recordHeader record) record.payload).take (count - 24))).length =
          count := by
      rw [← hbytes, List.length_take]
      omega
    rw [hbytes]
    simp only [scanRecord, recordHeaderBytes, hmagic, hformat, hkind, hlen, htotal, hfits,
      RecordKind.ofNat?_toNat, ne_eq, not_true_eq_false, if_false, gt_iff_lt,
      not_lt.mpr hlimit, hshort, hcount, or_true, if_true]

/-- Every payload fits the record limit and its length field. -/
def PayloadsFit (limits : Limits) (records : List JournalRecord) : Prop :=
  ∀ record ∈ records,
    record.payload.length ≤ limits.maxRecordPayload ∧ record.payload.length < 2 ^ 32

def journalBytes (key : Bytes) (records : List JournalRecord) : Bytes :=
  records.flatMap (encodeJournalRecord · key)

theorem scanLoop_journalBytes {key : Bytes} {limits : Limits}
    {records : List JournalRecord} (hfit : PayloadsFit limits records)
    (room offset : Nat) (tail : Bytes) (result : JournalScanResult) :
    scanLoop key limits (room + records.length) offset (journalBytes key records ++ tail)
        result =
      scanLoop key limits room (offset + (journalBytes key records).length) tail
        { result with
          records := result.records ++ records
          recordsRead := result.recordsRead + records.length } := by
  induction records generalizing offset result with
  | nil => simp [journalBytes]
  | cons record records ih =>
      obtain ⟨hlimit, hpayload⟩ := hfit record (by simp)
      have hscan := scanRecord_encodeJournalRecord key offset
        (journalBytes key records ++ tail) hlimit hpayload
      have hlength := length_encodeJournalRecord record key
      have hcons : journalBytes key (record :: records) ++ tail =
          encodeJournalRecord record key ++ (journalBytes key records ++ tail) := by
        simp [journalBytes]
      have hne : (encodeJournalRecord record key ++
          (journalBytes key records ++ tail)).isEmpty = false := by
        rw [List.isEmpty_eq_false_iff]
        intro hnil
        have := congrArg List.length hnil
        simp only [List.length_append, hlength, List.length_nil] at this
        omega
      rw [hcons, List.length_cons, ← Nat.add_assoc, scanLoop, hne, hscan]
      simp only [Bool.false_eq_true, if_false]
      rw [List.drop_left' hlength, ih (fun r hr => hfit r (by simp [hr]))]
      congr 1
      · simp only [journalBytes, List.flatMap_cons, List.length_append, hlength]
        omega
      · simp only [List.append_assoc, List.singleton_append]
        congr 1
        omega

/-- The result of scanning records that end in `tail` bytes of a torn one. -/
def scanned (records : List JournalRecord) (tail : Nat) : JournalScanResult where
  records := records
  trailingBytes := tail
  recordsRead := records.length

def TornTail (key : Bytes) (limits : Limits) (tail : Bytes) : Prop :=
  ∃ record : JournalRecord, ∃ count, record.payload.length ≤ limits.maxRecordPayload ∧
    record.payload.length < 2 ^ 32 ∧ count < record.payload.length + 40 ∧
    tail = (encodeJournalRecord record key).take count

theorem tornTail_nil (key : Bytes) (limits : Limits) : TornTail key limits [] :=
  ⟨⟨.pending, 0, []⟩, 0, by simp, by simp, by simp, by simp⟩

theorem scanLoop_scanned {key : Bytes} {limits : Limits} {records : List JournalRecord}
    {tail : Bytes} {room : Nat} (hfit : PayloadsFit limits records)
    (htail : TornTail key limits tail) (hroom : records.length < room) :
    scanLoop key limits room 0 (journalBytes key records ++ tail) {} =
      scanned records tail.length := by
  obtain ⟨more, rfl⟩ : ∃ more, room = (more + 1) + records.length :=
    ⟨room - records.length - 1, by omega⟩
  obtain ⟨record, count, hlimit, hpayload, hcount, rfl⟩ := htail
  rw [scanLoop_journalBytes hfit]
  by_cases hempty : (encodeJournalRecord record key).take count = []
  · rw [hempty, scanLoop]
    simp [scanned]
  · have hne : ((encodeJournalRecord record key).take count).isEmpty = false := by
      rwa [List.isEmpty_eq_false_iff]
    rw [scanLoop, hne, scanRecord_torn key _ hlimit hpayload hcount]
    simp [scanned]

theorem length_records_le (key : Bytes) (records : List JournalRecord) :
    40 * records.length ≤ (journalBytes key records).length := by
  induction records with
  | nil => simp
  | cons record records ih =>
      simp only [journalBytes, List.flatMap_cons, List.length_append, List.length_cons,
        length_encodeJournalRecord] at ih ⊢
      omega

end PriorityFabric.JournalScan
