import PriorityFabric.Store
import PriorityFabric.JournalScan

/-!
The store's files read back: segment names, the key file, the manifest and the
snapshot frame.
-/

namespace PriorityFabric.StoreFiles

open PriorityFabric.Lib.LittleEndian
open PriorityFabric.Basics
open PriorityFabric.Hashing
open PriorityFabric.Model
open PriorityFabric.Codec
open PriorityFabric.ModelCodec
open PriorityFabric.State
open PriorityFabric.StateCodec
open PriorityFabric.Durability
open PriorityFabric.JournalScan
open PriorityFabric.Store

theorem length_journalBaseName : journalBaseName.length = 7 := by decide

theorem length_journalExtension : journalExtension.length = 4 := by decide

/-- The characters of a row of decimal digits. -/
def digitBytes (digits : List Nat) : Bytes :=
  digits.map fun digit => UInt8.ofNat (48 + digit)

/-- The number a row of digits writes, most significant digit first. -/
def digitsValue (digits : List Nat) : Nat :=
  digits.foldl (fun value digit => value * 10 + digit) 0

theorem digitsValue_eq_ofDigits (digits : List Nat) :
    digitsValue digits = Nat.ofDigits 10 digits.reverse := by
  rw [digitsValue, Nat.ofDigits_eq_foldr, List.foldr_reverse]
  simp only [Nat.cast_id]
  congr 1
  funext value digit
  omega

theorem parseDigits_eq_foldl {digits : List Nat} (hdigits : ∀ d ∈ digits, d < 10) (value : Nat) :
    parseDigits value (digitBytes digits) =
      some (digits.foldl (fun value digit => value * 10 + digit) value) := by
  induction digits generalizing value with
  | nil => rfl
  | cons digit digits ih =>
      have hdigit := hdigits digit (by simp)
      have htoNat : (UInt8.ofNat (48 + digit)).toNat = 48 + digit := by
        rw [UInt8.toNat_ofNat']
        omega
      have hrange : ¬ (UInt8.ofNat (48 + digit) < 48 ∨ 57 < UInt8.ofNat (48 + digit)) := by
        simp only [UInt8.lt_iff_toNat_lt, htoNat, UInt8.reduceToNat]
        omega
      rw [digitBytes, List.map_cons, parseDigits, if_neg hrange, htoNat, List.foldl_cons,
        ← digitBytes, ih fun d hd => hdigits d (by simp [hd])]
      congr 2
      omega

theorem parseDigits_digitBytes {digits : List Nat} (hdigits : ∀ d ∈ digits, d < 10) :
    parseDigits 0 (digitBytes digits) = some (digitsValue digits) :=
  parseDigits_eq_foldl hdigits 0

theorem exists_digits {n : Nat} (hn : n ≠ 0) :
    ∃ digits, (∀ d ∈ digits, d < 10) ∧ digits ≠ [] ∧ (n < 2 ^ 32 → digits.length ≤ 10) ∧
      digitsValue digits = n ∧ decimal n = digitBytes digits := by
  refine ⟨(Nat.digits 10 n).reverse, ?_, ?_, ?_, ?_, ?_⟩
  · intro d hd
    exact Nat.digits_lt_base (by norm_num) (List.mem_reverse.mp hd)
  · simpa [Nat.digits_ne_nil_iff_ne_zero] using hn
  · intro hlt
    rw [List.length_reverse, Nat.digits_length_le_iff (by norm_num)]
    exact hlt.trans (by norm_num)
  · rw [digitsValue_eq_ofDigits, List.reverse_reverse, Nat.ofDigits_digits]
  · rw [decimal, if_neg hn, digitBytes]

theorem journalSegmentName_of_ne_zero {index : Nat} (h : index ≠ 0) :
    journalSegmentName index =
      journalBaseName ++ 46 :: decimal index ++ journalExtension := by
  have hdot : text "." = [46] := by decide
  rw [journalSegmentName, if_neg h, hdot, List.append_assoc journalBaseName,
    List.singleton_append]

theorem parse_digitBytes {digits : List Nat} (hdigits : ∀ d ∈ digits, d < 10)
    (hne : digits ≠ []) (hlength : digits.length ≤ 10) (hzero : digitsValue digits ≠ 0)
    (hvalue : digitsValue digits < 2 ^ 32) :
    parseJournalSegmentName (journalBaseName ++ 46 :: digitBytes digits ++
      journalExtension) = some (digitsValue digits) := by
  set name := journalBaseName ++ 46 :: digitBytes digits ++ journalExtension with hname
  have hsplit : name.length - 4 = (journalBaseName ++ 46 :: digitBytes digits).length := by
    rw [hname]
    simp only [List.length_append, length_journalExtension]
    omega
  have hlong : ¬ name.length < 7 + 4 := by
    rw [hname]
    simp only [List.length_append, List.length_cons, length_journalBaseName,
      length_journalExtension]
    omega
  have hfront : name.take 7 = journalBaseName := by
    rw [hname, List.append_assoc, List.take_left' length_journalBaseName]
  have hback : name.drop (name.length - 4) = journalExtension := by
    rw [hsplit, hname]
    exact List.drop_left' rfl
  have hmiddle : (name.take (name.length - 4)).drop 7 = 46 :: digitBytes digits := by
    rw [hsplit, hname, List.take_left' rfl]
    exact List.drop_left' length_journalBaseName
  have hrow : ¬ ((digitBytes digits).isEmpty ||
      decide ((digitBytes digits).length > 10)) = true := by
    simp [digitBytes, hne, hlength]
  have hparse : parseDigits 0 (digitBytes digits) = some (digitsValue digits) :=
    parseDigits_digitBytes hdigits
  have hrange : ¬ (digitsValue digits = 0 ∨ digitsValue digits > 0xFFFFFFFF) := by omega
  unfold parseJournalSegmentName
  simp only [length_journalBaseName, length_journalExtension, hfront, hback, hmiddle,
    hlong, hrow, hparse, hrange, ne_eq, not_true_eq_false, if_false, Bool.false_eq_true]

theorem parseJournalSegmentName_journalSegmentName {index : Nat} (hindex : index < 2 ^ 32) :
    parseJournalSegmentName (journalSegmentName index) = some index := by
  by_cases hzero : index = 0
  · subst hzero
    decide
  · obtain ⟨digits, hdigits, hne, hlength, hvalue, hdecimal⟩ := exists_digits hzero
    subst hvalue
    rw [journalSegmentName_of_ne_zero hzero, hdecimal]
    exact parse_digitBytes hdigits hne (hlength hindex) hzero hindex

theorem journalSegmentName_injective {i j : Nat} (hi : i < 2 ^ 32) (hj : j < 2 ^ 32)
    (h : journalSegmentName i = journalSegmentName j) : i = j := by
  have hparse := parseJournalSegmentName_journalSegmentName hi
  rw [h, parseJournalSegmentName_journalSegmentName hj] at hparse
  exact (Option.some.inj hparse).symm

theorem journalSegmentName_ne {index : Nat} {name : Bytes} (hindex : index < 2 ^ 32)
    (hname : parseJournalSegmentName name = none) : journalSegmentName index ≠ name := by
  intro h
  have hparse := parseJournalSegmentName_journalSegmentName hindex
  rw [h, hname] at hparse
  cases hparse

theorem parse_manifestName : parseJournalSegmentName manifestName = none := by
  decide

theorem parse_snapshotName : parseJournalSegmentName snapshotName = none := by
  decide

theorem parse_keyName : parseJournalSegmentName keyName = none := by
  decide

theorem parse_lockName : parseJournalSegmentName lockName = none := by
  decide

theorem readFile_eq_ok {dir : Directory} {name content : Bytes} {maxBytes : Nat}
    (hfile : dir[name]? = some content) (hlength : content.length ≤ maxBytes) :
    readFile dir name maxBytes = .ok content := by
  have hfits : ¬ content.length > maxBytes := by omega
  simp only [readFile, hfile, failIf, hfits, if_false]
  rfl

theorem readFile_eq_ok_iff {dir : Directory} {name content : Bytes} {maxBytes : Nat} :
    readFile dir name maxBytes = .ok content ↔
      dir[name]? = some content ∧ content.length ≤ maxBytes := by
  constructor
  · intro h
    unfold readFile at h
    split at h
    · cases h
    · rename_i found hfound
      simp only [bind_eq_ok, failIf_eq_ok, exists_const, gt_iff_lt, not_lt, pure,
        Except.pure, Except.ok.injEq] at h
      obtain ⟨hlength, rfl⟩ := h
      exact ⟨hfound, hlength⟩
  · rintro ⟨hfile, hlength⟩
    exact readFile_eq_ok hfile hlength

theorem length_keyFileBody (key : Bytes) : (keyFileBody key).length = 10 + key.length := by
  simp only [keyFileBody, List.length_append, length_appendLe]
  omega

theorem length_encodeKeyFile (key : Bytes) :
    (encodeKeyFile key).length = 14 + key.length := by
  simp only [encodeKeyFile, List.length_append, length_keyFileBody, length_appendLe]
  omega

theorem decodeKeyFile_encodeKeyFile {key : Bytes} (hkey : key.length = storeKeyBytes) :
    decodeKeyFile (encodeKeyFile key) = .ok key := by
  have hlength := length_encodeKeyFile key
  have hsmall : key.length < 256 ^ 4 := by rw [hkey]; decide
  have hcrc : (crc32c (keyFileBody key)).toNat < 256 ^ 4 :=
    lt_of_lt_of_eq (crc32c (keyFileBody key)).toNat_lt (by norm_num)
  have hfile : encodeKeyFile key = appendLe 4 keyMagic ++ (appendLe 2 formatVersion ++
      (appendLe 4 key.length ++ (key ++
        appendLe 4 (crc32c (keyFileBody key)).toNat))) := by
    simp [encodeKeyFile, keyFileBody]
  have hmagic : fieldAt (encodeKeyFile key) 0 4 = keyMagic := by
    rw [hfile]
    exact @fieldAt_append [] _ 0 4 _ rfl (by decide)
  have hformat : fieldAt (encodeKeyFile key) 4 2 = formatVersion := by
    rw [hfile]
    exact fieldAt_append (length_appendLe 4 _) (by decide)
  have hlen : fieldAt (encodeKeyFile key) 6 4 = key.length := by
    rw [hfile, ← List.append_assoc]
    exact fieldAt_append (by simp) hsmall
  have hsum : fieldAt (encodeKeyFile key) (10 + key.length) 4 =
      (crc32c (keyFileBody key)).toNat := by
    rw [encodeKeyFile, ← List.append_nil (appendLe 4 _)]
    exact fieldAt_append (length_keyFileBody key) hcrc
  have hbody : (encodeKeyFile key).take ((encodeKeyFile key).length - 4) =
      keyFileBody key := by
    rw [hlength, encodeKeyFile]
    exact List.take_left' (by rw [length_keyFileBody]; omega)
  have hkeyBytes : ((encodeKeyFile key).drop 10).take key.length = key := by
    rw [hfile, ← List.append_assoc, ← List.append_assoc, List.drop_left' (by simp),
      List.take_left' rfl]
  simp only [decodeKeyFile, bind_eq_ok, failIf_eq_ok, exists_const, hmagic, hformat, hlen,
    hsum, hbody, hkeyBytes, pure, Except.pure, ne_eq, not_true_eq_false, not_false_eq_true,
    and_true, true_and]
  exact ⟨by omega, by omega, by omega⟩

theorem length_of_decodeKeyFile {content key : Bytes} (h : decodeKeyFile content = .ok key) :
    key.length = storeKeyBytes := by
  simp only [decodeKeyFile, bind_eq_ok, failIf_eq_ok, exists_const, not_lt, not_not, ne_eq,
    pure, Except.pure, Except.ok.injEq] at h
  obtain ⟨-, -, -, hlength, -, hkey, rfl⟩ := h
  simp only [List.length_take, List.length_drop]
  omega

theorem length_of_readStoreKey {dir : Directory} {key : Bytes}
    (h : readStoreKey dir = .ok key) : key.length = storeKeyBytes := by
  simp only [readStoreKey, bind_eq_ok, failIf_eq_ok, exists_const] at h
  obtain ⟨-, content, -, hdecode⟩ := h
  exact length_of_decodeKeyFile hdecode

theorem key_ne_nil {key : Bytes} (hkey : key.length = storeKeyBytes) : key ≠ [] := by
  rintro rfl
  cases hkey

theorem readStoreKey_congr {dir dir' : Directory} (h : dir'[keyName]? = dir[keyName]?) :
    readStoreKey dir' = readStoreKey dir := by
  have hcontains : dir'.contains keyName = dir.contains keyName := by
    rw [Std.ExtTreeMap.contains_eq_isSome_getElem?,
      Std.ExtTreeMap.contains_eq_isSome_getElem?, h]
  simp only [readStoreKey, readFile, hcontains, h]

theorem readStoreKey_eq_ok {dir : Directory} {content key : Bytes}
    (hfile : dir[keyName]? = some content) (hlength : content.length ≤ 4096)
    (hdecode : decodeKeyFile content = .ok key) : readStoreKey dir = .ok key := by
  have hcontains : dir.contains keyName = true := by
    rw [Std.ExtTreeMap.contains_eq_isSome_getElem?, hfile]
    rfl
  simp only [readStoreKey, bind_eq_ok, failIf_eq_ok, exists_const, hcontains,
    Bool.true_eq_false, not_false_eq_true, true_and]
  exact ⟨content, readFile_eq_ok hfile hlength, hdecode⟩

/-- A manifest whose numbers fit their fields. -/
structure Manifest.Fits (manifest : Manifest) : Prop where
  firstSegment : manifest.firstSegment < 2 ^ 32
  snapshotBytes : manifest.snapshotBytes < 2 ^ 64

theorem length_manifestPayload (manifest : Manifest) :
    (manifestPayload manifest).length = manifestPayloadBytes := by
  simp [manifestPayload, manifestPayloadBytes]

theorem length_encodeManifest (key : Bytes) (manifest : Manifest) :
    (encodeManifest key manifest).length = 95 := by
  simp [encodeManifest, length_manifestPayload, manifestPayloadBytes]

theorem decodeManifest_encodeManifest {key : Bytes} {manifest : Manifest}
    (hfits : Manifest.Fits manifest) :
    decodeManifest key (encodeManifest key manifest) = .ok manifest := by
  obtain ⟨hfirst, hbytes⟩ := hfits
  have hepoch : manifest.epoch.value.toNat < 256 ^ 8 :=
    lt_of_lt_of_eq manifest.epoch.value.toNat_lt (by norm_num)
  have hgeneration : manifest.stateGeneration.value.toNat < 256 ^ 8 :=
    lt_of_lt_of_eq manifest.stateGeneration.value.toNat_lt (by norm_num)
  have hlast : manifest.lastSequence.toNat < 256 ^ 8 :=
    lt_of_lt_of_eq manifest.lastSequence.toNat_lt (by norm_num)
  have hpresent : manifest.snapshotPresent.toNat < 256 ^ 1 := by
    cases manifest.snapshotPresent <;> decide
  have hlength := length_encodeManifest key manifest
  have hpayload := length_manifestPayload manifest
  have hcrc : (crc32c (manifestPayload manifest)).toNat < 256 ^ 4 :=
    lt_of_lt_of_eq (crc32c (manifestPayload manifest)).toNat_lt (by norm_num)
  -- Each field stands at its offset, after the fields before it.
  have hfields (rest : Bytes) :
      fieldAt (manifestPayload manifest ++ rest) 0 4 = manifestMagic ∧
      fieldAt (manifestPayload manifest ++ rest) 4 2 = formatVersion ∧
      fieldAt (manifestPayload manifest ++ rest) 6 8 = manifest.epoch.value.toNat ∧
      fieldAt (manifestPayload manifest ++ rest) 14 8 =
        manifest.stateGeneration.value.toNat ∧
      fieldAt (manifestPayload manifest ++ rest) 22 8 = manifest.lastSequence.toNat ∧
      fieldAt (manifestPayload manifest ++ rest) 30 4 = manifest.firstSegment ∧
      fieldAt (manifestPayload manifest ++ rest) 34 1 = manifest.snapshotPresent.toNat ∧
      ((manifestPayload manifest ++ rest).drop 35).take 32 =
        encodeDigest manifest.snapshotDigest ∧
      fieldAt (manifestPayload manifest ++ rest) 67 8 = manifest.snapshotBytes := by
    simp only [manifestPayload, List.append_assoc]
    refine ⟨?_, ?_, ?_, ?_, ?_, ?_, ?_, ?_, ?_⟩
    · exact @fieldAt_append [] _ 0 4 _ rfl (by decide)
    · exact fieldAt_append (length_appendLe 4 _) (by decide)
    · rw [← List.append_assoc]
      exact fieldAt_append (by simp) hepoch
    · rw [← List.append_assoc, ← List.append_assoc]
      exact fieldAt_append (by simp) hgeneration
    · rw [← List.append_assoc, ← List.append_assoc, ← List.append_assoc]
      exact fieldAt_append (by simp) hlast
    · rw [← List.append_assoc, ← List.append_assoc, ← List.append_assoc,
        ← List.append_assoc]
      exact fieldAt_append (by simp) (lt_of_lt_of_eq hfirst (by norm_num))
    · rw [← List.append_assoc, ← List.append_assoc, ← List.append_assoc,
        ← List.append_assoc, ← List.append_assoc]
      exact fieldAt_append (by simp) hpresent
    · rw [← List.append_assoc, ← List.append_assoc, ← List.append_assoc,
        ← List.append_assoc, ← List.append_assoc, ← List.append_assoc,
        List.drop_left' (by simp), List.take_left' (by simp)]
    · rw [← List.append_assoc, ← List.append_assoc, ← List.append_assoc,
        ← List.append_assoc, ← List.append_assoc, ← List.append_assoc,
        ← List.append_assoc]
      exact fieldAt_append (by simp) (lt_of_lt_of_eq hbytes (by norm_num))
  have hsplit : encodeManifest key manifest = manifestPayload manifest ++
      (appendLe 4 (crc32c (manifestPayload manifest)).toNat ++
        recordMac key (manifestPayload manifest)
          (appendLe 4 (crc32c (manifestPayload manifest)).toNat)) := rfl
  obtain ⟨h0, h4, h6, h14, h22, h30, h34, h35, h67⟩ := hfields
    (appendLe 4 (crc32c (manifestPayload manifest)).toNat ++
      recordMac key (manifestPayload manifest)
        (appendLe 4 (crc32c (manifestPayload manifest)).toNat))
  rw [← hsplit] at h0 h4 h6 h14 h22 h30 h34 h35 h67
  have htake : (encodeManifest key manifest).take manifestPayloadBytes =
      manifestPayload manifest := by
    rw [hsplit]
    exact List.take_left' hpayload
  have hsum : fieldAt (encodeManifest key manifest) manifestPayloadBytes 4 =
      (crc32c (manifestPayload manifest)).toNat := by
    rw [hsplit]
    exact fieldAt_append hpayload hcrc
  have hcrcBytes : ((encodeManifest key manifest).drop manifestPayloadBytes).take 4 =
      appendLe 4 (crc32c (manifestPayload manifest)).toNat := by
    rw [hsplit, List.drop_left' hpayload]
    exact List.take_left' (by simp)
  have hmac : ((encodeManifest key manifest).drop (manifestPayloadBytes + 4)).take
      recordMacBytes = recordMac key (manifestPayload manifest)
        (appendLe 4 (crc32c (manifestPayload manifest)).toNat) := by
    rw [hsplit, ← List.drop_drop, List.drop_left' hpayload, List.drop_left' (by simp)]
    exact List.take_of_length_le (by simp [recordMacBytes])
  have hflag : (manifest.snapshotPresent.toNat == 1) = manifest.snapshotPresent := by
    cases manifest.snapshotPresent <;> rfl
  have hbit : ¬ manifest.snapshotPresent.toNat > 1 := by
    cases manifest.snapshotPresent <;> decide
  simp only [decodeManifest, bind_eq_ok, failIf_eq_ok, exists_const, h0, h4, h6, h14, h22,
    h30, h34, h35, h67, htake, hsum, hcrcBytes, hmac, hflag, hbit, hlength, pure,
    Except.pure, digestOfBytes_encodeDigest, UInt64.ofNat_toNat, ne_eq, not_true_eq_false,
    not_false_eq_true, and_true]
  decide

theorem readManifest_eq_ok {dir : Directory} {key : Bytes} {manifest : Manifest}
    (hfile : dir[manifestName]? = some (encodeManifest key manifest))
    (hfits : Manifest.Fits manifest) : readManifest dir key = .ok manifest := by
  have hlength : (encodeManifest key manifest).length ≤ 4096 := by
    rw [length_encodeManifest]
    norm_num
  simp only [readManifest, bind_eq_ok]
  exact ⟨_, readFile_eq_ok hfile hlength, decodeManifest_encodeManifest hfits⟩

theorem length_snapshotHeader (payload : Bytes) : (snapshotHeader payload).length = 42 := by
  simp [snapshotHeader]

theorem length_encodeSnapshot (key payload : Bytes) :
    (encodeSnapshot key payload).length = payload.length + 58 := by
  simp [encodeSnapshot, length_snapshotHeader]
  omega

/-- What a snapshot file asks of the reader: a size within the bound, the digest
the manifest records, and a payload that decodes. -/
theorem readSnapshot_eq_ok_iff {dir : Directory} {limits : Limits} {key payload : Bytes}
    {manifest : Manifest} {image : StateImage}
    (hfile : dir[snapshotName]? = some (encodeSnapshot key payload))
    (hpayload : payload.length < 2 ^ 32) :
    readSnapshot dir limits key manifest = .ok image ↔
      payload.length + 58 ≤ limits.maxStateBytes ∧
        (manifest.snapshotPresent = true → manifest.snapshotDigest = Sha256.hash payload) ∧
        decodeState payload limits = .ok image := by
  have hlength := length_encodeSnapshot key payload
  have hheader := length_snapshotHeader payload
  have hsplit : encodeSnapshot key payload = snapshotHeader payload ++
      (payload ++ recordMac key (snapshotHeader payload) payload) := rfl
  have hmagic : fieldAt (encodeSnapshot key payload) 0 4 = snapshotMagic := by
    rw [hsplit, snapshotHeader]
    simp only [List.append_assoc]
    exact @fieldAt_append [] _ 0 4 _ rfl (by decide)
  have hformat : fieldAt (encodeSnapshot key payload) 4 2 = formatVersion := by
    rw [hsplit, snapshotHeader]
    simp only [List.append_assoc]
    exact fieldAt_append (length_appendLe 4 _) (by decide)
  have hlen : fieldAt (encodeSnapshot key payload) 6 4 = payload.length := by
    rw [hsplit, snapshotHeader]
    simp only [List.append_assoc]
    rw [← List.append_assoc]
    exact fieldAt_append (by simp) (lt_of_lt_of_eq hpayload (by norm_num))
  have hdigest : ((encodeSnapshot key payload).drop 10).take 32 =
      encodeDigest (Sha256.hash payload) := by
    rw [hsplit, snapshotHeader]
    simp only [List.append_assoc]
    rw [← List.append_assoc, ← List.append_assoc, List.drop_left' (by simp),
      List.take_left' (by simp)]
  have hbody : ((encodeSnapshot key payload).drop 42).take payload.length = payload := by
    rw [hsplit, List.drop_left' hheader, List.take_left' rfl]
  have htake : (encodeSnapshot key payload).take 42 = snapshotHeader payload := by
    rw [hsplit, List.take_left' hheader]
  have hmac : ((encodeSnapshot key payload).drop (42 + payload.length)).take 16 =
      recordMac key (snapshotHeader payload) payload := by
    rw [hsplit, ← List.drop_drop, List.drop_left' hheader, List.drop_left' rfl]
    exact List.take_of_length_le (by simp)
  have hshort : ¬ payload.length + 58 < 42 + 16 := by omega
  simp only [readSnapshot, bind_eq_ok, readFile_eq_ok_iff, hfile, Option.some.injEq,
    snapshotHeaderBytes, recordMacBytes, failIf_eq_ok, exists_const]
  constructor
  · rintro ⟨data, ⟨rfl, hbound⟩, hrest⟩
    simp only [hmagic, hformat, hlen, hdigest, hbody, htake, hmac, hlength,
      digestOfBytes_encodeDigest, not_and, not_not, ne_eq] at hbound hrest
    exact ⟨hbound, hrest.2.2.2.2.2.2.2⟩
  · rintro ⟨hbound, hmatch, hdecode⟩
    refine ⟨_, ⟨rfl, by rw [hlength]; exact hbound⟩, ?_⟩
    simp only [hmagic, hformat, hlen, hdigest, hbody, htake, hmac, hlength,
      digestOfBytes_encodeDigest, not_and, not_not, ne_eq,
      not_true_eq_false, not_false_eq_true, true_and]
    exact ⟨hshort, by omega, by omega, hmatch, hdecode⟩

end PriorityFabric.StoreFiles
