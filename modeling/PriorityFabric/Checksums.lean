import PriorityFabric.Lib.Registers
import PriorityFabric.Wire

/-!
What the frame checksum tells apart.

One shift of the register is linear in exclusive or and loses nothing.  The table holds
eight shifts, so a byte step is eight shifts of the register with the byte added to its
low end, and four steps are thirty-two shifts of the register with four bytes added side
by side.
-/

namespace PriorityFabric.Checksums

open PriorityFabric.Lib.LittleEndian
open PriorityFabric.Lib.Registers
open PriorityFabric.Basics
open PriorityFabric.Hashing
open PriorityFabric.Durability (fieldAt)
open PriorityFabric.Wire

theorem toNat_low (crc : UInt32) : (crc &&& 1).toNat = crc.toNat % 2 := by
  rw [UInt32.toNat_and, UInt32.toNat_one, Nat.and_one_is_mod]

theorem low_eq (crc : UInt32) : crc &&& 1 = 0 ∨ crc &&& 1 = 1 := by
  simp only [← UInt32.toNat_inj, toNat_low, UInt32.reduceToNat]
  omega

theorem crc32cBit_xor (x y : UInt32) :
    crc32cBit (x ^^^ y) = crc32cBit x ^^^ crc32cBit y := by
  have hlow : (x ^^^ y) &&& 1 = (x &&& 1) ^^^ (y &&& 1) := by
    rw [← UInt32.toNat_inj]
    simp only [UInt32.toNat_and, UInt32.toNat_xor, Nat.and_xor_distrib_right]
  have hcomm (a b c : UInt32) : a ^^^ b ^^^ c = a ^^^ c ^^^ b := by
    rw [UInt32.xor_assoc, UInt32.xor_comm b c, UInt32.xor_assoc]
  unfold crc32cBit
  rw [hlow, UInt32.shiftRight_xor]
  rcases low_eq x with hx | hx <;> rcases low_eq y with hy | hy <;> rw [hx, hy]
  · rfl
  · rw [if_pos (by decide), if_neg (by decide), if_pos (by decide), UInt32.xor_assoc]
  · rw [if_pos (by decide), if_pos (by decide), if_neg (by decide), hcomm]
  · -- the two polynomials cancel
    rw [if_neg (by decide), if_pos (by decide), if_pos (by decide), ← UInt32.xor_assoc,
      hcomm (x >>> 1), UInt32.xor_assoc, UInt32.xor_self, UInt32.xor_zero]

theorem toNat_shift (crc : UInt32) : (crc >>> 1).toNat = crc.toNat / 2 := by
  rw [UInt32.toNat_shiftRight]
  exact Nat.shiftRight_eq_div_pow _ 1

theorem toNat_shiftByte (crc : UInt32) : (crc >>> 8).toNat = crc.toNat / 256 := by
  rw [UInt32.toNat_shiftRight]
  exact Nat.shiftRight_eq_div_pow _ 8

theorem crc32cBit_eq_zero {crc : UInt32} (h : crc32cBit crc = 0) : crc = 0 := by
  unfold crc32cBit at h
  split at h
  · rw [UInt32.xor_eq_zero_iff, ← UInt32.toNat_inj, toNat_shift] at h
    have hlt := crc.toNat_lt
    simp only [UInt32.reduceToNat] at h
    omega
  · rename_i hlow
    rw [not_not, ← UInt32.toNat_inj, toNat_low] at hlow
    rw [← UInt32.toNat_inj, toNat_shift] at h
    rw [← UInt32.toNat_inj]
    simp only [UInt32.reduceToNat] at h hlow ⊢
    omega

theorem crc32cBit_double {n : Nat} (h : n < 2 ^ 31) :
    crc32cBit (UInt32.ofNat (2 * n)) = UInt32.ofNat n := by
  have hlow : ¬ UInt32.ofNat (2 * n) &&& 1 ≠ 0 := by
    rw [not_not, ← UInt32.toNat_inj, toNat_low, UInt32.toNat_ofNat']
    simp only [UInt32.reduceToNat]
    omega
  unfold crc32cBit
  rw [if_neg hlow, ← UInt32.toNat_inj, toNat_shift, UInt32.toNat_ofNat',
    UInt32.toNat_ofNat']
  omega

theorem crc32cTable_xor (x y : UInt32) :
    crc32cTable (x ^^^ y) = crc32cTable x ^^^ crc32cTable y := by
  simp only [crc32cTable, crc32cBit_xor]

theorem crc32cTable_injective : Function.Injective crc32cTable := by
  intro x y h
  rw [← UInt32.xor_eq_zero_iff] at h ⊢
  rw [← crc32cTable_xor] at h
  unfold crc32cTable at h
  iterate 8 replace h := crc32cBit_eq_zero h
  exact h

theorem crc32cTable_high {n : Nat} (h : n < 2 ^ 24) :
    crc32cTable (UInt32.ofNat (256 * n)) = UInt32.ofNat n := by
  unfold crc32cTable
  rw [show 256 * n = 2 * (2 * (2 * (2 * (2 * (2 * (2 * (2 * n))))))) by omega]
  iterate 8 rw [crc32cBit_double (by omega)]

theorem mul_add_eq_xor (n : Nat) {low : Nat} (h : low < 256) :
    256 * n + low = 256 * n ^^^ low := by
  apply Nat.eq_of_testBit_eq
  intro i
  rw [Nat.testBit_xor, show 256 = 2 ^ 8 by norm_num, Nat.testBit_two_pow_mul_add n h,
    Nat.testBit_two_pow_mul]
  split
  · rw [decide_eq_false (by omega)]
    simp
  · have hpow : 2 ^ 8 ≤ 2 ^ i := Nat.pow_le_pow_right (by norm_num) (by omega)
    have hhigh : low.testBit i = false := Nat.testBit_lt_two_pow (by omega)
    rw [decide_eq_true (by omega), hhigh]
    simp

def crcStep (crc : UInt32) (byte : UInt8) : UInt32 :=
  crc32cTable ((crc ^^^ byte.toUInt32) &&& 0xFF) ^^^ (crc >>> 8)

theorem crc32cExtend_eq (seed : UInt32) (bytes : Bytes) :
    crc32cExtend seed bytes = ~~~(bytes.foldl crcStep (~~~seed)) := rfl

theorem crc32cTable_split (crc : UInt32) :
    crc32cTable crc = crc32cTable (crc &&& 0xFF) ^^^ (crc >>> 8) := by
  have hlow : crc &&& 0xFF = UInt32.ofNat (crc.toNat % 256) := by
    rw [← UInt32.toNat_inj, UInt32.toNat_and, UInt32.toNat_ofNat']
    simp only [UInt32.reduceToNat]
    rw [Nat.and_two_pow_sub_one_eq_mod crc.toNat 8]
    omega
  have hhigh : crc >>> 8 = UInt32.ofNat (crc.toNat / 256) := by
    rw [← UInt32.toNat_inj, toNat_shiftByte, UInt32.toNat_ofNat']
    have hlt := crc.toNat_lt
    omega
  have hsplit : crc = UInt32.ofNat (256 * (crc.toNat / 256)) ^^^
      UInt32.ofNat (crc.toNat % 256) := by
    rw [← UInt32.ofNat_xor, ← mul_add_eq_xor _ (Nat.mod_lt _ (by norm_num)),
      Nat.div_add_mod, UInt32.ofNat_toNat]
  have hlt := crc.toNat_lt
  conv_lhs => rw [hsplit]
  rw [crc32cTable_xor, crc32cTable_high (by omega), ← hlow, ← hhigh, UInt32.xor_comm]

theorem crcStep_eq (crc : UInt32) (byte : UInt8) :
    crcStep crc byte = crc32cTable (crc ^^^ byte.toUInt32) := by
  have hbyte : byte.toUInt32 >>> 8 = 0 := by
    rw [← UInt32.toNat_inj, toNat_shiftByte, UInt8.toNat_toUInt32, UInt32.toNat_zero]
    have hlt := byte.toNat_lt
    omega
  rw [crc32cTable_split, UInt32.shiftRight_xor, hbyte, UInt32.xor_zero, crcStep]

theorem readLe_lt_of_length_le {bytes : Bytes} {width : Nat} (h : bytes.length ≤ width) :
    readLe bytes < 2 ^ (8 * width) := by
  rw [pow_mul]
  exact (readLe_lt bytes).trans_le (Nat.pow_le_pow_right (by norm_num) h)

/-- Up to four byte steps: as many table steps, with the bytes added side by side. -/
theorem foldl_crcStep {bytes : Bytes} (h : bytes.length ≤ 4) (crc : UInt32) :
    bytes.foldl crcStep crc =
      crc32cTable^[bytes.length] (crc ^^^ UInt32.ofNat (readLe bytes)) := by
  induction bytes generalizing crc with
  | nil => simp [readLe]
  | cons byte rest ih =>
      rw [List.length_cons] at h
      have hrest : readLe rest < 2 ^ 24 := @readLe_lt_of_length_le rest 3 (by omega)
      have hpack : UInt32.ofNat (readLe (byte :: rest)) =
          byte.toUInt32 ^^^ UInt32.ofNat (256 * readLe rest) := by
        rw [readLe, Nat.add_comm, mul_add_eq_xor _ byte.toNat_lt, UInt32.ofNat_xor,
          UInt32.xor_comm, UInt32.ofNat_uInt8ToNat]
      rw [List.foldl_cons, ih (by omega), List.length_cons, Function.iterate_succ_apply,
        crcStep_eq, hpack, ← UInt32.xor_assoc, crc32cTable_xor (crc ^^^ byte.toUInt32),
        crc32cTable_high hrest]

theorem crcStep_injective (byte : UInt8) : Function.Injective (crcStep · byte) := by
  intro x y h
  simp only [crcStep_eq] at h
  exact (UInt32.xor_left_inj _).mp (crc32cTable_injective h)

theorem crcStep_distinguishes : Distinguishes crcStep 4 := by
  intro crc first second hlength hle h
  have hbound {bytes : Bytes} (hbytes : bytes.length ≤ 4) : readLe bytes < 2 ^ 32 :=
    readLe_lt_of_length_le hbytes
  rw [foldl_crcStep hle, foldl_crcStep (by omega), ← hlength] at h
  have hpack := (UInt32.xor_right_inj crc).mp (crc32cTable_injective.iterate _ h)
  rw [← UInt32.toNat_inj, UInt32.toNat_ofNat', UInt32.toNat_ofNat',
    Nat.mod_eq_of_lt (hbound hle), Nat.mod_eq_of_lt (hbound (by omega))] at hpack
  rw [← appendLe_readLe first, ← appendLe_readLe second, hpack, hlength]

theorem crc32cExtend_crc32c (first second : Bytes) :
    crc32cExtend (crc32c first) second = crc32c (first ++ second) := by
  rw [crc32c, crc32c, crc32cExtend_eq, crc32cExtend_eq, crc32cExtend_eq, UInt32.not_not,
    List.foldl_append]

theorem crc32c_ne_of_alteredWithin {first second : Bytes}
    (h : AlteredWithin 4 first second) : crc32c first ≠ crc32c second := by
  intro heq
  rw [crc32c, crc32c, crc32cExtend_eq, crc32cExtend_eq, UInt32.not_inj] at heq
  exact foldl_ne_of_alteredWithin crcStep_injective crcStep_distinguishes h _ heq

theorem verifyFrameChecksum_eq_ok {buffer : Bytes} {header : FrameHeader} :
    verifyFrameChecksum buffer header = .ok () ↔
      buffer.length = headerBytes + header.payloadLength.toNat + trailerBytes ∧
        (crc32c (buffer.take (buffer.length - trailerBytes))).toNat =
          fieldAt buffer (buffer.length - trailerBytes) 4 := by
  unfold verifyFrameChecksum
  simp only [bind_eq_ok, failIf_eq_ok, exists_const, ne_eq, not_not]

theorem verifyFrameChecksum_altered {buffer altered : Bytes} {header alteredHeader : FrameHeader}
    (hok : verifyFrameChecksum buffer header = .ok ())
    (hlength : alteredHeader.payloadLength = header.payloadLength)
    (hcovered : AlteredWithin 4
      (buffer.take (headerBytes + header.payloadLength.toNat))
      (altered.take (headerBytes + header.payloadLength.toNat)))
    (htrailer : altered.drop (headerBytes + header.payloadLength.toNat) =
      buffer.drop (headerBytes + header.payloadLength.toNat)) :
    verifyFrameChecksum altered alteredHeader =
      .error (makeError .protocolError (text "frame checksum mismatch")) := by
  obtain ⟨hsize, hcrc⟩ := verifyFrameChecksum_eq_ok.mp hok
  have htrailerBytes : trailerBytes = 4 := rfl
  have hend := congrArg List.length htrailer
  simp only [List.length_drop] at hend
  have halteredSize : altered.length =
      headerBytes + header.payloadLength.toNat + trailerBytes := by omega
  have hcut : headerBytes + header.payloadLength.toNat + trailerBytes - trailerBytes =
      headerBytes + header.payloadLength.toNat := by omega
  have hne : (crc32c (altered.take (headerBytes + header.payloadLength.toNat))).toNat ≠
      fieldAt altered (headerBytes + header.payloadLength.toNat) 4 := by
    rw [hsize, hcut] at hcrc
    rw [fieldAt, htrailer, ← fieldAt, ← hcrc]
    exact fun heq => crc32c_ne_of_alteredWithin hcovered (UInt32.toNat_inj.mp heq).symm
  unfold verifyFrameChecksum
  simp only [hlength, halteredSize, hcut, failIf, ne_eq, not_true_eq_false, if_false]
  exact if_pos hne

/-- The checksum composes, and tells apart what was altered inside a window of four bytes. -/
theorem crc32c_composes_and_detects_bursts :
    (∀ first second, crc32cExtend (crc32c first) second = crc32c (first ++ second)) ∧
      (∀ first second, AlteredWithin 4 first second → crc32c first ≠ crc32c second) ∧
      ∀ buffer altered header alteredHeader,
        verifyFrameChecksum buffer header = .ok () →
        alteredHeader.payloadLength = header.payloadLength →
        AlteredWithin 4 (buffer.take (headerBytes + header.payloadLength.toNat))
          (altered.take (headerBytes + header.payloadLength.toNat)) →
        altered.drop (headerBytes + header.payloadLength.toNat) =
          buffer.drop (headerBytes + header.payloadLength.toNat) →
        verifyFrameChecksum altered alteredHeader =
          .error (makeError .protocolError (text "frame checksum mismatch")) :=
  ⟨crc32cExtend_crc32c, fun _ _ h => crc32c_ne_of_alteredWithin h,
    fun _ _ _ _ hok hlength hcovered htrailer =>
      verifyFrameChecksum_altered hok hlength hcovered htrailer⟩

theorem crc32c_tells_one_byte : crc32c [1, 2, 3] ≠ crc32c [1, 7, 3] := by
  refine crc32c_composes_and_detects_bursts.2.1 _ _ ⟨rfl, by decide, 1, ?_⟩
  rintro i (hi | hi)
  · obtain rfl : i = 0 := by omega
    rfl
  · rw [List.getElem?_eq_none (by simp; omega), List.getElem?_eq_none (by simp; omega)]

end PriorityFabric.Checksums
