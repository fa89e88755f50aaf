import PriorityFabric.Lib.Blocks
import PriorityFabric.Hashing

/-!
Streaming SHA-256 against its specification.

The specification pads the message to whole blocks and folds them into the chaining
state.  The stream keeps the fold over the full blocks it has seen and the bytes after
them, so the digest does not depend on how the message was cut.
-/

namespace PriorityFabric.Digests

open PriorityFabric.Lib.LittleEndian
open PriorityFabric.Lib.Blocks
open PriorityFabric.Hashing

/-- The zero bytes between the marker and the length. -/
def zeroCount (length : Nat) : Nat := (119 - length % 64) % 64

/-- The `width` bytes of a number, most significant first. -/
def bigEndian (width value : Nat) : Bytes :=
  (List.range width).reverse.map fun i => UInt8.ofNat (value / 256 ^ i)

/-- The message, a one bit, zeros, and the bit length in 64 bits. -/
def padded (message : Bytes) : Bytes :=
  message ++ 0x80 ::
    (List.replicate (zeroCount message.length) 0 ++ bigEndian 8 (message.length * 8))

/-- The specified digest: the fold of the compression over the blocks of the padded
message. -/
def specified (message : Bytes) : Digest :=
  Sha256.wordsDigest ((blocks 64 (padded message)).foldl compress {})

theorem appendLe_eq_map (width value : Nat) :
    appendLe width value = (List.range width).map fun i => UInt8.ofNat (value / 256 ^ i) := by
  induction width generalizing value with
  | zero => rfl
  | succ width ih =>
      rw [appendLe, ih, List.range_succ_eq_map, List.map_cons, List.map_map, pow_zero,
        Nat.div_one]
      congr 2
      funext i
      rw [Function.comp_apply, Nat.div_div_eq_div_mul, Nat.succ_eq_add_one, pow_succ']

theorem bigEndian_eq_reverse (width value : Nat) :
    bigEndian width value = (appendLe width value).reverse := by
  rw [bigEndian, appendLe_eq_map, List.map_reverse]

theorem length_padded (message : Bytes) :
    (padded message).length = message.length + zeroCount message.length + 9 := by
  simp only [padded, bigEndian, List.length_append, List.length_cons, List.length_replicate,
    List.length_map, List.length_reverse, List.length_range]
  omega

theorem zeroCount_least (length : Nat) :
    64 ∣ length + zeroCount length + 9 ∧
      ∀ zeros, 64 ∣ length + zeros + 9 → zeroCount length ≤ zeros := by
  unfold zeroCount
  constructor
  · omega
  · intro zeros h
    omega

theorem dvd_length_padded (message : Bytes) : 64 ∣ (padded message).length := by
  rw [length_padded]
  exact (zeroCount_least message.length).1

theorem absorbBlocks_eq {fuel : Nat} {bytes : Bytes} (h : bytes.length ≤ fuel)
    (state : HashWords) :
    Sha256.absorbBlocks fuel state bytes = absorb compress 64 state bytes := by
  induction fuel generalizing state bytes with
  | zero =>
      rw [Sha256.absorbBlocks, absorb_of_lt compress state (by omega)]
  | succ fuel ih =>
      rw [Sha256.absorbBlocks]
      split
      · rename_i hlong
        rw [ih (by rw [List.length_drop]; omega), absorb_of_le compress (by norm_num) state hlong]
      · rename_i hshort
        rw [absorb_of_lt compress state (by omega)]

theorem update_eq {h : Sha256} (hbuffer : h.buffer.length < 64) (bytes : Bytes) :
    h.update bytes =
      { state := (absorb compress 64 h.state (h.buffer ++ bytes)).1
        buffer := (absorb compress 64 h.state (h.buffer ++ bytes)).2
        totalBytes := h.totalBytes + UInt64.ofNat bytes.length } := by
  have hkeep (rest : Bytes) : (if rest.isEmpty then [] else rest) = rest := by
    cases rest <;> rfl
  by_cases hempty : h.buffer = []
  · simp only [Sha256.update, hempty, List.isEmpty_nil, if_true, List.take_zero,
      List.drop_zero, List.append_nil, List.nil_append, List.length_nil, Nat.reduceBEq,
      Bool.false_eq_true, if_false, absorbBlocks_eq (le_refl _), hkeep]
  · have hsome : h.buffer.isEmpty = false := by simpa using hempty
    by_cases hshort : bytes.length < 64 - h.buffer.length
    · -- the buffer takes everything and stays short of a block
      have hlt : (h.buffer ++ bytes).length < 64 := by
        rw [List.length_append]
        omega
      have hnot : ((h.buffer ++ bytes).length == 64) = false := by
        simpa using hlt.ne
      simp only [Sha256.update, hsome, Bool.false_eq_true, if_false,
        Nat.min_eq_left hshort.le, List.take_length, List.drop_length, hnot,
        absorbBlocks_eq (le_refl _), absorb_of_lt compress _ hlt]
      rw [absorb_of_lt compress h.state (by simp)]
      rfl
    · -- the buffer fills up, and the rest is absorbed from the input
      have hfull : (h.buffer ++ bytes.take (64 - h.buffer.length)).length = 64 := by
        rw [List.length_append, List.length_take]
        omega
      have hsplit : h.buffer ++ bytes =
          (h.buffer ++ bytes.take (64 - h.buffer.length)) ++
            bytes.drop (64 - h.buffer.length) := by
        rw [List.append_assoc, List.take_append_drop]
      have habsorb : absorb compress 64 h.state (h.buffer ++ bytes) =
          absorb compress 64
            (compress h.state (h.buffer ++ bytes.take (64 - h.buffer.length)))
            (bytes.drop (64 - h.buffer.length)) := by
        rw [hsplit, absorb_of_le compress (by norm_num) h.state (by
          rw [List.length_append]; omega), List.take_left' hfull, List.drop_left' hfull]
      simp only [Sha256.update, hsome, Bool.false_eq_true, if_false,
        Nat.min_eq_right (not_lt.mp hshort), hfull, beq_self_eq_true, if_true,
        absorbBlocks_eq (le_refl _), hkeep, habsorb]

/-- The stream has seen `message`. -/
structure Streamed (message : Bytes) (h : Sha256) : Prop where
  absorbed : (h.state, h.buffer) = absorb compress 64 {} message
  counted : h.totalBytes = UInt64.ofNat message.length

theorem streamed_nil : Streamed [] {} :=
  ⟨(absorb_of_lt compress {} (by simp)).symm, rfl⟩

section Streamed

variable {message : Bytes} {h : Sha256} (hstream : Streamed message h)

include hstream

theorem Streamed.length_buffer : h.buffer.length = message.length % 64 := by
  rw [show h.buffer = remainder 64 message from congrArg Prod.snd hstream.absorbed,
    length_remainder]

theorem Streamed.update (bytes : Bytes) : Streamed (message ++ bytes) (h.update bytes) := by
  have hshort : h.buffer.length < 64 := by
    rw [hstream.length_buffer]
    exact Nat.mod_lt _ (by norm_num)
  rw [update_eq hshort]
  constructor
  · rw [absorb_append compress (by norm_num) {} message, ← hstream.absorbed]
  · rw [hstream.counted, List.length_append, UInt64.ofNat_add]

theorem Streamed.foldl (pieces : List Bytes) :
    Streamed (message ++ pieces.flatten) (pieces.foldl Sha256.update h) := by
  induction pieces generalizing message h with
  | nil =>
      rw [List.flatten_nil, List.append_nil]
      exact hstream
  | cons piece pieces ih =>
      rw [List.flatten_cons, ← List.append_assoc]
      exact ih (hstream.update piece)

theorem Streamed.padZeros {fuel zeros : Nat} (hzeros : (message.length + zeros) % 64 = 56)
    (hlt : zeros < 64) (hfuel : zeros ≤ fuel) :
    Streamed (message ++ List.replicate zeros 0) (Sha256.padZeros fuel h) := by
  induction fuel generalizing message h zeros with
  | zero =>
      obtain rfl : zeros = 0 := by omega
      rw [List.replicate_zero, List.append_nil, Sha256.padZeros]
      exact hstream
  | succ fuel ih =>
      rw [Sha256.padZeros, hstream.length_buffer]
      split
      · rename_i hdone
        obtain rfl : zeros = 0 := by omega
        rw [List.replicate_zero, List.append_nil]
        exact hstream
      · rename_i hmore
        obtain ⟨zeros, rfl⟩ : ∃ more, zeros = more + 1 :=
          Nat.exists_eq_succ_of_ne_zero (by rintro rfl; exact hmore hzeros)
        have hcount : ((message ++ [0]).length + zeros) % 64 = 56 := by
          rw [List.length_append, List.length_singleton]
          omega
        have hnext := ih (hstream.update [0]) hcount (by omega) (by omega)
        rwa [List.append_assoc, List.singleton_append, ← List.replicate_succ] at hnext

theorem Streamed.finish (hlength : message.length < 2 ^ 61) :
    h.finish = specified message := by
  have hbits : (h.totalBytes * 8).toNat = message.length * 8 := by
    rw [hstream.counted, UInt64.toNat_mul, UInt64.toNat_ofNat']
    simp only [UInt64.reduceToNat]
    omega
  have hmarked := hstream.update [0x80]
  have hzeroed := @Streamed.padZeros _ _ hmarked 64 (zeroCount message.length)
    (by rw [List.length_append, List.length_singleton, zeroCount]; omega)
    (Nat.mod_lt _ (by norm_num)) (Nat.mod_lt _ (by norm_num)).le
  have hpadded := hzeroed.update (appendLe 8 (h.totalBytes * 8).toNat).reverse
  rw [hbits, ← bigEndian_eq_reverse, List.append_assoc, List.append_assoc,
    List.singleton_append] at hpadded
  have hstate := congrArg Prod.fst hpadded.absorbed
  rw [Sha256.finish, specified, hbits, ← bigEndian_eq_reverse]
  exact congrArg Sha256.wordsDigest hstate

end Streamed

/-- However a message is cut into updates, the digest is the specified one. -/
theorem sha256_streaming {message : Bytes} (hlength : message.length < 2 ^ 61)
    {pieces : List Bytes} (hpieces : pieces.flatten = message) :
    (pieces.foldl Sha256.update {}).finish = specified message ∧
      (blocks 64 (padded message)).flatten = padded message ∧
      ∀ block ∈ blocks 64 (padded message), block.length = 64 := by
  have hstream := streamed_nil.foldl pieces
  rw [List.nil_append, hpieces] at hstream
  exact ⟨hstream.finish hlength,
    flatten_blocks_of_dvd (by norm_num) (dvd_length_padded message),
    length_of_mem_blocks (by norm_num) _⟩

theorem sha256_streaming_abc :
    ([[0x61], [], [0x62, 0x63]].foldl Sha256.update {}).finish = specified [0x61, 0x62, 0x63] :=
  (@sha256_streaming [0x61, 0x62, 0x63] (by norm_num) [[0x61], [], [0x62, 0x63]] rfl).1

end PriorityFabric.Digests
