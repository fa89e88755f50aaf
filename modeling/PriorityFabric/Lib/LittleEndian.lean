import Mathlib.Tactic

/-!
Fixed-width little-endian numerals over bytes.

`appendLe` writes the low `width` bytes of a number and `readLe` reads a byte
string back as a number; the two are inverse on numbers that fit.
-/

namespace PriorityFabric.Lib.LittleEndian

abbrev Bytes := List UInt8

/-- The low `width` bytes of `value`, least significant first. -/
def appendLe : (width value : Nat) → Bytes
  | 0, _ => []
  | width + 1, value => UInt8.ofNat value :: appendLe width (value / 256)

/-- The number written by a little-endian byte string. -/
def readLe : Bytes → Nat
  | [] => 0
  | byte :: rest => byte.toNat + 256 * readLe rest

@[simp] theorem length_appendLe (width value : Nat) :
    (appendLe width value).length = width := by
  induction width generalizing value with
  | zero => rfl
  | succ width ih => simp [appendLe, ih]

theorem readLe_appendLe_mod (width value : Nat) :
    readLe (appendLe width value) = value % 256 ^ width := by
  induction width generalizing value with
  | zero => simp [appendLe, readLe, Nat.mod_one]
  | succ width ih =>
      rw [appendLe, readLe, ih, pow_succ, Nat.mul_comm (256 ^ width) 256,
        Nat.mod_mul]
      simp

theorem readLe_appendLe {width value : Nat} (h : value < 256 ^ width) :
    readLe (appendLe width value) = value := by
  rw [readLe_appendLe_mod, Nat.mod_eq_of_lt h]

theorem readLe_lt (bytes : Bytes) : readLe bytes < 256 ^ bytes.length := by
  induction bytes with
  | nil => simp [readLe]
  | cons byte rest ih =>
      have hbyte : byte.toNat < 256 := byte.toNat_lt
      simp only [readLe, List.length_cons, pow_succ]
      omega

theorem appendLe_readLe (bytes : Bytes) :
    appendLe bytes.length (readLe bytes) = bytes := by
  induction bytes with
  | nil => rfl
  | cons byte rest ih =>
      have hbyte : byte.toNat < 256 := byte.toNat_lt
      have hdiv : (byte.toNat + 256 * readLe rest) / 256 = readLe rest := by
        omega
      have hhead : UInt8.ofNat (byte.toNat + 256 * readLe rest) = byte := by
        apply UInt8.toNat_inj.mp
        simp only [UInt8.toNat_ofNat']
        omega
      simp only [List.length_cons, readLe, appendLe]
      rw [hdiv, hhead, ih]

end PriorityFabric.Lib.LittleEndian
