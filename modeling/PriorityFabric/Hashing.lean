import PriorityFabric.Lib.LittleEndian
import Mathlib.Data.Vector.Defs

/-!
SHA-256, HMAC-SHA256 and CRC-32C, as the source computes them.
-/

namespace PriorityFabric.Hashing

open PriorityFabric.Lib.LittleEndian

structure Digest where
  bytes : List.Vector UInt8 32 := List.Vector.replicate 32 0
  deriving DecidableEq

def Digest.zero : Digest := {}

@[ext] theorem Digest.ext {a b : Digest} (h : a.bytes.toList = b.bytes.toList) :
    a = b := by
  cases a
  cases b
  exact congrArg Digest.mk (Subtype.ext h)

@[simp] theorem Digest.length_toList (d : Digest) : d.bytes.toList.length = 32 :=
  d.bytes.2

def sha256K : List UInt32 :=
  [0x428a2f98, 0x71374491, 0xb5c0fbcf, 0xe9b5dba5, 0x3956c25b, 0x59f111f1,
    0x923f82a4, 0xab1c5ed5, 0xd807aa98, 0x12835b01, 0x243185be, 0x550c7dc3,
    0x72be5d74, 0x80deb1fe, 0x9bdc06a7, 0xc19bf174, 0xe49b69c1, 0xefbe4786,
    0x0fc19dc6, 0x240ca1cc, 0x2de92c6f, 0x4a7484aa, 0x5cb0a9dc, 0x76f988da,
    0x983e5152, 0xa831c66d, 0xb00327c8, 0xbf597fc7, 0xc6e00bf3, 0xd5a79147,
    0x06ca6351, 0x14292967, 0x27b70a85, 0x2e1b2138, 0x4d2c6dfc, 0x53380d13,
    0x650a7354, 0x766a0abb, 0x81c2c92e, 0x92722c85, 0xa2bfe8a1, 0xa81a664b,
    0xc24b8b70, 0xc76c51a3, 0xd192e819, 0xd6990624, 0xf40e3585, 0x106aa070,
    0x19a4c116, 0x1e376c08, 0x2748774c, 0x34b0bcb5, 0x391c0cb3, 0x4ed8aa4a,
    0x5b9cca4f, 0x682e6ff3, 0x748f82ee, 0x78a5636f, 0x84c87814, 0x8cc70208,
    0x90befffa, 0xa4506ceb, 0xbef9a3f7, 0xc67178f2]

def rotr (x n : UInt32) : UInt32 := (x >>> n) ||| (x <<< (32 - n))

def bigSigma0 (x : UInt32) : UInt32 := rotr x 2 ^^^ rotr x 13 ^^^ rotr x 22
def bigSigma1 (x : UInt32) : UInt32 := rotr x 6 ^^^ rotr x 11 ^^^ rotr x 25
def smallSigma0 (x : UInt32) : UInt32 := rotr x 7 ^^^ rotr x 18 ^^^ (x >>> 3)
def smallSigma1 (x : UInt32) : UInt32 := rotr x 17 ^^^ rotr x 19 ^^^ (x >>> 10)

/-- Eight 32-bit words: the chaining state, and the working variables of a
block. -/
structure HashWords where
  a : UInt32 := 0x6a09e667
  b : UInt32 := 0xbb67ae85
  c : UInt32 := 0x3c6ef372
  d : UInt32 := 0xa54ff53a
  e : UInt32 := 0x510e527f
  f : UInt32 := 0x9b05688c
  g : UInt32 := 0x1f83d9ab
  h : UInt32 := 0x5be0cd19
  deriving DecidableEq, Repr

/-- The big-endian word at position `i` of a block. -/
def blockWord (block : Bytes) (i : Nat) : UInt32 :=
  ((block.getD (i * 4) 0).toUInt32 <<< 24) |||
    ((block.getD (i * 4 + 1) 0).toUInt32 <<< 16) |||
    ((block.getD (i * 4 + 2) 0).toUInt32 <<< 8) |||
    (block.getD (i * 4 + 3) 0).toUInt32

/-- Extend the message schedule by `count` words. -/
def extendSchedule : (count : Nat) → List UInt32 → List UInt32
  | 0, w => w
  | count + 1, w =>
      let i := w.length
      extendSchedule count (w ++ [smallSigma1 (w.getD (i - 2) 0) +
        w.getD (i - 7) 0 + smallSigma0 (w.getD (i - 15) 0) + w.getD (i - 16) 0])

def messageSchedule (block : Bytes) : List UInt32 :=
  extendSchedule 48 ((List.range 16).map (blockWord block))

/-- One round with its constant and schedule word. -/
def round (v : HashWords) (kw : UInt32 × UInt32) : HashWords :=
  let t1 := v.h + bigSigma1 v.e + ((v.e &&& v.f) ^^^ (~~~v.e &&& v.g)) + kw.1 + kw.2
  let t2 := bigSigma0 v.a + ((v.a &&& v.b) ^^^ (v.a &&& v.c) ^^^ (v.b &&& v.c))
  { a := t1 + t2, b := v.a, c := v.b, d := v.c, e := v.d + t1, f := v.e, g := v.f,
    h := v.g }

/-- Fold one 64-byte block into the chaining state. -/
def compress (s : HashWords) (block : Bytes) : HashWords :=
  let v := (sha256K.zip (messageSchedule block)).foldl round s
  { a := s.a + v.a, b := s.b + v.b, c := s.c + v.c, d := s.d + v.d,
    e := s.e + v.e, f := s.f + v.f, g := s.g + v.g, h := s.h + v.h }

/-- Streaming SHA-256: chaining state, the bytes waiting for a full block and
the number of bytes seen. -/
structure Sha256 where
  state : HashWords := {}
  buffer : Bytes := []
  totalBytes : UInt64 := 0

namespace Sha256

/-- Compress the full blocks at the front of `bytes`; `fuel` bounds their
number. -/
def absorbBlocks : (fuel : Nat) → HashWords → Bytes → HashWords × Bytes
  | 0, s, bytes => (s, bytes)
  | fuel + 1, s, bytes =>
      if 64 ≤ bytes.length then
        absorbBlocks fuel (compress s (bytes.take 64)) (bytes.drop 64)
      else (s, bytes)

def update (h : Sha256) (bytes : Bytes) : Sha256 :=
  let totalBytes := h.totalBytes + UInt64.ofNat bytes.length
  let take := if h.buffer.isEmpty then 0 else min bytes.length (64 - h.buffer.length)
  let buffered := h.buffer ++ bytes.take take
  let bytes := bytes.drop take
  let full := buffered.length == 64
  let state := if full then compress h.state buffered else h.state
  let buffered := if full then [] else buffered
  let absorbed := absorbBlocks bytes.length state bytes
  { state := absorbed.1
    buffer := if absorbed.2.isEmpty then buffered else absorbed.2
    totalBytes }

/-- Append zero bytes until the buffer holds 56; `fuel` bounds their number. -/
def padZeros : (fuel : Nat) → Sha256 → Sha256
  | 0, h => h
  | fuel + 1, h => if h.buffer.length = 56 then h else padZeros fuel (h.update [0])

def wordBytes (w : UInt32) : Bytes :=
  [(w >>> 24).toUInt8, (w >>> 16).toUInt8, (w >>> 8).toUInt8, w.toUInt8]

def wordsDigest (s : HashWords) : Digest :=
  ⟨⟨wordBytes s.a ++ wordBytes s.b ++ wordBytes s.c ++ wordBytes s.d ++
    wordBytes s.e ++ wordBytes s.f ++ wordBytes s.g ++ wordBytes s.h, rfl⟩⟩

/-- Pad, absorb the bit length and read the digest off. -/
def finish (h : Sha256) : Digest :=
  let bitLength := h.totalBytes * 8
  let padded := padZeros 64 (h.update [0x80])
  let lengthBytes := (appendLe 8 bitLength.toNat).reverse
  wordsDigest (padded.update lengthBytes).state

def hash (bytes : Bytes) : Digest := (({} : Sha256).update bytes).finish

end Sha256

def hmacSha256 (key data : Bytes) : Digest :=
  let normalized := if 64 < key.length then (Sha256.hash key).bytes.toList else key
  let normalized := normalized ++ List.replicate (64 - normalized.length) 0
  let ipad := normalized.map (· ^^^ 0x36)
  let opad := normalized.map (· ^^^ 0x5C)
  let inner := ((({} : Sha256).update ipad).update data).finish
  ((({} : Sha256).update opad).update inner.bytes.toList).finish

def crc32cBit (crc : UInt32) : UInt32 :=
  if crc &&& 1 ≠ 0 then (crc >>> 1) ^^^ 0x82F63B78 else crc >>> 1

/-- Entry `i` of the table: eight bit steps from `i`. -/
def crc32cTable (i : UInt32) : UInt32 :=
  crc32cBit (crc32cBit (crc32cBit (crc32cBit
    (crc32cBit (crc32cBit (crc32cBit (crc32cBit i)))))))

def crc32cExtend (seed : UInt32) (bytes : Bytes) : UInt32 :=
  ~~~(bytes.foldl (fun crc byte =>
    crc32cTable ((crc ^^^ byte.toUInt32) &&& 0xFF) ^^^ (crc >>> 8)) (~~~seed))

def crc32c (bytes : Bytes) : UInt32 := crc32cExtend 0 bytes

end PriorityFabric.Hashing
