import AccelObserver.Library.Bytes

/-!
# SHA-1

`sha1_compute` of `crypto/sha1.c`, which client and server share, and the one
that `ws_subscriber.cpp` has for itself.  They differ in how a word is loaded
from and stored into bytes; the padding, the schedule and the rounds are the
same text, and are written once with the two as parameters.
-/

namespace AccelObserver.Crypto.Sha1

open AccelObserver.Library

/-- `rotl32` -/
def rotl32 (v n : UInt32) : UInt32 :=
  (v <<< n) ||| (v >>> (32 - n))

/-! ## Padding -/

/-- `padded_len` -/
def paddedLen (len : Nat) : Nat :=
  ((len + 8) / 64 + 1) * 64

/-- The loop that writes the bit length into the last eight bytes. -/
def writeBitLen (padded : Bytes) (bitLen : UInt64) : Bytes :=
  (List.range 8).reverse.foldl
    (fun padded i =>
      padded.set (padded.length - 8 + (7 - i))
        (bitLen >>> UInt64.ofNat (i * 8)).toUInt8)
    padded

/-- The zeroed buffer with the data, the byte 0x80 and the bit length. -/
def pad (data : Bytes) : Bytes :=
  let zeros := List.replicate (paddedLen data.length) 0
  let padded := data ++ zeros.drop data.length
  writeBitLen (padded.set data.length 0x80) (UInt64.ofNat data.length * 8)

/-! ## One block -/

/-- `W`: sixteen words of the block, and 64 words made of earlier ones. -/
def schedule (word : Nat → UInt32) : List UInt32 :=
  (List.range 64).foldl
    (fun w i =>
      let t := i + 16
      w ++
        [rotl32
          (w.getD (t - 3) 0 ^^^ w.getD (t - 8) 0 ^^^ w.getD (t - 14) 0 ^^^
            w.getD (t - 16) 0) 1])
    ((List.range 16).map word)

/-- The five words of the hash, and the variables `a` to `e`. -/
structure Words where
  a : UInt32
  b : UInt32
  c : UInt32
  d : UInt32
  e : UInt32
  deriving DecidableEq

def initial : Words :=
  { a := 0x67452301
    b := 0xEFCDAB89
    c := 0x98BADCFE
    d := 0x10325476
    e := 0xC3D2E1F0 }

/-- The function and the constant of a round. -/
def choose (t : Nat) (b c d : UInt32) : UInt32 × UInt32 :=
  if t < 20 then ((b &&& c) ||| (~~~b &&& d), 0x5A827999)
  else if t < 40 then (b ^^^ c ^^^ d, 0x6ED9EBA1)
  else if t < 60 then
    ((b &&& c) ||| (b &&& d) ||| (c &&& d), 0x8F1BBCDC)
  else (b ^^^ c ^^^ d, 0xCA62C1D6)

/-- One of the 80 rounds. -/
def round (w : List UInt32) (words : Words) (t : Nat) : Words :=
  let (f, k) := choose t words.b words.c words.d
  { a := rotl32 words.a 5 + f + words.e + k + w.getD t 0
    b := words.a
    c := rotl32 words.b 30
    d := words.c
    e := words.d }

/-- The rounds of a block, added to the hash. -/
def compress (h : Words) (w : List UInt32) : Words :=
  let words := (List.range 80).foldl (round w) h
  { a := h.a + words.a
    b := h.b + words.b
    c := h.c + words.c
    d := h.d + words.d
    e := h.e + words.e }

/-! ## The digest -/

/-- The blocks of the padded data, one after another. -/
def hashBlocks (load : Bytes → Nat → UInt32) (padded : Bytes) : Words :=
  (List.range (padded.length / 64)).foldl
    (fun h blk => compress h (schedule fun t => load padded (blk * 64 + t * 4)))
    initial

/-- The five words of the hash as bytes. -/
def digestWith (load : Bytes → Nat → UInt32) (store : UInt32 → Bytes)
    (data : Bytes) : Bytes :=
  let h := hashBlocks load (pad data)
  [h.a, h.b, h.c, h.d, h.e].flatMap store

/-- `load_be32` -/
def loadBe32 (p : Bytes) (offset : Nat) : UInt32 :=
  ((p.getD offset 0).toUInt32 <<< 24) |||
    ((p.getD (offset + 1) 0).toUInt32 <<< 16) |||
    ((p.getD (offset + 2) 0).toUInt32 <<< 8) |||
    (p.getD (offset + 3) 0).toUInt32

/-- `store_be32` -/
def storeBe32 (v : UInt32) : Bytes :=
  [(v >>> 24).toUInt8, (v >>> 16).toUInt8, (v >>> 8).toUInt8, v.toUInt8]

/-- `sha1_compute` of `crypto/sha1.c` -/
def sha1Compute (data : Bytes) : Bytes :=
  digestWith loadBe32 storeBe32 data

/-- `sha1_compute` of `ws_subscriber.cpp`, which shifts in place. -/
def sha1ComputeLocal (data : Bytes) : Bytes :=
  digestWith
    (fun padded index =>
      ((padded.getD index 0).toUInt32 <<< 24) |||
        ((padded.getD (index + 1) 0).toUInt32 <<< 16) |||
        ((padded.getD (index + 2) 0).toUInt32 <<< 8) |||
        (padded.getD (index + 3) 0).toUInt32)
    (fun word =>
      [(word >>> 24).toUInt8, (word >>> 16).toUInt8, (word >>> 8).toUInt8,
        word.toUInt8])
    data

/-- Both compute the same digest. -/
theorem sha1ComputeLocal_eq : sha1ComputeLocal = sha1Compute := rfl

theorem digestWith_length
    {store : UInt32 → Bytes} (four : ∀ word, (store word).length = 4)
    (load : Bytes → Nat → UInt32) (data : Bytes) :
    (digestWith load store data).length = 20 := by
  simp [digestWith, four]

@[simp]
theorem sha1Compute_length (data : Bytes) :
    (sha1Compute data).length = 20 :=
  digestWith_length (fun _ => rfl) _ data

/-- The first bytes of the digest of `abc`. -/
example :
    (sha1Compute (ascii "abc")).take 4 = [0xA9, 0x99, 0x3E, 0x36] := by
  decide +kernel

end AccelObserver.Crypto.Sha1
