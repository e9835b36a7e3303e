import AccelObserver.Library.Bytes
import Mathlib.Order.Bounds.Basic

/-!
# SHA-1 as RFC 3174 defines it

The padding, the functions and constants of the rounds, the message schedule
as a recurrence, and the digest as the fold of the compression over the blocks
of the padded message.
-/

namespace AccelObserver.Library.SecureHash

/-! ## Padding -/

/-- How many zero bytes stand between the byte 0x80 and the length. -/
def zeroCount (length : Nat) : Nat :=
  (119 - length % 64) % 64

/-- The message with the byte 0x80, the zeros and the 64-bit length in
bits. -/
def padded (message : Bytes) : Bytes :=
  message ++ 0x80 :: List.replicate (zeroCount message.length) 0 ++
    BigEndian.write 8 (8 * message.length)

/-- They are the least number that fills the last block. -/
theorem zeroCount_isLeast (length : Nat) :
    IsLeast { zeros | (length + 1 + zeros + 8) % 64 = 0 }
      (zeroCount length) := by
  constructor
  · simp only [zeroCount, Set.mem_ofPred_eq]
    omega
  · intro zeros fills
    simp only [Set.mem_ofPred_eq] at fills
    simp only [zeroCount]
    omega

theorem padded_length (message : Bytes) :
    (padded message).length =
      message.length + 1 + zeroCount message.length + 8 := by
  simp only [padded, List.length_append, List.length_cons,
    List.length_replicate, BigEndian.write_length]
  omega

/-- The padded message is the shortest run of whole blocks with room for the
byte 0x80 and the length. -/
theorem padded_length_isLeast (message : Bytes) :
    IsLeast { size | size % 64 = 0 ∧ message.length + 9 ≤ size }
      (padded message).length := by
  rw [padded_length]
  constructor
  · simp only [zeroCount, Set.mem_ofPred_eq]
    omega
  · intro size whole
    simp only [Set.mem_ofPred_eq] at whole
    simp only [zeroCount]
    omega

/-! ## Functions and constants -/

/-- `S^n(X)`, the circular left shift. -/
def circularShift (n : Nat) (x : UInt32) : UInt32 :=
  UInt32.ofBitVec (x.toBitVec.rotateLeft n)

/-- `f(t;B,C,D)` -/
def f (t : Nat) (b c d : UInt32) : UInt32 :=
  if t ≤ 19 then (b &&& c) ||| (~~~b &&& d)
  else if t ≤ 39 then b ^^^ c ^^^ d
  else if t ≤ 59 then (b &&& c) ||| (b &&& d) ||| (c &&& d)
  else b ^^^ c ^^^ d

/-- `K(t)` -/
def k (t : Nat) : UInt32 :=
  if t ≤ 19 then 0x5A827999
  else if t ≤ 39 then 0x6ED9EBA1
  else if t ≤ 59 then 0x8F1BBCDC
  else 0xCA62C1D6

/-! ## One block -/

/-- A word of a block, its most significant byte first. -/
def word (block : Bytes) (t : Nat) : UInt32 :=
  UInt32.ofNat
    ((block.getD (4 * t) 0).toNat * 2 ^ 24 +
      (block.getD (4 * t + 1) 0).toNat * 2 ^ 16 +
      (block.getD (4 * t + 2) 0).toNat * 2 ^ 8 +
      (block.getD (4 * t + 3) 0).toNat)

/-- `W(t)`, from the sixteen words of a block. -/
def w (words : Nat → UInt32) (t : Nat) : UInt32 :=
  if t < 16 then words t
  else
    circularShift 1
      (w words (t - 3) ^^^ w words (t - 8) ^^^ w words (t - 14) ^^^
        w words (t - 16))

/-- Five words: the buffer `A` to `E`, and the hash `H0` to `H4`. -/
structure Buffer where
  a : UInt32
  b : UInt32
  c : UInt32
  d : UInt32
  e : UInt32
  deriving DecidableEq

/-- The hash before the first block. -/
def initial : Buffer where
  a := 0x67452301
  b := 0xEFCDAB89
  c := 0x98BADCFE
  d := 0x10325476
  e := 0xC3D2E1F0

/-- The step for one `t`. -/
def step (words : Nat → UInt32) (buffer : Buffer) (t : Nat) : Buffer where
  a :=
    circularShift 5 buffer.a + f t buffer.b buffer.c buffer.d + buffer.e +
      w words t + k t
  b := buffer.a
  c := circularShift 30 buffer.b
  d := buffer.c
  e := buffer.d

/-- The 80 steps for a block, added to the hash. -/
def process (hash : Buffer) (block : Bytes) : Buffer :=
  let buffer := (List.range 80).foldl (step (word block)) hash
  { a := hash.a + buffer.a
    b := hash.b + buffer.b
    c := hash.c + buffer.c
    d := hash.d + buffer.d
    e := hash.e + buffer.e }

/-! ## The digest -/

/-- The blocks of 64 bytes. -/
def blocks (message : Bytes) : List Bytes :=
  (List.range (message.length / 64)).map fun n =>
    (message.drop (64 * n)).take 64

/-- The 20 bytes of a hash. -/
def bytes (hash : Buffer) : Bytes :=
  [hash.a, hash.b, hash.c, hash.d, hash.e].flatMap fun word =>
    BigEndian.write 4 word.toNat

/-- The digest of a message. -/
def digest (message : Bytes) : Bytes :=
  bytes ((blocks (padded message)).foldl process initial)

/-! ## The schedule as a list -/

theorem w_of_lt {t : Nat} (early : t < 16) (words : Nat → UInt32) :
    w words t = words t := by
  rw [w, if_pos early]

/-- A later word from the four that are already there. -/
theorem w_add (words : Nat → UInt32) (i : Nat) :
    w words (16 + i) =
      circularShift 1
        (w words (16 + i - 3) ^^^ w words (16 + i - 8) ^^^
          w words (16 + i - 14) ^^^ w words (16 + i - 16)) := by
  rw [w, if_neg (by omega)]

end AccelObserver.Library.SecureHash
