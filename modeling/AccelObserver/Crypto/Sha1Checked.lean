import AccelObserver.Crypto.Sha1
import AccelObserver.Library.CheckedLoops

/-!
# SHA-1 with its indices checked

`sha1_compute` once more, in the arithmetic of a 64-bit `size_t`, where a read
or a write outside its buffer ends in `none`.  For data of less than 2^61
bytes nothing overflows and every index is inside, so the digest is the one of
the unchecked code.
-/

namespace AccelObserver.Crypto.Sha1

open AccelObserver.Library
open AccelObserver.Library.CheckedLoops

/-! ## The padded buffer -/

/-- `buffer[i] = byte` -/
def setChecked (buffer : Bytes) (i : UInt64) (byte : UInt8) : Option Bytes :=
  if i.toNat < buffer.length then some (buffer.set i.toNat byte) else none

/-- `memcpy(buffer, data, len)` -/
def copyChecked (buffer data : Bytes) : Option Bytes :=
  if data.length ≤ buffer.length then
    some (data ++ buffer.drop data.length)
  else none

/-- `padded_len`, as a `size_t`. -/
def paddedLen64 (len : UInt64) : UInt64 :=
  ((len + 8) / 64 + 1) * 64

/-- The loop that writes the bit length. -/
def writeBitLenChecked (padded : Bytes) (paddedLen bitLen : UInt64) :
    Option Bytes :=
  (List.range 8).reverse.foldlM
    (fun padded i =>
      setChecked padded (paddedLen - 8 + UInt64.ofNat (7 - i))
        (bitLen >>> UInt64.ofNat (i * 8)).toUInt8)
    padded

/-- The buffer behind the padding. -/
def padChecked (data : Bytes) : Option Bytes := do
  let len := UInt64.ofNat data.length
  let paddedLen := paddedLen64 len
  let padded ← copyChecked (List.replicate paddedLen.toNat 0) data
  let padded ← setChecked padded len 0x80
  writeBitLenChecked padded paddedLen (len * 8)

/-! ## One block -/

/-- `W`, where `word` loads a word of the block. -/
def scheduleChecked (word : Nat → Option UInt32) : Option (List UInt32) := do
  let first ← (List.range 16).foldlM
    (fun w t => do
      let loaded ← word t
      some (w ++ [loaded]))
    []
  (List.range 64).foldlM
    (fun w i => do
      let t := i + 16
      let w3 ← w[t - 3]?
      let w8 ← w[t - 8]?
      let w14 ← w[t - 14]?
      let w16 ← w[t - 16]?
      some (w ++ [rotl32 (w3 ^^^ w8 ^^^ w14 ^^^ w16) 1]))
    first

/-- One of the 80 rounds. -/
def roundChecked (w : List UInt32) (words : Words) (t : Nat) :
    Option Words := do
  let (f, k) := choose t words.b words.c words.d
  let wt ← w[t]?
  some
    { a := rotl32 words.a 5 + f + words.e + k + wt
      b := words.a
      c := rotl32 words.b 30
      d := words.c
      e := words.d }

/-- The rounds of a block, added to the hash. -/
def compressChecked (h : Words) (w : List UInt32) : Option Words := do
  let words ← (List.range 80).foldlM (roundChecked w) h
  some
    { a := h.a + words.a
      b := h.b + words.b
      c := h.c + words.c
      d := h.d + words.d
      e := h.e + words.e }

/-! ## The digest -/

/-- The loop over the blocks, from an offset on. -/
def hashLoop (load : Bytes → UInt64 → Option UInt32) (padded : Bytes)
    (paddedLen : UInt64) : Nat → UInt64 → Words → Option Words
  | 0, blk, h => if blk < paddedLen then none else some h
  | rounds + 1, blk, h =>
      if blk < paddedLen then do
        let w ← scheduleChecked fun t =>
          load padded (blk + UInt64.ofNat t * 4)
        let h ← compressChecked h w
        hashLoop load padded paddedLen rounds (blk + 64) h
      else some h

/-- The loop takes one round for every block of the buffer. -/
def digestChecked (load : Bytes → UInt64 → Option UInt32)
    (store : UInt32 → Bytes) (data : Bytes) : Option Bytes := do
  let padded ← padChecked data
  let h ← hashLoop load padded (paddedLen64 (UInt64.ofNat data.length))
    (padded.length / 64) 0 initial
  some ([h.a, h.b, h.c, h.d, h.e].flatMap store)

/-- `load_be32` -/
def loadBe32Checked (p : Bytes) (offset : UInt64) : Option UInt32 := do
  let p0 ← p[offset.toNat]?
  let p1 ← p[(offset + 1).toNat]?
  let p2 ← p[(offset + 2).toNat]?
  let p3 ← p[(offset + 3).toNat]?
  some
    ((p0.toUInt32 <<< 24) ||| (p1.toUInt32 <<< 16) ||| (p2.toUInt32 <<< 8) |||
      p3.toUInt32)

/-- `sha1_compute` of `crypto/sha1.c`, with its indices checked. -/
def sha1ComputeChecked (data : Bytes) : Option Bytes :=
  digestChecked loadBe32Checked storeBe32 data

/-- `sha1_compute` of `ws_subscriber.cpp`, with its indices checked. -/
def sha1ComputeLocalChecked (data : Bytes) : Option Bytes :=
  digestChecked
    (fun padded index => do
      let first ← padded[index.toNat]?
      let second ← padded[(index + 1).toNat]?
      let third ← padded[(index + 2).toNat]?
      let fourth ← padded[(index + 3).toNat]?
      some
        ((first.toUInt32 <<< 24) ||| (second.toUInt32 <<< 16) |||
          (third.toUInt32 <<< 8) ||| fourth.toUInt32))
    (fun word =>
      [(word >>> 24).toUInt8, (word >>> 16).toUInt8, (word >>> 8).toUInt8,
        word.toUInt8])
    data

/-- The checks are the same too. -/
theorem sha1ComputeLocalChecked_eq :
    sha1ComputeLocalChecked = sha1ComputeChecked := rfl

/-! ## Nothing overflows -/

theorem ofNat_toNat {n : Nat} (small : n < 2 ^ 64) :
    (UInt64.ofNat n).toNat = n :=
  UInt64.toNat_ofNat_of_lt small

/-- Where the length in bits is a 64-bit number, so is that of the buffer. -/
theorem paddedLen64_toNat {len : Nat} (short : len < 2 ^ 61) :
    (paddedLen64 (UInt64.ofNat len)).toNat = paddedLen len := by
  have exact : (UInt64.ofNat len).toNat = len :=
    ofNat_toNat (by omega)
  simp only [paddedLen64, paddedLen, UInt64.toNat_mul, UInt64.toNat_add,
    UInt64.toNat_div, exact, UInt64.reduceToNat]
  omega

theorem setChecked_eq
    {buffer : Bytes} {i : UInt64} (inside : i.toNat < buffer.length)
    (byte : UInt8) :
    setChecked buffer i byte = some (buffer.set i.toNat byte) :=
  if_pos inside

/-- The bit length is written inside the buffer. -/
theorem writeBitLenChecked_eq
    {padded : Bytes} {paddedLen : UInt64}
    (whole : padded.length = paddedLen.toNat) (room : 8 ≤ padded.length)
    (bitLen : UInt64) :
    writeBitLenChecked padded paddedLen bitLen =
      some (writeBitLen padded bitLen) := by
  apply foldlM_eq_some fun buffer => buffer.length = padded.length
  · intro buffer i same member
    have small : i < 8 := by simpa using member
    have place :
        (paddedLen - 8 + UInt64.ofNat (7 - i)).toNat =
          buffer.length - 8 + (7 - i) := by
      have bounded := paddedLen.toNat_lt
      have offset : (UInt64.ofNat (7 - i)).toNat = 7 - i :=
        ofNat_toNat (by omega)
      have eight : (8 : UInt64) ≤ paddedLen :=
        UInt64.le_iff_toNat_le.mpr (whole ▸ room)
      rw [UInt64.toNat_add, UInt64.toNat_sub_of_le _ _ eight, offset, same,
        whole]
      simp only [UInt64.reduceToNat]
      omega
    refine ⟨?_, by rw [List.length_set, same]⟩
    rw [setChecked_eq (by rw [place]; omega), place]
  · rfl

theorem padChecked_eq {data : Bytes} (short : data.length < 2 ^ 61) :
    padChecked data = some (pad data) := by
  have length := paddedLen64_toNat short
  have exact : (UInt64.ofNat data.length).toNat = data.length :=
    ofNat_toNat (by omega)
  have room : data.length + 9 ≤ paddedLen data.length := by
    simp only [paddedLen]
    omega
  have copied :
      copyChecked (List.replicate (paddedLen data.length) 0) data =
        some (data ++
          (List.replicate (paddedLen data.length) 0).drop data.length) :=
    if_pos (by rw [List.length_replicate]; omega)
  have size :
      (data ++ (List.replicate (paddedLen data.length) (0 : UInt8)).drop
        data.length).length = paddedLen data.length := by
    simp only [List.length_append, List.length_drop, List.length_replicate]
    omega
  simp only [padChecked, length, copied, Option.bind_eq_bind,
    Option.bind_some]
  rw [setChecked_eq (by rw [exact, size]; omega), Option.bind_some, exact,
    writeBitLenChecked_eq (by rw [List.length_set, size, length])
      (by rw [List.length_set, size]; omega)]
  rfl

/-! ## A block is read inside the buffer -/

theorem loadBe32Checked_eq
    {p : Bytes} {offset : UInt64} (inside : offset.toNat + 3 < p.length)
    (bounded : p.length < 2 ^ 64) :
    loadBe32Checked p offset = some (loadBe32 p offset.toNat) := by
  have behind (n : UInt64) (small : n.toNat ≤ 3) :
      p[(offset + n).toNat]? = some (p.getD (offset.toNat + n.toNat) 0) := by
    have place : (offset + n).toNat = offset.toNat + n.toNat := by
      rw [UInt64.toNat_add, Nat.mod_eq_of_lt (by omega)]
    rw [place, getElem?_eq_getD (by omega) 0]
  have here := getElem?_eq_getD (Nat.lt_of_add_right_lt inside) 0
  simp only [loadBe32Checked, here, behind 1 (by decide),
    behind 2 (by decide), behind 3 (by decide), Option.bind_eq_bind,
    Option.bind_some]
  rfl

/-- The list of the words grows by one with every step. -/
theorem length_foldl_append
    {Word : Type} (next : List Word → Nat → Word) (first : List Word)
    (count : Nat) :
    ((List.range count).foldl (fun w i => w ++ [next w i]) first).length =
      first.length + count := by
  induction count with
  | zero => rfl
  | succ count induction =>
      rw [List.range_succ, List.foldl_append, List.foldl_cons, List.foldl_nil,
        List.length_append, induction, List.length_singleton, Nat.add_assoc]

/-- The next word is made of four that are there. -/
theorem nextWordChecked_eq
    {w : List UInt32} {i : Nat} (length : w.length = 16 + i) :
    (do
      let t := i + 16
      let w3 ← w[t - 3]?
      let w8 ← w[t - 8]?
      let w14 ← w[t - 14]?
      let w16 ← w[t - 16]?
      some (w ++ [rotl32 (w3 ^^^ w8 ^^^ w14 ^^^ w16) 1])) =
      some
        (w ++
          [rotl32
            (w.getD (i + 16 - 3) 0 ^^^ w.getD (i + 16 - 8) 0 ^^^
              w.getD (i + 16 - 14) 0 ^^^ w.getD (i + 16 - 16) 0) 1]) := by
  have behind (n : Nat) (positive : 0 < n) :
      w[i + 16 - n]? = some (w.getD (i + 16 - n) 0) :=
    getElem?_eq_getD (by omega) 0
  simp only [behind 3 (by decide), behind 8 (by decide), behind 14 (by decide),
    behind 16 (by decide), Option.bind_eq_bind, Option.bind_some]

/-- A schedule whose sixteen words are loaded is made of earlier words. -/
theorem scheduleChecked_eq
    {checked : Nat → Option UInt32} {word : Nat → UInt32}
    (loaded : ∀ t < 16, checked t = some (word t)) :
    scheduleChecked checked = some (schedule word) := by
  have first :
      (List.range 16).foldlM
          (fun w t => do
            let loaded ← checked t
            some (w ++ [loaded]))
          [] =
        some ((List.range 16).map word) := by
    rw [foldlM_range (fun w t => w ++ [word t])
      fun t small => by rw [loaded t small]; rfl]
    rfl
  rw [scheduleChecked, first, Option.bind_eq_bind, Option.bind_some, schedule]
  apply foldlM_range
  intro i small
  apply nextWordChecked_eq
  rw [length_foldl_append, List.length_map, List.length_range]

/-- There are 80 words. -/
theorem schedule_length (word : Nat → UInt32) :
    (schedule word).length = 80 := by
  rw [schedule, length_foldl_append, List.length_map, List.length_range]

theorem compressChecked_eq
    (h : Words) {w : List UInt32} (length : w.length = 80) :
    compressChecked h w = some (compress h w) := by
  have rounds :
      (List.range 80).foldlM (roundChecked w) h =
        some ((List.range 80).foldl (round w) h) := by
    apply foldlM_range
    intro t small
    rw [roundChecked, getElem?_eq_getD (by omega) 0]
    rfl
  rw [compressChecked, rounds]
  rfl

/-! ## The digest -/

/-- The rounds that are left take the blocks that are left. -/
theorem hashLoop_eq
    {padded : Bytes} {paddedLen : UInt64} {rounds : Nat}
    (whole : padded.length = 64 * rounds) (bounded : padded.length < 2 ^ 63)
    (same : paddedLen.toNat = padded.length) (left : Nat) :
    ∀ (done : Nat) (h : Words), done + left = rounds →
      hashLoop loadBe32Checked padded paddedLen left (UInt64.ofNat (64 * done))
          h =
        some
          ((List.range' done left).foldl
            (fun h blk =>
              compress h (schedule fun t => loadBe32 padded (blk * 64 + t * 4)))
            h) := by
  induction left with
  | zero =>
      intro done h complete
      have behind : ¬ UInt64.ofNat (64 * done) < paddedLen := by
        rw [UInt64.lt_iff_toNat_lt, same, ofNat_toNat (by omega)]
        omega
      rw [hashLoop, if_neg behind]
      rfl
  | succ left induction =>
      intro done h complete
      have exact : (UInt64.ofNat (64 * done)).toNat = 64 * done :=
        ofNat_toNat (by omega)
      have inside : UInt64.ofNat (64 * done) < paddedLen := by
        rw [UInt64.lt_iff_toNat_lt, same, exact]
        omega
      have loaded :
          ∀ t < 16,
            loadBe32Checked padded
                (UInt64.ofNat (64 * done) + UInt64.ofNat t * 4) =
              some (loadBe32 padded (done * 64 + t * 4)) := by
        intro t small
        have offset :
            (UInt64.ofNat (64 * done) + UInt64.ofNat t * 4).toNat =
              done * 64 + t * 4 := by
          rw [UInt64.toNat_add, UInt64.toNat_mul, exact,
            ofNat_toNat (by omega)]
          simp only [UInt64.reduceToNat]
          omega
        rw [loadBe32Checked_eq (by rw [offset]; omega) (by omega), offset]
      have next :
          UInt64.ofNat (64 * done) + 64 = UInt64.ofNat (64 * (done + 1)) := by
        apply UInt64.toNat_inj.mp
        rw [UInt64.toNat_add, exact, ofNat_toNat (by omega)]
        simp only [UInt64.reduceToNat]
        omega
      rw [hashLoop, if_pos inside, scheduleChecked_eq loaded,
        Option.bind_eq_bind, Option.bind_some,
        compressChecked_eq h (schedule_length _), Option.bind_eq_bind,
        Option.bind_some, next, induction (done + 1) _ (by omega),
        List.range'_succ, List.foldl_cons]

theorem writeBitLen_length (padded : Bytes) (bitLen : UInt64) :
    (writeBitLen padded bitLen).length = padded.length := by
  have places : (List.range 8).reverse = [7, 6, 5, 4, 3, 2, 1, 0] := rfl
  simp only [writeBitLen, places, List.foldl_cons, List.foldl_nil,
    List.length_set]

theorem pad_length (data : Bytes) :
    (pad data).length = paddedLen data.length := by
  simp only [pad, writeBitLen_length, List.length_set, List.length_append,
    List.length_drop, List.length_replicate, paddedLen]
  omega

/-- The checked code computes the digest of the unchecked one. -/
theorem sha1ComputeChecked_eq
    {data : Bytes} (short : data.length < 2 ^ 61) :
    sha1ComputeChecked data = some (sha1Compute data) := by
  have length := pad_length data
  have multiple : (pad data).length = 64 * ((data.length + 8) / 64 + 1) := by
    rw [length, paddedLen, Nat.mul_comm]
  have rounds : (pad data).length / 64 = (data.length + 8) / 64 + 1 := by
    omega
  have loop :=
    hashLoop_eq multiple (by omega)
      ((paddedLen64_toNat short).trans length.symm)
      ((data.length + 8) / 64 + 1) 0 initial (Nat.zero_add _)
  rw [← List.range_eq_range', ← rounds] at loop
  rw [sha1ComputeChecked, digestChecked, padChecked_eq short,
    Option.bind_eq_bind, Option.bind_some]
  exact congrArg (Option.bind · _) loop

end AccelObserver.Crypto.Sha1
