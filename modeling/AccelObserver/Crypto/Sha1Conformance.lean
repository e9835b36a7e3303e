import AccelObserver.Crypto.Sha1Checked
import AccelObserver.Library.SecureHash

/-!
# The digests are those of RFC 3174

The buffer of `sha1_compute` is the padded message of the RFC, its schedule
the recurrence for `W(t)` and its rounds the 80 steps, so every version in the
repository computes the digest of the RFC, at every length that has one.
-/

namespace AccelObserver.Crypto.Sha1

open AccelObserver.Library
open AccelObserver.Library.CheckedLoops (foldl_range)

/-! ## The padding -/

/-- The size of the buffer leaves exactly the zeros of the RFC. -/
theorem paddedLen_eq (len : Nat) :
    paddedLen len = len + 1 + SecureHash.zeroCount len + 8 := by
  simp only [paddedLen, SecureHash.zeroCount]
  omega

/-- Eight bytes at the end become the bit length. -/
theorem writeBitLen_append
    {bits : Nat} (small : bits < 2 ^ 64) (front : Bytes) :
    writeBitLen (front ++ List.replicate 8 0) (UInt64.ofNat bits) =
      front ++ BigEndian.write 8 bits := by
  have places : (List.range 8).reverse = [7, 6, 5, 4, 3, 2, 1, 0] := rfl
  have byte (i : Nat) (inside : i < 8) :
      (UInt64.ofNat bits >>> UInt64.ofNat (i * 8)).toUInt8 =
        UInt8.ofNat (bits >>> (8 * i)) := by
    apply UInt8.toNat_inj.mp
    rw [UInt64.toNat_toUInt8, UInt64.toNat_shiftRight, ofNat_toNat small,
      ofNat_toNat (by omega), Nat.mod_eq_of_lt (show i * 8 < 64 by omega),
      UInt8.toNat_ofNat', Nat.mul_comm i 8]
  have store (tail : Bytes) (whole : tail.length = 8) (i : Nat)
      (value : UInt8) :
      (front ++ tail).set ((front ++ tail).length - 8 + i) value =
        front ++ tail.set i value := by
    rw [List.length_append, whole, Nat.add_sub_cancel, List.set_append_right _ _
      (Nat.le_add_right _ _), Nat.add_sub_cancel_left]
  simp only [writeBitLen, places, List.foldl_cons, List.foldl_nil, store,
    List.length_set, List.length_replicate, byte 7 (by decide),
    byte 6 (by decide), byte 5 (by decide), byte 4 (by decide),
    byte 3 (by decide), byte 2 (by decide), byte 1 (by decide),
    byte 0 (by decide)]
  rfl

/-- The buffer is the padded message. -/
theorem pad_eq {data : Bytes} (short : data.length < 2 ^ 61) :
    pad data = SecureHash.padded data := by
  have room :
      paddedLen data.length - data.length =
        1 + SecureHash.zeroCount data.length + 8 := by
    rw [paddedLen_eq]
    omega
  have bits :
      UInt64.ofNat data.length * 8 = UInt64.ofNat (8 * data.length) := by
    apply UInt64.toNat_inj.mp
    rw [UInt64.toNat_mul, ofNat_toNat (by omega), ofNat_toNat (by omega)]
    simp only [UInt64.reduceToNat]
    omega
  have marked :
      (data ++ (List.replicate (paddedLen data.length) 0).drop
          data.length).set data.length 0x80 =
        (data ++ 0x80 ::
          List.replicate (SecureHash.zeroCount data.length) 0) ++
            List.replicate 8 0 := by
    rw [List.drop_replicate, room, Nat.add_assoc, Nat.add_comm 1,
      List.replicate_succ, List.set_append_right _ _ (Nat.le_refl _),
      Nat.sub_self, List.set_cons_zero, List.replicate_add, List.append_assoc]
    rfl
  simp only [pad]
  rw [marked, bits, writeBitLen_append (by omega)]
  rfl

/-! ## One block -/

/-- The three rotations that are used. -/
theorem rotl32_one (v : UInt32) : rotl32 v 1 = SecureHash.circularShift 1 v :=
  rfl

theorem rotl32_five (v : UInt32) : rotl32 v 5 = SecureHash.circularShift 5 v :=
  rfl

theorem choose_eq (t : Nat) (b c d : UInt32) :
    choose t b c d = (SecureHash.f t b c d, SecureHash.k t) := by
  simp only [choose, SecureHash.f, SecureHash.k, Nat.lt_succ_iff]
  split_ifs <;> rfl

/-- The list of the 80 words. -/
theorem schedule_eq (words : Nat → UInt32) :
    schedule words = (List.range 80).map (SecureHash.w words) := by
  have first :
      (List.range 16).map words = (List.range 16).map (SecureHash.w words) := by
    apply List.map_congr_left
    intro t member
    exact (SecureHash.w_of_lt (List.mem_range.mp member) words).symm
  rw [schedule, first]
  apply foldl_range fun i => (List.range (16 + i)).map (SecureHash.w words)
  intro i small
  have behind (n : Nat) (positive : 0 < n) (near : n ≤ 16) :
      ((List.range (16 + i)).map (SecureHash.w words)).getD (i + 16 - n) 0 =
        SecureHash.w words (16 + i - n) := by
    rw [List.getD_eq_getElem?_getD, List.getElem?_map,
      List.getElem?_range (by omega), Nat.add_comm i 16]
    rfl
  simp only [behind 3 (by decide) (by decide),
    behind 8 (by decide) (by decide), behind 14 (by decide) (by decide),
    behind 16 (by decide) (by decide)]
  rw [rotl32_one, ← SecureHash.w_add, ← Nat.add_assoc, List.range_succ,
    List.map_append, List.map_singleton]

/-- The words of the hash, as the buffer of the RFC. -/
def Words.toBuffer (words : Words) : SecureHash.Buffer where
  a := words.a
  b := words.b
  c := words.c
  d := words.d
  e := words.e

/-- A round is the step for its number. -/
theorem round_toBuffer
    {words : Nat → UInt32} {t : Nat} (small : t < 80) (before : Words) :
    (round (schedule words) before t).toBuffer =
      SecureHash.step words before.toBuffer t := by
  have word : (schedule words).getD t 0 = SecureHash.w words t := by
    rw [schedule_eq, List.getD_eq_getElem?_getD, List.getElem?_map,
      List.getElem?_range small]
    rfl
  have sum :
      rotl32 before.a 5 + SecureHash.f t before.b before.c before.d +
            before.e + SecureHash.k t + SecureHash.w words t =
        SecureHash.circularShift 5 before.a +
            SecureHash.f t before.b before.c before.d + before.e +
          SecureHash.w words t + SecureHash.k t := by
    rw [rotl32_five, UInt32.add_assoc _ (SecureHash.k t),
      UInt32.add_comm (SecureHash.k t), ← UInt32.add_assoc]
  simp only [round, choose_eq, word, sum, Words.toBuffer, SecureHash.step]
  rfl

/-- The rounds of a block are the steps of the RFC. -/
theorem compress_toBuffer (h : Words) (block : Bytes) :
    (compress h (schedule (SecureHash.word block))).toBuffer =
      SecureHash.process h.toBuffer block := by
  have rounds (count : Nat) (bounded : count ≤ 80) :
      ((List.range count).foldl
          (round (schedule (SecureHash.word block))) h).toBuffer =
        (List.range count).foldl
          (SecureHash.step (SecureHash.word block)) h.toBuffer := by
    induction count with
    | zero => rfl
    | succ count induction =>
        rw [List.range_succ, List.foldl_append, List.foldl_append,
          List.foldl_cons, List.foldl_cons, List.foldl_nil, List.foldl_nil,
          round_toBuffer (by omega), induction (by omega)]
  rw [SecureHash.process, ← rounds 80 (Nat.le_refl 80)]
  rfl

/-! ## The blocks -/

/-- Loading is reading a number, the most significant byte first. -/
theorem loadBe32_eq (p : Bytes) (offset : Nat) :
    loadBe32 p offset =
      UInt32.ofNat
        ((p.getD offset 0).toNat * 2 ^ 24 +
          (p.getD (offset + 1) 0).toNat * 2 ^ 16 +
          (p.getD (offset + 2) 0).toNat * 2 ^ 8 +
          (p.getD (offset + 3) 0).toNat) := by
  have aBound := (p.getD offset 0).toNat_lt
  have bBound := (p.getD (offset + 1) 0).toNat_lt
  have cBound := (p.getD (offset + 2) 0).toNat_lt
  have dBound := (p.getD (offset + 3) 0).toNat_lt
  rw [loadBe32]
  generalize p.getD offset 0 = a at *
  generalize p.getD (offset + 1) 0 = b at *
  generalize p.getD (offset + 2) 0 = c at *
  generalize p.getD (offset + 3) 0 = d at *
  have low :
      ((c.toUInt32 <<< 8) ||| d.toUInt32).toNat = c.toNat * 256 + d.toNat :=
    BigEndian.shiftLeft_or_toNat (by decide) (by simp; omega) (by simp; omega)
  have middle :
      ((b.toUInt32 <<< 16) ||| ((c.toUInt32 <<< 8) ||| d.toUInt32)).toNat =
        b.toNat * 65536 + (c.toNat * 256 + d.toNat) := by
    rw [BigEndian.shiftLeft_or_toNat (by decide) (by simp; omega)
      (by rw [low]; simp; omega), low]
    rfl
  apply UInt32.toNat_inj.mp
  rw [UInt32.or_assoc, UInt32.or_assoc,
    BigEndian.shiftLeft_or_toNat (by decide) (by simp; omega)
      (by rw [middle]; simp; omega),
    middle, UInt32.toNat_ofNat']
  simp
  omega

/-- A word of a block, read where the block stands in the buffer. -/
theorem loadBe32_block
    {buffer : Bytes} {blk t : Nat} (small : t < 16) :
    loadBe32 buffer (blk * 64 + t * 4) =
      SecureHash.word ((buffer.drop (64 * blk)).take 64) t := by
  have byte (n : Nat) (inside : n < 64) :
      ((buffer.drop (64 * blk)).take 64).getD n 0 =
        buffer.getD (blk * 64 + n) 0 := by
    rw [List.getD_eq_getElem?_getD, List.getElem?_take_of_lt inside,
      List.getElem?_drop, Nat.mul_comm 64, ← List.getD_eq_getElem?_getD]
  rw [loadBe32_eq, SecureHash.word, byte (4 * t) (by omega),
    byte (4 * t + 1) (by omega), byte (4 * t + 2) (by omega),
    byte (4 * t + 3) (by omega), Nat.mul_comm t 4]
  rfl

/-- Only the first sixteen words are read from the block. -/
theorem schedule_congr
    {words words' : Nat → UInt32} (same : ∀ t < 16, words t = words' t) :
    schedule words = schedule words' := by
  have first : (List.range 16).map words = (List.range 16).map words' :=
    List.map_congr_left fun t member => same t (List.mem_range.mp member)
  rw [schedule, schedule, first]

theorem hashBlocks_toBuffer (buffer : Bytes) :
    (hashBlocks loadBe32 buffer).toBuffer =
      (SecureHash.blocks buffer).foldl SecureHash.process
        SecureHash.initial := by
  rw [SecureHash.blocks, List.foldl_map]
  have blocks (count : Nat) :
      ((List.range count).foldl
          (fun h blk =>
            compress h (schedule fun t => loadBe32 buffer (blk * 64 + t * 4)))
          initial).toBuffer =
        (List.range count).foldl
          (fun hash n =>
            SecureHash.process hash ((buffer.drop (64 * n)).take 64))
          SecureHash.initial := by
    induction count with
    | zero => rfl
    | succ count induction =>
        rw [List.range_succ, List.foldl_append, List.foldl_append,
          List.foldl_cons, List.foldl_cons, List.foldl_nil, List.foldl_nil,
          schedule_congr fun t small => loadBe32_block small,
          compress_toBuffer, induction]
  exact blocks _

/-! ## The digest -/

/-- A word is stored most significant byte first. -/
theorem storeBe32_eq (v : UInt32) :
    storeBe32 v = BigEndian.write 4 v.toNat := by
  have byte (shift : UInt32) (small : shift.toNat < 32) :
      (v >>> shift).toUInt8 = UInt8.ofNat (v.toNat >>> shift.toNat) := by
    apply UInt8.toNat_inj.mp
    rw [UInt32.toNat_toUInt8, UInt32.toNat_shiftRight,
      Nat.mod_eq_of_lt small, UInt8.toNat_ofNat']
  have last : v.toUInt8 = UInt8.ofNat (v.toNat >>> 0) := by
    apply UInt8.toNat_inj.mp
    rw [UInt32.toNat_toUInt8, UInt8.toNat_ofNat', Nat.shiftRight_zero]
  rw [storeBe32, byte 24 (by decide), byte 16 (by decide),
    byte 8 (by decide), last]
  rfl

theorem sha1Compute_eq {data : Bytes} (short : data.length < 2 ^ 61) :
    sha1Compute data = SecureHash.digest data := by
  rw [SecureHash.digest, ← pad_eq short, ← hashBlocks_toBuffer,
    SecureHash.bytes]
  simp only [← storeBe32_eq]
  rfl

/--
Every version of `sha1_compute` computes the digest of RFC 3174: the buffer is
the padded message, with the least number of zeros and of the least size, no
index is outside its buffer, and the blocks go through the compression one
after another.
-/
theorem sha1_conforms {data : Bytes} (short : data.length < 2 ^ 61) :
    padChecked data =
        some
          (data ++
              0x80 :: List.replicate (SecureHash.zeroCount data.length) 0 ++
            BigEndian.write 8 (8 * data.length)) ∧
      pad data = SecureHash.padded data ∧
      IsLeast { zeros | (data.length + 1 + zeros + 8) % 64 = 0 }
        (SecureHash.zeroCount data.length) ∧
      IsLeast { size | size % 64 = 0 ∧ data.length + 9 ≤ size }
        (paddedLen data.length) ∧
      sha1ComputeChecked data = some (SecureHash.digest data) ∧
      sha1ComputeLocalChecked data = some (SecureHash.digest data) ∧
      sha1Compute data = SecureHash.digest data ∧
      sha1ComputeLocal data = SecureHash.digest data := by
  have buffer := pad_eq short
  have digest := sha1Compute_eq short
  have checked := sha1ComputeChecked_eq short
  have size := SecureHash.padded_length_isLeast data
  rw [← buffer, pad_length] at size
  rw [digest] at checked
  exact ⟨(padChecked_eq short).trans (congrArg some buffer), buffer,
    SecureHash.zeroCount_isLeast data.length, size, checked,
    (congrFun sha1ComputeLocalChecked_eq data).trans checked, digest,
    (congrFun sha1ComputeLocal_eq data).trans digest⟩

/-- A message that fills one block, so that the length takes a second. -/
theorem sha1_conforms_block :
    sha1ComputeChecked (List.replicate 64 0) =
        some (SecureHash.digest (List.replicate 64 0)) ∧
      paddedLen 64 = 128 := by
  have conforms :=
    sha1_conforms (show (List.replicate 64 (0 : UInt8)).length < 2 ^ 61 by
      rw [List.length_replicate]
      decide)
  exact ⟨conforms.2.2.2.2.1, by decide⟩

end AccelObserver.Crypto.Sha1
