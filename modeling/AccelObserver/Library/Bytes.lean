import Mathlib.Data.List.Basic
import Mathlib.Tactic.Common
import Mathlib.Tactic.Ring

/-!
# Byte strings and big-endian integers

Texts are byte strings: the wire formats and the C strings of the modelled
programs have no other character set.  The integers of a wire format are
written most significant byte first and read back by shifting.
-/

namespace AccelObserver.Library

abbrev Bytes := List UInt8

/-- The bytes of a text whose characters are below 256. -/
def ascii (text : String) : Bytes :=
  text.toList.map fun character => UInt8.ofNat character.toNat

/-- A fact about bytes that is checked for their numbers. -/
theorem forall_byte
    {holds : UInt8 → Prop} (table : ∀ n < 256, holds (UInt8.ofNat n))
    (byte : UInt8) : holds byte := by
  have here := table byte.toNat byte.toNat_lt
  rw [UInt8.ofNat_toNat] at here
  exact here

namespace BigEndian

/-- The low `width` bytes of a number, most significant first. -/
def write : Nat → Nat → Bytes
  | 0, _ => []
  | width + 1, n => UInt8.ofNat (n >>> (8 * width)) :: write width n

@[simp]
theorem write_length (width n : Nat) : (write width n).length = width := by
  induction width with
  | zero => rfl
  | succ width induction => simp [write, induction]

/-- Shift the bytes into a 64-bit register. -/
def read (register : UInt64) (bytes : Bytes) : UInt64 :=
  bytes.foldl (fun value byte => (value <<< 8) ||| byte.toUInt64) register

/-- One shift appends a byte, as long as the register has room for it. -/
theorem shift_or_toNat
    (register : UInt64) (byte : UInt8)
    (room : register.toNat < 2 ^ 56) :
    ((register <<< 8) ||| byte.toUInt64).toNat =
      register.toNat * 256 + byte.toNat := by
  have byteBound : byte.toNat < 2 ^ 8 := byte.toNat_lt
  have shifted : register.toNat <<< 8 < 2 ^ 64 := by
    rw [Nat.shiftLeft_eq]
    omega
  rw [UInt64.toNat_or, UInt64.toNat_shiftLeft, UInt8.toNat_toUInt64]
  simp only [UInt64.reduceToNat, Nat.reduceMod, Nat.mod_eq_of_lt shifted]
  rw [← Nat.shiftLeft_add_eq_or_of_lt byteBound, Nat.shiftLeft_eq]

/-- A word that is shifted clear of another one stands before it. -/
theorem shiftLeft_or_toNat
    {high low shift : UInt32} (small : shift.toNat < 32)
    (room : high.toNat * 2 ^ shift.toNat < 2 ^ 32)
    (below : low.toNat < 2 ^ shift.toNat) :
    ((high <<< shift) ||| low).toNat =
      high.toNat * 2 ^ shift.toNat + low.toNat := by
  rw [UInt32.toNat_or, UInt32.toNat_shiftLeft, Nat.mod_eq_of_lt small,
    Nat.shiftLeft_eq, Nat.mod_eq_of_lt room, ← Nat.shiftLeft_eq,
    ← Nat.shiftLeft_add_eq_or_of_lt below, Nat.shiftLeft_eq]

/-- Reading what was written appends the number to the register. -/
theorem read_write
    (width n : Nat) (register : UInt64)
    (room : register.toNat * 256 ^ width + 256 ^ width ≤ 2 ^ 64) :
    (read register (write width n)).toNat =
      register.toNat * 256 ^ width + n % 256 ^ width := by
  induction width generalizing register with
  | zero => simp [read, write, Nat.mod_one]
  | succ width induction =>
      have powerPositive : 0 < 256 ^ width := Nat.pow_pos (by decide)
      have low : register.toNat < 2 ^ 56 := by
        rw [pow_succ] at room
        have : (register.toNat + 1) * 256 ≤ 2 ^ 64 := by
          calc
            (register.toNat + 1) * 256
                ≤ (register.toNat + 1) * (256 ^ width * 256) :=
              Nat.mul_le_mul_left _ (Nat.le_mul_of_pos_left _ powerPositive)
            _ = register.toNat * (256 ^ width * 256) + 256 ^ width * 256 := by
              ring
            _ ≤ 2 ^ 64 := room
        omega
      have digit :
          (UInt8.ofNat (n >>> (8 * width))).toNat =
            n / 256 ^ width % 256 := by
        rw [UInt8.toNat_ofNat', Nat.shiftRight_eq_div_pow, pow_mul]
        simp only [Nat.reducePow]
      have appended :=
        shift_or_toNat register (UInt8.ofNat (n >>> (8 * width))) low
      rw [digit] at appended
      have digitBound : n / 256 ^ width % 256 < 256 :=
        Nat.mod_lt _ (by decide)
      have rest :=
        induction
          ((register <<< 8) ||| (UInt8.ofNat (n >>> (8 * width))).toUInt64)
          (by
            rw [appended]
            calc
              (register.toNat * 256 + n / 256 ^ width % 256) * 256 ^ width +
                    256 ^ width
                  ≤ (register.toNat * 256 + 255) * 256 ^ width +
                      256 ^ width := by
                gcongr
                omega
              _ = register.toNat * 256 ^ (width + 1) + 256 ^ (width + 1) := by
                ring
              _ ≤ 2 ^ 64 := room)
      rw [appended] at rest
      change
        (read ((register <<< 8) |||
            (UInt8.ofNat (n >>> (8 * width))).toUInt64)
          (write width n)).toNat = _
      rw [rest, Nat.mod_pow_succ]
      ring

/-- A number that fits its bytes is read back exactly. -/
theorem read_write_of_lt
    {width n : Nat} (widthBound : width ≤ 8) (fits : n < 256 ^ width) :
    (read 0 (write width n)).toNat = n := by
  have room : 256 ^ width ≤ 2 ^ 64 :=
    (Nat.pow_le_pow_right (by decide) widthBound).trans (by decide)
  rw [read_write width n 0 (by simpa using room)]
  simp [Nat.mod_eq_of_lt fits]

end BigEndian

end AccelObserver.Library
