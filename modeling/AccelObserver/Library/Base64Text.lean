import AccelObserver.Library.Bytes

/-!
# Base64 as RFC 4648 defines it

Three bytes are four sextets, and a sextet is written as a character of the
alphabet.  A shorter last group is filled up with zero bits and padded with
`=`.  The decoder is the canonical one: it wants the padding, and the bits
that fill up the last group have to be zero.
-/

namespace AccelObserver.Library.Base64Text

/-! ## The alphabet -/

/-- The character of a sextet. -/
def character (sextet : Nat) : UInt8 :=
  if sextet < 26 then UInt8.ofNat (65 + sextet)
  else if sextet < 52 then UInt8.ofNat (71 + sextet)
  else if sextet < 62 then UInt8.ofNat (sextet - 4)
  else if sextet = 62 then 43
  else 47

/-- The sextet of a character. -/
def value (byte : UInt8) : Option Nat :=
  let n := byte.toNat
  if 65 ≤ n ∧ n ≤ 90 then some (n - 65)
  else if 97 ≤ n ∧ n ≤ 122 then some (n - 71)
  else if 48 ≤ n ∧ n ≤ 57 then some (n + 4)
  else if n = 43 then some 62
  else if n = 47 then some 63
  else none

/-- `=` -/
def pad : UInt8 := 61

theorem value_character {sextet : Nat} (small : sextet < 64) :
    value (character sextet) = some sextet := by
  have every : ∀ n < 64, value (character n) = some n := by
    decide
  exact every sextet small

theorem character_ne_pad {sextet : Nat} (small : sextet < 64) :
    character sextet ≠ pad := by
  have every : ∀ n < 64, character n ≠ pad := by
    decide
  exact every sextet small

/-! ## Encoding and decoding -/

/-- The first character of a group. -/
def first (a : UInt8) : UInt8 :=
  character (a.toNat / 4)

/-- The character that two neighbouring bytes share, from the first one's two
low bits on. -/
def second (a : UInt8) (b : Nat) : UInt8 :=
  character (a.toNat % 4 * 16 + b / 16)

def third (b : UInt8) (c : Nat) : UInt8 :=
  character (b.toNat % 16 * 4 + c / 64)

def fourth (c : UInt8) : UInt8 :=
  character (c.toNat % 64)

def encode : Bytes → Bytes
  | [] => []
  | [a] => [first a, second a 0, pad, pad]
  | [a, b] => [first a, second a b.toNat, third b 0, pad]
  | a :: b :: c :: rest =>
      first a :: second a b.toNat :: third b c.toNat :: fourth c ::
        encode rest

/-- Four characters of a whole group. -/
def decodeGroup (w x y z : UInt8) : Option Bytes := do
  let p ← value w
  let q ← value x
  let r ← value y
  let s ← value z
  some
    [UInt8.ofNat (p * 4 + q / 16), UInt8.ofNat (q % 16 * 16 + r / 4),
      UInt8.ofNat (r % 4 * 64 + s)]

/-- A last group of one byte. -/
def decodeOne (w x : UInt8) : Option Bytes := do
  let p ← value w
  let q ← value x
  if q % 16 = 0 then some [UInt8.ofNat (p * 4 + q / 16)] else none

/-- A last group of two bytes. -/
def decodeTwo (w x y : UInt8) : Option Bytes := do
  let p ← value w
  let q ← value x
  let r ← value y
  if r % 4 = 0 then
    some [UInt8.ofNat (p * 4 + q / 16), UInt8.ofNat (q % 16 * 16 + r / 4)]
  else none

/-- The whole text, padding included; only the last group may be padded. -/
def decode : Bytes → Option Bytes
  | [] => some []
  | w :: x :: y :: z :: rest =>
      if rest = [] ∧ z = pad then
        if y = pad then decodeOne w x else decodeTwo w x y
      else
        (decodeGroup w x y z).bind fun bytes =>
          (decode rest).map fun later => bytes ++ later
  | _ => none

/-! ## The round trip -/

/-- A byte from its number. -/
theorem ofNat_eq_of_toNat
    {n : Nat} (byte : UInt8) (same : n = byte.toNat) :
    UInt8.ofNat n = byte := by
  rw [same, UInt8.ofNat_toNat]

theorem value_first (a : UInt8) : value (first a) = some (a.toNat / 4) :=
  value_character (by have := a.toNat_lt; omega)

theorem value_second (a : UInt8) {b : Nat} (small : b < 256) :
    value (second a b) = some (a.toNat % 4 * 16 + b / 16) :=
  value_character (by omega)

theorem value_third (b : UInt8) {c : Nat} (small : c < 256) :
    value (third b c) = some (b.toNat % 16 * 4 + c / 64) :=
  value_character (by omega)

theorem value_fourth (c : UInt8) : value (fourth c) = some (c.toNat % 64) :=
  value_character (by omega)

/-- The regrouping of a whole group is undone. -/
theorem decodeGroup_encode (a b c : UInt8) :
    decodeGroup (first a) (second a b.toNat) (third b c.toNat) (fourth c) =
      some [a, b, c] := by
  have aBound : a.toNat < 256 := a.toNat_lt
  have bBound : b.toNat < 256 := b.toNat_lt
  have cBound : c.toNat < 256 := c.toNat_lt
  simp only [decodeGroup, value_first, value_second a bBound,
    value_third b cBound, value_fourth, Option.bind_eq_bind,
    Option.bind_some]
  rw [ofNat_eq_of_toNat a (by omega),
    ofNat_eq_of_toNat b (by omega),
    ofNat_eq_of_toNat c (by omega)]

theorem decodeTwo_encode (a b : UInt8) :
    decodeTwo (first a) (second a b.toNat) (third b 0) = some [a, b] := by
  have aBound : a.toNat < 256 := a.toNat_lt
  have bBound : b.toNat < 256 := b.toNat_lt
  have filled : (b.toNat % 16 * 4 + 0 / 64) % 4 = 0 := by omega
  simp only [decodeTwo, value_first, value_second a bBound,
    value_third b (Nat.zero_lt_succ 255), Option.bind_eq_bind,
    Option.bind_some, filled, if_true]
  rw [ofNat_eq_of_toNat a (by omega),
    ofNat_eq_of_toNat b (by omega)]

theorem decodeOne_encode (a : UInt8) :
    decodeOne (first a) (second a 0) = some [a] := by
  have aBound : a.toNat < 256 := a.toNat_lt
  have filled : (a.toNat % 4 * 16 + 0 / 16) % 16 = 0 := by omega
  simp only [decodeOne, value_first, value_second a (Nat.zero_lt_succ 255),
    Option.bind_eq_bind, Option.bind_some, filled, if_true]
  rw [ofNat_eq_of_toNat a (by omega)]

/-- Decoding undoes encoding. -/
theorem decode_encode (data : Bytes) : decode (encode data) = some data := by
  induction data using encode.induct with
  | case1 => rfl
  | case2 a => exact decodeOne_encode a
  | case3 a b =>
      have notPad : third b 0 ≠ pad := character_ne_pad (by omega)
      simp [encode, decode, notPad, decodeTwo_encode]
  | case4 a b c rest induction =>
      have notPad : fourth c ≠ pad := character_ne_pad (by omega)
      simp [encode, decode, notPad, decodeGroup_encode, induction]

/-- No two byte strings have one text. -/
theorem encode_injective : Function.Injective encode := by
  intro data data' same
  have decoded := congrArg decode same
  rw [decode_encode, decode_encode] at decoded
  exact Option.some.inj decoded

end AccelObserver.Library.Base64Text
