import AccelObserver.Crypto.Base64
import AccelObserver.Library.Base64Text
import AccelObserver.Library.CheckedLoops

/-!
# Base64 is read back

The encoders of the repository once more, with every index checked: a read
outside the data or the table is `none`.  No such read happens, and what is
written is the Base64 of RFC 4648, so the decoder of that format gives the
data back.
-/

namespace AccelObserver.Crypto.Base64

open AccelObserver.Library
open AccelObserver.Library.CheckedLoops

/-! ## The loop with checked reads -/

/-- The body of the loop. -/
def groupChecked (table : Bytes) (data : Bytes) (i : Nat) : Option Bytes := do
  let char (index : UInt32) : Option UInt8 := table[index.toNat]?
  let byte ← data[i]?
  let b := byte.toUInt32 <<< 16
  let b ←
    if i + 1 < data.length then do
      let byte ← data[i + 1]?
      some (b ||| (byte.toUInt32 <<< 8))
    else some b
  let b ←
    if i + 2 < data.length then do
      let byte ← data[i + 2]?
      some (b ||| byte.toUInt32)
    else some b
  let c0 ← char ((b >>> 18) &&& 0x3F)
  let c1 ← char ((b >>> 12) &&& 0x3F)
  let c2 ← if i + 1 < data.length then char ((b >>> 6) &&& 0x3F) else some 61
  let c3 ← if i + 2 < data.length then char (b &&& 0x3F) else some 61
  some [c0, c1, c2, c3]

/-- The loop from an index on, behind what is already written; it takes at
most one round for each byte. -/
def encodeLoop (table : Bytes) (data : Bytes) :
    Nat → Nat → Bytes → Option Bytes
  | 0, i, out => if i < data.length then none else some out
  | rounds + 1, i, out =>
      if i < data.length then
        (groupChecked table data i).bind fun chars =>
          encodeLoop table data rounds (i + 3) (out ++ chars)
      else some out

/-- `base64_encode`, with its indices checked. -/
def base64EncodeChecked (data : Bytes) : Option Bytes :=
  encodeLoop b64Table data data.length 0 []

/-- `base64_encode_impl`, with its indices checked. -/
def base64EncodeImplChecked (data : Bytes) : Option Bytes :=
  encodeLoop base64Chars data data.length 0 []

/-! ## The indices are inside -/

/-- Six bits are an index into a table of 64 characters. -/
theorem table_getElem? {table : Bytes} (whole : table.length = 64)
    (index : UInt32) :
    table[(index &&& 0x3F).toNat]? =
      some (table.getD (index &&& 0x3F).toNat 0) := by
  have small : (index &&& 0x3F).toNat < table.length := by
    rw [whole, UInt32.toNat_and]
    exact Nat.lt_of_le_of_lt Nat.and_le_right (by decide)
  rw [List.getD_eq_getElem?_getD, List.getElem?_eq_getElem small,
    Option.getD_some]

/-- A round that begins inside the data stays inside. -/
theorem groupChecked_eq
    {table : Bytes} (whole : table.length = 64) {data : Bytes} {i : Nat}
    (inside : i < data.length) :
    groupChecked table data i = some (group table data i) := by
  by_cases hasSecond : i + 1 < data.length
  · by_cases hasThird : i + 2 < data.length
    · simp only [groupChecked, group, getElem?_eq_getD inside 0,
        getElem?_eq_getD hasSecond 0, getElem?_eq_getD hasThird 0,
        hasSecond, hasThird, if_true, table_getElem? whole, Option.bind_eq_bind,
        Option.bind_some]
    · simp only [groupChecked, group, getElem?_eq_getD inside 0,
        getElem?_eq_getD hasSecond 0, hasSecond, hasThird, if_true, if_false,
        table_getElem? whole, Option.bind_eq_bind,
        Option.bind_some]
  · have noThird : ¬ i + 2 < data.length := by omega
    simp only [groupChecked, group, getElem?_eq_getD inside 0, hasSecond,
      noThird, if_false, table_getElem? whole, Option.bind_eq_bind, Option.bind_some]

/-- The rounds that are left write the groups that are left. -/
theorem encodeLoop_eq
    {table : Bytes} (whole : table.length = 64) (data : Bytes) (rounds : Nat) :
    ∀ (round : Nat) (out : Bytes), data.length ≤ 3 * round + rounds →
      encodeLoop table data rounds (3 * round) out =
        some (out ++
          (List.range' round ((data.length + 2) / 3 - round)).flatMap
            fun round => group table data (3 * round)) := by
  induction rounds with
  | zero =>
      intro round out bounded
      have behind : ¬ 3 * round < data.length := by omega
      have none : (data.length + 2) / 3 - round = 0 := by omega
      simp [encodeLoop, behind, none]
  | succ rounds induction =>
      intro round out bounded
      by_cases inside : 3 * round < data.length
      · have more :
            (data.length + 2) / 3 - round =
              (data.length + 2) / 3 - (round + 1) + 1 := by omega
        have next := induction (round + 1) (out ++ group table data (3 * round))
          (by omega)
        rw [encodeLoop, if_pos inside, groupChecked_eq whole inside,
          Option.bind_some, show 3 * round + 3 = 3 * (round + 1) by ring, next,
          more, List.range'_succ, List.flatMap_cons, List.append_assoc]
      · have none : (data.length + 2) / 3 - round = 0 := by omega
        simp [encodeLoop, inside, none]

/-- The whole loop, for a table of 64 characters. -/
theorem encodeLoop_zero
    {table : Bytes} (whole : table.length = 64) (data : Bytes) :
    encodeLoop table data data.length 0 [] = some (encodeWith table data) := by
  have loop := encodeLoop_eq whole data data.length 0 [] (by omega)
  rw [Nat.mul_zero, Nat.sub_zero, List.nil_append,
    ← List.range_eq_range'] at loop
  exact loop

/-! ## The text is that of RFC 4648 -/

/-- The register holds the three bytes one behind the other. -/
theorem register_toNat (a b c : UInt8) :
    ((a.toUInt32 <<< 16) ||| (b.toUInt32 <<< 8) ||| c.toUInt32).toNat =
      a.toNat * 65536 + b.toNat * 256 + c.toNat := by
  have aBound : a.toNat < 256 := a.toNat_lt
  have bBound : b.toNat < 256 := b.toNat_lt
  have cBound : c.toNat < 256 := c.toNat_lt
  have low :
      ((b.toUInt32 <<< 8) ||| c.toUInt32).toNat = b.toNat * 256 + c.toNat :=
    BigEndian.shiftLeft_or_toNat (by decide) (by simp; omega) (by simp; omega)
  rw [UInt32.or_assoc,
    BigEndian.shiftLeft_or_toNat (by decide) (by simp; omega)
      (by rw [low]; simp; omega),
    low, ← Nat.add_assoc]
  rfl

/-- Six bits of a word. -/
theorem sextet_toNat (word shift : UInt32) (small : shift.toNat < 32) :
    ((word >>> shift) &&& 0x3F).toNat =
      word.toNat / 2 ^ shift.toNat % 64 := by
  rw [UInt32.toNat_and, UInt32.toNat_shiftRight, Nat.mod_eq_of_lt small,
    Nat.shiftRight_eq_div_pow]
  exact Nat.and_two_pow_sub_one_eq_mod _ 6

/-- The table is the alphabet. -/
theorem b64Table_getD {sextet : Nat} (small : sextet < 64) :
    b64Table.getD sextet 0 = Base64Text.character sextet := by
  have every : ∀ n < 64, b64Table.getD n 0 = Base64Text.character n := by
    decide +kernel
  exact every sextet small

/-- The four characters of three bytes. -/
theorem lookup_register (a b c : UInt8) :
    let word :=
      (a.toUInt32 <<< 16) ||| (b.toUInt32 <<< 8) ||| c.toUInt32
    let char (index : UInt32) := b64Table.getD index.toNat 0
    char ((word >>> 18) &&& 0x3F) = Base64Text.first a ∧
      char ((word >>> 12) &&& 0x3F) = Base64Text.second a b.toNat ∧
      char ((word >>> 6) &&& 0x3F) = Base64Text.third b c.toNat ∧
      char (word &&& 0x3F) = Base64Text.fourth c := by
  have aBound : a.toNat < 256 := a.toNat_lt
  have bBound : b.toNat < 256 := b.toNat_lt
  have cBound : c.toNat < 256 := c.toNat_lt
  have register := register_toNat a b c
  intro word char
  have lookup (shift : UInt32) (small : shift.toNat < 32) :
      char ((word >>> shift) &&& 0x3F) =
        Base64Text.character
          ((a.toNat * 65536 + b.toNat * 256 + c.toNat) / 2 ^ shift.toNat
            % 64) := by
    simp only [char]
    rw [sextet_toNat word shift small, register,
      b64Table_getD (Nat.mod_lt _ (by decide))]
  refine ⟨(lookup 18 (by decide)).trans ?_, (lookup 12 (by decide)).trans ?_,
    (lookup 6 (by decide)).trans ?_, ?_⟩
  · exact congrArg Base64Text.character (by simp; omega)
  · exact congrArg Base64Text.character (by simp; omega)
  · exact congrArg Base64Text.character (by simp; omega)
  · have whole := lookup 0 (by decide)
    rw [show word >>> 0 = word from UInt32.shiftRight_zero] at whole
    exact whole.trans (congrArg Base64Text.character (by simp; omega))

/-- The groups behind the first one are those of the data behind it. -/
theorem group_cons (table : Bytes) (a b c : UInt8) (rest : Bytes)
    (round : Nat) :
    group table (a :: b :: c :: rest) (3 * (round + 1)) =
      group table rest (3 * round) := by
  have moved : 3 * (round + 1) = 3 * round + 1 + 1 + 1 := by ring
  have secondIndex : 3 * round + 1 + 1 + 1 + 1 < rest.length + 1 + 1 + 1 ↔
      3 * round + 1 < rest.length := by omega
  have thirdIndex : 3 * round + 1 + 1 + 1 + 2 < rest.length + 1 + 1 + 1 ↔
      3 * round + 2 < rest.length := by omega
  simp only [group, moved, List.length_cons, secondIndex, thirdIndex,
    List.getD_cons_succ]

/-- Three bytes are one group before the rest. -/
theorem encodeWith_cons (table : Bytes) (a b c : UInt8) (rest : Bytes) :
    encodeWith table (a :: b :: c :: rest) =
      group table (a :: b :: c :: rest) 0 ++ encodeWith table rest := by
  have rounds : ((a :: b :: c :: rest).length + 2) / 3 =
      (rest.length + 2) / 3 + 1 := by
    simp only [List.length_cons]
    omega
  rw [encodeWith, rounds, List.range_succ_eq_map, List.flatMap_cons,
    List.flatMap_map]
  simp only [Nat.succ_eq_add_one, group_cons]
  rfl

/-- Both encoders write the Base64 of RFC 4648. -/
theorem base64Encode_eq (data : Bytes) :
    base64Encode data = Base64Text.encode data := by
  induction data using Base64Text.encode.induct with
  | case1 => rfl
  | case2 a =>
      have filled :
          (a.toUInt32 <<< 16) ||| ((0 : UInt8).toUInt32 <<< 8) |||
            (0 : UInt8).toUInt32 = a.toUInt32 <<< 16 := by
        simp
      have looked := lookup_register a 0 0
      simp only [filled] at looked
      rcases looked with ⟨firstChar, secondChar, _, _⟩
      calc
        base64Encode [a]
            = [b64Table.getD (((a.toUInt32 <<< 16) >>> 18) &&& 0x3F).toNat 0,
                b64Table.getD (((a.toUInt32 <<< 16) >>> 12) &&& 0x3F).toNat 0,
                61, 61] := by
          simp [base64Encode, encodeWith, group]
        _ = Base64Text.encode [a] := by
          rw [firstChar, secondChar]
          rfl
  | case3 a b =>
      have filled :
          (a.toUInt32 <<< 16) ||| (b.toUInt32 <<< 8) |||
            (0 : UInt8).toUInt32 =
              (a.toUInt32 <<< 16) ||| (b.toUInt32 <<< 8) := by
        simp
      have looked := lookup_register a b 0
      simp only [filled] at looked
      rcases looked with ⟨firstChar, secondChar, thirdChar, _⟩
      set word := (a.toUInt32 <<< 16) ||| (b.toUInt32 <<< 8)
      calc
        base64Encode [a, b]
            = [b64Table.getD ((word >>> 18) &&& 0x3F).toNat 0,
                b64Table.getD ((word >>> 12) &&& 0x3F).toNat 0,
                b64Table.getD ((word >>> 6) &&& 0x3F).toNat 0, 61] := by
          simp [base64Encode, encodeWith, group, word]
        _ = Base64Text.encode [a, b] := by
          rw [firstChar, secondChar, thirdChar]
          rfl
  | case4 a b c rest induction =>
      rcases lookup_register a b c
        with ⟨firstChar, secondChar, thirdChar, fourthChar⟩
      have inside : 2 < (a :: b :: c :: rest).length := by simp
      have here :
          group b64Table (a :: b :: c :: rest) 0 =
            [Base64Text.first a, Base64Text.second a b.toNat,
              Base64Text.third b c.toNat, Base64Text.fourth c] := by
        rw [← firstChar, ← secondChar, ← thirdChar, ← fourthChar]
        simp [group]
      rw [base64Encode, encodeWith_cons, here, Base64Text.encode,
        ← induction]
      rfl

/-! ## Reading back -/

theorem base64EncodeChecked_eq (data : Bytes) :
    base64EncodeChecked data = some (base64Encode data) :=
  encodeLoop_zero (by decide) data

theorem base64EncodeImplChecked_eq (data : Bytes) :
    base64EncodeImplChecked data = some (base64EncodeImpl data) :=
  encodeLoop_zero (by decide) data

/--
Both encoders write one text, of the announced length and without a read
outside the data or the table, and the decoder of RFC 4648 gives the data
back.
-/
theorem base64_invertible :
    (∀ data,
      base64EncodeChecked data = some (base64Encode data) ∧
        base64EncodeImplChecked data = some (base64EncodeImpl data) ∧
        base64EncodeImpl data = base64Encode data ∧
        (base64Encode data).length = base64EncodedSize data.length ∧
        Base64Text.decode (base64Encode data) = some data) ∧
      Function.Injective base64Encode ∧
      Function.Injective base64EncodeImpl := by
  have injective : Function.Injective base64Encode := by
    intro data data' same
    rw [base64Encode_eq, base64Encode_eq] at same
    exact Base64Text.encode_injective same
  refine ⟨fun data => ⟨base64EncodeChecked_eq data,
    base64EncodeImplChecked_eq data, congrFun base64EncodeImpl_eq data,
    base64Encode_length data, ?_⟩, injective, base64EncodeImpl_eq ▸ injective⟩
  rw [base64Encode_eq]
  exact Base64Text.decode_encode data

end AccelObserver.Crypto.Base64
