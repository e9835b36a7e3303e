import AccelObserver.Library.Bytes

/-!
# Base64

`base64_encode` of `crypto/base64.c`, which client and server share, and
`base64_encode_impl` of `ws_subscriber.cpp`.  Both take three bytes at a time
and look four characters up in a table of their own.
-/

namespace AccelObserver.Crypto.Base64

open AccelObserver.Library

/-- The characters for the three bytes from an index on, or for fewer. -/
def group (table : Bytes) (data : Bytes) (i : Nat) : Bytes :=
  let char (index : UInt32) : UInt8 := table.getD index.toNat 0
  let b := (data.getD i 0).toUInt32 <<< 16
  let b :=
    if i + 1 < data.length then
      b ||| ((data.getD (i + 1) 0).toUInt32 <<< 8)
    else b
  let b :=
    if i + 2 < data.length then b ||| (data.getD (i + 2) 0).toUInt32 else b
  [char ((b >>> 18) &&& 0x3F), char ((b >>> 12) &&& 0x3F),
    if i + 1 < data.length then char ((b >>> 6) &&& 0x3F) else 61,
    if i + 2 < data.length then char (b &&& 0x3F) else 61]

/-- The loop over every third index. -/
def encodeWith (table : Bytes) (data : Bytes) : Bytes :=
  (List.range ((data.length + 2) / 3)).flatMap fun round =>
    group table data (3 * round)

/-- `B64_TABLE` -/
def b64Table : Bytes :=
  ascii
    "ABCDEFGHIJKLMNOPQRSTUVWXYZabcdefghijklmnopqrstuvwxyz0123456789+/"

/-- `BASE64_CHARS` -/
def base64Chars : Bytes :=
  ascii
    "ABCDEFGHIJKLMNOPQRSTUVWXYZabcdefghijklmnopqrstuvwxyz0123456789+/"

/-- `base64_encode` -/
def base64Encode (data : Bytes) : Bytes :=
  encodeWith b64Table data

/-- `base64_encode_impl` -/
def base64EncodeImpl (data : Bytes) : Bytes :=
  encodeWith base64Chars data

/-- Both encode alike. -/
theorem base64EncodeImpl_eq : base64EncodeImpl = base64Encode := rfl

/-- `base64_encoded_size` -/
def base64EncodedSize (len : Nat) : Nat :=
  (len + 2) / 3 * 4

@[simp]
theorem base64Encode_length (data : Bytes) :
    (base64Encode data).length = base64EncodedSize data.length := by
  have four (round : Nat) : (group b64Table data (3 * round)).length = 4 := rfl
  simp [base64Encode, encodeWith, base64EncodedSize, four]

/-- A character of the table, or the padding. -/
def isBase64Byte (byte : UInt8) : Bool :=
  b64Table.contains byte || byte == 61

theorem table_isBase64Byte (index : UInt32) :
    isBase64Byte (b64Table.getD (index &&& 0x3F).toNat 0) = true := by
  have every : ∀ n < 64, isBase64Byte (b64Table.getD n 0) = true := by
    decide +kernel
  apply every
  rw [UInt32.toNat_and]
  exact Nat.lt_of_le_of_lt Nat.and_le_right (by decide)

theorem padded_isBase64Byte
    (present : Prop) [Decidable present] (index : UInt32) :
    isBase64Byte
      (if present then b64Table.getD (index &&& 0x3F).toNat 0 else 61)
      = true := by
  split
  · exact table_isBase64Byte index
  · decide

/-- An encoded text has no other bytes. -/
theorem isBase64Byte_of_mem
    {data : Bytes} {byte : UInt8} (member : byte ∈ base64Encode data) :
    isBase64Byte byte = true := by
  rcases List.mem_flatMap.mp member with ⟨round, _, inGroup⟩
  simp only [group, List.mem_cons, List.not_mem_nil, or_false] at inGroup
  rcases inGroup with rfl | rfl | rfl | rfl
  · apply table_isBase64Byte
  · apply table_isBase64Byte
  · apply padded_isBase64Byte
  · apply padded_isBase64Byte

/-- One byte short of a group. -/
example : base64Encode (ascii "ab") = ascii "YWI=" := by
  decide

end AccelObserver.Crypto.Base64
