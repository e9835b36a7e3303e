import AccelObserver.Library.Bytes

/-!
# WebSocket frames on the wire

The frame grammar of RFC 6455 §5.2, independent of any program that reads or
writes it.  A `Frame` is an abstract frame together with the three choices
its sender makes on the wire: whether and with which key it masks the
payload, and which of the three forms it writes the length in.  The field
`fits` rules out a length that the chosen form cannot hold.

Masking is an involution (`mask_mask`), and it may be applied piece by piece
as long as each piece knows its offset (`maskFrom_append`).
-/

namespace AccelObserver.Library.Frame

/-! ## The widths of the header's fields -/

instance maskKey_neZero : NeZero 4 := ⟨by decide⟩

instance rsv_neZero : NeZero 8 := ⟨by decide⟩

instance opcode_neZero : NeZero 16 := ⟨by decide⟩

/-! ## Masking -/

abbrev MaskKey := Fin 4 → UInt8

/-- Mask data whose first byte is number `offset` of the payload. -/
def maskFrom (key : MaskKey) : Nat → Bytes → Bytes
  | _, [] => []
  | offset, byte :: rest =>
      (byte ^^^ key (Fin.ofNat 4 offset)) :: maskFrom key (offset + 1) rest

/-- Mask or unmask a whole payload. -/
def mask (key : MaskKey) (payload : Bytes) : Bytes :=
  maskFrom key 0 payload

@[simp]
theorem maskFrom_length (key : MaskKey) (offset : Nat) (data : Bytes) :
    (maskFrom key offset data).length = data.length := by
  induction data generalizing offset with
  | nil => rfl
  | cons byte rest induction => simp [maskFrom, induction]

@[simp]
theorem mask_length (key : MaskKey) (payload : Bytes) :
    (mask key payload).length = payload.length :=
  maskFrom_length key 0 payload

theorem maskFrom_append
    (key : MaskKey) (offset : Nat) (front back : Bytes) :
    maskFrom key offset (front ++ back) =
      maskFrom key offset front ++
        maskFrom key (offset + front.length) back := by
  induction front generalizing offset with
  | nil => simp [maskFrom]
  | cons byte rest induction =>
      simp [maskFrom, induction, Nat.add_comm, Nat.add_left_comm]

theorem maskFrom_maskFrom (key : MaskKey) (offset : Nat) (data : Bytes) :
    maskFrom key offset (maskFrom key offset data) = data := by
  induction data generalizing offset with
  | nil => rfl
  | cons byte rest induction =>
      rw [maskFrom, maskFrom, induction, UInt8.xor_assoc, UInt8.xor_self,
        UInt8.xor_zero]

/-- Masking as a loop over the indices, with the offset taken modulo 4. -/
theorem mapIdx_eq_maskFrom (key : MaskKey) (offset : Nat) (data : Bytes) :
    (data.mapIdx fun i byte =>
        byte ^^^ key (Fin.ofNat 4 ((offset + i) &&& 3))) =
      maskFrom key offset data := by
  have index (i : Nat) : Fin.ofNat 4 (i &&& 3) = Fin.ofNat 4 i := by
    apply Fin.ext
    simp [Nat.and_two_pow_sub_one_eq_mod i 2]
  simp only [index]
  induction data generalizing offset with
  | nil => rfl
  | cons byte rest induction =>
      rw [List.mapIdx_cons, maskFrom, ← induction (offset + 1)]
      simp [Nat.add_comm, Nat.add_left_comm]

/-- Masking twice with one key gives the payload back. -/
@[simp]
theorem mask_mask (key : MaskKey) (payload : Bytes) :
    mask key (mask key payload) = payload :=
  maskFrom_maskFrom key 0 payload

/-! ## Lengths -/

/-- The 7-bit, 16-bit and 64-bit forms of the payload length. -/
inductive LengthForm where
  | short
  | medium
  | long
  deriving DecidableEq, Repr

namespace LengthForm

/-- A length fits a form when it is below this bound. -/
def bound : LengthForm → Nat
  | .short => 126
  | .medium => 2 ^ 16
  | .long => 2 ^ 63

/-- The seven length bits of the second header byte. -/
def code : LengthForm → Nat → Nat
  | .short, length => length
  | .medium, _ => 126
  | .long, _ => 127

/-- The extended length that follows the second header byte. -/
def extension : LengthForm → Nat → Bytes
  | .short, _ => []
  | .medium, length => BigEndian.write 2 length
  | .long, length => BigEndian.write 8 length

theorem code_lt
    {form : LengthForm} {length : Nat} (fits : length < form.bound) :
    form.code length < 128 := by
  cases form <;> simp only [bound, code] at fits ⊢ <;> omega

/-- The shortest form that holds a length. -/
def shortest (length : Nat) : LengthForm :=
  if length < 126 then .short
  else if length < 2 ^ 16 then .medium
  else .long

/-- The shortest form fits the payload that it is chosen for. -/
theorem shortest_fits {payload : Bytes} (small : payload.length < 2 ^ 63) :
    payload.length < (shortest payload.length).bound := by
  unfold shortest
  split_ifs with short medium
  · exact short
  · exact medium
  · exact small

end LengthForm

/-! ## Frames -/

end Frame

/-- A frame as its sender builds it. -/
structure Frame where
  fin : Bool
  rsv : Fin 8
  opcode : Fin 16
  maskKey : Option Frame.MaskKey
  lengthForm : Frame.LengthForm
  payload : Bytes
  fits : payload.length < lengthForm.bound

namespace Frame

/-- The opcodes of RFC 6455 §11.8. -/
def continuation : Fin 16 := 0x0
def text : Fin 16 := 0x1
def binary : Fin 16 := 0x2
def close : Fin 16 := 0x8
def ping : Fin 16 := 0x9
def pong : Fin 16 := 0xA

/-- Opcodes that RFC 6455 leaves undefined: 3 to 7 and 11 to 15. -/
def Reserved (opcode : Fin 16) : Prop :=
  (3 ≤ opcode ∧ opcode ≤ 7) ∨ 11 ≤ opcode

instance (opcode : Fin 16) : Decidable (Reserved opcode) :=
  inferInstanceAs (Decidable (_ ∨ _))

variable (frame : Frame)

/-- FIN, the three reserved bits and the opcode. -/
def firstByte : UInt8 :=
  UInt8.ofNat (frame.fin.toNat * 128 + frame.rsv * 16 + frame.opcode)

/-- The mask bit and the seven length bits. -/
def secondByte : UInt8 :=
  UInt8.ofNat
    (frame.maskKey.isSome.toNat * 128 +
      frame.lengthForm.code frame.payload.length)

/-- The key as it is written, nothing for an unmasked frame. -/
def keyBytes : Bytes :=
  match frame.maskKey with
  | none => []
  | some key => [key 0, key 1, key 2, key 3]

/-- The payload as it is written. -/
def wirePayload : Bytes :=
  match frame.maskKey with
  | none => frame.payload
  | some key => mask key frame.payload

/-- Everything before the payload. -/
def header : Bytes :=
  [frame.firstByte, frame.secondByte] ++
    frame.lengthForm.extension frame.payload.length ++ frame.keyBytes

/-- The bytes of the frame. -/
def encode : Bytes :=
  frame.header ++ frame.wirePayload

/-- A short frame without a mask is two bytes and the payload. -/
theorem encode_short
    (unmasked : frame.maskKey = none) (short : frame.lengthForm = .short) :
    frame.encode =
      [frame.firstByte, UInt8.ofNat frame.payload.length] ++
        frame.payload := by
  simp only [encode, header, secondByte, keyBytes, wirePayload, unmasked,
    short, LengthForm.extension, LengthForm.code, Option.isSome_none,
    Bool.toNat_false, Nat.zero_mul, Nat.zero_add, List.append_nil]

@[simp]
theorem wirePayload_length :
    frame.wirePayload.length = frame.payload.length := by
  unfold wirePayload
  cases frame.maskKey <;> simp

theorem payload_length_lt : frame.payload.length < 2 ^ 63 := by
  have fits := frame.fits
  cases form : frame.lengthForm <;>
    simp only [form, LengthForm.bound] at fits <;> omega

/-- The low four bits of the first byte are the opcode. -/
theorem firstByte_and :
    frame.firstByte &&& 0x0F = UInt8.ofNat frame.opcode := by
  have table :
      ∀ (fin : Bool) (rsv : Fin 8) (opcode : Fin 16),
        UInt8.ofNat (fin.toNat * 128 + rsv * 16 + opcode) &&& 0x0F =
          UInt8.ofNat opcode := by
    decide
  exact table frame.fin frame.rsv frame.opcode

private theorem secondByte_table :
    ∀ (masked : Bool) (code : Fin 128),
      UInt8.ofNat (masked.toNat * 128 + code) &&& 0x7F = UInt8.ofNat code ∧
        (UInt8.ofNat (masked.toNat * 128 + code) &&& 0x80 != 0) = masked := by
  decide

/-- The low seven bits of the second byte are the length code. -/
theorem secondByte_and_length :
    frame.secondByte &&& 0x7F =
      UInt8.ofNat (frame.lengthForm.code frame.payload.length) :=
  (secondByte_table frame.maskKey.isSome
    ⟨_, LengthForm.code_lt frame.fits⟩).1

/-- The top bit of the second byte tells whether a key follows. -/
theorem secondByte_and_mask :
    (frame.secondByte &&& 0x80 != 0) = frame.maskKey.isSome :=
  (secondByte_table frame.maskKey.isSome
    ⟨_, LengthForm.code_lt frame.fits⟩).2

end Frame

/-! ## Messages cut into fragments -/

/-- One fragment of a message, with the choices its sender makes. -/
structure Fragment where
  maskKey : Option Frame.MaskKey
  lengthForm : Frame.LengthForm
  payload : Bytes
  fits : payload.length < lengthForm.bound

/-- The frame that carries a fragment. -/
def Fragment.frame (fragment : Fragment) (fin : Bool) (opcode : Fin 16) :
    Frame where
  fin := fin
  rsv := 0
  opcode := opcode
  maskKey := fragment.maskKey
  lengthForm := fragment.lengthForm
  payload := fragment.payload
  fits := fragment.fits

/--
A fragmented message (RFC 6455 §5.4): a first fragment, and any number of
continuation fragments, each after the frames that were sent in between.
-/
structure Message where
  kind : Fin 16
  isData : kind = Frame.text ∨ kind = Frame.binary
  first : Fragment
  rest : List (List Frame × Fragment)

namespace Message

/-- The continuation frames: opcode 0, and FIN on the last one only. -/
def continuationFrames : List (List Frame × Fragment) → List Frame
  | [] => []
  | (between, fragment) :: more =>
      between ++
        fragment.frame more.isEmpty Frame.continuation ::
          continuationFrames more

/-- The frames of a message in the order they are sent. -/
def frames (message : Message) : List Frame :=
  message.first.frame message.rest.isEmpty message.kind ::
    continuationFrames message.rest

/-- The frames that were sent between the fragments. -/
def between (message : Message) : List Frame :=
  message.rest.flatMap Prod.fst

/-- The payloads of the fragments. -/
def fragments (message : Message) : List Bytes :=
  message.first.payload :: message.rest.map fun part => part.2.payload

/-- The content of a message: its fragments put together. -/
def content (message : Message) : Bytes :=
  message.fragments.flatten

end Message

/-- The members of a list of byte strings that are not empty. -/
def nonempty (parts : List Bytes) : List Bytes :=
  parts.filter fun part => !part.isEmpty

@[simp]
theorem nonempty_nil : nonempty [] = [] := rfl

@[simp]
theorem nonempty_append (left right : List Bytes) :
    nonempty (left ++ right) = nonempty left ++ nonempty right := by
  simp [nonempty]

theorem nonempty_cons (part : Bytes) (rest : List Bytes) :
    nonempty (part :: rest) =
      (if part.isEmpty then [] else [part]) ++ nonempty rest := by
  cases part <;> simp [nonempty]

/-- Joining several parts into one leaves at most one, and no more parts. -/
theorem nonempty_flatten_length_le (parts : List Bytes) :
    (nonempty [parts.flatten]).length ≤ (nonempty parts).length := by
  rw [nonempty, nonempty, ← List.flatten_filter_not_isEmpty]
  cases parts.filter (fun part => !part.isEmpty) with
  | nil => simp
  | cons first rest =>
      simp only [List.length_cons]
      exact (List.length_filter_le _ _).trans (by simp)

/-- At most one non-empty part is the joined text itself. -/
theorem nonempty_flatten_eq
    {parts : List Bytes} (atMostOne : (nonempty parts).length ≤ 1) :
    nonempty [parts.flatten] = nonempty parts := by
  have members : ∀ part ∈ nonempty parts, part.isEmpty = false := by
    intro part member
    simpa [nonempty] using (List.mem_filter.mp member).2
  have joined : parts.flatten = (nonempty parts).flatten :=
    List.flatten_filter_not_isEmpty.symm
  rw [joined]
  match found : nonempty parts with
  | [] => simp [nonempty]
  | [part] =>
      have some := members part (by simp [found])
      simp [nonempty, List.isEmpty_eq_false_iff.mp some]
  | _ :: _ :: _ => simp [found] at atMostOne

/-- Joining keeps the number of non-empty parts only if there is at most one. -/
theorem nonempty_flatten_length_eq_iff (parts : List Bytes) :
    (nonempty [parts.flatten]).length = (nonempty parts).length ↔
      (nonempty parts).length ≤ 1 := by
  constructor
  · intro equal
    rw [← equal]
    exact List.length_filter_le _ _
  · intro atMostOne
    rw [nonempty_flatten_eq atMostOne]

end AccelObserver.Library
