import AccelObserver.Library.Frame
import Mathlib.Data.List.Induction

/-!
# Cutting frames off a stream

`decode` cuts the first frame off a stream of bytes.  It is the inverse of
`encode`: the bytes of a frame, with anything behind them, are cut there
(`decode_encode`), and what is cut off a stream is the bytes of the frame
(`decode_eq_some_iff`).  There is no frame at the front of a stream that ends
too early, or whose length does not fit the grammar.
-/

namespace AccelObserver.Library

/-- Cut off so many bytes. -/
def takeExact (count : Nat) (bytes : Bytes) : Option (Bytes × Bytes) :=
  if count ≤ bytes.length then some (bytes.take count, bytes.drop count)
  else none

theorem takeExact_append
    {front : Bytes} {count : Nat} (length : front.length = count)
    (rest : Bytes) : takeExact count (front ++ rest) = some (front, rest) := by
  subst length
  simp [takeExact]

theorem takeExact_eq_some_iff
    {count : Nat} {bytes front rest : Bytes} :
    takeExact count bytes = some (front, rest) ↔
      bytes = front ++ rest ∧ front.length = count := by
  constructor
  · intro cut
    rw [takeExact] at cut
    split_ifs at cut with enough
    cases cut
    exact ⟨(List.take_append_drop _ _).symm, List.length_take_of_le enough⟩
  · rintro ⟨rfl, length⟩
    exact takeExact_append length rest

namespace BigEndian

/-- The last byte is the remainder. -/
theorem write_append
    (width n : Nat) {byte : Nat} (small : byte < 256) :
    write (width + 1) (n * 256 + byte) =
      write width n ++ [UInt8.ofNat byte] := by
  induction width with
  | zero =>
      rw [write, write, write, Nat.mul_zero, Nat.shiftRight_zero]
      apply congrArg (· :: [])
      rw [← UInt8.toNat_inj, UInt8.toNat_ofNat', UInt8.toNat_ofNat']
      omega
  | succ width induction =>
      rw [write, induction, write, List.cons_append]
      have shifted :
          (n * 256 + byte) >>> (8 * (width + 1)) = n >>> (8 * width) := by
        rw [Nat.shiftRight_eq_div_pow, Nat.shiftRight_eq_div_pow,
          Nat.mul_add_one 8 width, Nat.pow_add,
          Nat.mul_comm (2 ^ (8 * width)), ← Nat.div_div_eq_div_mul]
        congr 1
        omega
      rw [shifted]

theorem read_append (register : UInt64) (bytes : Bytes) (byte : UInt8) :
    read register (bytes ++ [byte]) =
      (read register bytes <<< 8) ||| byte.toUInt64 := by
  rw [read, List.foldl_append]
  rfl

/-- Up to eight bytes fit the register, and are what writes it. -/
theorem write_read
    {bytes : Bytes} (short : bytes.length ≤ 8) :
    (read 0 bytes).toNat < 256 ^ bytes.length ∧
      write bytes.length (read 0 bytes).toNat = bytes := by
  induction bytes using List.reverseRecOn with
  | nil => exact ⟨by decide, rfl⟩
  | append_singleton front byte induction =>
      rw [List.length_append, List.length_singleton] at short
      rcases induction (by omega) with ⟨bound, written⟩
      have room : (read 0 front).toNat < 2 ^ 56 :=
        calc
          (read 0 front).toNat < 256 ^ front.length := bound
          _ ≤ 256 ^ 7 := Nat.pow_le_pow_right (by decide) (by omega)
          _ = 2 ^ 56 := by decide
      have byteBound : byte.toNat < 256 := byte.toNat_lt
      rw [read_append, shift_or_toNat _ _ room, List.length_append,
        List.length_singleton]
      constructor
      · rw [Nat.pow_succ]
        omega
      · rw [write_append _ _ byteBound, written, UInt8.ofNat_toNat]

end BigEndian

namespace Frame

/-- The form that the seven length bits announce. -/
def LengthForm.announced (code : Nat) : LengthForm :=
  if code = 126 then .medium
  else if code = 127 then .long
  else .short

/-- Cut off the extended length of a form; the short one has none. -/
def decodeLength (code : Nat) (bytes : Bytes) : Option (UInt64 × Bytes) :=
  match LengthForm.announced code with
  | .short => some (UInt64.ofNat code, bytes)
  | .medium =>
      (takeExact 2 bytes).map fun cut => (BigEndian.read 0 cut.1, cut.2)
  | .long =>
      (takeExact 8 bytes).map fun cut => (BigEndian.read 0 cut.1, cut.2)

/-- Four bytes as a key. -/
def keyOf (bytes : Bytes) : MaskKey :=
  fun index => bytes.getD index 0

/-- Cut off the key of a masked frame. -/
def decodeKey (masked : Bool) (bytes : Bytes) :
    Option (Option MaskKey × Bytes) :=
  if masked then
    (takeExact 4 bytes).map fun cut => (some (keyOf cut.1), cut.2)
  else some (none, bytes)

/-- A payload with or without its mask. -/
def maskWith (maskKey : Option MaskKey) (data : Bytes) : Bytes :=
  maskKey.elim data (mask · data)

/-- The frame of a header and the bytes of a payload. -/
def assemble (first : UInt8) (form : LengthForm) (maskKey : Option MaskKey)
    (data : Bytes) : Option Frame :=
  if fits : (maskWith maskKey data).length < form.bound then
    some
      { fin := decide (128 ≤ first.toNat)
        rsv := Fin.ofNat 8 (first.toNat / 16)
        opcode := Fin.ofNat 16 first.toNat
        maskKey := maskKey
        lengthForm := form
        payload := maskWith maskKey data
        fits := fits }
  else none

theorem maskWith_length (maskKey : Option MaskKey) (data : Bytes) :
    (maskWith maskKey data).length = data.length := by
  cases maskKey with
  | none => rfl
  | some key => exact mask_length key data

theorem exists_assemble
    (first : UInt8) {form : LengthForm} (maskKey : Option MaskKey)
    {data : Bytes} (fits : data.length < form.bound) :
    ∃ frame, assemble first form maskKey data = some frame ∧
      frame.payload = maskWith maskKey data := by
  rw [← maskWith_length maskKey] at fits
  exact ⟨_, dif_pos fits, rfl⟩

theorem assemble_eq_none
    (first : UInt8) {form : LengthForm} (maskKey : Option MaskKey)
    {data : Bytes} (long : form.bound ≤ data.length) :
    assemble first form maskKey data = none := by
  rw [← maskWith_length maskKey] at long
  exact dif_neg (Nat.not_lt.mpr long)

theorem LengthForm.bound_le (form : LengthForm) : form.bound ≤ 2 ^ 63 := by
  cases form <;> decide

/-- Cut the first frame off a stream. -/
def decode : Bytes → Option (Frame × Bytes)
  | first :: second :: bytes =>
      let code := second.toNat % 128
      (decodeLength code bytes).bind fun length =>
        (decodeKey (decide (128 ≤ second.toNat)) length.2).bind fun key =>
          (takeExact length.1.toNat key.2).bind fun data =>
            (assemble first (LengthForm.announced code) key.1 data.1).map
              fun frame => (frame, data.2)
  | _ => none

/-! ## The bytes of a frame are cut off -/

theorem announced_code
    {form : LengthForm} {length : Nat} (fits : length < form.bound) :
    LengthForm.announced (form.code length) = form := by
  cases form with
  | short =>
      have below : length < 126 := fits
      rw [LengthForm.announced, LengthForm.code, if_neg (by omega),
        if_neg (by omega)]
  | medium => rfl
  | long => rfl

theorem decodeLength_extension
    {form : LengthForm} {length : Nat} (fits : length < form.bound)
    (rest : Bytes) :
    ∃ register, register.toNat = length ∧
      decodeLength (form.code length) (form.extension length ++ rest) =
        some (register, rest) := by
  rw [decodeLength, announced_code fits]
  cases form with
  | short =>
      have below : length < 126 := fits
      refine ⟨_, ?_, rfl⟩
      rw [LengthForm.code, UInt64.toNat_ofNat']
      omega
  | medium =>
      refine ⟨BigEndian.read 0 (BigEndian.write 2 length),
        BigEndian.read_write_of_lt (by decide) fits, ?_⟩
      rw [LengthForm.extension,
        takeExact_append (BigEndian.write_length 2 length)]
      rfl
  | long =>
      have below : length < 2 ^ 63 := fits
      refine ⟨BigEndian.read 0 (BigEndian.write 8 length),
        BigEndian.read_write_of_lt (by decide) (by omega), ?_⟩
      rw [LengthForm.extension,
        takeExact_append (BigEndian.write_length 8 length)]
      rfl

theorem decodeKey_keyBytes (frame : Frame) (rest : Bytes) :
    decodeKey frame.maskKey.isSome (frame.keyBytes ++ rest) =
      some (frame.maskKey, rest) := by
  rw [keyBytes]
  cases frame.maskKey with
  | none => rfl
  | some key =>
      have same : keyOf [key 0, key 1, key 2, key 3] = key := by
        funext index
        rcases index with ⟨_ | _ | _ | _ | index, below⟩
        · rfl
        · rfl
        · rfl
        · rfl
        · omega
      have taken :
          takeExact 4 ([key 0, key 1, key 2, key 3] ++ rest) =
            some ([key 0, key 1, key 2, key 3], rest) :=
        takeExact_eq_some_iff.mpr ⟨rfl, rfl⟩
      simp only [decodeKey, Option.isSome_some, if_true, taken,
        Option.map_some, same]

theorem maskWith_wirePayload (frame : Frame) :
    maskWith frame.maskKey frame.wirePayload = frame.payload := by
  rw [wirePayload, maskWith]
  cases frame.maskKey with
  | none => rfl
  | some key => exact mask_mask key frame.payload

theorem toNat_secondByte (frame : Frame) :
    frame.secondByte.toNat =
      frame.maskKey.isSome.toNat * 128 +
        frame.lengthForm.code frame.payload.length := by
  have small := LengthForm.code_lt frame.fits
  have bit := Bool.toNat_le frame.maskKey.isSome
  rw [secondByte, UInt8.toNat_ofNat']
  omega

theorem toNat_firstByte (frame : Frame) :
    frame.firstByte.toNat =
      frame.fin.toNat * 128 + frame.rsv * 16 + frame.opcode := by
  have bit := Bool.toNat_le frame.fin
  have rsv := frame.rsv.isLt
  have opcode := frame.opcode.isLt
  rw [firstByte, UInt8.toNat_ofNat']
  omega

theorem assemble_eq (frame : Frame) :
    assemble frame.firstByte frame.lengthForm frame.maskKey
      frame.wirePayload = some frame := by
  have first := toNat_firstByte frame
  have payload := maskWith_wirePayload frame
  have rsvBound := frame.rsv.isLt
  have opcodeBound := frame.opcode.isLt
  rw [assemble, dif_pos (payload ▸ frame.fits)]
  have fin : decide (128 ≤ frame.firstByte.toNat) = frame.fin := by
    rw [first]
    cases frame.fin with
    | false => exact decide_eq_false (by rw [Bool.toNat_false]; omega)
    | true => exact decide_eq_true (by rw [Bool.toNat_true]; omega)
  have rsv : Fin.ofNat 8 (frame.firstByte.toNat / 16) = frame.rsv := by
    apply Fin.ext
    rw [Fin.val_ofNat, first]
    omega
  have opcode : Fin.ofNat 16 frame.firstByte.toNat = frame.opcode := by
    apply Fin.ext
    rw [Fin.val_ofNat, first]
    omega
  simp only [fin, rsv, opcode, payload]

/-- A frame is cut off what it begins. -/
theorem decode_encode (frame : Frame) (rest : Bytes) :
    decode (frame.encode ++ rest) = some (frame, rest) := by
  have second := toNat_secondByte frame
  have small := LengthForm.code_lt frame.fits
  have code :
      frame.secondByte.toNat % 128 =
        frame.lengthForm.code frame.payload.length := by
    rw [second]
    omega
  have masked :
      decide (128 ≤ frame.secondByte.toNat) = frame.maskKey.isSome := by
    rw [second]
    cases frame.maskKey.isSome with
    | false => exact decide_eq_false (by rw [Bool.toNat_false]; omega)
    | true => exact decide_eq_true (by rw [Bool.toNat_true]; omega)
  rcases decodeLength_extension frame.fits
      (frame.keyBytes ++ (frame.wirePayload ++ rest))
    with ⟨register, length, cut⟩
  have bytes :
      frame.encode ++ rest =
        frame.firstByte :: frame.secondByte ::
          (frame.lengthForm.extension frame.payload.length ++
            (frame.keyBytes ++ (frame.wirePayload ++ rest))) := by
    simp [encode, header]
  rw [bytes, decode]
  simp only [code, masked, cut, Option.bind_some, decodeKey_keyBytes, length]
  rw [takeExact_append frame.wirePayload_length, Option.bind_some,
    announced_code frame.fits, assemble_eq]
  rfl

/-! ## What is cut off is the bytes of a frame -/

/-- Bytes that are read as a number are the number's bytes. -/
theorem write_of_takeExact
    {count : Nat} (small : count ≤ 8) {bytes rest : Bytes} {register : UInt64}
    (cut :
      ((takeExact count bytes).map fun pair =>
        (BigEndian.read 0 pair.1, pair.2)) = some (register, rest)) :
    bytes = BigEndian.write count register.toNat ++ rest := by
  rcases Option.map_eq_some_iff.mp cut with ⟨⟨front, back⟩, taken, same⟩
  cases same
  rcases takeExact_eq_some_iff.mp taken with ⟨rfl, rfl⟩
  rw [(BigEndian.write_read small).2]

theorem decodeLength_eq_some
    {code : Nat} (small : code < 128) {bytes rest : Bytes}
    {register : UInt64}
    (cut : decodeLength code bytes = some (register, rest)) :
    code = (LengthForm.announced code).code register.toNat ∧
      bytes =
        (LengthForm.announced code).extension register.toNat ++ rest := by
  rw [decodeLength] at cut
  cases form : LengthForm.announced code with
  | short =>
      rw [form] at cut
      cases cut
      refine ⟨?_, rfl⟩
      rw [LengthForm.code, UInt64.toNat_ofNat']
      omega
  | medium =>
      rw [form] at cut
      constructor
      · rw [LengthForm.announced] at form
        split_ifs at form with medium
        exact medium
      · exact write_of_takeExact (by decide) cut
  | long =>
      rw [form] at cut
      constructor
      · rw [LengthForm.announced] at form
        split_ifs at form with medium long
        exact long
      · exact write_of_takeExact (by decide) cut

/-- A length below 2^63 fits the form that it is read in. -/
theorem decodeLength_lt_bound
    {code : Nat} (small : code < 128) {bytes rest : Bytes}
    {register : UInt64}
    (cut : decodeLength code bytes = some (register, rest))
    (below : register.toNat < 2 ^ 63) :
    register.toNat < (LengthForm.announced code).bound := by
  cases form : LengthForm.announced code with
  | short =>
      have same := (decodeLength_eq_some small cut).1
      rw [form, LengthForm.code] at same
      rw [LengthForm.announced] at form
      split_ifs at form with medium long
      rw [LengthForm.bound]
      omega
  | medium =>
      rw [decodeLength, form] at cut
      rcases Option.map_eq_some_iff.mp cut with ⟨⟨front, back⟩, taken, same⟩
      cases same
      have length := (takeExact_eq_some_iff.mp taken).2
      have bound := (BigEndian.write_read (by omega : front.length ≤ 8)).1
      rw [length] at bound
      exact bound
  | long => exact below

theorem decodeKey_eq_some
    {masked : Bool} {bytes rest : Bytes} {maskKey : Option MaskKey}
    (cut : decodeKey masked bytes = some (maskKey, rest)) :
    masked = maskKey.isSome ∧
      ∀ frame : Frame, frame.maskKey = maskKey →
        bytes = frame.keyBytes ++ rest := by
  rw [decodeKey] at cut
  cases masked with
  | false =>
      cases cut
      refine ⟨rfl, fun frame same => ?_⟩
      rw [keyBytes, same]
      rfl
  | true =>
      rw [if_pos rfl] at cut
      rcases Option.map_eq_some_iff.mp cut with ⟨⟨front, back⟩, taken, same⟩
      cases same
      rcases takeExact_eq_some_iff.mp taken with ⟨rfl, length⟩
      refine ⟨rfl, fun frame same => ?_⟩
      rw [keyBytes, same]
      rcases List.length_eq_four.mp length with ⟨_, _, _, _, rfl⟩
      rfl

theorem assemble_eq_some
    {first : UInt8} {form : LengthForm} {maskKey : Option MaskKey}
    {data : Bytes} {frame : Frame}
    (assembled : assemble first form maskKey data = some frame) :
    frame.firstByte = first ∧ frame.lengthForm = form ∧
      frame.maskKey = maskKey ∧ frame.wirePayload = data := by
  rw [assemble] at assembled
  split_ifs at assembled with fits
  cases assembled
  refine ⟨?_, rfl, rfl, ?_⟩
  · rw [← UInt8.toNat_inj, toNat_firstByte]
    have bound := first.toNat_lt
    by_cases fin : 128 ≤ first.toNat
    · simp only [fin, decide_true, Bool.toNat_true, Fin.val_ofNat]
      omega
    · simp only [fin, decide_false, Bool.toNat_false, Fin.val_ofNat]
      omega
  · cases maskKey with
    | none => rfl
    | some key => exact mask_mask key data

/-- Exactly the bytes of a frame are cut off. -/
theorem decode_eq_some_iff
    {bytes rest : Bytes} {frame : Frame} :
    decode bytes = some (frame, rest) ↔ bytes = frame.encode ++ rest := by
  constructor
  · intro cut
    match bytes, cut with
    | first :: second :: bytes, cut =>
        rw [decode] at cut
        rcases Option.bind_eq_some_iff.mp cut with
          ⟨⟨register, behindLength⟩, lengthCut, cut⟩
        rcases Option.bind_eq_some_iff.mp cut with
          ⟨⟨maskKey, behindKey⟩, keyCut, cut⟩
        rcases Option.bind_eq_some_iff.mp cut with
          ⟨⟨data, behindData⟩, dataCut, cut⟩
        rcases Option.map_eq_some_iff.mp cut with ⟨_, assembled, same⟩
        cases same
        have small : second.toNat % 128 < 128 := Nat.mod_lt _ (by decide)
        rcases decodeLength_eq_some small lengthCut with ⟨code, rfl⟩
        rcases decodeKey_eq_some keyCut with ⟨masked, key⟩
        rcases assemble_eq_some assembled with
          ⟨rfl, form, maskKeyEq, wire⟩
        rcases takeExact_eq_some_iff.mp dataCut with ⟨rfl, length⟩
        have payload : frame.payload.length = register.toNat := by
          rw [← frame.wirePayload_length, wire, length]
        have secondByte : frame.secondByte = second := by
          rw [← UInt8.toNat_inj, toNat_secondByte, form, payload, ← code,
            maskKeyEq, ← masked]
          by_cases top : 128 ≤ second.toNat
          · simp only [top, decide_true, Bool.toNat_true]
            have bound := second.toNat_lt
            omega
          · simp only [top, decide_false, Bool.toNat_false]
            omega
        have behind : behindLength = frame.keyBytes ++ (data ++ behindData) :=
          key frame maskKeyEq
        rw [behind, encode, header, secondByte, form, payload, wire]
        simp
  · rintro rfl
    exact decode_encode frame rest

/-! ## A stream of frames -/

/-- Cut off frames, in so many rounds at most; the rest is what is left. -/
def decodeAll : Nat → Bytes → List Frame × Bytes
  | 0, bytes => ([], bytes)
  | rounds + 1, bytes =>
      match decode bytes with
      | none => ([], bytes)
      | some (frame, bytes) =>
          let later := decodeAll rounds bytes
          (frame :: later.1, later.2)

theorem encode_ne_nil (frame : Frame) : frame.encode ≠ [] := by
  simp [encode, header]

/-- A stream of frames is cut into them, and nothing is left. -/
theorem decodeAll_encode
    (frames : List Frame) {rounds : Nat} (enough : frames.length ≤ rounds) :
    decodeAll rounds (frames.flatMap encode) = (frames, []) := by
  induction frames generalizing rounds with
  | nil =>
      cases rounds with
      | zero => rfl
      | succ rounds => rfl
  | cons frame more induction =>
      cases rounds with
      | zero => exact absurd enough (by simp)
      | succ rounds =>
          rw [List.flatMap_cons, decodeAll, decode_encode]
          simp only [induction (Nat.le_of_succ_le_succ enough)]

/-- There are at least as many bytes as frames. -/
theorem length_le_flatMap_encode (frames : List Frame) :
    frames.length ≤ (frames.flatMap encode).length := by
  induction frames with
  | nil => exact Nat.le_refl 0
  | cons frame more induction =>
      have positive := List.length_pos_iff.mpr frame.encode_ne_nil
      rw [List.flatMap_cons, List.length_append, List.length_cons]
      omega

/-- No other frames have the same bytes. -/
theorem flatMap_encode_injective
    {frames others : List Frame}
    (same : frames.flatMap encode = others.flatMap encode) :
    frames = others := by
  let rounds := max frames.length others.length
  have cut := decodeAll_encode frames (Nat.le_max_left _ _ : _ ≤ rounds)
  rw [same,
    decodeAll_encode others (Nat.le_max_right _ _ : _ ≤ rounds)] at cut
  exact (congrArg Prod.fst cut).symm

/-! ## Shortest lengths -/

/-- No other form is shorter. -/
theorem LengthForm.extension_shortest_le
    {form : LengthForm} {length : Nat} (fits : length < form.bound) :
    ((LengthForm.shortest length).extension length).length ≤
      (form.extension length).length := by
  rw [LengthForm.shortest]
  split_ifs with short medium
  · exact Nat.zero_le _
  · cases form with
    | short => exact absurd fits short
    | medium => exact Nat.le_refl _
    | long => simp [LengthForm.extension]
  · cases form with
    | short => exact absurd fits short
    | medium => exact absurd fits medium
    | long => exact Nat.le_refl _

theorem encode_length (frame : Frame) :
    frame.encode.length =
      2 + (frame.lengthForm.extension frame.payload.length).length +
        frame.keyBytes.length + frame.payload.length := by
  rw [encode, header, List.length_append, List.length_append,
    List.length_append, frame.wirePayload_length]
  rfl

/-- A frame without a mask in the shortest form is the shortest frame. -/
theorem encode_length_le
    {frame other : Frame} (payload : other.payload = frame.payload)
    (unmasked : frame.maskKey = none)
    (shortest : frame.lengthForm = LengthForm.shortest frame.payload.length) :
    frame.encode.length ≤ other.encode.length := by
  have form := LengthForm.extension_shortest_le other.fits
  have noKey : frame.keyBytes.length = 0 := by
    rw [keyBytes, unmasked]
    rfl
  rw [payload] at form
  rw [encode_length, encode_length, payload, noKey, shortest]
  omega

end Frame

end AccelObserver.Library
