import AccelObserver.Library.CString
import AccelObserver.Library.FrameDecoder
import AccelObserver.Library.JsonText
import AccelObserver.Library.Single
import AccelObserver.Server.WebPongs
import Mathlib.Tactic.Linarith

/-!
# The device frame

Right after an upgrade `handle_client` tells the browser what the configuration
says about the device.  The model is put between the quotes as it is, and the
whole text into a buffer of 128 bytes.

So the text is JSON with this model where the model needs no escapes and all of
the text fits.  Elsewhere the string ends early, goes on too far, or does not
end; in no case is its value the model.
-/

namespace AccelObserver.Server.DeviceFrame

open AccelObserver.Library
open AccelObserver.Library.Channel
open AccelObserver.Library.CNumber
open AccelObserver.Library.CString (cText cText_of_not_mem)
open AccelObserver.Library.Decimal
open AccelObserver.Server.WebPongs (sendRaw)
open AccelObserver.Server.WebStream
open AccelObserver.Server.WsSubscriber (Socket)

/-- A magnitude in whole tenths. -/
def toTenths (magnitude : ℚ≥0) : Nat :=
  roundHalfEven (magnitude * 10)

/-- `%.1f` -/
def formatFixed1 : Double → Bytes
  | .finite negative magnitude =>
      signBytes negative ++ decimal (toTenths magnitude / 10) ++
        46 :: (lastDigits 1 (toTenths magnitude)).map digitByte
  | .infinite negative => signBytes negative ++ ascii "inf"
  | .nan => ascii "nan"

/-- The members of `WebInterface` that hold the device. -/
structure WebDevice where
  deviceModel : Bytes
  deviceRangeG : Single

/-- `set_device_info` -/
def setDeviceInfo (model : Bytes) (rangeG : Single) : WebDevice where
  deviceModel := model
  deviceRangeG := rangeG

/-- The format up to the model. -/
def modelStart : Bytes :=
  ascii "\x7b\"type\":\"device\",\"model\":\""

/-- What `snprintf` makes of the format. -/
def deviceText (device : WebDevice) : Bytes :=
  modelStart ++ cText device.deviceModel ++ ascii "\",\"range_g\":" ++
    formatFixed1 device.deviceRangeG.number ++ ascii "\x7d"

/-- `buf` keeps 127 bytes of it. -/
def deviceBuf (device : WebDevice) : Bytes :=
  (deviceText device).take 127

/-- `ws_send_one` -/
def wsSendOne (sock : Socket) (json : Bytes) : Socket :=
  (sendRaw sock (wsEncodeFrame json)).2

/-- What `handle_client` sends behind the upgrade. -/
def sendDeviceInfo (device : WebDevice) (sock : Socket) : Socket :=
  if device.deviceModel = [] then sock
  else wsSendOne sock (deviceBuf device)

/-! ## What the frame is for -/

/-- The text is a JSON object of the type, with this model. -/
def IsDevice (model payload : Bytes) : Prop :=
  ∃ members,
    Json.IsText payload (.object members) ∧
      Json.HasMember members (ascii "type") (.string (ascii "device")) ∧
      Json.HasMember members (ascii "model") (.string model)

/-- What is sent is one text frame with such a text. -/
def SendsDevice (device : WebDevice) : Prop :=
  ∀ sock : Socket, sock.SendsComplete →
    ∃ payload, ∃ small : payload.length < 2 ^ 63,
      (sendDeviceInfo device sock).outgoing =
          sock.outgoing ++ (serverFrame Frame.text payload small).encode ∧
        IsDevice device.deviceModel payload

theorem deviceBuf_small (device : WebDevice) :
    (deviceBuf device).length < 2 ^ 63 := by
  have short : (deviceBuf device).length ≤ 127 := List.length_take_le _ _
  omega

/-- The frame that goes out, whatever the pieces. -/
theorem sendDeviceInfo_outgoing
    {device : WebDevice} (named : device.deviceModel ≠ [])
    {sock : Socket} (complete : sock.SendsComplete) :
    (sendDeviceInfo device sock).outgoing =
      sock.outgoing ++
        (serverFrame Frame.text (deviceBuf device)
          (deviceBuf_small device)).encode := by
  have positive : 0 < (wsEncodeFrame (deviceBuf device)).length :=
    Nat.succ_pos _
  rcases sendAll_eq positive (wsEncodeFrame (deviceBuf device)) complete
    with ⟨sendCalls, sent⟩
  rw [sendDeviceInfo, if_neg named, wsSendOne, sendRaw, sent,
    wsEncodeFrame_eq _ (deviceBuf_small device)]

/-- What is sent depends on the text in the buffer only. -/
theorem sendsDevice_iff
    {device : WebDevice} (named : device.deviceModel ≠ []) :
    SendsDevice device ↔ IsDevice device.deviceModel (deviceBuf device) := by
  constructor
  · intro sends
    rcases sends (Sock.receiving [] Segmentation.single)
        (Sock.receiving_sendsComplete _ _)
      with ⟨payload, small, outgoing, isDevice⟩
    rw [sendDeviceInfo_outgoing named (Sock.receiving_sendsComplete _ _)]
      at outgoing
    have encoded := List.append_cancel_left outgoing
    have frames :
        serverFrame Frame.text (deviceBuf device) (deviceBuf_small device) =
          serverFrame Frame.text payload small := by
      have first := Frame.decode_encode
        (serverFrame Frame.text (deviceBuf device) (deviceBuf_small device)) []
      rw [encoded, Frame.decode_encode, Option.some.injEq, Prod.mk.injEq]
        at first
      exact first.1.symm
    have same : deviceBuf device = payload := congrArg Frame.payload frames
    rw [same]
    exact isDevice
  · intro isDevice sock complete
    exact ⟨deviceBuf device, deviceBuf_small device,
      sendDeviceInfo_outgoing named complete, isDevice⟩

/-! ## Parsing what begins like the format -/

theorem modelStart_append (body : Bytes) :
    modelStart ++ body =
      123 :: 34 :: (ascii "type" ++ 34 :: 58 :: 34 ::
        (ascii "device" ++ 34 :: 44 :: 34 ::
          (ascii "model" ++ 34 :: 58 :: 34 :: body))) :=
  rfl

/-- The brace that ends the object is behind the model. -/
theorem exists_of_parseValue
    {steps : Nat} {body rest : Bytes} {members : List (Bytes × Json)}
    (parsed :
      Json.parseValue steps (modelStart ++ body) =
        some (.object members, rest)) :
    ∃ bound model behind later,
      Json.scanString bound body = some (model, behind) ∧ 125 ∈ behind ∧
        members =
          (ascii "type", .string (ascii "device")) ::
            (ascii "model", .string model) :: later := by
  cases steps with
  | zero =>
      rw [Json.parseValue] at parsed
      cases parsed
  | succ steps =>
      rw [modelStart_append, Json.parseValue, Json.expect_cons (by decide),
        if_neg (by decide), Json.expect_cons (by decide), if_pos rfl]
        at parsed
      simp only at parsed
      rw [Json.expect_cons (by decide), if_neg (by decide)] at parsed
      rcases Option.map_eq_some_iff.mp parsed with ⟨result, inside, same⟩
      cases same
      rcases Json.parseMembers_string_eq_some (by decide) inside with
        ⟨bound, fewer, kind, afterKind, scannedKind, behindKind⟩
      rw [Json.scanString_of_plain (by decide)] at scannedKind
      split_ifs at scannedKind
      cases scannedKind
      rcases behindKind with ⟨more, later, comma, parsedLater, same⟩ |
        ⟨brace, _⟩
      · rw [Json.expect_cons (by decide), if_pos rfl] at comma
        cases comma
        rcases Json.parseMembers_string_eq_some (by decide) parsedLater with
          ⟨bound, fewer, model, afterModel, scanned, behindModel⟩
        rcases behindModel with ⟨more, last, comma, parsedLast, sameLater⟩ |
          ⟨brace, sameLater⟩
        · refine ⟨bound, model, afterModel, last, scanned, ?_, ?_⟩
          · exact (Json.suffix_of_expect comma (List.suffix_refl _)).mem
              (Json.brace_mem_of_parseMembers fewer parsedLast)
          · rw [same, sameLater]
        · refine ⟨bound, model, afterModel, [], scanned, ?_, ?_⟩
          · exact (Json.expect_suffix brace).mem (List.mem_cons_self ..)
          · rw [same, sameLater]
      · rw [Json.expect_cons (by decide), if_neg (by decide)] at brace
        cases brace

/-- What is between the quote that ends the model and the last brace. -/
def rangePart (number : Double) : Bytes :=
  44 :: 34 :: (ascii "range_g" ++ 34 :: 58 :: formatFixed1 number)

/-- The whole text, around the model. -/
theorem deviceText_eq
    {device : WebDevice} (noNul : 0 ∉ device.deviceModel) :
    deviceText device =
      modelStart ++ (device.deviceModel ++
        34 :: (rangePart device.deviceRangeG.number ++ [125])) := by
  have range :
      ascii "\",\"range_g\":" =
        34 :: 44 :: 34 :: (ascii "range_g" ++ [34, 58]) := rfl
  rw [deviceText, cText_of_not_mem noNul, range, rangePart]
  simp [ascii]

/-- A string whose value is the model is the model. -/
theorem plain_of_scanString
    {bound : Nat} {model behind tail : Bytes}
    (scanned :
      Json.scanString bound (model ++ 34 :: 44 :: 34 :: tail) =
        some (model, behind)) :
    model.all Json.isPlain = true := by
  rcases Json.scanString_eq_some bound scanned with
    ⟨spelled, split, _, exact⟩
  by_cases long : spelled.length ≤ model.length
  · rw [(exact long).1]
    exact (exact long).2
  · have lengths := congrArg List.length split
    simp only [List.length_append, List.length_cons] at lengths
    have beyond : behind.length < (44 :: 34 :: tail).length := by
      simp only [List.length_cons]
      omega
    rcases Json.scanString_of_long bound scanned beyond with ⟨last, comma⟩
    rw [last] at comma
    cases comma

/-- The number of the range has no brace in it. -/
theorem brace_not_mem_rangePart
    {number : Double} (finite : number.IsFinite) :
    125 ∉ rangePart number := by
  have name : 125 ∉ ascii "range_g" := by decide
  rcases finite with ⟨negative, magnitude, rfl⟩
  simp only [rangePart, formatFixed1, List.mem_append, List.mem_cons, not_or]
  refine ⟨by decide, by decide, name, by decide, by decide, ⟨?_, ?_⟩,
    by decide, ?_⟩
  · cases negative <;> decide
  · exact not_mem_digits rfl (digits_small _)
  · exact not_mem_digits rfl (lastDigits_small 1 _)

/-- A text that does not fit is cut before its brace. -/
theorem fits_of_scanString
    {bound room : Nat} {model behind front : Bytes}
    (plain : model.all Json.isPlain = true) (noBrace : 125 ∉ front)
    (scanned :
      Json.scanString bound
          ((model ++ 34 :: (front ++ [125])).take room) =
        some (model, behind))
    (brace : 125 ∈ behind) :
    (model ++ 34 :: (front ++ [125])).length ≤ room := by
  by_contra long
  have whole :=
    Json.scanString_append bound scanned
      ((model ++ 34 :: (front ++ [125])).drop room)
  rw [List.take_append_drop, Json.scanString_of_plain plain] at whole
  split_ifs at whole
  rw [Option.some.injEq, Prod.mk.injEq] at whole
  have rest : (model ++ 34 :: (front ++ [125])).drop room ≠ [] := by
    rw [ne_eq, List.drop_eq_nil_iff]
    exact long
  rcases List.append_eq_append_iff.mp whole.2 with
    ⟨more, behindSplit, last⟩ | ⟨more, frontSplit, _⟩
  · rcases List.append_eq_singleton_iff.mp last.symm with
      ⟨empty, _⟩ | ⟨_, nothing⟩
    · rw [behindSplit, empty, List.append_nil] at brace
      exact noBrace brace
    · exact rest nothing
  · exact noBrace (frontSplit ▸ List.mem_append_left more brace)

/-! ## When the frame is right -/

/-- A finite range is printed as a number of JSON. -/
theorem exists_scanNumber_formatFixed1
    {number : Double} (finite : number.IsFinite) :
    ∃ scanned,
      JsonNumber.scanNumber (formatFixed1 number ++ [125]) =
        some (scanned, [125]) := by
  rcases finite with ⟨negative, magnitude, rfl⟩
  exact ⟨_, JsonNumber.scanNumber_decimals negative _ (by simp [lastDigits])
    (lastDigits_small 1 _) rfl (by decide) []⟩

/-- The last member of the object. -/
theorem parseMembers_range
    {number : Double} {scanned : JsonNumber}
    (read :
      JsonNumber.scanNumber (formatFixed1 number ++ [125]) =
        some (scanned, [125]))
    {steps : Nat} (enough : 7 < steps + 1) :
    Json.parseMembers (steps + 2)
        (34 :: (ascii "range_g" ++ 34 :: 58 ::
          (formatFixed1 number ++ [125]))) =
      some ([(ascii "range_g", .number scanned)], []) := by
  have name : (ascii "range_g").length < steps + 1 := enough
  rw [Json.parseMembers, Json.expect_cons (by decide), if_pos rfl]
  simp only [Option.bind_eq_bind, Option.bind_some]
  rw [Json.scanString_of_plain (by decide), if_pos name]
  simp only [Option.bind_some]
  rw [Json.expect_cons (by decide), if_pos rfl]
  simp only [Option.bind_some, Json.parseValue_number read]
  rw [Json.expect_cons (by decide), if_neg (by decide),
    Json.expect_cons (by decide), if_pos rfl]
  rfl

theorem expect_comma (rest : Bytes) :
    Json.expect 44 (44 :: rest) = some rest := by
  rw [Json.expect_cons (by decide), if_pos rfl]

/-- The object of the frame, with its three members. -/
theorem parseValue_device
    {model : Bytes} (plain : model.all Json.isPlain = true)
    {number : Double} {scanned : JsonNumber}
    (read :
      JsonNumber.scanNumber (formatFixed1 number ++ [125]) =
        some (scanned, [125])) :
    Json.parseValue (model.length + 19)
        (modelStart ++ (model ++ 34 :: (rangePart number ++ [125]))) =
      some
        (.object
          [(ascii "type", .string (ascii "device")),
            (ascii "model", .string model),
            (ascii "range_g", .number scanned)], []) := by
  have kindShort : 6 < model.length + 16 := by omega
  have kindScanned (rest : Bytes) :
      Json.scanString (model.length + 16) (ascii "device" ++ 34 :: rest) =
        some (ascii "device", rest) := by
    rw [Json.scanString_of_plain (by decide)]
    exact if_pos kindShort
  have modelScanned (rest : Bytes) :
      Json.scanString (model.length + 15) (model ++ 34 :: rest) =
        some (model, rest) := by
    rw [Json.scanString_of_plain plain, if_pos (by omega)]
  have range :=
    parseMembers_range read (show 7 < model.length + 14 + 1 by omega)
  have split :
      rangePart number ++ [125] =
        44 :: 34 :: (ascii "range_g" ++ 34 :: 58 ::
          (formatFixed1 number ++ [125])) := by
    simp [rangePart]
  have named :=
    Json.parseMembers_string
      (show (ascii "model").all Json.isPlain = true by decide)
      (show 5 < model.length + 15 + 1 by omega)
      (modelScanned _) (expect_comma _) range
  have kind :=
    Json.parseMembers_string
      (show (ascii "type").all Json.isPlain = true by decide)
      (show 4 < model.length + 16 + 1 by omega)
      (kindScanned _) (expect_comma _) named
  rw [split, modelStart_append, Json.parseValue, Json.expect_cons (by decide),
    if_neg (by decide), Json.expect_cons (by decide), if_pos rfl]
  simp only
  rw [Json.expect_cons (by decide), if_neg (by decide)]
  simp only
  rw [kind]
  rfl

theorem rangePart_small
    {number : Double} (finite : number.IsFinite) :
    ∀ byte ∈ rangePart number, byte < 128 := by
  have table : ∀ digit < 10, digitByte digit < 128 := by decide
  have small {digits : List Nat} (digit : ∀ digit ∈ digits, digit < 10) :
      ∀ byte ∈ digits.map digitByte, byte < 128 := by
    intro byte member
    rcases List.mem_map.mp member with ⟨value, inDigits, rfl⟩
    exact table value (digit value inDigits)
  have name : ∀ byte ∈ ascii "range_g", byte < 128 := by decide +kernel
  rcases finite with ⟨negative, magnitude, rfl⟩
  have sign : ∀ byte ∈ signBytes negative, byte < 128 := by
    cases negative <;> decide +kernel
  simp only [rangePart, formatFixed1, List.forall_mem_cons,
    List.forall_mem_append]
  exact ⟨by decide, by decide, name, by decide, by decide,
    ⟨sign, small (digits_small _)⟩, by decide, small (lastDigits_small 1 _)⟩

/-- The text is UTF-8 where the model is. -/
theorem validUtf8_iff
    {model : Bytes} {number : Double} (finite : number.IsFinite) :
    Json.ValidUtf8
        (modelStart ++ (model ++ 34 :: (rangePart number ++ [125]))) ↔
      Json.ValidUtf8 model := by
  constructor
  · intro valid
    have opened : modelStart = modelStart.dropLast ++ [34] := by decide
    rw [opened, List.append_assoc, List.singleton_append] at valid
    exact ((valid.of_append_cons (by decide)).2.of_append_cons (by decide)).1
  · intro valid
    have start : Json.ValidUtf8 modelStart :=
      Json.validUtf8_of_small (by decide +kernel)
    refine start.append (valid.append ?_)
    apply Json.validUtf8_of_small
    simp only [List.forall_mem_cons, List.forall_mem_append]
    exact ⟨by decide, rangePart_small finite, by decide, by simp⟩

/-- The bytes of the text that are not the model's. -/
theorem length_deviceText
    (model : Bytes) (number : Double) :
    (modelStart ++ (model ++ 34 :: (rangePart number ++ [125]))).length =
      model.length + (formatFixed1 number).length + 39 := by
  have start : modelStart.length = 26 := by decide
  have name : (ascii "range_g").length = 7 := by decide
  simp only [rangePart, List.length_append, List.length_cons, List.length_nil,
    start, name]
  omega

/-- What a right frame asks of the model, and of the room that there is. -/
theorem plain_of_isDevice
    {model : Bytes} {number : Double} (finite : number.IsFinite)
    (isDevice :
      IsDevice model
        ((modelStart ++ (model ++ 34 :: (rangePart number ++ [125]))).take
          127)) :
    model.all Json.isPlain = true ∧
      (modelStart ++ (model ++ 34 :: (rangePart number ++ [125]))).length ≤
        127 := by
  rcases isDevice with ⟨members, ⟨_, steps, rest, parsed, _⟩, _, hasModel⟩
  have start : modelStart.length = 26 := by decide
  rw [List.take_append, start, List.take_of_length_le (by rw [start]; decide)]
    at parsed
  rcases exists_of_parseValue parsed with
    ⟨bound, value, behind, later, scanned, brace, rfl⟩
  have same : value = model := by
    have first := hasModel.eq_of_mem
      (List.mem_cons_of_mem _ (List.mem_cons_self ..))
    cases first
    rfl
  rw [same] at scanned
  have whole :=
    Json.scanString_append bound scanned
      ((model ++ 34 :: (rangePart number ++ [125])).drop (127 - 26))
  rw [List.take_append_drop] at whole
  have plain := plain_of_scanString whole
  have fits :=
    fits_of_scanString plain (brace_not_mem_rangePart finite) scanned brace
  refine ⟨plain, ?_⟩
  rw [List.length_append, start]
  omega

/--
The frame is right exactly where the model stands for itself in a string and
the text fits the buffer.
-/
theorem sendsDevice_setDeviceInfo_iff
    {model : Bytes} (named : model ≠ []) (noNul : 0 ∉ model)
    {range : Single} (finite : range.number.IsFinite) :
    SendsDevice (setDeviceInfo model range) ↔
      model.all Json.isPlain = true ∧ Json.ValidUtf8 model ∧
        model.length + (formatFixed1 range.number).length ≤ 88 := by
  have text := @deviceText_eq (setDeviceInfo model range) noNul
  have length := length_deviceText model range.number
  rw [sendsDevice_iff named, deviceBuf, text]
  simp only [setDeviceInfo]
  constructor
  · intro isDevice
    rcases plain_of_isDevice finite isDevice with ⟨plain, fits⟩
    rcases isDevice with ⟨_, ⟨valid, _⟩, _⟩
    rw [List.take_of_length_le fits, validUtf8_iff finite] at valid
    exact ⟨plain, valid, by omega⟩
  · rintro ⟨plain, valid, fits⟩
    rcases exists_scanNumber_formatFixed1 finite with ⟨number, read⟩
    rw [List.take_of_length_le (by omega)]
    exact ⟨_, ⟨(validUtf8_iff finite).mpr valid, _, [],
      parseValue_device plain read, rfl⟩, rfl, rfl⟩

/-- The model and the range that the server starts with. -/
theorem sendsDevice_generic :
    SendsDevice
      (setDeviceInfo (ascii "generic") (Single.ofDouble (.finite false 16))) :=
  (sendsDevice_setDeviceInfo_iff (by decide) (by decide)
      ⟨false, 16, by decide +kernel⟩).mpr
    ⟨by decide, Json.validUtf8_of_small (by decide +kernel), by decide +kernel⟩

/-- A quote in the model ends the string. -/
theorem quotedDevice_is_wrong :
    ¬ SendsDevice
      (setDeviceInfo (ascii "ADXL345 \"rev B\"")
        (Single.ofDouble (.finite false 16))) := by
  have finite :
      (Single.ofDouble (.finite false 16)).number.IsFinite :=
    ⟨false, 16, by decide +kernel⟩
  intro sends
  rw [sendsDevice_iff (by decide), deviceBuf, deviceText_eq (by decide)]
    at sends
  have plain := (plain_of_isDevice finite sends).1
  exact absurd plain (by decide)

end AccelObserver.Server.DeviceFrame
