import AccelObserver.Server.UpgradeAnswers

/-!
# Requests that differ in case and blanks

The letter case of a name and the blanks behind a colon mean nothing in a
header.  Both servers look for a spelling, though, and one of them for the
blank, so a variant of a request can lose a header or gain one.

Only the headers whose names end like the name that is sought can come and go.
What is sought in a request line or in a value stays.
-/

namespace AccelObserver.Server.UpgradeVariants

open AccelObserver.Library
open AccelObserver.Library.Channel
open AccelObserver.Library.CNumber (toLower)
open AccelObserver.Library.CString (lower)
open AccelObserver.Library.FirstMatch
open AccelObserver.Library.Search
open AccelObserver.Library.Text
open AccelObserver.Server.UpgradeAnswers
open AccelObserver.Server.UpgradeRequests
open AccelObserver.Server.WebUpgrade
open AccelObserver.Server.WsHandshake
open AccelObserver.Server.WsSubscriber (Socket)

/-! ## The same answers -/

/-- The runs on two texts end alike and send the same, in any pieces. -/
def AgreeOn {Result : Type} (run : Socket → Result × Socket)
    (text other : Bytes) : Prop :=
  ∀ client peer : Socket, client.SendsComplete → peer.SendsComplete →
    client.incoming = text → peer.incoming = other →
    (run client).1 = (run peer).1 ∧
      ∃ reply,
        (run client).2.outgoing = client.outgoing ++ reply ∧
          (run peer).2.outgoing = peer.outgoing ++ reply

/-- Both servers answer the two requests alike. -/
structure SameAnswers (request other : Request) : Prop where
  subscriber : AgreeOn doHandshake request.text other.text
  web : AgreeOn upgradePath request.text other.text

/-- Runs that are known agree where their results and replies do. -/
theorem agreeOn_iff
    {Result : Type} {run : Socket → Result × Socket} {text other : Bytes}
    {result otherResult : Result} {reply otherReply : Bytes}
    (first :
      ∀ client : Socket, client.SendsComplete → client.incoming = text →
        (run client).1 = result ∧
          (run client).2.outgoing = client.outgoing ++ reply)
    (second :
      ∀ client : Socket, client.SendsComplete → client.incoming = other →
        (run client).1 = otherResult ∧
          (run client).2.outgoing = client.outgoing ++ otherReply) :
    AgreeOn run text other ↔ result = otherResult ∧ reply = otherReply := by
  constructor
  · intro agree
    have complete (text : Bytes) :=
      Sock.receiving_sendsComplete text Segmentation.single
    rcases agree (Sock.receiving text Segmentation.single)
        (Sock.receiving other Segmentation.single) (complete _) (complete _)
        rfl rfl
      with ⟨same, sent, out, alsoOut⟩
    rcases first (Sock.receiving text Segmentation.single) (complete _) rfl
      with ⟨ended, wrote⟩
    rcases second (Sock.receiving other Segmentation.single) (complete _) rfl
      with ⟨alsoEnded, alsoWrote⟩
    rw [ended, alsoEnded] at same
    rw [wrote, List.append_cancel_left_eq] at out
    rw [alsoWrote, List.append_cancel_left_eq] at alsoOut
    exact ⟨same, out.trans alsoOut.symm⟩
  · rintro ⟨same, sent⟩ client peer complete peerComplete incoming peerIncoming
    rcases first client complete incoming with ⟨ended, wrote⟩
    rcases second peer peerComplete peerIncoming with ⟨alsoEnded, alsoWrote⟩
    rw [ended, alsoEnded, wrote, alsoWrote, same, sent]
    exact ⟨rfl, _, rfl, rfl⟩

theorem webDecision_injective {first second : Option (Option Bytes)}
    (same : resultOf first = resultOf second)
    (sent : replyTo (first.getD none) = replyTo (second.getD none)) :
    first = second := by
  rcases first with _ | _ | accept
  · rcases second with _ | _ | other
    · rfl
    · cases same
    · cases same
  · rcases second with _ | _ | other
    · cases same
    · rfl
    · cases same
  · rcases second with _ | _ | other
    · cases same
    · cases same
    · exact congrArg some (replyTo_injective rfl sent)

/-- The runs agree where the decisions do. -/
theorem sameAnswers_iff (request other : Request) :
    SameAnswers request other ↔
      answer (subKey request.headers) = answer (subKey other.headers) ∧
        webDecision request = webDecision other := by
  have subscriber :
      AgreeOn doHandshake request.text other.text ↔ _ :=
    agreeOn_iff (fun _ => doHandshake_text request)
      (fun _ => doHandshake_text other)
  have web : AgreeOn upgradePath request.text other.text ↔ _ :=
    agreeOn_iff (fun _ => upgradePath_text request)
      (fun _ => upgradePath_text other)
  constructor
  · rintro ⟨sameKey, sameDecision⟩
    rcases subscriber.mp sameKey with ⟨result, sent⟩
    rcases web.mp sameDecision with ⟨webResult, webSent⟩
    exact ⟨replyTo_injective result sent,
      webDecision_injective webResult webSent⟩
  · rintro ⟨sameKey, sameDecision⟩
    exact
      { subscriber := subscriber.mpr (by rw [sameKey]; exact ⟨rfl, rfl⟩)
        web := web.mpr (by rw [sameDecision]; exact ⟨rfl, rfl⟩) }

/-! ## The headers that come and go -/

/-- The name ends like that of the key, in any case. -/
def namesKey (header : Header) : Bool :=
  endsWith "sec-websocket-key" (lower header.name)

/-- The header asks for an upgrade, but for its case and its blanks. -/
def namesUpgrade (header : Header) : Bool :=
  endsWith "upgrade" (lower header.name) && asksUpgrade header

/-- The key that `WsSubscriber` takes from a value in every variant. -/
def subFixed (header : Header) : Option Bytes :=
  if mentionsKey header.value then some (trim header.value) else none

/-! ## Names in small letters -/

/-- Letters are the only bytes that change. -/
theorem toLower_table (byte : UInt8) :
    isLineByte (toLower byte) = isLineByte byte ∧
      (toLower byte = 58 ↔ byte = 58) ∧
      toLower (toLower byte) = toLower byte ∧
      toLower byte ≠ 83 ∧ toLower byte ≠ 85 := by
  revert byte
  exact forall_byte (by decide +kernel)

theorem lower_lower (text : Bytes) : lower (lower text) = lower text := by
  rw [lower, lower, List.map_map]
  exact List.map_congr_left fun byte _ => (toLower_table byte).2.2.1

/-- A name with the letters of a header's is as good a name. -/
theorem nameBytes_of_lower
    {name : Bytes} {header : Header} (same : lower name = lower header.name) :
    ∀ byte ∈ name, isLineByte byte = true ∧ byte ≠ 58 := by
  intro byte member
  have lowered : toLower byte ∈ lower header.name := by
    rw [← same]
    exact List.mem_map_of_mem member
  rcases List.mem_map.mp lowered with ⟨other, inName, equal⟩
  rcases header.nameBytes other inName with ⟨lineByte, noColon⟩
  constructor
  · rw [← (toLower_table byte).1, ← equal, (toLower_table other).1, lineByte]
  · rintro rfl
    exact noColon ((toLower_table other).2.1.mp equal)

/-- The header with another spelling and other blanks. -/
def respelled (header : Header) (name : Bytes) (blanks : Nat)
    (same : lower name = lower header.name) : Header where
  name := name
  blanks := blanks
  value := header.value
  nameBytes := nameBytes_of_lower same
  valueBytes := header.valueBytes
  bare := header.bare

theorem sameField_respelled
    {header : Header} {name : Bytes} (blanks : Nat)
    (same : lower name = lower header.name) :
    SameField header (respelled header name blanks same) :=
  ⟨same, rfl⟩

/-- The header in small letters and without blanks. -/
def small (header : Header) : Header :=
  respelled header (lower header.name) 0 (lower_lower header.name)

theorem sameField_small (header : Header) : SameField header (small header) :=
  sameField_respelled 0 (lower_lower header.name)

/-- A text with a capital letter does not end a name in small letters. -/
theorem endsWith_small
    {text : String} {byte : UInt8} (member : byte ∈ ascii text)
    (capital : ∀ other, toLower other ≠ byte) (name : Bytes) :
    endsWith text (lower name) = false := by
  rw [← Bool.not_eq_true, endsWith_iff]
  intro suffix
  rcases List.mem_map.mp (suffix.mem member) with ⟨other, _, equal⟩
  exact capital other equal

/-- A name that ends with the text ends with it in small letters. -/
theorem endsWith_lower
    {text lowered : String} (same : lower (ascii text) = ascii lowered)
    {header other : Header} (field : SameField header other)
    (named : endsWith text other.name = true) :
    endsWith lowered (lower header.name) = true := by
  rw [endsWith_iff] at named ⊢
  rcases named with ⟨front, split⟩
  refine ⟨lower front, ?_⟩
  rw [← field.1, ← split, ← same, lower, lower, lower, List.map_append]

/-- Where a name ends with the text in small letters, it can be spelled so. -/
theorem exists_respelled
    {text lowered : String} (same : lower (ascii text) = ascii lowered)
    {header : Header} (named : endsWith lowered (lower header.name) = true)
    (blanks : Nat) :
    ∃ other, SameField header other ∧ other.blanks = blanks ∧
      endsWith text other.name = true := by
  rcases (endsWith_iff _ _).mp named with ⟨front, split⟩
  have frontLower : lower front = front := by
    have again := lower_lower header.name
    rw [← split, lower, List.map_append] at again
    exact List.append_inj_left again (by rw [lower, List.length_map])
  have letters : lower (front ++ ascii text) = lower header.name := by
    rw [lower, List.map_append]
    change lower front ++ lower (ascii text) = _
    rw [frontLower, same, split]
  exact ⟨respelled header (front ++ ascii text) blanks letters,
    sameField_respelled blanks letters, rfl,
    (endsWith_iff _ _).mpr (List.suffix_append front (ascii text))⟩

/-! ## What a variant of a header gives -/

/-- The key that a header gives by its name in `WsSubscriber`. -/
def subOwn (header : Header) : Option Bytes :=
  if namesKey header then some (trim header.value) else none

/-- The key that a header gives by its name in `WebInterface`. -/
def webOwn (header : Header) : Option Bytes :=
  if namesKey header then some (webTrim header.value) else none

theorem subKeyOf_varies
    {header other : Header} (field : SameField header other) :
    Varies subFixed subOwn subKeyOf header other := by
  by_cases named :
      (endsWith "Sec-WebSocket-Key" other.name ||
        endsWith "Sec-Websocket-Key" other.name) = true
  · right
    have names : namesKey header = true := by
      rw [Bool.or_eq_true] at named
      rcases named with upper | mixed
      · exact endsWith_lower (by decide) field upper
      · exact endsWith_lower (by decide) field mixed
    refine ⟨trim header.value, by rw [subOwn, if_pos names], ?_⟩
    rw [subKeyOf, subTakes, named, Bool.true_or, if_pos rfl, field.2]
  · left
    rw [Bool.not_eq_true] at named
    rw [subKeyOf, subTakes, named, Bool.false_or, field.2, subFixed]

theorem exactOf_varies
    {header other : Header} (field : SameField header other) :
    Varies (fun header => exactIn header.value) webOwn exactOf header
      other := by
  by_cases named :
      (endsWith "Sec-WebSocket-Key" other.name && 0 < other.blanks) = true
  · right
    have names : namesKey header = true :=
      endsWith_lower (by decide) field (Bool.and_eq_true_iff.mp named).1
    refine ⟨webTrim header.value, by rw [webOwn, if_pos names], ?_⟩
    rw [exactOf, if_pos named, field.2]
  · left
    rw [exactOf, if_neg named, field.2]

theorem anyCaseOf_varies
    {header other : Header} (field : SameField header other) :
    Varies (fun header => anyCaseIn header.value) webOwn anyCaseOf header
      other := by
  by_cases named :
      (endsWith "sec-websocket-key" (lower other.name) && 0 < other.blanks) =
        true
  · right
    have names : namesKey header = true := by
      rw [namesKey, ← field.1]
      exact (Bool.and_eq_true_iff.mp named).1
    refine ⟨webTrim header.value, by rw [webOwn, if_pos names], ?_⟩
    rw [anyCaseOf, if_pos named, field.2]
  · left
    rw [anyCaseOf, if_neg named, field.2]

theorem namesUpgrade_of_upgradeOf
    {header other : Header} (field : SameField header other)
    (asks : upgradeOf other = true) :
    namesUpgrade header = true ∨ isWs header.value = true := by
  rw [upgradeOf, Bool.or_eq_true, Bool.and_eq_true, Bool.and_eq_true] at asks
  rcases asks with ⟨⟨named, _⟩, word⟩ | inValue
  · left
    rw [asksUpgrade, field.2] at word
    rw [namesUpgrade, endsWith_lower (by decide) field named, asksUpgrade,
      word]
    rfl
  · right
    rw [← field.2]
    exact inValue

/-! ## Headers without blanks -/

theorem subKeyOf_small (header : Header) :
    subKeyOf (small header) = subFixed header := by
  have upper :
      endsWith "Sec-WebSocket-Key" (lower header.name) = false :=
    endsWith_small (show 83 ∈ ascii "Sec-WebSocket-Key" by decide)
      (fun other => (toLower_table other).2.2.2.1) header.name
  have mixed :
      endsWith "Sec-Websocket-Key" (lower header.name) = false :=
    endsWith_small (show 83 ∈ ascii "Sec-Websocket-Key" by decide)
      (fun other => (toLower_table other).2.2.2.1) header.name
  simp only [subKeyOf, subTakes, small, respelled, upper, mixed,
    Bool.false_or, subFixed]

/-- Without a blank behind its colon a name gives no key. -/
theorem exactOf_of_blanks {header : Header} (none : header.blanks = 0) :
    exactOf header = exactIn header.value := by
  simp [exactOf, none]

theorem anyCaseOf_of_blanks {header : Header} (none : header.blanks = 0) :
    anyCaseOf header = anyCaseIn header.value := by
  simp [anyCaseOf, none]

theorem upgradeOf_of_blanks {header : Header} (none : header.blanks = 0) :
    upgradeOf header = isWs header.value := by
  simp [upgradeOf, none]

end AccelObserver.Server.UpgradeVariants
