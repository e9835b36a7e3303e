import AccelObserver.Server.UpgradeVariants

/-!
# A request and one variant of it

Two requests that differ in case and blanks get the same answers unless a
header whose spelling counts in one of them only is the one that decides.

The condition is on the two requests side by side.  For `WsSubscriber` it
looks at the headers from the last one back, for `WebInterface` from the first
one on; what a header gives is in its own spelling and blanks.
-/

namespace AccelObserver.Server.UpgradePairs

open AccelObserver.Library
open AccelObserver.Library.CString (lower)
open AccelObserver.Library.FirstMatch
open AccelObserver.Server.UpgradeAnswers
open AccelObserver.Server.UpgradeRequests
open AccelObserver.Server.UpgradeVariants
open AccelObserver.Server.WebUpgrade
open AccelObserver.Server.WsHandshake

/-! ## The condition -/

/-- The headers of the two requests, side by side. -/
def sideBySide (request other : Request) : List (Header × Header) :=
  request.headers.zip other.headers

/-- Two keys that are answered alike. -/
def SameAnswer (key other : Bytes) : Prop :=
  answer key = answer other

/--
Going back from the last header, the first one that gives a key in one of the
two requests gives it in both.  Or the other request has a key further to the
front, or the empty one, that is answered alike.
-/
def SubAlike (request other : Request) : Prop :=
  Alike SameAnswer (fun pair => subKeyOf pair.1) (fun pair => subKeyOf pair.2)
    [] [] True (request.headers.reverse.zip other.headers.reverse)

/-- The key that is found when case is ignored. -/
def anyCaseKey (request : Request) : Bytes :=
  ((anyCaseIn request.requestLine).or
    (request.headers.findSome? anyCaseOf)).getD []

/-- The first key that is found when case is ignored is found in both, or is
answered like the one that the other request has further on. -/
def AnyCaseAlike (request other : Request) : Prop :=
  anyCaseIn request.requestLine = none →
    Alike SameAnswer (fun pair => anyCaseOf pair.1)
      (fun pair => anyCaseOf pair.2) [] [] True (sideBySide request other)

/-- The first key of the exact name is found in both, or is answered like the
one that the other request has further on or in another case. -/
def KeyAlike (request other : Request) : Prop :=
  exactIn request.requestLine = none →
    Alike SameAnswer (fun pair => exactOf pair.1) (fun pair => exactOf pair.2)
      (anyCaseKey request) (anyCaseKey other) (AnyCaseAlike request other)
      (sideBySide request other)

/-- Both requests ask for an upgrade, with keys that are alike, or neither
does. -/
structure WebAlike (request other : Request) : Prop where
  asks :
    asksWeb request.requestLine request.headers =
      asksWeb other.requestLine other.headers
  key :
    asksWeb request.requestLine request.headers = true →
      KeyAlike request other

/-! ## Keys of the two requests -/

theorem nothing_alike : True ↔ SameAnswer [] [] :=
  iff_of_true trivial rfl

/-- Without a key in the request line, the headers are searched twice. -/
theorem webKey_of_unnamed
    {request : Request} (unnamed : exactIn request.requestLine = none) :
    webKey request.requestLine request.headers =
      (request.headers.findSome? exactOf).getD (anyCaseKey request) := by
  rw [webKey, unnamed, Option.none_or, Option.getD_or, anyCaseKey]

section Pair

variable {request other : Request} (variant : Variant request other)

include variant

theorem subAlike_iff :
    SubAlike request other ↔
      answer (subKey request.headers) = answer (subKey other.headers) := by
  have same := variant.headers.length_eq
  rw [SubAlike, alike_iff nothing_alike,
    findSome?_zip_fst (by simpa using same),
    findSome?_zip_snd (by simpa using same)]
  rfl

theorem anyCaseAlike_iff :
    AnyCaseAlike request other ↔
      SameAnswer (anyCaseKey request) (anyCaseKey other) := by
  have same := variant.headers.length_eq
  rw [AnyCaseAlike, anyCaseKey, anyCaseKey, variant.requestLine]
  cases anyCaseIn request.requestLine with
  | some key => exact iff_of_true (fun none => by cases none) rfl
  | none =>
      rw [forall_prop_of_true rfl, alike_iff nothing_alike, sideBySide,
        findSome?_zip_fst same, findSome?_zip_snd same]
      rfl

theorem keyAlike_iff :
    KeyAlike request other ↔
      answer (webKey request.requestLine request.headers) =
        answer (webKey other.requestLine other.headers) := by
  have same := variant.headers.length_eq
  cases unnamed : exactIn request.requestLine with
  | some key =>
      refine iff_of_true (fun none => absurd none (by simp [unnamed])) ?_
      rw [webKey, webKey, variant.requestLine, unnamed]
      rfl
  | none =>
      have alsoUnnamed : exactIn other.requestLine = none := by
        rw [variant.requestLine]
        exact unnamed
      rw [KeyAlike, forall_prop_of_true unnamed,
        alike_iff (anyCaseAlike_iff variant), sideBySide,
        findSome?_zip_fst same, findSome?_zip_snd same,
        webKey_of_unnamed unnamed, webKey_of_unnamed alsoUnnamed]
      rfl

theorem webAlike_iff :
    WebAlike request other ↔ webDecision request = webDecision other := by
  rw [webDecision, webDecision]
  constructor
  · rintro ⟨asks, key⟩
    rw [← asks]
    split_ifs with upgrade
    · rw [(keyAlike_iff variant).mp (key upgrade)]
    · rfl
  · intro same
    split_ifs at same with asks asksOther asksOther
    · exact ⟨asks.trans asksOther.symm, fun _ =>
        (keyAlike_iff variant).mpr (Option.some.inj same)⟩
    · refine ⟨?_, fun upgrade => absurd upgrade asks⟩
      rw [Bool.eq_false_iff.mpr asks, Bool.eq_false_iff.mpr asksOther]

end Pair

/--
The servers answer a request and a variant of it alike exactly where no header
decides whose spelling counts in one of the two only, but for keys that are
answered alike.
-/
theorem sameAnswers_iff_alike
    (request other : Request) (variant : Variant request other) :
    SameAnswers request other ↔
      SubAlike request other ∧ WebAlike request other := by
  rw [sameAnswers_iff, subAlike_iff variant, webAlike_iff variant]

/-! ## Other headers -/

/-- The header is written the same way, or its name ends like none of the names
that are sought. -/
def Kept (header other : Header) : Prop :=
  other = header ∨
    SameField header other ∧ namesKey header = false ∧
      namesUpgrade header = false

theorem subKeyOf_of_kept {header other : Header} (kept : Kept header other) :
    subKeyOf header = subKeyOf other := by
  rcases kept with rfl | ⟨field, notKey, -⟩
  · rfl
  · have noOwn : subOwn header = none := by simp [subOwn, notKey]
    rw [(subKeyOf_varies field).of_none noOwn,
      (subKeyOf_varies ⟨rfl, rfl⟩).of_none noOwn]

theorem exactOf_of_kept {header other : Header} (kept : Kept header other) :
    exactOf header = exactOf other := by
  rcases kept with rfl | ⟨field, notKey, -⟩
  · rfl
  · have noOwn : webOwn header = none := by simp [webOwn, notKey]
    rw [(exactOf_varies field).of_none noOwn,
      (exactOf_varies ⟨rfl, rfl⟩).of_none noOwn]

theorem anyCaseOf_of_kept {header other : Header} (kept : Kept header other) :
    anyCaseOf header = anyCaseOf other := by
  rcases kept with rfl | ⟨field, notKey, -⟩
  · rfl
  · have noOwn : webOwn header = none := by simp [webOwn, notKey]
    rw [(anyCaseOf_varies field).of_none noOwn,
      (anyCaseOf_varies ⟨rfl, rfl⟩).of_none noOwn]

theorem upgradeOf_of_kept {header other : Header} (kept : Kept header other) :
    upgradeOf header = upgradeOf other := by
  rcases kept with rfl | ⟨field, -, notUpgrade⟩
  · rfl
  · have fixed {spelled : Header} (field : SameField header spelled) :
        upgradeOf spelled = isWs header.value := by
      cases asks : upgradeOf spelled with
      | true =>
          rcases namesUpgrade_of_upgradeOf field asks with named | inValue
          · rw [notUpgrade] at named
            cases named
          · exact inValue.symm
      | false =>
          rw [upgradeOf, Bool.or_eq_false_iff, field.2] at asks
          exact asks.2.symm
    rw [fixed field, fixed ⟨rfl, rfl⟩]

/-- Headers of other names may be written in any case and with any blanks. -/
theorem sameAnswers_of_kept
    {request other : Request}
    (requestLine : other.requestLine = request.requestLine)
    (kept : List.Forall₂ Kept request.headers other.headers) :
    SameAnswers request other := by
  have subSame :=
    findSome?_of_same (List.rel_reverse (kept.imp fun _ _ => subKeyOf_of_kept))
  have exactSame :=
    findSome?_of_same (kept.imp fun _ _ => exactOf_of_kept)
  have anyCaseSame :=
    findSome?_of_same (kept.imp fun _ _ => anyCaseOf_of_kept)
  have asksSame := any_of_same (kept.imp fun _ _ => upgradeOf_of_kept)
  rw [sameAnswers_iff, subKey, subKey, subSame, webDecision, webDecision,
    asksWeb, asksWeb, webKey, webKey, requestLine, exactSame, anyCaseSame,
    asksSame]
  exact ⟨rfl, rfl⟩

/-! ## A request with its names in small letters -/

/-- A header of two texts, with a blank behind the colon. -/
def headerOf (name value : String)
    (nameBytes :
      ((ascii name).all fun byte => isLineByte byte && byte != 58) = true)
    (valueBytes : (ascii value).all isLineByte = true)
    (bare : (ascii value).head? ≠ some 32) : Header where
  name := ascii name
  blanks := 1
  value := ascii value
  nameBytes := by
    intro byte member
    have good := List.all_eq_true.mp nameBytes byte member
    rw [Bool.and_eq_true, bne_iff_ne] at good
    exact good
  valueBytes := List.all_eq_true.mp valueBytes
  bare := bare

/-- An upgrade request, with its names spelled as given. -/
def requestOf (upgrade key : Header)
    (short : (textOf (ascii "GET / HTTP/1.1") [upgrade, key]).length < 4096) :
    Request where
  requestLine := ascii "GET / HTTP/1.1"
  headers := [upgrade, key]
  requestLineBytes := by
    have good : (ascii "GET / HTTP/1.1").all isLineByte = true := by
      decide +kernel
    exact List.all_eq_true.mp good
  short := short

theorem sameField_headerOf
    {name other value : String}
    (same : lower (ascii other) = lower (ascii name))
    {nameBytes otherBytes valueBytes bare} :
    SameField (headerOf name value nameBytes valueBytes bare)
      (headerOf other value otherBytes valueBytes bare) :=
  ⟨same, rfl⟩

theorem variant_requestOf
    {upgrade key otherUpgrade otherKey : Header}
    (upgradeField : SameField upgrade otherUpgrade)
    (keyField : SameField key otherKey) {short otherShort} :
    Variant (requestOf upgrade key short)
      (requestOf otherUpgrade otherKey otherShort) where
  requestLine := rfl
  headers := .cons upgradeField (.cons keyField .nil)

def spelledRequest : Request :=
  requestOf
    (headerOf "Upgrade" "websocket" (by decide +kernel) (by decide +kernel)
      (by decide +kernel))
    (headerOf "Sec-WebSocket-Key" "dGhlIHNhbXBsZSBub25jZQ=="
      (by decide +kernel) (by decide +kernel) (by decide +kernel))
    (by decide +kernel)

def smallRequest : Request :=
  requestOf
    (headerOf "upgrade" "websocket" (by decide +kernel) (by decide +kernel)
      (by decide +kernel))
    (headerOf "sec-websocket-key" "dGhlIHNhbXBsZSBub25jZQ=="
      (by decide +kernel) (by decide +kernel) (by decide +kernel))
    (by decide +kernel)

theorem smallRequest_variant : Variant spelledRequest smallRequest :=
  variant_requestOf (sameField_headerOf (by decide +kernel))
    (sameField_headerOf (by decide +kernel))

/-- In small letters the request is answered by neither of the servers. -/
theorem smallRequest_is_missed :
    spelledRequest.text =
        ascii "GET / HTTP/1.1\r\nUpgrade: websocket\r\n" ++
          ascii "Sec-WebSocket-Key: dGhlIHNhbXBsZSBub25jZQ==\r\n\r\n" ∧
      smallRequest.text =
        ascii "GET / HTTP/1.1\r\nupgrade: websocket\r\n" ++
          ascii "sec-websocket-key: dGhlIHNhbXBsZSBub25jZQ==\r\n\r\n" ∧
      Variant spelledRequest smallRequest ∧
      ¬ AgreeOn doHandshake spelledRequest.text smallRequest.text ∧
      ¬ AgreeOn upgradePath spelledRequest.text smallRequest.text := by
  have spelledKey :
      subKey spelledRequest.headers = ascii "dGhlIHNhbXBsZSBub25jZQ==" := by
    decide +kernel
  have smallKey : subKey smallRequest.headers = [] := by decide +kernel
  have spelledAsks :
      asksWeb spelledRequest.requestLine spelledRequest.headers = true := by
    decide +kernel
  have smallAsks :
      asksWeb smallRequest.requestLine smallRequest.headers = false := by
    decide +kernel
  refine ⟨by decide +kernel, by decide +kernel, smallRequest_variant, ?_, ?_⟩
  · intro agree
    have ends :=
      (agreeOn_iff (fun _ => doHandshake_text spelledRequest)
        (fun _ => doHandshake_text smallRequest)).mp agree
    rw [spelledKey, smallKey, answer, answer, if_pos rfl,
      if_neg (by decide)] at ends
    cases ends.1
  · intro agree
    have ends :=
      (agreeOn_iff (fun _ => upgradePath_text spelledRequest)
        (fun _ => upgradePath_text smallRequest)).mp agree
    rw [webDecision, webDecision, spelledAsks, smallAsks, if_pos rfl,
      if_neg (by decide)] at ends
    cases answered :
        answer (webKey spelledRequest.requestLine spelledRequest.headers) with
    | none =>
        rw [answered] at ends
        cases ends.1
    | some accept =>
        rw [answered] at ends
        cases ends.1

theorem sameAnswers_iff_alike_smallRequest :
    SameAnswers spelledRequest smallRequest ↔
      SubAlike spelledRequest smallRequest ∧
        WebAlike spelledRequest smallRequest :=
  sameAnswers_iff_alike spelledRequest smallRequest smallRequest_variant

end AccelObserver.Server.UpgradePairs
