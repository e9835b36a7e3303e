import AccelObserver.Server.UpgradeRequests

/-!
# What the servers answer to an upgrade request

Either server turns a request into a key, or into none, and answers a key with
its accept value.  `WebInterface` tests first whether the request is an upgrade
at all.  These decisions are functions of the headers; the runs on a socket
come to them for every segmentation.
-/

namespace AccelObserver.Server.UpgradeAnswers

open AccelObserver.Library
open AccelObserver.Library.Channel
open AccelObserver.Library.CString (lower)
open AccelObserver.Library.Search
open AccelObserver.Library.Text
open AccelObserver.Server.UpgradeRequests
open AccelObserver.Server.WebUpgrade
open AccelObserver.Server.WsHandshake
open AccelObserver.Server.WsSubscriber (Socket sendExact_eq)

/-! ## The answers -/

/-- The accept value for a key; an empty key is refused. -/
def answer (key : Bytes) : Option Bytes :=
  if key = [] then none else some (computeAcceptKey key)

/-- The key that `WsSubscriber` takes. -/
def subKey (headers : List Header) : Bytes :=
  (headers.reverse.findSome? subKeyOf).getD []

/-- The key that `WebInterface` takes. -/
def webKey (requestLine : Bytes) (headers : List Header) : Bytes :=
  (((exactIn requestLine).or (headers.findSome? exactOf)).or
    ((anyCaseIn requestLine).or (headers.findSome? anyCaseOf))).getD []

/-- The request is an upgrade for `WebInterface`. -/
def asksWeb (requestLine : Bytes) (headers : List Header) : Bool :=
  isWs requestLine || headers.any upgradeOf

theorem lineBytes (request : Request) :
    ∀ line ∈ linesOf request.requestLine request.headers,
      ∀ byte ∈ line, isLineByte byte = true :=
  isLineByte_linesOf request.requestLineBytes request.headers

theorem headerLines_ne_nil (headers : List Header) :
    ∀ line ∈ headers.map Header.line, line ≠ [] := by
  intro line member
  rcases List.mem_map.mp member with ⟨header, _, rfl⟩
  exact line_ne_nil header

theorem findHeaderValue_text (request : Request) :
    findHeaderValue request.text (ascii "Sec-WebSocket-Key: ") =
      webKey request.requestLine request.headers := by
  have noCr :
      ∀ line ∈ request.requestLine :: request.headers.map Header.line,
        13 ∉ line :=
    fun line member =>
      not_mem_of_isLineByte (lineBytes request line member) rfl
  have read :=
    findHeaderValue_eq (show ascii "Sec-WebSocket-Key: " ≠ [] by decide)
      (by decide) (by decide) (by decide) (by decide) noCr
      (headerLines_ne_nil request.headers)
  have small :
      lower (ascii "Sec-WebSocket-Key: ") = ascii "sec-websocket-key: " := by
    decide
  have first {search : Bytes → Option Bytes} {inLine : Header → Option Bytes}
      (reads : ∀ header, search header.line = inLine header) :
      (request.requestLine :: request.headers.map Header.line).findSome?
          search =
        (search request.requestLine).or
          (request.headers.findSome? inLine) := by
    rw [List.findSome?_cons, List.findSome?_map]
    have same : search ∘ Header.line = inLine := funext reads
    rw [same]
    cases search request.requestLine <;> rfl
  rw [Request.text, textOf, linesOf, read, keyLine, small,
    Option.map_or, List.map_findSome?, List.map_findSome?, webKey,
    ← first exactIn_line, ← first anyCaseIn_line]
  rfl

/-- A text without an end of line is in one of the lines. -/
theorem occurs_text
    {pattern : Bytes} (nonempty : pattern ≠ []) (noCr : 13 ∉ pattern)
    (noLf : 10 ∉ pattern) (lines : List Bytes) :
    occurs pattern (lines.flatMap Lines.crlf ++ Lines.crlf []) =
      lines.any (occurs pattern) := by
  have searched :
      occurs pattern (lines.flatMap Lines.crlf ++ Lines.crlf []) =
        (lines.findSome? (findAfterBy id pattern)).isSome := by
    rw [occurs, ← findAfterBy_id]
    cases found : lines.findSome? (findAfterBy id pattern) with
    | some after =>
        rcases @findAfterBy_lines_some id pattern noCr noLf nonempty _ _ found
            (Lines.crlf []) with ⟨rest, here⟩
        rw [here]
        rfl
    | none =>
        rw [@findAfterBy_text_none id pattern noCr noLf nonempty _ found]
  rw [searched, List.isSome_findSome?]
  congr 1
  funext line
  rw [occurs, findAfterBy_id]

theorem isWs_text (request : Request) :
    isWs request.text = asksWeb request.requestLine request.headers := by
  have lines (pattern : Bytes) :
      (linesOf request.requestLine request.headers).any (occurs pattern) =
        (occurs pattern request.requestLine ||
          request.headers.any fun header => occurs pattern header.line) := by
    rw [linesOf, List.any_cons, List.any_map]
    rfl
  rw [Request.text, textOf, isWs,
    occurs_text (by decide) (by decide) (by decide), lines,
    occurs_text (by decide) (by decide) (by decide), lines, asksWeb, isWs]
  have each (headers : List Header) :
      headers.any upgradeOf =
        ((headers.any fun header =>
            occurs (ascii "Upgrade: websocket") header.line) ||
          headers.any fun header =>
            occurs (ascii "Upgrade: WebSocket") header.line) := by
    rw [Bool.eq_iff_iff]
    simp only [List.any_eq_true, Bool.or_eq_true, ← isWs_line, isWs]
    constructor
    · rintro ⟨header, member, small | large⟩
      · exact .inl ⟨header, member, small⟩
      · exact .inr ⟨header, member, large⟩
    · rintro (⟨header, member, small⟩ | ⟨header, member, large⟩)
      · exact ⟨header, member, .inl small⟩
      · exact ⟨header, member, .inr large⟩
  rw [each]
  cases occurs (ascii "Upgrade: websocket") request.requestLine <;>
    cases occurs (ascii "Upgrade: WebSocket") request.requestLine <;>
    simp

/-! ## The runs on a request -/

/-- What is sent with an answer. -/
def replyTo : Option Bytes → Bytes
  | some accept => responseText accept
  | none => []

/-- Different answers are different bytes. -/
theorem replyTo_injective {first second : Option Bytes}
    (same : first.isSome = second.isSome)
    (sent : replyTo first = replyTo second) : first = second := by
  cases first with
  | none =>
      cases second with
      | none => rfl
      | some accept => cases same
  | some accept =>
      cases second with
      | none => cases same
      | some other =>
          rw [replyTo, replyTo, responseText, responseText] at sent
          have values :=
            List.append_cancel_left (List.append_cancel_right sent)
          rw [List.append_cancel_left (List.append_cancel_right values)]

/-- `do_handshake` of `WsSubscriber` on a request. -/
theorem doHandshake_text
    (request : Request) {client : Socket} (complete : client.SendsComplete)
    (incoming : client.incoming = request.text) :
    (doHandshake client).1 = (answer (subKey request.headers)).isSome ∧
      (doHandshake client).2.outgoing =
        client.outgoing ++ replyTo (answer (subKey request.headers)) := by
  have noFeed :
      ∀ line ∈ linesOf request.requestLine request.headers, 10 ∉ line :=
    fun line member =>
      not_mem_of_isLineByte (lineBytes request line member) rfl
  rw [Request.text, textOf, linesOf, List.flatMap_cons, List.append_assoc,
    ← List.append_nil (Lines.crlf [])] at incoming
  rcases reads_recvLine (noFeed _ (List.mem_cons_self ..)) client _ incoming
    with ⟨firstCalls, first⟩
  rcases Lines.foldLines_of_incoming readHeader
      (fun line member =>
        reads_recvLine (noFeed line (List.mem_cons_of_mem _ member)))
      (headerLines_ne_nil request.headers) (reads_recvLine List.not_mem_nil) []
      { client with
        incoming :=
          (request.headers.map Header.line).flatMap Lines.crlf ++
            (Lines.crlf [] ++ [])
        recvCalls := firstCalls }
      rfl
    with ⟨recvCalls, folded⟩
  have key : (request.headers.map Header.line).foldl readHeader [] =
      subKey request.headers := foldl_readHeader_eq request.headers
  rw [key] at folded
  by_cases empty : subKey request.headers = []
  · have run :
        doHandshake client =
          (false,
            { client with incoming := [], recvCalls := recvCalls }) := by
      simp only [doHandshake, first, folded, if_pos empty]
    rw [run, answer, if_pos empty]
    exact ⟨rfl, (List.append_nil _).symm⟩
  · rcases sendExact_eq
        { client with incoming := [], recvCalls := recvCalls } complete
        (responseText (computeAcceptKey (subKey request.headers)))
      with ⟨sendCalls, sent⟩
    have run :
        doHandshake client =
          (true,
            { client with
              incoming := []
              recvCalls := recvCalls
              outgoing :=
                client.outgoing ++
                  responseText (computeAcceptKey (subKey request.headers))
              sendCalls := sendCalls }) := by
      simp only [doHandshake, first, folded, if_neg empty, sent]
    rw [run, answer, if_neg empty]
    exact ⟨rfl, rfl⟩

/-- The decision of `WebInterface`: no upgrade, or the answer to the key. -/
def webDecision (request : Request) : Option (Option Bytes) :=
  if asksWeb request.requestLine request.headers then
    some (answer (webKey request.requestLine request.headers))
  else none

/-- How the upgrade path ends on a decision. -/
def resultOf : Option (Option Bytes) → UpgradeResult
  | none => .http
  | some none => .refused
  | some (some _) => .upgraded

/-- A request is read whole, in whatever pieces it comes. -/
theorem readRequest_text
    (request : Request) {client : Socket}
    (incoming : client.incoming = request.text) :
    ∃ recvCalls,
      readRequest client =
        (request.text,
          { client with incoming := [], recvCalls := recvCalls }) := by
  have bytes := lineBytes request
  have short : request.text.length ≤ 4095 := Nat.le_of_lt_succ request.short
  have noNul : 0 ∉ request.text := by
    intro member
    rcases List.mem_append.mp member with inLines | inEnd
    · rcases List.mem_flatMap.mp inLines with ⟨line, lineMember, inLine⟩
      rcases List.mem_append.mp inLine with inText | inFeed
      · exact not_mem_of_isLineByte (bytes line lineMember) rfl inText
      · exact absurd inFeed (by decide)
    · exact absurd inEnd (by decide)
  have noCr :
      ∀ line ∈ linesOf request.requestLine request.headers, 13 ∉ line :=
    fun line member =>
      not_mem_of_isLineByte (bytes line member) rfl
  have blank : findAfter blankLine request.text = some [] := by
    rw [Request.text, textOf, linesOf, List.flatMap_cons, List.append_assoc]
    exact findAfter_blankLine (noCr _ (List.mem_cons_self ..))
      (fun line member => noCr line (List.mem_cons_of_mem _ member))
      (headerLines_ne_nil request.headers)
  have unread : request.text ≠ [] := by
    simp [Request.text, textOf, Lines.crlf]
  exact readRequestLoop_eq short noNul blank 4095 client
    (List.nil_append _).symm unread short incoming

/-- The upgrade path of `WebInterface` on a request. -/
theorem upgradePath_text
    (request : Request) {client : Socket} (complete : client.SendsComplete)
    (incoming : client.incoming = request.text) :
    (upgradePath client).1 = resultOf (webDecision request) ∧
      (upgradePath client).2.outgoing =
        client.outgoing ++ replyTo ((webDecision request).getD none) := by
  rcases readRequest_text request incoming with ⟨recvCalls, read⟩
  have nonempty : request.text ≠ [] := by
    simp [Request.text, textOf, Lines.crlf]
  by_cases asks : asksWeb request.requestLine request.headers = true
  · have upgrade : isWs request.text = true := (isWs_text request).trans asks
    by_cases empty : webKey request.requestLine request.headers = []
    · have run :
          upgradePath client =
            (.refused,
              { client with incoming := [], recvCalls := recvCalls }) := by
        simp only [upgradePath, read, if_neg nonempty, upgrade, not_true,
          if_false, doWsUpgrade, findHeaderValue_text, if_pos empty]
      rw [run, webDecision, if_pos asks, answer, if_pos empty]
      exact ⟨rfl, (List.append_nil _).symm⟩
    · have positive :
          0 < (responseText (wsAcceptKey
            (webKey request.requestLine request.headers))).length := by
        rw [responseText]
        simp [ascii]
      rcases sendAll_eq positive
          (responseText (wsAcceptKey
            (webKey request.requestLine request.headers)))
          (show ({ client with incoming := [], recvCalls := recvCalls }
            : Socket).SendsComplete from complete)
        with ⟨sendCalls, sent⟩
      have run :
          upgradePath client =
            (.upgraded,
              { client with
                incoming := []
                recvCalls := recvCalls
                outgoing :=
                  client.outgoing ++
                    responseText (wsAcceptKey
                      (webKey request.requestLine request.headers))
                sendCalls := sendCalls }) := by
        simp only [upgradePath, read, if_neg nonempty, upgrade, not_true,
          if_false, doWsUpgrade, findHeaderValue_text, if_neg empty,
          WebPongs.sendRaw, sent]
      rw [run, webDecision, if_pos asks, answer, if_neg empty]
      exact ⟨rfl, rfl⟩
  · have noUpgrade : isWs request.text = false := by
      rw [isWs_text, Bool.eq_false_iff]
      exact asks
    have run :
        upgradePath client =
          (.http, { client with incoming := [], recvCalls := recvCalls }) := by
      simp only [upgradePath, read, if_neg nonempty, noUpgrade,
        Bool.false_eq_true, not_false_eq_true, if_true]
    rw [run, webDecision, if_neg asks]
    exact ⟨rfl, (List.append_nil _).symm⟩

end AccelObserver.Server.UpgradeAnswers
