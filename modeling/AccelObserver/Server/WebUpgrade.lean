import AccelObserver.Library.CString
import AccelObserver.Library.Search
import AccelObserver.Server.WebPongs
import AccelObserver.Server.WsHandshake

/-!
# The web interface: from the request to the upgrade

`read_request`, the test of `handle_client` for an upgrade, and
`do_ws_upgrade`.  Other requests are those of `do_http_response`.

The request is searched as one text.  The name of the key is tried as it is
written in the source first, with the blank behind its colon, and then in
small letters.
-/

namespace AccelObserver.Server.WebUpgrade

open AccelObserver.Library
open AccelObserver.Library.Channel
open AccelObserver.Library.CNumber (toLower)
open AccelObserver.Library.CString (cText cText_of_not_mem lower)
open AccelObserver.Library.Search
open AccelObserver.Library.Text
open AccelObserver.Server.WebPongs (sendRaw)
open AccelObserver.Server.WsHandshake (responseText wsAcceptKey)
open AccelObserver.Server.WsSubscriber (Socket)

/--
The loop of `read_request`.  Every call of `recv` but the last adds a byte, so
the size of `buf` bounds the calls.
-/
def readRequestLoop : Nat → Bytes → Socket → Bytes × Socket
  | 0, buf, sock => (buf, sock)
  | calls + 1, buf, sock =>
      if buf.length < 4095 then
        let received := recv sock (4095 - buf.length)
        if received.1.isEmpty then (buf, received.2)
        else if occurs blankLine (cText (buf ++ received.1)) then
          (buf ++ received.1, received.2)
        else readRequestLoop calls (buf ++ received.1) received.2
      else (buf, sock)

/-- `read_request` -/
def readRequest (sock : Socket) : Bytes × Socket :=
  readRequestLoop 4095 [] sock

/-- `is_ws` -/
def isWs (req : Bytes) : Bool :=
  occurs (ascii "Upgrade: websocket") req ||
    occurs (ascii "Upgrade: WebSocket") req

/-- The text up to the first end of a line. -/
def beforeCrlf : Bytes → Option Bytes
  | [] => none
  | byte :: rest =>
      if ([13, 10] : Bytes).isPrefixOf (byte :: rest) then some []
      else (beforeCrlf rest).map fun line => byte :: line

/-- What is trimmed off a value. -/
def isTrimmed (byte : UInt8) : Bool :=
  byte == 32 || byte == 13

/--
How much of the request is made small: up to the empty line, and where there
is none, three bytes, since `npos + 4` is 3.
-/
def headLength (req : Bytes) : Nat :=
  match findAfter blankLine req with
  | some after => req.length - after.length
  | none => 3

/-- The request from `pos` on, behind the name. -/
def valueStart (req canonical : Bytes) : Option Bytes :=
  match findAfter canonical req with
  | some rest => some rest
  | none =>
      let lowerReq := lower (req.take (headLength req))
      (findAfter (lower canonical) lowerReq).map fun after =>
        req.drop (lowerReq.length - after.length)

/-- `find_header_value` -/
def findHeaderValue (req canonical : Bytes) : Bytes :=
  match (valueStart req canonical).bind beforeCrlf with
  | some val => (val.dropWhile isTrimmed).rdropWhile isTrimmed
  | none => []

/-- `do_ws_upgrade` -/
def doWsUpgrade (sock : Socket) (request : Bytes) : Bool × Socket :=
  let clientKey := findHeaderValue request (ascii "Sec-WebSocket-Key: ")
  if clientKey = [] then (false, sock)
  else sendRaw sock (responseText (wsAcceptKey clientKey))

/-- What becomes of a request. -/
inductive UpgradeResult
  /-- Nothing came. -/
  | closed
  /-- It is no upgrade, and `do_http_response` answers it. -/
  | http
  /-- `do_ws_upgrade` returns false. -/
  | refused
  | upgraded
  deriving DecidableEq, Repr

/-- `handle_client` up to the end of `do_ws_upgrade`. -/
def upgradePath (sock : Socket) : UpgradeResult × Socket :=
  let (req, sock) := readRequest sock
  if req = [] then (.closed, sock)
  else if ¬ isWs req then (.http, sock)
  else
    match doWsUpgrade sock req with
    | (true, sock) => (.upgraded, sock)
    | (false, sock) => (.refused, sock)

/-! ## Reading a request -/

/-- A text that ends with its first empty line is read to its end. -/
theorem readRequestLoop_eq
    {text : Bytes} (short : text.length ≤ 4095) (noNul : 0 ∉ text)
    (ends : findAfter blankLine text = some []) (calls : Nat) :
    ∀ {buf rest : Bytes} (sock : Socket), text = buf ++ rest → rest ≠ [] →
      rest.length ≤ calls → sock.incoming = rest →
      ∃ recvCalls,
        readRequestLoop calls buf sock =
          (text, { sock with incoming := [], recvCalls := recvCalls }) := by
  induction calls with
  | zero =>
      intro buf rest sock _ unread enough _
      exact absurd (List.length_eq_zero_iff.mp (Nat.le_zero.mp enough)) unread
  | succ calls induction =>
      intro buf rest sock split unread enough incoming
      have restPositive := List.length_pos_iff.mpr unread
      have lengths := congrArg List.length split
      rw [List.length_append] at lengths
      have room : buf.length < 4095 := by omega
      have pieceLength := sock.segmentation.size_pos sock.recvCalls
      have received :
          recv sock (4095 - buf.length) =
            (rest.take (min (4095 - buf.length)
                (sock.segmentation.size sock.recvCalls)),
              { sock with
                incoming := rest.drop (min (4095 - buf.length)
                  (sock.segmentation.size sock.recvCalls))
                recvCalls := sock.recvCalls + 1 }) := by
        simp only [recv, incoming]
      generalize counted :
        min (4095 - buf.length)
          (sock.segmentation.size sock.recvCalls) = count at received
      have positive : 0 < count := by omega
      have nonempty : (rest.take count).isEmpty = false := by
        rw [List.isEmpty_eq_false_iff, ne_eq, List.take_eq_nil_iff, not_or]
        exact ⟨Nat.ne_of_gt positive, unread⟩
      have whole (part : Bytes) (inText : part <+: text) :
          cText part = part :=
        cText_of_not_mem fun member => noNul (inText.mem member)
      have inText : buf ++ rest.take count <+: text := by
        rw [split]
        exact (List.prefix_append_right_inj buf).mpr (List.take_prefix _ _)
      rw [readRequestLoop, if_pos room, received]
      simp only [nonempty, Bool.false_eq_true, if_false, whole _ inText]
      by_cases last : rest.drop count = []
      · have complete : buf ++ rest.take count = text := by
          rw [split, List.take_of_length_le (List.drop_eq_nil_iff.mp last)]
        refine ⟨sock.recvCalls + 1, ?_⟩
        rw [complete, occurs, ends, last]
        rfl
      · have again : text = (buf ++ rest.take count) ++ rest.drop count := by
          rw [List.append_assoc, List.take_append_drop, split]
        have silent : occurs blankLine (buf ++ rest.take count) = false := by
          rw [occurs, Option.isSome_eq_false_iff, Option.isNone_iff_eq_none]
          cases found : findAfter blankLine (buf ++ rest.take count) with
          | none => rfl
          | some after =>
              have extended := findAfter_append found (rest.drop count)
              rw [← again, ends, Option.some.injEq] at extended
              exact absurd (List.append_eq_nil_iff.mp extended.symm).2 last
        rw [if_neg (by rw [silent]; decide)]
        rcases induction
            { sock with
              incoming := rest.drop count
              recvCalls := sock.recvCalls + 1 }
            again last
            (by rw [List.length_drop]; omega) rfl
          with ⟨recvCalls, read⟩
        exact ⟨recvCalls, read⟩

/-! ## Searching a request -/

theorem beforeCrlf_append
    {line : Bytes} (noCr : 13 ∉ line) (rest : Bytes) :
    beforeCrlf (line ++ 13 :: 10 :: rest) = some line := by
  induction line with
  | nil => rfl
  | cons byte line induction =>
      simp only [List.mem_cons, not_or] at noCr
      rw [List.cons_append, beforeCrlf,
        if_neg (by simp [List.isPrefixOf, noCr.1]),
        induction noCr.2, Option.map_some]

/-- What is trimmed off a value. -/
def webTrim (value : Bytes) : Bytes :=
  (value.dropWhile isTrimmed).rdropWhile isTrimmed

/-- The line of the value, behind the name. -/
def keyLine (canonical : Bytes) (lines : List Bytes) : Option Bytes :=
  (lines.findSome? (findAfterBy id canonical)).or
    (lines.findSome? (findAfterBy toLower (lower canonical)))

/-- `find_header_value` looks for the first line with the name. -/
theorem findHeaderValue_eq
    {canonical : Bytes} (nonempty : canonical ≠ [])
    (noCr : 13 ∉ canonical) (noLf : 10 ∉ canonical)
    (lowerNoCr : 13 ∉ lower canonical) (lowerNoLf : 10 ∉ lower canonical)
    {first : Bytes} {lines : List Bytes}
    (linesNoCr : ∀ line ∈ first :: lines, 13 ∉ line)
    (linesNonempty : ∀ line ∈ lines, line ≠ []) :
    findHeaderValue
        ((first :: lines).flatMap Lines.crlf ++ Lines.crlf []) canonical =
      ((keyLine canonical (first :: lines)).map webTrim).getD [] := by
  have lineEnd {same : UInt8 → UInt8} {pattern after : Bytes}
      (found :
        (first :: lines).findSome? (findAfterBy same pattern) = some after)
      (rest : Bytes) :
      beforeCrlf (after ++ 13 :: 10 :: rest) = some after := by
    rcases exists_of_findSome? found with ⟨line, member, suffix⟩
    exact beforeCrlf_append
      (fun inAfter => linesNoCr line member (suffix.mem inAfter)) rest
  have lowerNonempty : lower canonical ≠ [] := by
    rw [lower, ne_eq, List.map_eq_nil_iff]
    exact nonempty
  have blank :
      findAfter blankLine
          ((first :: lines).flatMap Lines.crlf ++ Lines.crlf []) =
        some [] := by
    rw [List.flatMap_cons, List.append_assoc]
    exact findAfter_blankLine (linesNoCr _ (List.mem_cons_self ..))
      (fun line member => linesNoCr line (List.mem_cons_of_mem _ member))
      linesNonempty
  rw [findHeaderValue, valueStart, keyLine]
  cases exactly :
      (first :: lines).findSome? (findAfterBy id canonical) with
  | some after =>
      rcases findAfterBy_lines_some noCr noLf nonempty exactly
          (Lines.crlf []) with ⟨rest, found⟩
      rw [findAfterBy_id] at found
      simp only [found, Option.bind_some, Option.some_or,
        lineEnd exactly rest, Option.map_some, Option.getD_some, webTrim]
  | none =>
      have missing := findAfterBy_text_none noCr noLf nonempty exactly
      rw [findAfterBy_id] at missing
      simp only [missing, headLength, blank, List.length_nil, Nat.sub_zero,
        List.take_length, Option.none_or, lower, findAfter_map,
        Option.map_map]
      cases small :
          (first :: lines).findSome?
            (findAfterBy toLower (canonical.map toLower)) with
      | some after =>
          rcases @findAfterBy_lines_some toLower _ lowerNoCr lowerNoLf
              lowerNonempty _ _ small (Lines.crlf []) with ⟨rest, found⟩
          have kept := List.suffix_iff_eq_drop.mp (findAfterBy_suffix found)
          rw [lower] at found
          simp only [found, Option.map_some, Function.comp_apply,
            List.length_map, ← kept, Option.bind_some, lineEnd small rest,
            Option.getD_some, webTrim]
      | none =>
          have lowerMissing :=
            @findAfterBy_text_none toLower _ lowerNoCr lowerNoLf lowerNonempty
              _ small
          rw [lower] at lowerMissing
          simp only [lowerMissing, Option.map_none, Option.bind_none,
            Option.getD_none]

end AccelObserver.Server.WebUpgrade
