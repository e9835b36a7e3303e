import AccelObserver.EndToEnd.Handshake

/-!
# Which replies the client accepts

A right reply is a grammar over the lines of the stream, and these have any
length.  `net_recv_line` has room for 2047 bytes, gives back what has come by
then, and goes on with the rest of the line as if it were the next one.  Where
nothing is left of it, the rest reads as the empty line that ends the headers.
The functions that search a line stop at a NUL.

So the client accepts what is a right reply after these cuts, and
`acceptsRightReplies_iff` says that nothing else comes between the two.
-/

namespace AccelObserver.EndToEnd.HandshakeReplies

open AccelObserver.Library
open AccelObserver.Library.Channel
open AccelObserver.Library.CNumber (toLower)
open AccelObserver.Library.CString (cText cText_of_not_mem)
open AccelObserver.Library.Lines
open AccelObserver.Library.Text
open AccelObserver.Crypto.Base64 (base64Encode isBase64Byte)
open AccelObserver.Crypto.Sha1 (sha1Compute)
open AccelObserver.Client.WsTransport
open AccelObserver.Client.WsHandshake
open AccelObserver.EndToEnd.Handshake
open AccelObserver.Server.WsHandshake (responseText computeAcceptKey)

/-! ## Right replies -/

/-- The line holds the text, which is in small letters, in any case. -/
def mentions (line : Bytes) (text : String) : Bool :=
  occurs (ascii text) (line.map toLower)

/-- The value behind the colon, where it is shorter than 64 bytes. -/
def shortValue (line : Bytes) : Option Bytes :=
  (findAfter (ascii ":") line).bind fun colon =>
    let value := (colon.dropWhile isBlank).rdropWhile isTrailing
    if value.length < 64 then some value else none

/-- The value of a `Sec-WebSocket-Accept` line. -/
def acceptValue (line : Bytes) : Option Bytes :=
  if mentions line "sec-websocket-accept:" then shortValue line else none

/-- What the status line and the headers of a right reply hold. -/
structure Switches
    (nonce status : Bytes) (headers : List Bytes) : Prop where
  status : mentions status "101" = true
  upgrade :
    ∃ header ∈ headers,
      mentions header "upgrade:" = true ∧ mentions header "websocket" = true
  connection :
    ∃ header ∈ headers,
      mentions header "connection:" = true ∧ mentions header "upgrade" = true
  /-- The last value counts. -/
  accept :
    (headers.filterMap acceptValue).getLast? =
      some (base64Encode (sha1Compute (nonce ++ wsGuid)))

/--
The stream begins with a right reply, which ends before `rest`.  The function
takes the lines off the stream, and `seen` is what is looked at of each.
-/
def RightBy
    (line : Bytes → Option (Bytes × Bytes)) (seen : Bytes → Bytes)
    (nonce stream rest : Bytes) : Prop :=
  ∃ status behind headers,
    line stream = some (status, behind) ∧ Block line behind headers rest ∧
      Switches nonce (seen status) (headers.map seen)

/-- A right reply: its lines have any length and hold any bytes. -/
def RightReply : Bytes → Bytes → Bytes → Prop :=
  RightBy wholeLine id

/--
A right reply when every line is cut behind its 2047th byte, and behind each
2047th byte from there, and when nothing is looked at behind a NUL.
-/
def RightWhenCut : Bytes → Bytes → Bytes → Prop :=
  RightBy (lineOf some 2047 []) cText

/-- There is one place where a right reply ends. -/
theorem RightBy.unique
    {line : Bytes → Option (Bytes × Bytes)} {seen : Bytes → Bytes}
    {nonce stream rest other : Bytes}
    (right : RightBy line seen nonce stream rest)
    (another : RightBy line seen nonce stream other) :
    rest = other := by
  rcases right with ⟨status, behind, headers, found, block, _⟩
  rcases another with ⟨otherStatus, otherBehind, _, otherFound, otherBlock, _⟩
  rw [found] at otherFound
  cases otherFound
  exact (block.unique otherBlock).2

/-! ## What the loop remembers -/

/-- The names that are searched for are in small letters. -/
theorem istrContains_eq
    {text : String} (small : (ascii text).map toLower = ascii text)
    (line : Bytes) :
    istrContains line (ascii text) = mentions (cText line) text := by
  rw [istrContains, small, mentions]

theorem readReplyHeader_gotUpgrade_eq (headers : ReplyHeaders) (line : Bytes) :
    (readReplyHeader headers line).gotUpgrade =
      ((mentions (cText line) "upgrade:" &&
        mentions (cText line) "websocket") || headers.gotUpgrade) := by
  have name :
      istrContains line (ascii "upgrade:") =
        mentions (cText line) "upgrade:" :=
    istrContains_eq (by decide) line
  have value :
      istrContains line (ascii "websocket") =
        mentions (cText line) "websocket" :=
    istrContains_eq (by decide) line
  simp only [readReplyHeader, name, value]

theorem readReplyHeader_gotConnection_eq
    (headers : ReplyHeaders) (line : Bytes) :
    (readReplyHeader headers line).gotConnection =
      ((mentions (cText line) "connection:" &&
        mentions (cText line) "upgrade") || headers.gotConnection) := by
  have name :
      istrContains line (ascii "connection:") =
        mentions (cText line) "connection:" :=
    istrContains_eq (by decide) line
  have value :
      istrContains line (ascii "upgrade") =
        mentions (cText line) "upgrade" :=
    istrContains_eq (by decide) line
  simp only [readReplyHeader, name, value]

theorem readReplyHeader_serverAccept_eq
    (headers : ReplyHeaders) (line : Bytes) :
    (readReplyHeader headers line).serverAccept =
      (acceptValue (cText line)).getD headers.serverAccept := by
  have named :
      istrContains line (ascii "sec-websocket-accept:") =
        mentions (cText line) "sec-websocket-accept:" :=
    istrContains_eq (by decide) line
  simp only [readReplyHeader, extractHeaderValue, named, acceptValue]
  by_cases mentioned : mentions (cText line) "sec-websocket-accept:" = true
  · simp only [if_pos mentioned, shortValue]
    cases findAfter (ascii ":") (cText line) with
    | none => rfl
    | some colon =>
        simp only [Option.bind_some]
        by_cases short :
            ((colon.dropWhile isBlank).rdropWhile isTrailing).length < 64
        · rw [if_pos short, if_neg (Nat.not_le_of_lt short)]
        · rw [if_neg short, if_pos (Nat.le_of_not_lt short)]
  · simp only [if_neg mentioned, Option.getD_none]

/-- A flag is up where a line has raised it. -/
theorem foldl_flag
    {β : Type} {take : β → Bytes → β} {flag : β → Bool} {raises : Bytes → Bool}
    (step : ∀ value line, flag (take value line) = (raises line || flag value))
    (lines : List Bytes) (value : β) :
    flag (lines.foldl take value) = (lines.any raises || flag value) := by
  induction lines generalizing value with
  | nil => rfl
  | cons line lines induction =>
      rw [List.foldl_cons, induction, step, List.any_cons]
      cases raises line <;> simp

/-- The last value that a line has set is the one that is kept. -/
theorem foldl_last
    {β : Type} {take : β → Bytes → β} {slot : β → Bytes}
    {sets : Bytes → Option Bytes}
    (step :
      ∀ value line, slot (take value line) = (sets line).getD (slot value))
    (lines : List Bytes) (value : β) :
    slot (lines.foldl take value) =
      (lines.filterMap sets).getLast?.getD (slot value) := by
  induction lines generalizing value with
  | nil => rfl
  | cons line lines induction =>
      rw [List.foldl_cons, induction, step]
      cases set : sets line with
      | none => rw [List.filterMap_cons_none set, Option.getD_none]
      | some kept =>
          rw [List.filterMap_cons_some set, List.getLast?_cons,
            Option.getD_some, Option.getD_some]

/-- The checks behind the loop pass where all three answers are there. -/
theorem checkReply_iff (headers : ReplyHeaders) (nonce : Bytes) :
    checkReply headers nonce = .wsOk ↔
      headers.gotUpgrade = true ∧ headers.gotConnection = true ∧
        headers.serverAccept = expectedAccept nonce := by
  have expected : expectedAccept nonce ≠ [] :=
    List.ne_nil_of_length_pos (by rw [expectedAccept_length]; decide)
  constructor
  · intro passed
    rw [checkReply] at passed
    split_ifs at passed with noUpgrade noConnection empty differs
    exact ⟨noUpgrade, noConnection, not_not.mp differs⟩
  · rintro ⟨upgrade, connection, accept⟩
    exact checkReply_of_complete upgrade connection (accept ▸ expected) accept

/-- The loop has found everything exactly where a right reply has it. -/
theorem checkReply_foldl_iff
    {nonce : Bytes} (short : nonce.length ≤ 91) {status : Bytes}
    (switching : istrContains status (ascii "101") = true)
    (headers : List Bytes) :
    checkReply
        (headers.foldl readReplyHeader
          { gotUpgrade := false, gotConnection := false, serverAccept := [] })
        nonce = .wsOk ↔
      Switches nonce (cText status) (headers.map cText) := by
  have statusSeen : mentions (cText status) "101" = true := by
    rw [← istrContains_eq (by decide), switching]
  have nonempty : base64Encode (sha1Compute (nonce ++ wsGuid)) ≠ [] := by
    rw [← expectedAccept_whole short]
    exact List.ne_nil_of_length_pos (by rw [expectedAccept_length]; decide)
  have kept :
      headers.filterMap (fun line => acceptValue (cText line)) =
        (headers.map cText).filterMap acceptValue := by
    rw [List.filterMap_map]
    rfl
  rw [checkReply_iff, foldl_flag readReplyHeader_gotUpgrade_eq,
    foldl_flag readReplyHeader_gotConnection_eq,
    foldl_last readReplyHeader_serverAccept_eq, kept,
    expectedAccept_whole short]
  simp only [Bool.or_false, List.any_eq_true, Bool.and_eq_true]
  constructor
  · rintro ⟨⟨upgradeLine, upgradeMember, upgrade⟩,
      ⟨connectionLine, connectionMember, connection⟩, accept⟩
    refine
      { status := statusSeen
        upgrade :=
          ⟨_, List.mem_map_of_mem upgradeMember, upgrade⟩
        connection :=
          ⟨_, List.mem_map_of_mem connectionMember, connection⟩
        accept := ?_ }
    cases last : ((headers.map cText).filterMap acceptValue).getLast? with
    | none =>
        rw [last, Option.getD_none] at accept
        exact absurd accept.symm nonempty
    | some value =>
        rw [last, Option.getD_some] at accept
        rw [accept]
  · intro switches
    rcases switches.upgrade with ⟨_, upgradeMember, upgrade⟩
    rcases switches.connection with ⟨_, connectionMember, connection⟩
    rcases List.mem_map.mp upgradeMember with ⟨upgradeLine, inHeaders, rfl⟩
    rcases List.mem_map.mp connectionMember with
      ⟨connectionLine, alsoInHeaders, rfl⟩
    exact ⟨⟨upgradeLine, inHeaders, upgrade⟩,
      ⟨connectionLine, alsoInHeaders, connection⟩,
      by rw [switches.accept, Option.getD_some]⟩

/-! ## The client accepts what is right after the cuts -/

theorem follows_netRecvLine :
    Follows netRecvLine (lineOf some 2047 []) :=
  follows_recvLine some 2047

theorem cutLine_consumes
    {stream text rest : Bytes}
    (found : lineOf some 2047 [] stream = some (text, rest)) :
    rest.length < stream.length := by
  have taken := lineOf_consumes some 2047 [] found
  omega

/-- A block behind the status line is judged at its end. -/
theorem readReply_of_block
    (nonce : Bytes) {status behind rest : Bytes} {headers : List Bytes}
    {sock : Socket}
    (found : lineOf some 2047 [] sock.incoming = some (status, behind))
    (switching : istrContains status (ascii "101") = true)
    (block : Block (lineOf some 2047 []) behind headers rest) :
    (readReply nonce sock).1 =
        checkReply
          (headers.foldl readReplyHeader
            { gotUpgrade := false, gotConnection := false, serverAccept := [] })
          nonce ∧
      (readReply nonce sock).2.incoming = rest := by
  rcases follows_netRecvLine.reads found with ⟨lineCalls, read⟩
  have rounds : headers.length < behind.length + 1 :=
    Nat.lt_succ_of_lt (block.length_lt cutLine_consumes)
  rcases foldLines_of_block follows_netRecvLine readReplyHeader block
      { gotUpgrade := false, gotConnection := false, serverAccept := [] }
      { sock with incoming := behind, recvCalls := lineCalls } rounds rfl
    with ⟨recvCalls, folded⟩
  simp only [readReply, read, if_pos switching, folded, and_self]

/-- Acceptance, and where the stream is left, are a matter of the cut lines. -/
theorem readReply_iff
    {nonce : Bytes} (short : nonce.length ≤ 91) (sock : Socket)
    (rest : Bytes) :
    (readReply nonce sock).1 = .wsOk ∧
        (readReply nonce sock).2.incoming = rest ↔
      RightWhenCut nonce sock.incoming rest := by
  constructor
  · rintro ⟨accepted, left⟩
    cases found : lineOf some 2047 [] sock.incoming with
    | none =>
        have failed := follows_netRecvLine.fails found
        cases read : netRecvLine sock with
        | mk answer after =>
            rw [read] at failed
            subst failed
            rw [readReply, read] at accepted
            cases accepted
    | some result =>
        rcases result with ⟨status, behind⟩
        rcases follows_netRecvLine.reads found with ⟨lineCalls, read⟩
        have judged := accepted
        rw [readReply, read] at judged
        by_cases switching : istrContains status (ascii "101") = true
        · simp only [if_pos switching] at judged
          cases folded :
              foldLines netRecvLine readReplyHeader (behind.length + 1)
                { gotUpgrade := false
                  gotConnection := false
                  serverAccept := [] }
                { sock with incoming := behind, recvCalls := lineCalls } with
          | mk ended result =>
              rw [folded] at judged
              cases ended with
              | false => cases judged
              | true =>
                  rcases exists_block_of_foldLines follows_netRecvLine
                      readReplyHeader _ _ _ (congrArg Prod.fst folded)
                    with ⟨headers, last, block⟩
                  rcases readReply_of_block nonce found switching block
                    with ⟨code, remaining⟩
                  rw [code, checkReply_foldl_iff short switching] at accepted
                  obtain rfl : last = rest := remaining.symm.trans left
                  exact ⟨status, behind, headers, found, block, accepted⟩
        · simp only [if_neg switching] at judged
          cases judged
  · rintro ⟨status, behind, headers, found, block, switches⟩
    have switching : istrContains status (ascii "101") = true := by
      rw [istrContains_eq (by decide), switches.status]
    rcases readReply_of_block nonce found switching block
      with ⟨code, remaining⟩
    rw [code, checkReply_foldl_iff short switching]
    exact ⟨switches, remaining⟩

/-! ## The handshake -/

/-- Sending leaves unread what has come in. -/
theorem netSendExact_incoming (sock : Socket) (buf : Bytes) :
    (netSendExact sock buf).2.incoming = sock.incoming := by
  rcases sendAll_written (Nat.zero_lt_succ 65535) buf sock
    with ⟨written, sendCalls, _, sent, _⟩
  rw [netSendExact, sent]

/-- Once the request is out, the answer decides. -/
theorem doHandshake_of_sent
    {sock : Socket} {rngState : UInt32} {host path : Bytes} {port : UInt16}
    (short :
      (requestText path host port (nonceB64 rngState)).length < 1024)
    (sent :
      (netSendExact sock
        (requestText path host port (nonceB64 rngState))).1 = true) :
    ∃ after : Socket,
      after.incoming = sock.incoming ∧
        doHandshake sock rngState host port path =
          ((readReply (nonceB64 rngState) after).1,
            { sock := some (readReply (nonceB64 rngState) after).2
              rngState := (nonceRaw 16 rngState).2 }) := by
  have unread :=
    netSendExact_incoming sock
      (requestText path host port (nonceB64 rngState))
  cases sending :
      netSendExact sock (requestText path host port (nonceB64 rngState)) with
  | mk complete after =>
      rw [sending] at sent unread
      subst sent
      refine ⟨after, unread, ?_⟩
      simp only [doHandshake, if_neg (Nat.not_le_of_lt short), sending]

/-- What a run of the handshake has to do with right replies. -/
structure AcceptsRightReplies
    (sock : Socket) (rngState : UInt32) (host : Bytes) (port : UInt16)
    (path : Bytes) : Prop where
  code :
    (doHandshake sock rngState host port path).1 = .wsOk ↔
      ∃ rest, RightReply (nonceB64 rngState) sock.incoming rest
  consumed :
    (doHandshake sock rngState host port path).1 = .wsOk →
      ∃ rest,
        RightReply (nonceB64 rngState) sock.incoming rest ∧
          (doHandshake sock rngState host port path).2.sock.map Sock.incoming =
            some rest

/-- The nonce and the GUID have 60 bytes together. -/
theorem nonceB64_short (rngState : UInt32) :
    (nonceB64 rngState).length ≤ 91 := by
  rw [nonceB64_length]
  decide

/-- Where the request goes out, the client sees the cut lines. -/
theorem doHandshake_iff
    {sock : Socket} {rngState : UInt32} {host path : Bytes} {port : UInt16}
    (short :
      (requestText path host port (nonceB64 rngState)).length < 1024)
    (sent :
      (netSendExact sock
        (requestText path host port (nonceB64 rngState))).1 = true)
    (rest : Bytes) :
    (doHandshake sock rngState host port path).1 = .wsOk ∧
        (doHandshake sock rngState host port path).2.sock.map Sock.incoming =
          some rest ↔
      RightWhenCut (nonceB64 rngState) sock.incoming rest := by
  rcases doHandshake_of_sent short sent with ⟨after, unread, run⟩
  rw [run, ← unread, ← readReply_iff (nonceB64_short rngState)]
  simp only [Option.map_some, Option.some.injEq]

/--
The client accepts exactly the right replies where taking the lines whole and
cutting them come to the same.
-/
theorem acceptsRightReplies_iff
    {sock : Socket} {rngState : UInt32} {host path : Bytes} {port : UInt16}
    (short :
      (requestText path host port (nonceB64 rngState)).length < 1024)
    (sent :
      (netSendExact sock
        (requestText path host port (nonceB64 rngState))).1 = true) :
    AcceptsRightReplies sock rngState host port path ↔
      ∀ rest,
        RightReply (nonceB64 rngState) sock.incoming rest ↔
          RightWhenCut (nonceB64 rngState) sock.incoming rest := by
  have accepted := doHandshake_iff short sent
  have leaves :
      ∃ last,
        (doHandshake sock rngState host port path).2.sock.map Sock.incoming =
          some last := by
    rcases doHandshake_of_sent short sent with ⟨after, _, run⟩
    rw [run]
    exact ⟨_, rfl⟩
  constructor
  · intro accepts rest
    constructor
    · intro right
      have code := accepts.code.mpr ⟨rest, right⟩
      rcases accepts.consumed code with ⟨last, alsoRight, left⟩
      rw [right.unique alsoRight]
      exact (accepted last).mp ⟨code, left⟩
    · intro cut
      rcases (accepted rest).mpr cut with ⟨code, left⟩
      rcases accepts.consumed code with ⟨last, right, alsoLeft⟩
      rw [left, Option.some.injEq] at alsoLeft
      rw [alsoLeft]
      exact right
  · intro same
    have ends
        (code : (doHandshake sock rngState host port path).1 = .wsOk) :
        ∃ rest,
          RightReply (nonceB64 rngState) sock.incoming rest ∧
            (doHandshake sock rngState host port path).2.sock.map
              Sock.incoming = some rest := by
      rcases leaves with ⟨last, left⟩
      exact ⟨last, (same last).mpr ((accepted last).mp ⟨code, left⟩), left⟩
    refine ⟨⟨fun code => ?_, ?_⟩, ends⟩
    · rcases ends code with ⟨rest, right, _⟩
      exact ⟨rest, right⟩
    · rintro ⟨rest, right⟩
      exact ((accepted rest).mpr ((same rest).mp right)).1

/-! ## Lines that fit -/

/-- A stream with a block is judged by that block. -/
theorem rightBy_iff
    {line : Bytes → Option (Bytes × Bytes)} {seen : Bytes → Bytes}
    {nonce stream status behind rest : Bytes} {headers : List Bytes}
    (found : line stream = some (status, behind))
    (block : Block line behind headers rest) (last : Bytes) :
    RightBy line seen nonce stream last ↔
      rest = last ∧ Switches nonce (seen status) (headers.map seen) := by
  constructor
  · rintro ⟨otherStatus, otherBehind, otherHeaders, otherFound, otherBlock,
      switches⟩
    rw [found] at otherFound
    cases otherFound
    rcases block.unique otherBlock with ⟨sameHeaders, sameRest⟩
    exact ⟨sameRest, sameHeaders ▸ switches⟩
  · rintro ⟨rfl, switches⟩
    exact ⟨status, behind, headers, found, block, switches⟩

/-- A whole line that leaves room for its end is not cut. -/
theorem cutLine_of_short
    {stream line rest : Bytes} (found : wholeLine stream = some (line, rest))
    (short : line.length + 1 < 2047) :
    lineOf some 2047 [] stream = some (line, rest) := by
  rcases exists_of_wholeLine found with ⟨text, oneLine, rfl, rfl⟩
  have fits : text.length < 2047 := by
    rw [stripCr] at short
    split_ifs at short
    · rw [List.length_dropLast] at short
      omega
    · omega
  rw [lineOf_of_short oneLine some fits, List.nil_append]

theorem cutBlock_of_short
    {stream rest : Bytes} {texts : List Bytes}
    (block : Block wholeLine stream texts rest)
    (short : ∀ line ∈ texts, line.length + 1 < 2047) :
    Block (lineOf some 2047 []) stream texts rest := by
  induction block with
  | done found => exact .done (cutLine_of_short found (by decide))
  | more found nonempty _ induction =>
      exact .more
        (cutLine_of_short found (short _ (List.mem_cons_self ..))) nonempty
        (induction fun line member =>
          short line (List.mem_cons_of_mem _ member))

theorem map_cText_of_forall
    {lines : List Bytes} (noNul : ∀ line ∈ lines, 0 ∉ line) :
    lines.map cText = lines := by
  calc lines.map cText
      _ = lines.map id :=
        List.map_congr_left fun line member =>
          cText_of_not_mem (noNul line member)
      _ = lines := List.map_id lines

/-- In particular lines of fewer than 2047 bytes without a NUL are harmless. -/
theorem rightReply_iff_of_short
    {stream status behind rest : Bytes} {headers : List Bytes}
    (found : wholeLine stream = some (status, behind))
    (block : Block wholeLine behind headers rest)
    (short : ∀ line ∈ status :: headers, line.length + 1 < 2047)
    (noNul : ∀ line ∈ status :: headers, 0 ∉ line)
    (nonce last : Bytes) :
    RightReply nonce stream last ↔ RightWhenCut nonce stream last := by
  have statusCut :=
    cutLine_of_short found (short _ (List.mem_cons_self ..))
  have blockCut :=
    cutBlock_of_short block fun line member =>
      short line (List.mem_cons_of_mem _ member)
  have sameStatus : cText status = status :=
    cText_of_not_mem (noNul _ (List.mem_cons_self ..))
  have sameHeaders : headers.map cText = headers :=
    map_cText_of_forall fun line member =>
      noNul line (List.mem_cons_of_mem _ member)
  rw [RightReply, RightWhenCut, rightBy_iff found block,
    rightBy_iff statusCut blockCut, sameStatus, sameHeaders, id, List.map_id]

/-! ## The server's reply -/

/-- The status line of the server. -/
def statusLine : Bytes :=
  ascii "HTTP/1.1 101 Switching Protocols"

/-- A byte that the texts and the encoding lack is in no header. -/
theorem responseHeaders_not_mem
    {byte : UInt8}
    (upgrade : byte ∉ ascii "Upgrade: websocket")
    (connection : byte ∉ ascii "Connection: Upgrade")
    (name : byte ∉ ascii "Sec-WebSocket-Accept: ")
    (other : isBase64Byte byte = false) (nonce : Bytes) :
    ∀ line ∈ responseHeaders (expectedAccept nonce), byte ∉ line := by
  apply forall_responseHeaders
  · exact upgrade
  · exact connection
  · simp only [List.mem_append, not_or]
    exact ⟨name, base64_not_mem other _⟩

theorem responseHeaders_noNul (nonce : Bytes) :
    ∀ line ∈ responseHeaders (expectedAccept nonce), 0 ∉ line :=
  responseHeaders_not_mem (by decide) (by decide) (by decide) (by decide) nonce

theorem responseHeaders_oneLine (nonce : Bytes) :
    ∀ line ∈ responseHeaders (expectedAccept nonce), 10 ∉ line :=
  responseHeaders_not_mem (by decide) (by decide) (by decide) (by decide) nonce

theorem responseHeaders_ne_nil (accept : Bytes) :
    ∀ line ∈ responseHeaders accept, line ≠ [] :=
  forall_responseHeaders (by simp [ascii]) (by simp [ascii]) (by simp [ascii])

theorem responseHeaders_short (nonce : Bytes) :
    ∀ line ∈ responseHeaders (expectedAccept nonce),
      line.length + 1 < 2047 := by
  apply forall_responseHeaders
  · decide
  · decide
  · have name : (ascii "Sec-WebSocket-Accept: ").length = 22 := by decide
    rw [List.length_append, name, expectedAccept_length]
    decide

/-- The server's reply to the nonce is a right one. -/
theorem switches_response {nonce : Bytes} (short : nonce.length ≤ 91) :
    Switches nonce statusLine (responseHeaders (expectedAccept nonce)) := by
  have judged :=
    (checkReply_foldl_iff short
      (show istrContains statusLine (ascii "101") = true by decide +kernel)
      (responseHeaders (expectedAccept nonce))).mp
      (checkReply_responseHeaders nonce)
  rw [cText_of_not_mem (by decide),
    map_cText_of_forall (responseHeaders_noNul nonce)] at judged
  exact judged

/-- Behind its status line the reply is a block. -/
theorem responseText_block (nonce later : Bytes) :
    wholeLine (responseText (expectedAccept nonce) ++ later) =
        some (statusLine,
          (responseHeaders (expectedAccept nonce)).flatMap crlf ++
            (crlf [] ++ later)) ∧
      Block wholeLine
        ((responseHeaders (expectedAccept nonce)).flatMap crlf ++
          (crlf [] ++ later))
        (responseHeaders (expectedAccept nonce)) later := by
  constructor
  · rw [responseText_eq, List.append_assoc, List.append_assoc (List.flatMap ..)]
    exact wholeLine_crlf (by decide) _
  · exact block_crlf (responseHeaders_oneLine nonce)
      (responseHeaders_ne_nil _) later

/-- The server's reply is a right one, whatever comes behind it. -/
theorem rightReply_response
    {nonce : Bytes} (short : nonce.length ≤ 91) (later : Bytes) :
    RightReply nonce (responseText (expectedAccept nonce) ++ later) later := by
  rcases responseText_block nonce later with ⟨found, block⟩
  refine ⟨statusLine, _, _, found, block, ?_⟩
  rw [id, List.map_id]
  exact switches_response short

/-- No line of it is cut. -/
theorem rightReply_iff_response (nonce later last : Bytes) :
    RightReply nonce (responseText (expectedAccept nonce) ++ later) last ↔
      RightWhenCut nonce (responseText (expectedAccept nonce) ++ later)
        last := by
  rcases responseText_block nonce later with ⟨found, block⟩
  apply rightReply_iff_of_short found block
  · intro line member
    rcases List.mem_cons.mp member with rfl | inHeaders
    · decide
    · exact responseHeaders_short nonce line inHeaders
  · intro line member
    rcases List.mem_cons.mp member with rfl | inHeaders
    · decide
    · exact responseHeaders_noNul nonce line inHeaders

/-- The server's reply, followed by the first bytes of a frame. -/
theorem acceptsRightReplies_response :
    AcceptsRightReplies
      (Sock.receiving
        (responseText (expectedAccept (nonceB64 1)) ++ [0x81, 0])
        Segmentation.single)
      1 (ascii "localhost") 8080 (ascii "/ws") :=
  (acceptsRightReplies_iff (by decide +kernel) (by
      rcases netSendExact_eq
          (Sock.receiving
            (responseText (expectedAccept (nonceB64 1)) ++ [0x81, 0])
            Segmentation.single)
          (Sock.receiving_sendsComplete _ _)
          (requestText (ascii "/ws") (ascii "localhost") 8080 (nonceB64 1))
        with ⟨sendCalls, sent⟩
      rw [sent])).mpr
    fun last => rightReply_iff_response (nonceB64 1) [0x81, 0] last

/-! ## A header of 2047 bytes -/

/-- A header that fills the buffer of `net_recv_line`. -/
def longHeader : Bytes :=
  ascii "X-Padding: " ++ List.replicate 2036 120

theorem longHeader_length : longHeader.length = 2047 := by
  rw [longHeader, List.length_append, List.length_replicate]
  decide

theorem longHeader_ne_nil : longHeader ≠ [] :=
  List.ne_nil_of_length_pos (by rw [longHeader_length]; decide)

theorem longHeader_not_mem
    {byte : UInt8} (name : byte ∉ ascii "X-Padding: ") (other : byte ≠ 120) :
    byte ∉ longHeader := by
  rw [longHeader, List.mem_append, not_or]
  exact ⟨name, fun member => other (List.eq_of_mem_replicate member)⟩

/-- What it mentions begins with one of its bytes. -/
theorem longHeader_mentions
    (byte : UInt8) {text : String} {more : Bytes}
    (first : ascii text = byte :: more)
    (name : byte ∉ (ascii "X-Padding: ").map toLower) (other : byte ≠ 120) :
    mentions longHeader text = false := by
  have absent : byte ∉ longHeader.map toLower := by
    rw [longHeader, List.map_append, List.map_replicate, List.mem_append,
      not_or]
    exact ⟨name, fun member => other (List.eq_of_mem_replicate member)⟩
  rw [mentions, first]
  exact occurs_of_not_mem absent

/-- The server's reply with the long header in front of the others. -/
def paddedReply (nonce : Bytes) : Bytes :=
  crlf statusLine ++
    ((longHeader :: responseHeaders (expectedAccept nonce)).flatMap crlf ++
      (crlf [] ++ []))

theorem paddedReply_right {nonce : Bytes} (short : nonce.length ≤ 91) :
    RightReply nonce (paddedReply nonce) [] := by
  have switches := switches_response short
  have noAccept : acceptValue longHeader = none := by
    rw [acceptValue,
      longHeader_mentions 115 rfl (by decide) (by decide)]
    rfl
  refine ⟨statusLine, _, longHeader :: responseHeaders (expectedAccept nonce),
    wholeLine_crlf (by decide) _, block_crlf ?_ ?_ [], ?_⟩
  · intro line member
    rcases List.mem_cons.mp member with rfl | inHeaders
    · exact longHeader_not_mem (by decide) (by decide)
    · exact responseHeaders_oneLine nonce line inHeaders
  · intro line member
    rcases List.mem_cons.mp member with rfl | inHeaders
    · exact longHeader_ne_nil
    · exact responseHeaders_ne_nil _ line inHeaders
  · rw [List.map_id]
    rcases switches.upgrade with ⟨upgradeLine, upgradeMember, upgrade⟩
    rcases switches.connection with
      ⟨connectionLine, connectionMember, connection⟩
    exact
      { status := switches.status
        upgrade := ⟨upgradeLine, List.mem_cons_of_mem _ upgradeMember, upgrade⟩
        connection :=
          ⟨connectionLine, List.mem_cons_of_mem _ connectionMember, connection⟩
        accept := by
          rw [List.filterMap_cons_none noAccept]
          exact switches.accept }

/-- Cut, its long header is followed by an empty line. -/
theorem paddedReply_cut (nonce last : Bytes) :
    ¬ RightWhenCut nonce (paddedReply nonce) last := by
  have status :
      lineOf some 2047 [] (paddedReply nonce) = some (statusLine, _) :=
    cutLine_of_short (wholeLine_crlf (by decide) _) (by decide)
  have long :
      lineOf some 2047 []
          ((longHeader ::
              responseHeaders (expectedAccept nonce)).flatMap crlf ++
            (crlf [] ++ [])) =
        some (longHeader,
          crlf [] ++
            ((responseHeaders (expectedAccept nonce)).flatMap crlf ++
              (crlf [] ++ []))) := by
    have oneLine : 10 ∉ longHeader :=
      longHeader_not_mem (by decide) (by decide)
    have full := lineOf_of_full oneLine some []
      (crlf [] ++ ((responseHeaders (expectedAccept nonce)).flatMap crlf ++
        (crlf [] ++ [])))
    rw [longHeader_length] at full
    rw [List.flatMap_cons, crlf, List.append_assoc, List.append_assoc]
    exact full
  have block :
      Block (lineOf some 2047 [])
        ((longHeader :: responseHeaders (expectedAccept nonce)).flatMap crlf ++
          (crlf [] ++ []))
        [longHeader]
        ((responseHeaders (expectedAccept nonce)).flatMap crlf ++
          (crlf [] ++ [])) :=
    .more long longHeader_ne_nil (.done rfl)
  intro right
  rw [RightWhenCut, rightBy_iff status block] at right
  rcases right.2.upgrade with ⟨line, member, named, _⟩
  rw [List.map_singleton, List.mem_singleton,
    cText_of_not_mem (longHeader_not_mem (by decide) (by decide))] at member
  rw [member, longHeader_mentions 117 rfl (by decide) (by decide)]
    at named
  cases named

/-- The client rejects the right reply, with the key of its nonce in it. -/
theorem paddedReply_is_rejected :
    ¬ AcceptsRightReplies
      (Sock.receiving (paddedReply (nonceB64 1)) Segmentation.single)
      1 (ascii "localhost") 8080 (ascii "/ws") := by
  intro accepts
  have right := paddedReply_right (nonceB64_short 1)
  have code := accepts.code.mpr ⟨[], right⟩
  rcases accepts.consumed code with ⟨last, _, left⟩
  rcases netSendExact_eq
      (Sock.receiving (paddedReply (nonceB64 1)) Segmentation.single)
      (Sock.receiving_sendsComplete _ _)
      (requestText (ascii "/ws") (ascii "localhost") 8080 (nonceB64 1))
    with ⟨sendCalls, sent⟩
  exact paddedReply_cut (nonceB64 1) last
    ((doHandshake_iff (by decide +kernel) (by rw [sent]) last).mp
      ⟨code, left⟩)

end AccelObserver.EndToEnd.HandshakeReplies
