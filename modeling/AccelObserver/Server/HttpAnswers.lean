import AccelObserver.Library.FixedFormat
import AccelObserver.Library.HttpMessage
import AccelObserver.Server.DeviceFrame
import AccelObserver.Server.UpgradeAnswers

/-!
# The answers of the web interface to plain requests

`extract_path` and `do_http_response`.  A request that is no upgrade is
answered with a JSON object, about the health of the server or about where the
stream is found, and the connection is closed.

The host is put between the quotes as it is, and the whole object into a
buffer of 256 bytes.
-/

namespace AccelObserver.Server.HttpAnswers

open AccelObserver.Library
open AccelObserver.Library.Channel
open AccelObserver.Library.CNumber
open AccelObserver.Library.CString (Bare cText trim trim_of_bare)
open AccelObserver.Library.Decimal
open AccelObserver.Library.FixedFormat
open AccelObserver.Library.HttpMessage (Response field valuesOf)
open AccelObserver.Library.Lines (crlf)
open AccelObserver.Server.DeviceFrame
open AccelObserver.Server.UpgradeAnswers
open AccelObserver.Server.UpgradeRequests
open AccelObserver.Server.WebPongs (sendRaw)
open AccelObserver.Server.WebUpgrade
open AccelObserver.Server.WsSubscriber (Socket)

/-- The members of `WebInterface` that the answer shows. -/
structure WebAddress where
  host : Bytes
  port : UInt16

/-- `extract_path` -/
def extractPath (request : Bytes) : Bytes :=
  match request.dropWhile (· != 32) with
  | [] => ascii "/"
  | _ :: behind =>
      if 32 ∈ behind then behind.takeWhile (· != 32) else ascii "/"

/-- What is printed for the host. -/
def shownHost (web : WebAddress) : Bytes :=
  if web.host = [] then ascii "localhost" else cText web.host

/-- Where the stream is found. -/
def streamUrl (web : WebAddress) : Bytes :=
  ascii "ws://" ++ shownHost web ++ 58 :: (decimal web.port.toNat ++ [47])

/-- The format up to the address. -/
def statusStart : Bytes :=
  ascii "\x7b\"server\":\"data_subscriber\",\"version\":\"3\",\"ws\":\""

/-- What `snprintf` makes of the format. -/
def statusText (web : WebAddress) (clients : Nat) : Bytes :=
  statusStart ++ streamUrl web ++ ascii "\",\"clients\":" ++
    decimal clients ++ ascii "\x7d"

/-- `body`; `buf` keeps 255 bytes of the text. -/
def httpBody (web : WebAddress) (clients : Nat) (path : Bytes) : Bytes :=
  if path = ascii "/health" then ascii "\x7b\"status\":\"ok\"\x7d"
  else (statusText web clients).take 255

/-- The lines between the status line and the empty one. -/
def httpLines (body : Bytes) : List Bytes :=
  [ascii "Content-Type: application/json",
    ascii "Content-Length: " ++ decimal body.length,
    ascii "Access-Control-Allow-Origin: *",
    ascii "Access-Control-Allow-Methods: GET", ascii "Connection: close"]

/-- `resp` -/
def httpText (body : Bytes) : Bytes :=
  crlf (ascii "HTTP/1.1 200 OK") ++
    ((httpLines body).flatMap crlf ++ (crlf [] ++ body))

/-- `do_http_response` -/
def doHttpResponse (web : WebAddress) (clients : Nat) (path : Bytes)
    (sock : Socket) : Bool × Socket :=
  sendRaw sock (httpText (httpBody web clients path))

/-- `handle_client` up to the end of its answer; the request that is answered
is the one that `upgradePath` has read. -/
def answerRequest (web : WebAddress) (clients : Nat) (sock : Socket) :
    UpgradeResult × Socket :=
  let (result, after) := upgradePath sock
  if result = .http then
    (.http,
      (doHttpResponse web clients (extractPath (readRequest sock).1) after).2)
  else (result, after)

/-! ## The path -/

/-- The path is the second word of the request. -/
theorem extractPath_of_words
    {method path : Bytes} (oneWord : 32 ∉ method) (onePath : 32 ∉ path)
    (behind : Bytes) :
    extractPath (method ++ 32 :: (path ++ 32 :: behind)) = path := by
  have kept {word : Bytes} (blankless : 32 ∉ word) :
      ∀ byte ∈ word, (byte != 32) = true := fun byte member =>
    bne_iff_ne.mpr (ne_of_mem_of_not_mem member blankless)
  have dropped :
      (method ++ 32 :: (path ++ 32 :: behind)).dropWhile (· != 32) =
        32 :: (path ++ 32 :: behind) := by
    rw [List.dropWhile_append_of_pos (kept oneWord)]
    rfl
  rw [extractPath, dropped]
  dsimp only
  rw [if_pos (by simp)]
  exact CString.takeWhile_append_cons (kept onePath) rfl behind

/-! ## The response -/

theorem quiet_of_isPrintedByte :
    ∀ byte, isPrintedByte byte = true →
      isSpace byte = false ∧ byte ≠ 10 ∧ byte ≠ 125 ∧
        Json.isPlain byte = true ∧ byte < 128 :=
  forall_byte (by decide +kernel)

theorem quiet_of_mem_decimal
    {n : Nat} {byte : UInt8} (member : byte ∈ decimal n) :
    isSpace byte = false ∧ byte ≠ 10 ∧ byte ≠ 125 ∧
      Json.isPlain byte = true ∧ byte < 128 :=
  quiet_of_isPrintedByte byte (isPrintedByte_of_mem_decimal member)

theorem trim_decimal (n : Nat) : trim (32 :: decimal n) = decimal n := by
  have bare : Bare (decimal n) :=
    ⟨fun byte first =>
        (quiet_of_mem_decimal (List.mem_of_mem_head? first)).1,
      fun byte last => (quiet_of_mem_decimal (List.mem_of_getLast? last)).1⟩
  have blank : ∀ byte ∈ ([32] : Bytes), isSpace byte = true :=
    List.forall_mem_singleton.mpr rfl
  have none : ∀ byte ∈ ([] : Bytes), isSpace byte = true := by simp
  have trimmed := trim_of_bare bare blank none
  rwa [List.append_nil, List.singleton_append] at trimmed

/-- The only field for the length tells the length of the body. -/
theorem httpText_measured (body : Bytes) :
    Response.Measured
      ⟨ascii "HTTP/1.1 200 OK", (httpLines body).map field, body⟩ := by
  have length :
      field (ascii "Content-Length: " ++ decimal body.length) =
        (ascii "content-length", decimal body.length) := by
    have split :
        ascii "Content-Length: " ++ decimal body.length =
          ascii "Content-Length" ++ 58 :: (32 :: decimal body.length) := rfl
    have small :
        CString.lower (ascii "Content-Length") = ascii "content-length" := by
      decide +kernel
    rw [split, HttpMessage.field_of_colon (by decide +kernel), trim_decimal,
      small]
  have others :
      ((field (ascii "Content-Type: application/json")).1 ==
          ascii "content-length") = false ∧
        ((field (ascii "Access-Control-Allow-Origin: *")).1 ==
          ascii "content-length") = false ∧
        ((field (ascii "Access-Control-Allow-Methods: GET")).1 ==
          ascii "content-length") = false ∧
        ((field (ascii "Connection: close")).1 ==
          ascii "content-length") = false := by
    decide +kernel
  simp [Response.Measured, valuesOf, httpLines, length, others]

/-- What is sent is read back as the one response. -/
theorem reads_httpText_iff (body : Bytes) (response : Response)
    (rest : Bytes) :
    HttpMessage.Reads (httpText body) response rest ↔
      response =
          ⟨ascii "HTTP/1.1 200 OK", (httpLines body).map field, body⟩ ∧
        rest = [] := by
  apply HttpMessage.reads_iff (by decide +kernel) ?_ ?_
    (httpText_measured body)
  · simp only [httpLines, List.forall_mem_cons, List.mem_append, not_or]
    refine ⟨by decide +kernel, ⟨by decide +kernel, fun member => ?_⟩,
      by decide +kernel, by decide +kernel, by decide +kernel, by simp⟩
    exact (quiet_of_mem_decimal member).2.1 rfl
  · simp [httpLines, ascii]

/-! ## The object -/

/-- The object tells who answers, and where the stream is found. -/
def IsStatus (web : WebAddress) (clients : Nat) (payload : Bytes) : Prop :=
  ∃ members number,
    Json.IsText payload (.object members) ∧
      Json.HasMember members (ascii "server")
        (.string (ascii "data_subscriber")) ∧
      Json.HasMember members (ascii "ws") (.string (streamUrl web)) ∧
      Json.HasMember members (ascii "clients") (.number number) ∧
      number.value = clients

theorem statusStart_append (body : Bytes) :
    statusStart ++ body =
      123 :: 34 :: (ascii "server" ++ 34 :: 58 :: 34 ::
        (ascii "data_subscriber" ++ 34 :: 44 :: 34 ::
          (ascii "version" ++ 34 :: 58 :: 34 :: (ascii "3" ++ 34 :: 44 :: 34 ::
            (ascii "ws" ++ 34 :: 58 :: 34 :: body))))) :=
  rfl

/-- What is between the quote that ends the address and the last brace. -/
def clientsPart (clients : Nat) : Bytes :=
  44 :: 34 :: (ascii "clients" ++ 34 :: 58 :: decimal clients)

theorem statusText_eq (web : WebAddress) (clients : Nat) :
    statusText web clients =
      statusStart ++
        (streamUrl web ++ 34 :: (clientsPart clients ++ [125])) := by
  have part :
      ascii "\",\"clients\":" =
        34 :: 44 :: 34 :: (ascii "clients" ++ [34, 58]) := rfl
  rw [statusText, part, clientsPart]
  simp [ascii]

/-- The brace that ends the object is behind the address. -/
theorem exists_of_parseValue_status
    {steps : Nat} {body rest : Bytes} {members : List (Bytes × Json)}
    (parsed :
      Json.parseValue steps (statusStart ++ body) =
        some (.object members, rest)) :
    ∃ bound url behind,
      Json.scanString bound body = some (url, behind) ∧ 125 ∈ behind ∧
        (ascii "ws", .string url) ∈ members := by
  rw [statusStart_append] at parsed
  rcases Json.exists_parseMembers parsed with ⟨fewer, found, inside, same⟩
  cases same
  rcases Json.parseMembers_plain_eq_some (by decide) (by decide) inside
    with ⟨fewer, fromVersion, insideVersion, isServer⟩
  rcases Json.parseMembers_plain_eq_some (by decide) (by decide)
      insideVersion
    with ⟨fewer, fromUrl, insideUrl, isVersion⟩
  rcases Json.parseMembers_string_eq_some (by decide) insideUrl with
    ⟨bound, fewer, url, behind, scanned, ends⟩
  refine ⟨bound, url, behind, scanned, ?_, ?_⟩
  · rcases ends with ⟨more, later, comma, parsedLater, _⟩ | ⟨brace, _⟩
    · exact (Json.suffix_of_expect comma (List.suffix_refl _)).mem
        (Json.brace_mem_of_parseMembers fewer parsedLater)
    · exact (Json.expect_suffix brace).mem List.mem_cons_self
  · rw [isServer, isVersion]
    rcases ends with ⟨_, later, _, _, isUrl⟩ | ⟨_, isUrl⟩ <;>
      simp [isUrl]

/-- The object of the answer, with its four members. -/
theorem parseValue_status
    {url : Bytes} (plain : url.all Json.isPlain = true) (clients : Nat) :
    Json.parseValue (url.length + 30)
        (statusStart ++ (url ++ 34 :: (clientsPart clients ++ [125]))) =
      some
        (.object
          [(ascii "server", .string (ascii "data_subscriber")),
            (ascii "version", .string (ascii "3")),
            (ascii "ws", .string url),
            (ascii "clients", .number (wholeNumber clients))], []) := by
  have last :=
    Json.parseMembers_fields
      (List.Forall₂.cons (isNumeral_decimal clients) .nil :
        List.Forall₂
          (fun field number => Json.IsNumeral field.2 number)
          [(ascii "clients", decimal clients)] [wholeNumber clients])
      (List.forall_mem_singleton.mpr
        (show (ascii "clients").all Json.isPlain = true by decide))
      (List.forall_mem_singleton.mpr
        (show 7 < url.length + 25 by omega))
      (List.cons_ne_nil _ _)
  have behind :
      clientsPart clients ++ [125] =
        44 :: (Json.fieldsText [(ascii "clients", decimal clients)]).tail := by
    simp [clientsPart, Json.fieldsText]
  have named :=
    Json.parseMembers_plain
      (show (ascii "ws").all Json.isPlain = true by decide) plain
      (show 2 < url.length + 25 + 1 by omega) (by omega) last
  have version :=
    Json.parseMembers_plain
      (show (ascii "version").all Json.isPlain = true by decide)
      (show (ascii "3").all Json.isPlain = true by decide)
      (show 7 < url.length + 26 + 1 by omega)
      (show 1 < url.length + 26 by omega) named
  have server :=
    Json.parseMembers_plain
      (show (ascii "server").all Json.isPlain = true by decide)
      (show (ascii "data_subscriber").all Json.isPlain = true by decide)
      (show 6 < url.length + 27 + 1 by omega)
      (show 15 < url.length + 27 by omega) version
  rw [behind, statusStart_append]
  exact Json.parseValue_object server

/-! ## When it can be read -/

/-- The address is plain where the host is. -/
theorem plain_streamUrl_iff (web : WebAddress) :
    (streamUrl web).all Json.isPlain = true ↔
      (shownHost web).all Json.isPlain = true := by
  have scheme : (ascii "ws://").all Json.isPlain = true := by decide
  have port : (decimal web.port.toNat).all Json.isPlain = true :=
    List.all_eq_true.mpr fun _ member => (quiet_of_mem_decimal member).2.2.2.1
  have colon : Json.isPlain 58 = true := by decide
  have slash : Json.isPlain 47 = true := by decide
  simp [streamUrl, List.all_append, scheme, port, colon, slash]

theorem clientsPart_bytes (clients : Nat) :
    ∀ byte ∈ clientsPart clients, byte ≠ 125 ∧ byte < 128 := by
  have name : ∀ byte ∈ ascii "clients", byte ≠ 125 ∧ byte < 128 := by
    decide +kernel
  simp only [clientsPart, List.forall_mem_cons, List.forall_mem_append]
  refine ⟨by decide, by decide, name, by decide, by decide,
    fun byte member => ?_⟩
  rcases quiet_of_mem_decimal member with ⟨-, -, noBrace, -, small⟩
  exact ⟨noBrace, small⟩

theorem small_of_all
    {text : Bytes} (small : text.all (· < 128) = true) :
    ∀ byte ∈ text, byte < 128 := fun byte member =>
  of_decide_eq_true (List.all_eq_true.mp small byte member)

/-- The text is UTF-8 where the host is. -/
theorem validUtf8_statusText_iff (web : WebAddress) (clients : Nat) :
    Json.ValidUtf8 (statusText web clients) ↔
      Json.ValidUtf8 (shownHost web) := by
  have port : ∀ byte ∈ decimal web.port.toNat, byte < 128 :=
    fun _ member => (quiet_of_mem_decimal member).2.2.2.2
  have count : ∀ byte ∈ decimal clients, byte < 128 :=
    fun _ member => (quiet_of_mem_decimal member).2.2.2.2
  have start : ∀ byte ∈ statusStart ++ ascii "ws:/", byte < 128 :=
    small_of_all (by decide +kernel)
  have label : ∀ byte ∈ ascii "\",\"clients\":", byte < 128 :=
    small_of_all (by decide +kernel)
  have split :
      statusText web clients =
        (statusStart ++ ascii "ws:/") ++ 47 :: (shownHost web ++ 58 ::
          (decimal web.port.toNat ++ 47 ::
            (ascii "\",\"clients\":" ++ (decimal clients ++ [125])))) := by
    simp [statusText, streamUrl, ascii]
  rw [split]
  constructor
  · intro valid
    exact ((valid.of_append_cons (by decide)).2.of_append_cons (by decide)).1
  · intro valid
    have front :
        Json.ValidUtf8 ((statusStart ++ ascii "ws:/") ++ [47]) :=
      Json.validUtf8_of_small
        (List.forall_mem_append.mpr
          ⟨start, List.forall_mem_singleton.mpr (by decide)⟩)
    rw [← List.singleton_append, ← List.append_assoc]
    refine front.append (valid.append (Json.validUtf8_of_small ?_))
    simp only [List.forall_mem_cons, List.forall_mem_append]
    exact ⟨by decide, port, by decide, label, count, by decide, by simp⟩

/-- What a right answer asks of the address, and of the room there is. -/
theorem plain_of_isStatus
    {web : WebAddress} {clients : Nat}
    (isStatus : IsStatus web clients ((statusText web clients).take 255)) :
    (streamUrl web).all Json.isPlain = true ∧
      (statusText web clients).length ≤ 255 := by
  rcases isStatus with
    ⟨members, number, ⟨_, steps, rest, parsed, _⟩, _, hasUrl, _⟩
  have start : statusStart.length = 48 := by decide
  rw [statusText_eq, List.take_append, start,
    List.take_of_length_le (by rw [start]; decide)] at parsed
  rcases exists_of_parseValue_status parsed with
    ⟨bound, url, behind, scanned, brace, member⟩
  obtain rfl : url = streamUrl web := by
    have same := hasUrl.eq_of_mem member
    cases same
    rfl
  have whole :=
    Json.scanString_append bound scanned
      ((streamUrl web ++ 34 :: (clientsPart clients ++ [125])).drop
        (255 - 48))
  rw [List.take_append_drop] at whole
  have plain := plain_of_scanString whole
  have noBrace : 125 ∉ clientsPart clients := fun inside =>
    (clientsPart_bytes clients 125 inside).1 rfl
  have fits := fits_of_scanString plain noBrace scanned brace
  refine ⟨plain, ?_⟩
  rw [statusText_eq, List.length_append, start]
  omega

/-- The object is right exactly where the host stands for itself in a string
and the text fits the buffer. -/
theorem isStatus_iff (web : WebAddress) (clients : Nat) :
    IsStatus web clients ((statusText web clients).take 255) ↔
      (shownHost web).all Json.isPlain = true ∧
        Json.ValidUtf8 (shownHost web) ∧
        (statusText web clients).length ≤ 255 := by
  constructor
  · intro isStatus
    rcases plain_of_isStatus isStatus with ⟨plain, fits⟩
    rcases isStatus with ⟨_, _, ⟨valid, _⟩, _⟩
    rw [List.take_of_length_le fits, validUtf8_statusText_iff] at valid
    exact ⟨(plain_streamUrl_iff web).mp plain, valid, fits⟩
  · rintro ⟨plain, valid, fits⟩
    have parsed :=
      parseValue_status ((plain_streamUrl_iff web).mpr plain) clients
    rw [← statusText_eq] at parsed
    rw [List.take_of_length_le fits]
    exact ⟨_, _, ⟨(validUtf8_statusText_iff web clients).mpr valid, _, [],
      parsed, rfl⟩, rfl, rfl, rfl, value_wholeNumber clients⟩

/-! ## The whole way -/

/-- The body for the health is an object with one member. -/
theorem isText_health :
    Json.IsText (ascii "\x7b\"status\":\"ok\"\x7d")
      (.object [(ascii "status", .string (ascii "ok"))]) := by
  have spelled :
      ascii "\x7b\"status\":\"ok\"\x7d" =
        123 :: 34 :: (ascii "status" ++ 34 :: 58 :: 34 ::
          (ascii "ok" ++ 34 :: [125])) := rfl
  have inside :
      Json.parseMembers (9 + 1 + 1)
          (34 :: (ascii "status" ++ 34 :: 58 :: 34 ::
            (ascii "ok" ++ 34 :: [125]))) =
        some ([(ascii "status", .string (ascii "ok"))], []) := by
    rw [Json.parseMembers, Json.expect_cons (by decide), if_pos rfl]
    simp only [Option.bind_eq_bind, Option.bind_some]
    rw [Json.scanString_of_plain (by decide), if_pos (by decide)]
    simp only [Option.bind_some]
    rw [Json.expect_cons (by decide), if_pos rfl]
    simp only [Option.bind_some]
    rw [Json.parseValue_quote, Json.scanString_of_plain (by decide),
      if_pos (by decide)]
    simp only [Option.map_some, Option.bind_some]
    rw [Json.expect_cons (by decide), if_neg (by decide),
      Json.expect_cons (by decide), if_pos rfl]
    rfl
  refine ⟨Json.validUtf8_of_small (small_of_all (by decide +kernel)),
    9 + 1 + 1 + 1, [], ?_, rfl⟩
  rw [spelled]
  exact Json.parseValue_object inside

/--
A request that is no upgrade gets one response, whatever the pieces in which
it comes, and nothing else: the status, the fields and the body that they
measure are read back.  The body is an object in JSON for the health; for any
other path it is one with the address of the stream exactly if the host needs
no escapes and the text fits the buffer.
-/
theorem http_request_answered
    (web : WebAddress) (clients : Nat) (request : Request)
    {method path version : Bytes}
    (requestLine :
      request.requestLine = method ++ 32 :: (path ++ 32 :: version))
    (oneWord : 32 ∉ method) (onePath : 32 ∉ path)
    (noUpgrade : asksWeb request.requestLine request.headers = false)
    {client : Socket} (complete : client.SendsComplete)
    (incoming : client.incoming = request.text) :
    let body := httpBody web clients path
    ∃ sent,
      (answerRequest web clients client).1 = .http ∧
        (answerRequest web clients client).2.outgoing =
          client.outgoing ++ sent ∧
        (∀ response rest,
          HttpMessage.Reads sent response rest ↔
            response =
                ⟨ascii "HTTP/1.1 200 OK", (httpLines body).map field, body⟩ ∧
              rest = []) ∧
        (path = ascii "/health" →
          Json.IsText body
            (.object [(ascii "status", .string (ascii "ok"))])) ∧
        (path ≠ ascii "/health" →
          (IsStatus web clients body ↔
            (shownHost web).all Json.isPlain = true ∧
              Json.ValidUtf8 (shownHost web) ∧
              (statusText web clients).length ≤ 255)) := by
  intro body
  rcases readRequest_text request incoming with ⟨recvCalls, read⟩
  have nonempty : request.text ≠ [] := by
    simp [Request.text, textOf, crlf]
  have plain : isWs request.text = false := (isWs_text request).trans noUpgrade
  have passed :
      upgradePath client =
        (.http, { client with incoming := [], recvCalls := recvCalls }) := by
    simp [upgradePath, read, nonempty, plain]
  have isPath : extractPath request.text = path := by
    rw [Request.text, textOf, linesOf, requestLine, List.flatMap_cons, crlf]
    simp only [List.append_assoc, List.cons_append]
    exact extractPath_of_words oneWord onePath _
  have positive : 0 < (httpText body).length := by
    simp [httpText, crlf]
  rcases sendAll_eq positive (httpText body)
      (show ({ client with incoming := [], recvCalls := recvCalls }
        : Socket).SendsComplete from complete)
    with ⟨sendCalls, sent⟩
  refine ⟨httpText body, ?_, ?_, reads_httpText_iff body, ?_, ?_⟩
  · simp [answerRequest, passed]
  · simp only [answerRequest, passed, if_true, read, isPath, doHttpResponse,
      sendRaw]
    exact congrArg (fun result => result.2.outgoing) sent
  · intro isHealth
    simp only [body, httpBody, if_pos isHealth]
    exact isText_health
  · intro isOther
    simp only [body, httpBody, if_neg isOther]
    exact isStatus_iff web clients

/-- A server in a local network. -/
def lanAddress : WebAddress where
  host := ascii "192.168.0.2"
  port := 8080

def rootRequest : Request where
  requestLine := ascii "GET / HTTP/1.1"
  headers := []
  requestLineBytes := by decide +kernel
  short := by decide +kernel

theorem http_request_answered_rootRequest :
    ∃ sent,
      (answerRequest lanAddress 2
          (Sock.receiving rootRequest.text Segmentation.single)).2.outgoing =
        [] ++ sent ∧
      IsStatus lanAddress 2 (httpBody lanAddress 2 (ascii "/")) := by
  have words :
      rootRequest.requestLine =
        ascii "GET" ++ 32 :: (ascii "/" ++ 32 :: ascii "HTTP/1.1") := rfl
  rcases http_request_answered lanAddress 2 rootRequest words
      (by decide +kernel) (by decide +kernel) (by decide +kernel)
      (Sock.receiving_sendsComplete rootRequest.text Segmentation.single) rfl
    with ⟨sent, -, outgoing, -, -, status⟩
  refine ⟨sent, outgoing, (status (by decide +kernel)).mpr ?_⟩
  exact ⟨by decide +kernel,
    Json.validUtf8_of_small (small_of_all (by decide +kernel)),
    by decide +kernel⟩

end AccelObserver.Server.HttpAnswers
