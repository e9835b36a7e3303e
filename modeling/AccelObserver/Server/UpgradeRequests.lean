import AccelObserver.Library.FirstMatch
import AccelObserver.Server.WebUpgrade

/-!
# Upgrade requests

A request is a request line and headers, and an empty line behind them.  The
colon of a header ends its name; the blanks behind the colon are counted, and
the value is what follows them.

What the two servers make of a request is said here header by header.  Each of
them looks for a text with a colon in it, so either the text ends a name and
its colon is the colon of the header, or it is inside a value.
-/

namespace AccelObserver.Server.UpgradeRequests

open AccelObserver.Library
open AccelObserver.Library.Channel
open AccelObserver.Library.CNumber (toLower)
open AccelObserver.Library.CString (lower)
open AccelObserver.Library.Search
open AccelObserver.Library.Text
open AccelObserver.Server.WebUpgrade
open AccelObserver.Server.WsHandshake
open AccelObserver.Server.WsSubscriber (Socket sendExact_eq)

/-- A byte that is no end of a line and no NUL. -/
def isLineByte (byte : UInt8) : Bool :=
  byte != 13 && byte != 10 && byte != 0

structure Header where
  name : Bytes
  blanks : Nat
  value : Bytes
  nameBytes : ∀ byte ∈ name, isLineByte byte = true ∧ byte ≠ 58
  valueBytes : ∀ byte ∈ value, isLineByte byte = true
  /-- The blanks have all been counted. -/
  bare : value.head? ≠ some 32

/-- What is behind the colon. -/
def Header.behind (header : Header) : Bytes :=
  List.replicate header.blanks 32 ++ header.value

def Header.line (header : Header) : Bytes :=
  header.name ++ 58 :: header.behind

/-- The request line and the headers. -/
def linesOf (requestLine : Bytes) (headers : List Header) : List Bytes :=
  requestLine :: headers.map Header.line

def textOf (requestLine : Bytes) (headers : List Header) : Bytes :=
  (linesOf requestLine headers).flatMap Lines.crlf ++ Lines.crlf []

structure Request where
  requestLine : Bytes
  headers : List Header
  requestLineBytes : ∀ byte ∈ requestLine, isLineByte byte = true
  short : (textOf requestLine headers).length < 4096

def Request.text (request : Request) : Bytes :=
  textOf request.requestLine request.headers

/-- The name in another case, and any number of blanks. -/
def SameField (header other : Header) : Prop :=
  lower other.name = lower header.name ∧ other.value = header.value

/-- The request with the case of names and the blanks changed. -/
structure Variant (request other : Request) : Prop where
  requestLine : other.requestLine = request.requestLine
  headers : List.Forall₂ SameField request.headers other.headers

/-! ## Bytes of lines -/

theorem isLineByte_behind
    (header : Header) : ∀ byte ∈ header.behind, isLineByte byte = true := by
  intro byte member
  rcases List.mem_append.mp member with blank | inValue
  · rw [List.eq_of_mem_replicate blank]
    rfl
  · exact header.valueBytes byte inValue

theorem isLineByte_line
    (header : Header) : ∀ byte ∈ header.line, isLineByte byte = true := by
  intro byte member
  rcases List.mem_append.mp member with inName | colonOrBehind
  · exact (header.nameBytes byte inName).1
  · rcases List.mem_cons.mp colonOrBehind with rfl | inBehind
    · rfl
    · exact isLineByte_behind header byte inBehind

theorem line_ne_nil (header : Header) : header.line ≠ [] := by
  simp [Header.line]

theorem isLineByte_linesOf
    {requestLine : Bytes}
    (requestLineBytes : ∀ byte ∈ requestLine, isLineByte byte = true)
    (headers : List Header) :
    ∀ line ∈ linesOf requestLine headers, ∀ byte ∈ line,
      isLineByte byte = true := by
  intro line member
  rcases List.mem_cons.mp member with rfl | inHeaders
  · exact requestLineBytes
  · rcases List.mem_map.mp inHeaders with ⟨header, _, rfl⟩
    exact isLineByte_line header

theorem not_mem_of_isLineByte
    {line : Bytes} (lineBytes : ∀ byte ∈ line, isLineByte byte = true)
    {byte : UInt8} (special : isLineByte byte = false) : byte ∉ line := by
  intro member
  rw [lineBytes byte member] at special
  cases special

/-! ## A name in front of a colon -/

/-- The text is the end of the name. -/
def endsWith (text : String) (name : Bytes) : Bool :=
  (ascii text).isSuffixOf name

/-- A text with a colon, in a header: its name and the rest, or its value. -/
theorem findAfterBy_line
    {same : UInt8 → UInt8} (colon : same 58 = 58) (blank : same 32 = 32)
    (onlyColon : ∀ byte, isLineByte byte = true → byte ≠ 58 → same byte ≠ 58)
    {name : Bytes} (noColon : 58 ∉ name) (visible : ∃ first more,
      name = first :: more ∧ first ≠ 32)
    (tail : Bytes) (header : Header) :
    findAfterBy same (name ++ 58 :: tail) header.line =
      if name <:+ header.name.map same ∧ tail <+: header.behind.map same then
        some (header.behind.drop tail.length)
      else findAfterBy same (name ++ 58 :: tail) header.value := by
  have nameNoColon : 58 ∉ header.name.map same := by
    intro member
    rcases List.mem_map.mp member with ⟨byte, inName, mapped⟩
    rcases header.nameBytes byte inName with ⟨lineByte, other⟩
    exact onlyColon byte lineByte other mapped
  have blanks :
      findAfterBy same (name ++ 58 :: tail) header.behind =
        findAfterBy same (name ++ 58 :: tail) header.value := by
    rcases visible with ⟨first, more, rfl, other⟩
    exact findAfterBy_replicate (by rw [blank]; exact Ne.symm other) _ _
  rw [Header.line, findAfterBy_mark noColon colon nameNoColon, blanks]

theorem id_onlyColon (byte : UInt8) (_ : isLineByte byte = true)
    (other : byte ≠ 58) : id byte ≠ 58 := other

theorem toLower_onlyColon (byte : UInt8) (_ : isLineByte byte = true)
    (other : byte ≠ 58) : toLower byte ≠ 58 := by
  have table : ∀ byte, byte ≠ 58 → toLower byte ≠ 58 :=
    forall_byte (by decide +kernel)
  exact table byte other

/-- The blank behind the colon is there where blanks are counted. -/
theorem blank_prefix_behind (header : Header) {same : UInt8 → UInt8}
    (blank : same 32 = 32)
    (onlyBlank : ∀ byte, byte ≠ 32 → same byte ≠ 32) :
    ([32] : Bytes) <+: header.behind.map same ↔ 0 < header.blanks := by
  rw [Header.behind]
  cases blanks : header.blanks with
  | succ blanks => simp [List.replicate_succ, List.cons_prefix_cons, blank]
  | zero =>
      rw [List.replicate_zero, List.nil_append]
      have bare := header.bare
      cases value : header.value with
      | nil => simp
      | cons byte value =>
          rw [value, List.head?_cons, ne_eq, Option.some.injEq] at bare
          have other := onlyBlank byte bare
          simp [List.cons_prefix_cons, Ne.symm other]

/-- Blanks in front of a value are trimmed with it. -/
theorem trim_behind
    {front back : UInt8 → Bool} (blank : front 32 = true) (count : Nat)
    (value : Bytes) :
    ((List.replicate count 32 ++ value).dropWhile front).rdropWhile back =
      (value.dropWhile front).rdropWhile back := by
  rw [List.dropWhile_append_of_pos]
  intro byte member
  rw [List.eq_of_mem_replicate member, blank]

/-! ## What `WsSubscriber` reads -/

/-- The value names the key, in one of the two spellings. -/
def mentionsKey (value : Bytes) : Bool :=
  occurs (ascii "Sec-WebSocket-Key:") value ||
    occurs (ascii "Sec-Websocket-Key:") value

/-- The header is taken for the one with the key. -/
def subTakes (header : Header) : Bool :=
  endsWith "Sec-WebSocket-Key" header.name ||
    endsWith "Sec-Websocket-Key" header.name || mentionsKey header.value

/-- The key that a header gives. -/
def subKeyOf (header : Header) : Option Bytes :=
  if subTakes header then some (trim header.value) else none

/-- A text that ends with the colon, in a header. -/
theorem occurs_line
    {name : Bytes} (noColon : 58 ∉ name)
    (visible : ∃ first more, name = first :: more ∧ first ≠ 32)
    (header : Header) :
    occurs (name ++ [58]) header.line =
      (name.isSuffixOf header.name || occurs (name ++ [58]) header.value) := by
  rw [occurs, ← findAfterBy_id,
    findAfterBy_line rfl rfl id_onlyColon noColon visible, List.map_id,
    List.map_id]
  by_cases named : name <:+ header.name
  · rw [if_pos ⟨named, List.nil_prefix⟩, List.isSuffixOf_iff_suffix.mpr named]
    rfl
  · have notNamed : name.isSuffixOf header.name = false := by
      rw [← Bool.not_eq_true, List.isSuffixOf_iff_suffix]
      exact named
    rw [if_neg fun both => named both.1, notNamed, findAfterBy_id,
      Bool.false_or, occurs]

theorem readHeader_line (wsKey : Bytes) (header : Header) :
    readHeader wsKey header.line =
      if subTakes header then trim header.value else wsKey := by
  have colon :
      findAfter (ascii ":") header.line = some header.behind := by
    have noColon : 58 ∉ header.name := fun member =>
      (header.nameBytes 58 member).2 rfl
    exact findAfter_of_eq_append noColon [] rfl
  have takes :
      (occurs (ascii "Sec-WebSocket-Key:") header.line ||
          occurs (ascii "Sec-Websocket-Key:") header.line) =
        subTakes header := by
    have upper :
        occurs (ascii "Sec-WebSocket-Key:") header.line =
          (endsWith "Sec-WebSocket-Key" header.name ||
            occurs (ascii "Sec-WebSocket-Key:") header.value) :=
      @occurs_line (ascii "Sec-WebSocket-Key") (by decide)
        ⟨_, _, rfl, by decide⟩ header
    have mixed :
        occurs (ascii "Sec-Websocket-Key:") header.line =
          (endsWith "Sec-Websocket-Key" header.name ||
            occurs (ascii "Sec-Websocket-Key:") header.value) :=
      @occurs_line (ascii "Sec-Websocket-Key") (by decide)
        ⟨_, _, rfl, by decide⟩ header
    rw [upper, mixed, subTakes, mentionsKey]
    cases endsWith "Sec-WebSocket-Key" header.name <;>
      cases endsWith "Sec-Websocket-Key" header.name <;>
      cases occurs (ascii "Sec-WebSocket-Key:") header.value <;> rfl
  have trimmed : trim header.behind = trim header.value :=
    trim_behind rfl header.blanks header.value
  rw [readHeader, takes, colon]
  simp only [trimmed]

/-- The last header that gives a key decides. -/
theorem foldl_readHeader_eq (headers : List Header) :
    (headers.map Header.line).foldl readHeader [] =
      (headers.reverse.findSome? subKeyOf).getD [] := by
  induction headers using List.reverseRecOn with
  | nil => rfl
  | append_singleton headers header induction =>
      rw [List.map_append, List.foldl_append, List.map_singleton,
        List.foldl_cons, List.foldl_nil, readHeader_line, induction,
        List.reverse_append, List.reverse_singleton, List.singleton_append,
        List.findSome?_cons]
      by_cases takes : subTakes header = true
      · rw [if_pos takes, subKeyOf, if_pos takes]
        rfl
      · rw [if_neg takes, subKeyOf, if_neg takes]

/-! ## What `WebInterface` reads -/

/-- The key that a text gives, by the name as it is written. -/
def exactIn (text : Bytes) : Option Bytes :=
  (findAfterBy id (ascii "Sec-WebSocket-Key: ") text).map webTrim

/-- The key that a text gives, in any case. -/
def anyCaseIn (text : Bytes) : Option Bytes :=
  (findAfterBy toLower (ascii "sec-websocket-key: ") text).map webTrim

/-- The key that a header gives, by the name as it is written. -/
def exactOf (header : Header) : Option Bytes :=
  if endsWith "Sec-WebSocket-Key" header.name && 0 < header.blanks then
    some (webTrim header.value)
  else exactIn header.value

/-- The key that a header gives, in any case. -/
def anyCaseOf (header : Header) : Option Bytes :=
  if endsWith "sec-websocket-key" (lower header.name) && 0 < header.blanks then
    some (webTrim header.value)
  else anyCaseIn header.value

/-- The blank that belongs to the name is not missed. -/
theorem webTrim_behind {header : Header} (blank : 0 < header.blanks) :
    webTrim (header.behind.drop 1) = webTrim header.value := by
  rw [Header.behind]
  cases counted : header.blanks with
  | zero =>
      rw [counted] at blank
      cases blank
  | succ blanks =>
      exact @trim_behind isTrimmed isTrimmed rfl blanks header.value

theorem endsWith_iff (text : String) (name : Bytes) :
    endsWith text name = true ↔ ascii text <:+ name :=
  List.isSuffixOf_iff_suffix

/-- A header gives the key of its name, or else one in its value. -/
theorem findAfterBy_key
    {same : UInt8 → UInt8} (colon : same 58 = 58) (blank : same 32 = 32)
    (onlyColon : ∀ byte, isLineByte byte = true → byte ≠ 58 → same byte ≠ 58)
    (onlyBlank : ∀ byte, byte ≠ 32 → same byte ≠ 32)
    {name : Bytes} (noColon : 58 ∉ name)
    (visible : ∃ first more, name = first :: more ∧ first ≠ 32)
    (header : Header) :
    (findAfterBy same (name ++ [58, 32]) header.line).map webTrim =
      if name.isSuffixOf (header.name.map same) && 0 < header.blanks then
        some (webTrim header.value)
      else (findAfterBy same (name ++ [58, 32]) header.value).map webTrim := by
  rw [findAfterBy_line colon blank onlyColon noColon visible [32]]
  by_cases both :
      name <:+ header.name.map same ∧
        ([32] : Bytes) <+: header.behind.map same
  · have blanks := (blank_prefix_behind header blank onlyBlank).mp both.2
    rw [if_pos both, if_pos (by
      simp [List.isSuffixOf_iff_suffix.mpr both.1, blanks]),
      Option.map_some, List.length_singleton, webTrim_behind blanks]
  · rw [if_neg both, if_neg]
    intro named
    rw [Bool.and_eq_true, List.isSuffixOf_iff_suffix, decide_eq_true_eq]
      at named
    have blanks := (blank_prefix_behind header blank onlyBlank).mpr named.2
    exact both ⟨named.1, blanks⟩

theorem exactIn_line (header : Header) :
    exactIn header.line = exactOf header := by
  have read :=
    findAfterBy_key rfl rfl id_onlyColon (fun _ other => other)
      (show 58 ∉ ascii "Sec-WebSocket-Key" by decide) ⟨_, _, rfl, by decide⟩
      header
  rw [List.map_id] at read
  exact read

theorem toLower_onlyBlank (byte : UInt8) (other : byte ≠ 32) :
    toLower byte ≠ 32 := by
  have table : ∀ byte, byte ≠ 32 → toLower byte ≠ 32 :=
    forall_byte (by decide +kernel)
  exact table byte other

theorem anyCaseIn_line (header : Header) :
    anyCaseIn header.line = anyCaseOf header :=
  findAfterBy_key (by decide) (by decide) toLower_onlyColon toLower_onlyBlank
    (show 58 ∉ ascii "sec-websocket-key" by decide) ⟨_, _, rfl, by decide⟩
    header

/-- The header asks for the upgrade by its name and its value. -/
def asksUpgrade (header : Header) : Bool :=
  (ascii "websocket").isPrefixOf header.value ||
    (ascii "WebSocket").isPrefixOf header.value

/-- The header is taken for the one that asks for the upgrade. -/
def upgradeOf (header : Header) : Bool :=
  (endsWith "Upgrade" header.name && header.blanks == 1 &&
    asksUpgrade header) || isWs header.value

/-- One blank in front of the word, and the value begins with it. -/
theorem blank_word_iff (header : Header) {first : UInt8} {more : Bytes}
    (visible : first ≠ 32) :
    32 :: first :: more <+: header.behind ↔
      header.blanks = 1 ∧ first :: more <+: header.value := by
  rw [Header.behind]
  rcases counted : header.blanks with _ | _ | blanks
  · have bare := header.bare
    rw [List.replicate_zero, List.nil_append]
    constructor
    · rintro ⟨rest, split⟩
      rw [← split] at bare
      exact absurd rfl bare
    · rintro ⟨impossible, _⟩
      cases impossible
  · simp [List.cons_prefix_cons]
  · simp [List.replicate_succ, List.cons_prefix_cons, visible]

theorem occurs_upgrade
    {word : Bytes}
    (visible : ∃ first more, word = first :: more ∧ first ≠ 32)
    (header : Header) :
    occurs (ascii "Upgrade" ++ 58 :: 32 :: word) header.line =
      ((endsWith "Upgrade" header.name && header.blanks == 1 &&
          word.isPrefixOf header.value) ||
        occurs (ascii "Upgrade" ++ 58 :: 32 :: word) header.value) := by
  have read :=
    findAfterBy_line rfl rfl id_onlyColon
      (show 58 ∉ ascii "Upgrade" by decide) ⟨_, _, rfl, by decide⟩
      (32 :: word) header
  rw [List.map_id, List.map_id] at read
  rw [occurs, ← findAfterBy_id, read]
  have meets :
      32 :: word <+: header.behind ↔
        header.blanks = 1 ∧ word <+: header.value := by
    rcases visible with ⟨first, more, rfl, other⟩
    exact blank_word_iff header other
  by_cases named :
      ascii "Upgrade" <:+ header.name ∧ 32 :: word <+: header.behind
  · have blanks := meets.mp named.2
    have whole :
        (endsWith "Upgrade" header.name && header.blanks == 1 &&
          word.isPrefixOf header.value) = true := by
      rw [(endsWith_iff _ _).mpr named.1, blanks.1,
        List.isPrefixOf_iff_prefix.mpr blanks.2]
      rfl
    rw [if_pos named, whole]
    rfl
  · have notWhole :
        (endsWith "Upgrade" header.name && header.blanks == 1 &&
          word.isPrefixOf header.value) = false := by
      rw [← Bool.not_eq_true]
      intro whole
      rw [Bool.and_eq_true, Bool.and_eq_true, endsWith_iff, beq_iff_eq,
        List.isPrefixOf_iff_prefix] at whole
      exact named ⟨whole.1.1, meets.mpr ⟨whole.1.2, whole.2⟩⟩
    rw [if_neg named, notWhole, findAfterBy_id, Bool.false_or, occurs]

theorem isWs_line (header : Header) : isWs header.line = upgradeOf header := by
  have small :
      occurs (ascii "Upgrade: websocket") header.line =
        ((endsWith "Upgrade" header.name && header.blanks == 1 &&
            (ascii "websocket").isPrefixOf header.value) ||
          occurs (ascii "Upgrade: websocket") header.value) :=
    @occurs_upgrade (ascii "websocket") ⟨_, _, rfl, by decide⟩ header
  have large :
      occurs (ascii "Upgrade: WebSocket") header.line =
        ((endsWith "Upgrade" header.name && header.blanks == 1 &&
            (ascii "WebSocket").isPrefixOf header.value) ||
          occurs (ascii "Upgrade: WebSocket") header.value) :=
    @occurs_upgrade (ascii "WebSocket") ⟨_, _, rfl, by decide⟩ header
  rw [isWs, small, large, upgradeOf, asksUpgrade, isWs]
  cases endsWith "Upgrade" header.name <;>
    cases header.blanks == 1 <;>
    cases (ascii "websocket").isPrefixOf header.value <;>
    cases (ascii "WebSocket").isPrefixOf header.value <;>
    cases occurs (ascii "Upgrade: websocket") header.value <;> rfl

end AccelObserver.Server.UpgradeRequests
