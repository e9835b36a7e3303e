import AccelObserver.Library.CInteger
import AccelObserver.Library.CString
import AccelObserver.Server.ConfLoader

/-!
# The command line

`parse_args` of `cliargsparser.cpp`.  The arguments are those behind the name
of the program; none of them holds a NUL.  An option that takes a value takes
the next argument, whatever it looks like, and an empty string at the end.
The warnings that are printed are left out.
-/

namespace AccelObserver.Server.CliArgs

open AccelObserver.Library
open AccelObserver.Library.CString
open AccelObserver.Server.ConfLoader (protocolTransport qosOrZero)
open AccelObserver.Shared.ConfReaders (trueWords falseWords)

/-! ## Values -/

/-- `parse_port`; 0 means that the value is ignored. -/
def parsePort (s : Bytes) : UInt16 :=
  if s = [] then 0
  else
    match CInteger.strtolDecimal s with
    | none => 0
    | some v =>
        if v.rest ≠ [] ∨ v.value ≤ 0 ∨ 65535 < v.value then 0
        else UInt16.ofNat v.value.toNat

/-- `parse_size`; 0 means that the value is ignored. -/
def parseSize (s : Bytes) : UInt64 :=
  if s = [] then 0
  else
    match CNumber.strtoull s with
    | none => 0
    | some v => if v.rest ≠ [] ∨ v.value = 0 then 0 else v.value

/-- The value of `parse_nonempty`, or the current one where it is empty. -/
def nonemptyOr (s current : Bytes) : Bytes :=
  if s = [] then current else s

/-- `peek_bool`: the value, and whether an argument was taken for it. -/
def peekBool (rest : List Bytes) (defaultVal : Bool) : Bool × Bool :=
  match rest with
  | [] => (defaultVal, false)
  | nxt :: _ =>
      if nxt.head? = some 45 then (defaultVal, false)
      else
        let lv := lower nxt
        if trueWords.contains lv then (true, true)
        else if falseWords.contains lv then (false, true)
        else (defaultVal, false)

/-! ## Options -/

/-- What an argument can be as an option. -/
inductive Flag
  | help
  | config
  | dumpConfig
  | ws
  | mqtt
  | protocol
  | host
  | port
  | topic
  | mqttId
  | mqttUser
  | mqttPass
  | mqttQos
  | mqttWillTopic
  | mqttWillPayload
  | mqttWillQos
  | mqttWillRetain
  | output
  | storepath
  | buf
  | flushMs
  | csvSep
  | log
  | noLogStderr
  | logLevel
  | webiface
  | webhost
  | webport
  | timesource
  | maxAcc
  | seqOptional
  | unknown
  deriving DecidableEq

/-- The names that `parse_args` compares with, in its order. -/
def flagNames : List (Bytes × Flag) :=
  [(ascii "--help", .help), (ascii "-h", .help),
    (ascii "--config", .config), (ascii "--dump-config", .dumpConfig),
    (ascii "--ws", .ws), (ascii "--mqtt", .mqtt),
    (ascii "--protocol", .protocol), (ascii "--host", .host),
    (ascii "--port", .port), (ascii "--topic", .topic),
    (ascii "--mqtt-id", .mqttId), (ascii "--mqtt-user", .mqttUser),
    (ascii "--mqtt-pass", .mqttPass), (ascii "--mqtt-qos", .mqttQos),
    (ascii "--mqtt-will-topic", .mqttWillTopic),
    (ascii "--mqtt-will-payload", .mqttWillPayload),
    (ascii "--mqtt-will-qos", .mqttWillQos),
    (ascii "--mqtt-will-retain", .mqttWillRetain),
    (ascii "--output", .output), (ascii "--storepath", .storepath),
    (ascii "--buf", .buf), (ascii "--flush-ms", .flushMs),
    (ascii "--csv-sep", .csvSep), (ascii "--log", .log),
    (ascii "--no-log-stderr", .noLogStderr), (ascii "--log-level", .logLevel),
    (ascii "--webiface", .webiface), (ascii "--webhost", .webhost),
    (ascii "--webport", .webport), (ascii "--timesource", .timesource),
    (ascii "--max-acc", .maxAcc), (ascii "--seq-optional", .seqOptional)]

def flagOf (a : Bytes) : Flag :=
  (flagNames.lookup a).getD .unknown

/-- The options that call `next()`. -/
def Flag.takesValue : Flag → Bool
  | .config | .protocol | .host | .port | .topic | .mqttId | .mqttUser
  | .mqttPass | .mqttQos | .mqttWillTopic | .mqttWillPayload | .mqttWillQos
  | .output | .storepath | .buf | .flushMs | .csvSep | .log | .logLevel
  | .webhost | .webport | .timesource | .maxAcc => true
  | _ => false

/-- The branch of an option, with the value that `next()` gives. -/
def applyFlag (cfg : Config) (next : Bytes) (rest : List Bytes) :
    Flag → Config
  | .help | .config | .dumpConfig | .unknown => cfg
  | .ws => { cfg with transport := .webSocket }
  | .mqtt => { cfg with transport := .mqtt }
  | .protocol =>
      { cfg with transport := protocolTransport next cfg.transport }
  | .host => { cfg with host := nonemptyOr next cfg.host }
  | .port =>
      let p := parsePort next
      { cfg with port := if p = 0 then cfg.port else p }
  | .topic => { cfg with mqttTopic := nonemptyOr next cfg.mqttTopic }
  | .mqttId => { cfg with mqttClientId := next }
  | .mqttUser => { cfg with mqttUsername := next }
  | .mqttPass => { cfg with mqttPassword := next }
  | .mqttQos => { cfg with mqttQos := qosOrZero (CInteger.atoi next) }
  | .mqttWillTopic =>
      { cfg with mqttWillTopic := nonemptyOr next cfg.mqttWillTopic }
  | .mqttWillPayload => { cfg with mqttWillPayload := next }
  | .mqttWillQos => { cfg with mqttWillQos := qosOrZero (CInteger.atoi next) }
  | .mqttWillRetain => { cfg with mqttWillRetain := (peekBool rest true).1 }
  | .output => { cfg with outputFile := next }
  | .storepath => { cfg with storePath := next }
  | .buf =>
      let v := parseSize next
      if v = 0 then cfg
      else { cfg with bufferCapacity := v, autoBuffer := false }
  | .flushMs =>
      let v := parseSize next
      { cfg with flushIntervalMs := if v = 0 then cfg.flushIntervalMs else v }
  | .csvSep => { cfg with csvSeparator := next }
  | .log => { cfg with logFile := nonemptyOr next cfg.logFile }
  | .noLogStderr => { cfg with logAlsoStderr := false }
  | .logLevel => { cfg with logLevel := nonemptyOr next cfg.logLevel }
  | .webiface => { cfg with webEnabled := (peekBool rest true).1 }
  | .webhost => { cfg with webHost := nonemptyOr next cfg.webHost }
  | .webport =>
      let p := parsePort next
      { cfg with webPort := if p = 0 then cfg.webPort else p }
  | .timesource => { cfg with timesource := nonemptyOr next cfg.timesource }
  | .maxAcc => { cfg with maxAccMs2 := CNumber.atof next }
  | .seqOptional => { cfg with seqOptional := true }

/-- Whether the branch of an option moves on to the next argument. -/
def Flag.consumes (rest : List Bytes) : Flag → Bool
  | .mqttWillRetain | .webiface => (peekBool rest true).2
  | flag => flag.takesValue

/-! ## The loop -/

/-- `parse_args`; `none` is the exit behind the usage text. -/
def parseArgs (cfg : Config) : List Bytes → Option Config
  | [] => some cfg
  | a :: rest =>
      let flag := flagOf a
      if flag = .help then none
      else
        let cfg := applyFlag cfg (rest.headD []) rest flag
        match flag.consumes rest, rest with
        | true, _ :: more => parseArgs cfg more
        | _, rest => parseArgs cfg rest

/-- The arguments behind an option and its value. -/
def Flag.behind (rest : List Bytes) (flag : Flag) : List Bytes :=
  if flag.consumes rest then rest.tail else rest

theorem Flag.length_behind_le (rest : List Bytes) (flag : Flag) :
    (flag.behind rest).length ≤ rest.length := by
  rw [behind]
  split_ifs
  · rw [List.length_tail]
    exact Nat.sub_le _ _
  · exact Nat.le_refl _

theorem Flag.mem_of_mem_behind
    {rest : List Bytes} {flag : Flag} {a : Bytes}
    (member : a ∈ flag.behind rest) : a ∈ rest := by
  rw [behind] at member
  split_ifs at member
  · exact List.mem_of_mem_tail member
  · exact member

/-- One turn of the loop. -/
theorem parseArgs_cons (cfg : Config) (a : Bytes) (rest : List Bytes) :
    parseArgs cfg (a :: rest) =
      if flagOf a = .help then none
      else
        parseArgs (applyFlag cfg (rest.headD []) rest (flagOf a))
          ((flagOf a).behind rest) := by
  rw [parseArgs, Flag.behind]
  split_ifs with help consumes
  · rfl
  · cases rest <;> simp [consumes]
  · simp [consumes]

/-- What every option keeps is kept by the loop. -/
theorem parseArgs_invariant
    {Invariant : Config → Prop}
    (preserved :
      ∀ cfg next rest flag,
        Invariant cfg → Invariant (applyFlag cfg next rest flag))
    {cfg resolved : Config} {args : List Bytes} (holds : Invariant cfg)
    (returned : parseArgs cfg args = some resolved) :
    Invariant resolved := by
  induction size : args.length using Nat.strong_induction_on
    generalizing cfg args with
  | _ size induction =>
    cases args with
    | nil =>
        cases returned
        exact holds
    | cons a rest =>
        rw [parseArgs_cons] at returned
        split_ifs at returned
        have shorter := (flagOf a).length_behind_le rest
        rw [List.length_cons] at size
        exact induction _ (by omega) (preserved _ _ _ _ holds) returned rfl

/-- Where nothing asks for the usage text, the loop ends. -/
theorem parseArgs_isSome
    (cfg : Config) {args : List Bytes}
    (noHelp : ∀ a ∈ args, flagOf a ≠ .help) :
    (parseArgs cfg args).isSome = true := by
  induction size : args.length using Nat.strong_induction_on
    generalizing cfg args with
  | _ size induction =>
    cases args with
    | nil => rfl
    | cons a rest =>
        rcases List.forall_mem_cons.mp noHelp with ⟨noHelpHere, noHelpLater⟩
        have shorter := (flagOf a).length_behind_le rest
        rw [List.length_cons] at size
        rw [parseArgs_cons, if_neg noHelpHere]
        refine induction _ (by omega) _ ?_ rfl
        intro later member
        exact noHelpLater later (Flag.mem_of_mem_behind member)

/-- A known option stands in the table of the names. -/
theorem mem_flagNames {a : Bytes} (known : flagOf a ≠ .unknown) :
    (a, flagOf a) ∈ flagNames := by
  cases found : flagNames.lookup a with
  | none =>
      rw [flagOf, found] at known
      exact absurd rfl known
  | some flag =>
      rcases List.lookup_eq_some_iff.mp found with ⟨before, after, split, _⟩
      rw [flagOf, found, Option.getD_some, split]
      exact List.mem_append_right _ List.mem_cons_self

/-- The options that ask for the usage text. -/
theorem flagOf_eq_help_iff {a : Bytes} :
    flagOf a = .help ↔ a = ascii "--help" ∨ a = ascii "-h" := by
  constructor
  · intro help
    have names :
        ∀ entry ∈ flagNames, entry.2 = .help →
          entry.1 = ascii "--help" ∨ entry.1 = ascii "-h" := by
      decide
    have known : flagOf a ≠ .unknown := by simp [help]
    exact names _ (mem_flagNames known) help
  · rintro (rfl | rfl) <;> rfl

end AccelObserver.Server.CliArgs
