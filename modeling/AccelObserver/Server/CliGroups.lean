import AccelObserver.Library.Families
import AccelObserver.Server.CliArgs
import AccelObserver.Server.ConfFrame

/-!
# Option groups

An option with the value that belongs to it is a group.  The loop of
`parse_args` finds the groups again in their concatenation, whatever the
values are, because every name begins with a dash and a boolean word does not.
Options of different families set different fields, so their groups may be
exchanged.
-/

namespace AccelObserver.Server.CliArgs

open AccelObserver.Library
open AccelObserver.Library.CString
open AccelObserver.Server.ConfFrame (Field)
open AccelObserver.Shared.ConfReaders (SpellsBool trueWords falseWords)

/-! ## Groups -/

/-- The three options for the transport are one family. -/
def Flag.family : Flag → Flag
  | .ws | .mqtt | .protocol => .protocol
  | flag => flag

/-- Whether an option stands with this value, or without one. -/
def Flag.Admits (flag : Flag) : Option Bytes → Prop
  | none => flag.takesValue = false
  | some value =>
      flag.takesValue = true ∨
        (flag = .webiface ∨ flag = .mqttWillRetain) ∧ SpellsBool value

/-- A known option, other than the ones for the usage text, and its value. -/
structure Group where
  option : Bytes
  value : Option Bytes
  known : flagOf option ≠ .unknown
  notHelp : flagOf option ≠ .help
  admitted : (flagOf option).Admits value

/-- The arguments of a group. -/
def Group.tokens (group : Group) : List Bytes :=
  group.option :: group.value.toList

def Group.family (group : Group) : Flag :=
  (flagOf group.option).family

/-- What a group does by itself. -/
def Group.apply (cfg : Config) (group : Group) : Config :=
  applyFlag cfg (group.value.getD []) group.value.toList (flagOf group.option)

/-! ## The loop finds the groups -/

/-- The arguments begin with an option, if there are any. -/
def BeginsWithOption (args : List Bytes) : Prop :=
  ∀ a, args.head? = some a → a.head? = some 45

/-- Every name begins with a dash. -/
theorem head?_of_known {a : Bytes} (known : flagOf a ≠ .unknown) :
    a.head? = some 45 := by
  have names : ∀ entry ∈ flagNames, entry.1.head? = some 45 := by
    decide
  exact names _ (mem_flagNames known)

theorem beginsWithOption_flatMap (groups : List Group) :
    BeginsWithOption (groups.flatMap Group.tokens) := by
  intro a first
  cases groups with
  | nil => cases first
  | cons group rest =>
      rw [List.flatMap_cons, Group.tokens, List.cons_append, List.head?_cons,
        Option.some.injEq] at first
      exact first ▸ head?_of_known group.known

/-- In front of an option, a boolean option takes no argument. -/
theorem peekBool_of_beginsWithOption
    {args : List Bytes} (option : BeginsWithOption args) :
    peekBool args true = (true, false) := by
  cases args with
  | nil => rfl
  | cons a rest => rw [peekBool, if_pos (option a rfl)]

/-- A boolean word is taken. -/
theorem peekBool_of_spellsBool
    {word : Bytes} (isWord : SpellsBool word) (rest : List Bytes) :
    (peekBool (word :: rest) true).2 = true := by
  have noDash : word.head? ≠ some 45 := by
    intro dash
    have lowered : (lower word).head? = some 45 := by
      rw [lower, List.head?_map, dash]
      rfl
    have words : ∀ known ∈ trueWords ++ falseWords, known.head? ≠ some 45 := by
      decide
    exact words (lower word) isWord lowered
  rw [peekBool, if_neg noDash]
  by_cases positive : trueWords.contains (lower word) = true
  · rw [if_pos positive]
  · have negative : falseWords.contains (lower word) = true := by
      rw [List.contains_iff_mem] at positive ⊢
      exact (List.mem_append.mp isWord).resolve_left positive
    rw [if_neg positive, if_pos negative]

/-- An option with its value takes exactly that. -/
theorem consumes_of_admits
    {flag : Flag} {value : Option Bytes} (admitted : flag.Admits value)
    {more : List Bytes} (option : BeginsWithOption more) :
    flag.consumes (value.toList ++ more) = value.isSome := by
  cases value with
  | none =>
      have peeked := congrArg Prod.snd (peekBool_of_beginsWithOption option)
      cases flag <;>
        first
        | exact peeked
        | exact admitted
  | some value =>
      rcases admitted with takes | ⟨boolean, isWord⟩
      · cases flag <;> first | rfl | cases takes
      · rcases boolean with rfl | rfl
        · exact peekBool_of_spellsBool isWord more
        · exact peekBool_of_spellsBool isWord more

/-- What stands behind the group does not matter for it. -/
theorem applyFlag_of_admits
    (cfg : Config) {flag : Flag} {value : Option Bytes}
    (admitted : flag.Admits value) {more : List Bytes}
    (option : BeginsWithOption more) :
    applyFlag cfg ((value.toList ++ more).headD []) (value.toList ++ more)
        flag =
      applyFlag cfg (value.getD []) value.toList flag := by
  cases value with
  | none =>
      have peeked : peekBool more true = peekBool [] true :=
        peekBool_of_beginsWithOption option
      cases flag with
      | webiface | mqttWillRetain =>
          simp only [applyFlag, Option.toList_none, List.nil_append, peeked]
      | _ => first | rfl | cases admitted
  | some value => cases flag <;> rfl

/-- A group is one turn of the loop. -/
theorem parseArgs_group
    (cfg : Config) (group : Group) {more : List Bytes}
    (option : BeginsWithOption more) :
    parseArgs cfg (group.tokens ++ more) =
      parseArgs (group.apply cfg) more := by
  have consumed := consumes_of_admits group.admitted option
  have behind :
      (flagOf group.option).behind (group.value.toList ++ more) = more := by
    rw [Flag.behind, consumed]
    cases group.value <;> rfl
  rw [Group.tokens, List.cons_append, parseArgs_cons, if_neg group.notHelp,
    applyFlag_of_admits cfg group.admitted option, behind]
  rfl

/-- One group after another. -/
theorem parseArgs_flatMap (cfg : Config) (groups : List Group) :
    parseArgs cfg (groups.flatMap Group.tokens) =
      some (groups.foldl Group.apply cfg) := by
  induction groups generalizing cfg with
  | nil => rfl
  | cons group rest induction =>
      rw [List.flatMap_cons,
        parseArgs_group cfg group (beginsWithOption_flatMap rest), induction,
        List.foldl_cons]

/-- A group by itself is parsed to what it does. -/
theorem parseArgs_tokens (cfg : Config) (group : Group) :
    parseArgs cfg group.tokens = some (group.apply cfg) := by
  have single := parseArgs_flatMap cfg [group]
  rwa [List.flatMap_cons, List.flatMap_nil, List.append_nil] at single

/-! ## The fields of an option -/

/-- The fields that an option can set. -/
def Flag.writes : Flag → List Field
  | .help | .config | .dumpConfig | .unknown => []
  | .ws | .mqtt | .protocol => [.transport]
  | .host => [.host]
  | .port => [.port]
  | .topic => [.mqttTopic]
  | .mqttId => [.mqttClientId]
  | .mqttUser => [.mqttUsername]
  | .mqttPass => [.mqttPassword]
  | .mqttQos => [.mqttQos]
  | .mqttWillTopic => [.mqttWillTopic]
  | .mqttWillPayload => [.mqttWillPayload]
  | .mqttWillQos => [.mqttWillQos]
  | .mqttWillRetain => [.mqttWillRetain]
  | .output => [.outputFile]
  | .storepath => [.storePath]
  | .buf => [.bufferCapacity, .autoBuffer]
  | .flushMs => [.flushIntervalMs]
  | .csvSep => [.csvSeparator]
  | .log => [.logFile]
  | .noLogStderr => [.logAlsoStderr]
  | .logLevel => [.logLevel]
  | .webiface => [.webEnabled]
  | .webhost => [.webHost]
  | .webport => [.webPort]
  | .timesource => [.timesource]
  | .maxAcc => [.maxAccMs2]
  | .seqOptional => [.seqOptional]

/-- The family that a field belongs to; no option sets the fields of
`.unknown`. -/
def fieldFamily : Field → Flag
  | .transport => .protocol
  | .host => .host
  | .port => .port
  | .mqttTopic => .topic
  | .mqttClientId => .mqttId
  | .mqttUsername => .mqttUser
  | .mqttPassword => .mqttPass
  | .mqttQos => .mqttQos
  | .mqttWillTopic => .mqttWillTopic
  | .mqttWillPayload => .mqttWillPayload
  | .mqttWillQos => .mqttWillQos
  | .mqttWillRetain => .mqttWillRetain
  | .outputFile => .output
  | .storePath => .storepath
  | .bufferCapacity | .autoBuffer => .buf
  | .flushIntervalMs => .flushMs
  | .csvSeparator => .csvSep
  | .logFile => .log
  | .logAlsoStderr => .noLogStderr
  | .logLevel => .logLevel
  | .webEnabled => .webiface
  | .webHost => .webhost
  | .webPort => .webport
  | .timesource => .timesource
  | .maxAccMs2 => .maxAcc
  | .seqOptional => .seqOptional
  | .mqttKeepalive | .webStatsIntervalMs | .deviceModel | .deviceRangeG =>
      .unknown

/-- An option sets fields of its own family only. -/
theorem fieldFamily_of_mem_writes
    {flag : Flag} {field : Field} (written : field ∈ flag.writes) :
    fieldFamily field = flag.family := by
  have every : ∀ field ∈ flag.writes, fieldFamily field = flag.family := by
    cases flag <;> decide
  exact every field written

theorem same_symm
    {before after : Config} {field : Field}
    (same : Field.Same before after field) :
    Field.Same after before field := by
  cases field <;> exact Eq.symm same

theorem same_trans
    {before between after : Config} {field : Field}
    (first : Field.Same before between field)
    (second : Field.Same between after field) :
    Field.Same before after field := by
  cases field <;> exact Eq.trans second first

/-- The fields are the whole configuration. -/
theorem eq_of_same
    {before after : Config} (same : ∀ field, Field.Same before after field) :
    after = before := by
  cases before
  cases after
  rw [Config.mk.injEq]
  exact ⟨same .transport, same .host, same .port, same .mqttTopic,
    same .mqttClientId, same .mqttUsername, same .mqttPassword,
    same .mqttQos, same .mqttKeepalive, same .mqttWillTopic,
    same .mqttWillPayload, same .mqttWillQos, same .mqttWillRetain,
    same .outputFile, same .storePath, same .bufferCapacity,
    same .flushIntervalMs, same .autoBuffer, same .csvSeparator,
    same .logFile, same .logAlsoStderr, same .logLevel, same .webEnabled,
    same .webHost, same .webPort, same .webStatsIntervalMs,
    same .deviceModel, same .deviceRangeG, same .timesource,
    same .maxAccMs2, same .seqOptional⟩

section Frame

variable {flag : Flag} {field : Field} (next : Bytes) (rest : List Bytes)

/-- An option leaves the other fields alone. -/
theorem applyFlag_same
    (cfg : Config) (unwritten : field ∉ flag.writes) :
    Field.Same cfg (applyFlag cfg next rest flag) field := by
  cases flag with
  | buf =>
      simp only [applyFlag]
      split
      · cases field <;> rfl
      · cases field <;> first | rfl | simp [Flag.writes] at unwritten
  | _ => cases field <;> first | rfl | simp [Flag.writes] at unwritten

/-- What an option makes of a field depends on that field only. -/
theorem applyFlag_congr
    {cfg cfg' : Config} (same : Field.Same cfg cfg' field) :
    Field.Same (applyFlag cfg next rest flag) (applyFlag cfg' next rest flag)
      field := by
  by_cases written : field ∈ flag.writes
  · cases flag with
    | buf =>
        simp only [Flag.writes, List.mem_cons, List.not_mem_nil,
          or_false] at written
        simp only [applyFlag]
        rcases written with rfl | rfl
        · split
          · exact same
          · rfl
        · split
          · exact same
          · rfl
    | help | config | dumpConfig | unknown => cases written
    | _ =>
        simp only [Flag.writes, List.mem_cons, List.not_mem_nil,
          or_false] at written
        subst written
        simp only [Field.Same] at same
        simp only [Field.Same, applyFlag, same]
  · exact same_trans (same_symm (applyFlag_same next rest cfg written))
      (same_trans same (applyFlag_same next rest cfg' written))

end Frame

/-! ## Groups of different families -/

/-- A field that the later of two options does not set. -/
theorem apply_same_of_unwritten
    (cfg : Config) {left right : Group} {field : Field}
    (unwritten : field ∉ (flagOf right.option).writes) :
    Field.Same (left.apply (right.apply cfg)) (right.apply (left.apply cfg))
      field := by
  have before : Field.Same (right.apply cfg) cfg field :=
    same_symm (applyFlag_same _ _ cfg unwritten)
  have moved :
      Field.Same (left.apply (right.apply cfg)) (left.apply cfg) field :=
    applyFlag_congr _ _ before
  exact same_trans moved (applyFlag_same _ _ (left.apply cfg) unwritten)

/-- Options of different families can be exchanged. -/
theorem apply_exchange : Families.Exchange Group.apply Group.family := by
  intro cfg left right different
  apply eq_of_same
  intro field
  by_cases unwritten : field ∈ (flagOf right.option).writes
  · have leftUnwritten : field ∉ (flagOf left.option).writes := by
      intro written
      exact different
        ((fieldFamily_of_mem_writes written).symm.trans
          (fieldFamily_of_mem_writes unwritten))
    exact same_symm (apply_same_of_unwritten cfg leftUnwritten)
  · exact apply_same_of_unwritten cfg unwritten

/--
The groups of a command line are parsed one by one, and groups of different
families may stand in any order.
-/
theorem parseArgs_keepsOrder
    (cfg : Config) {groups permuted : List Group}
    (kept : Families.KeepsOrder Group.family groups permuted) :
    parseArgs cfg (groups.flatMap Group.tokens) =
        groups.foldlM (fun cfg group => parseArgs cfg group.tokens) cfg ∧
      (parseArgs cfg (groups.flatMap Group.tokens)).isSome = true ∧
      parseArgs cfg (permuted.flatMap Group.tokens) =
        parseArgs cfg (groups.flatMap Group.tokens) := by
  have oneByOne (cfg : Config) :
      groups.foldlM (fun cfg group => parseArgs cfg group.tokens) cfg =
        some (groups.foldl Group.apply cfg) := by
    simp only [parseArgs_tokens]
    exact List.foldlM_pure ..
  rw [oneByOne, parseArgs_flatMap, parseArgs_flatMap,
    Families.foldl_eq_of_keepsOrder apply_exchange kept]
  exact ⟨rfl, rfl, rfl⟩

/-- `--host --config`, whose value looks like an option. -/
def hostGroup : Group where
  option := ascii "--host"
  value := some (ascii "--config")
  known := by decide
  notHelp := by decide
  admitted := .inl rfl

/-- An option that stands alone. -/
def loneGroup (option : Bytes) (known : flagOf option ≠ .unknown)
    (notHelp : flagOf option ≠ .help)
    (alone : (flagOf option).takesValue = false) : Group where
  option := option
  value := none
  known := known
  notHelp := notHelp
  admitted := alone

def wsGroup : Group :=
  loneGroup (ascii "--ws") (by decide) (by decide) rfl

def mqttGroup : Group :=
  loneGroup (ascii "--mqtt") (by decide) (by decide) rfl

/-- The host may stand behind the first of two options for the transport. -/
theorem parseArgs_keepsOrder_sample :
    parseArgs Config.default
        ([wsGroup, hostGroup, mqttGroup].flatMap Group.tokens) =
      parseArgs Config.default
        ([hostGroup, wsGroup, mqttGroup].flatMap Group.tokens) :=
  (parseArgs_keepsOrder Config.default
    (Families.keepsOrder_swap (by decide) [mqttGroup])).2.2

end AccelObserver.Server.CliArgs
