import AccelObserver.Library.Binary64
import AccelObserver.Server.CliConfigPath
import AccelObserver.Server.CliGroups
import AccelObserver.Server.ConfRange
import AccelObserver.Server.SteadyStream

/-!
# Starting the server

The first steps of `main`: the configuration file that is found, the command
line over it, and what is set up from the two.

A command line is a layer over the file: each field is what the last option
that sets it says, and where none does, what the file says.  The file is read
where the build defines `HAVE_CONFPARSER`.  The buffer is sized for the
interval at which it is drained.
-/

namespace AccelObserver.Server.Startup

open AccelObserver.Library
open AccelObserver.Library.CString
open AccelObserver.Library.Binary64 (IsDouble isDouble_two_pow)
open AccelObserver.Library.Binary64 (rounded_le)
open AccelObserver.Library.Rounding (rounded mul_le_rounded)
open AccelObserver.Server.CliArgs
open AccelObserver.Server.ConfFrame (Field)
open AccelObserver.Server.ConfLoader
open AccelObserver.Server.CsvFormatter
open AccelObserver.Server.PacketCallback (Settings Accepted restPayload)
open AccelObserver.Server.PacketValidator
open AccelObserver.Shared.ConfParser

/-! ## The configuration file -/

/-- What `main` sees of the machine that it runs on; the home directory is
that of the environment or of the user. -/
structure Host where
  fileExists : Bytes → Bool
  fopen : Bytes → Option Bytes
  home : Option Bytes

/-- Where a configuration file is looked for, each path in its buffer. -/
def candidates (host : Host) (appName : Bytes) : List Bytes :=
  let name := appName ++ ascii ".conf"
  [copyInto 512 (ascii "./" ++ name)] ++
    (host.home.map fun home =>
      copyInto 512
        (home ++ ascii "/.config/" ++ appName ++ ascii "/" ++ name)).toList ++
    [copyInto 512 (ascii "/etc/" ++ appName ++ ascii "/" ++ name)]

/-- `conf_find_config`: the path that it writes, and what it returns. -/
def confFindConfig (host : Host) (appName : Bytes)
    (explicitPath : Option Bytes) (outSize : Nat) : Bytes × Bool :=
  match explicitPath with
  | some (c :: path) =>
      (copyInto outSize (c :: path), host.fileExists (c :: path))
  | _ =>
      match (candidates host appName).find? host.fileExists with
      | some candidate => (copyInto outSize candidate, true)
      | none => ([], false)

/-- How the first two steps of `main` end. -/
inductive Started
  | exited (code : Nat)
  | threw (cfg : Config)
  | resolved (cfg : Config)

/-- The configuration with the file that was found. -/
def fileConfig (host : Host) (found : Bytes × Bool) : Except Config Config :=
  if found.2 then
    applyConf (confLoad found.1 (host.fopen found.1) none) Config.default
  else .ok Config.default

/-- Step 1 of `main`: `none` is the exit where the file that is asked for is
not there.  `haveConfparser` is the macro that this step is compiled under. -/
def fileLayer (haveConfparser : Bool) (host : Host) (args : List Bytes) :
    Option (Except Config Config) :=
  if haveConfparser then
    let explicitPath := (extractConfigPath args).map Prod.snd
    let found := confFindConfig host (ascii "gaccelserver") explicitPath 512
    if explicitPath.isSome ∧ found.2 = false then none
    else some (fileConfig host found)
  else some (.ok Config.default)

/-- Steps 1 and 2 of `main`, with the exit behind `--dump-config`, which is
compiled under the same macro. -/
def resolve (haveConfparser : Bool) (host : Host) (args : List Bytes) :
    Started :=
  match fileLayer haveConfparser host args with
  | none => .exited 1
  | some (.error cfg) => .threw cfg
  | some (.ok cfg) =>
      match parseArgs cfg args with
      | none => .exited 0
      | some cfg =>
          if haveConfparser ∧ args.contains (ascii "--dump-config") then
            .exited 0
          else .resolved cfg

/-- `assumed_rate_hz * (double)flush_interval_ms / 1000.0 * 2.0` -/
def assumedPackets (flushIntervalMs : UInt64) : ℚ≥0 :=
  rounded
    (rounded
        (rounded ((200 : ℕ) * rounded flushIntervalMs.toNat) / (1000 : ℕ)) *
      (2 : ℕ))

/-- Step 5 of `main`: the capacity of the buffer. -/
def bufferCapacity (cfg : Config) : Nat :=
  if cfg.autoBuffer then
    let minBuf := max ⌊assumedPackets cfg.flushIntervalMs⌋₊ 64
    if cfg.bufferCapacity.toNat < minBuf then minBuf
    else cfg.bufferCapacity.toNat
  else cfg.bufferCapacity.toNat

/-- The configuration behind step 5, which the rest of `main` reads. -/
def sized (cfg : Config) : Config :=
  { cfg with bufferCapacity := UInt64.ofNat (bufferCapacity cfg) }

/-- The configuration that the server runs with, if it gets so far. -/
def running (haveConfparser : Bool) (host : Host) (args : List Bytes) :
    Option Config :=
  match resolve haveConfparser host args with
  | .resolved cfg => some (sized cfg)
  | _ => none

/-! ## The command line as a layer -/

/-- The value of an option is one that is not ignored. -/
def effective (next : Bytes) : Flag → Bool
  | .protocol =>
      let p := lower next
      decide (p = ascii "mqtt" ∨ p = ascii "ws" ∨ p = ascii "websocket")
  | .host | .topic | .mqttWillTopic | .log | .logLevel | .webhost
  | .timesource => decide (next ≠ [])
  | .port | .webport => decide (parsePort next ≠ 0)
  | .buf | .flushMs => decide (parseSize next ≠ 0)
  | _ => true

/-- A turn of the loop that decides about a field. -/
def sets (field : Field) (turn : Turn) : Bool :=
  decide (field ∈ turn.flag.writes) && effective (turn.rest.headD []) turn.flag

section Layer

variable {flag : Flag} {field : Field} {next : Bytes}

/-- A value that is ignored changes nothing. -/
theorem applyFlag_of_ineffective
    (ignored : effective next flag = false) (cfg : Config)
    (rest : List Bytes) : applyFlag cfg next rest flag = cfg := by
  cases flag <;> simp_all [effective, applyFlag, nonemptyOr, protocolTransport]

/-- One that is not ignored decides about the field, whatever was there. -/
theorem applyFlag_of_effective
    (written : field ∈ flag.writes) (used : effective next flag = true)
    (cfg cfg' : Config) (rest : List Bytes) :
    Field.Same (applyFlag cfg next rest flag) (applyFlag cfg' next rest flag)
      field := by
  cases flag with
  | help | config | dumpConfig | unknown => cases written
  | buf =>
      simp only [effective, decide_eq_true_eq] at used
      simp only [applyFlag, if_neg used]
      simp only [Flag.writes, List.mem_cons, List.not_mem_nil,
        or_false] at written
      rcases written with rfl | rfl <;> rfl
  | protocol =>
      simp only [effective, decide_eq_true_eq] at used
      obtain rfl : field = .transport := List.mem_singleton.mp written
      simp only [Field.Same, applyFlag, protocolTransport]
      split_ifs <;> simp_all
  | _ =>
      obtain rfl := List.mem_singleton.mp written
      simp_all [Field.Same, applyFlag, effective, nonemptyOr]

end Layer

/-- The configuration behind a turn. -/
def applied (cfg : Config) (turn : Turn) : Config :=
  applyFlag cfg (turn.rest.headD []) turn.rest turn.flag

/-- A turn that does not decide about a field leaves it alone. -/
theorem applied_same
    {field : Field} {turn : Turn} (passes : sets field turn = false)
    (cfg : Config) : Field.Same cfg (applied cfg turn) field := by
  rw [sets, Bool.and_eq_false_iff, decide_eq_false_iff_not] at passes
  rcases passes with unwritten | ignored
  · exact applyFlag_same _ _ cfg unwritten
  · rw [applied, applyFlag_of_ineffective ignored]
    cases field <;> rfl

theorem applied_of_sets
    {field : Field} {turn : Turn} (decides : sets field turn = true)
    (cfg cfg' : Config) :
    Field.Same (applied cfg turn) (applied cfg' turn) field := by
  rw [sets, Bool.and_eq_true, decide_eq_true_eq] at decides
  exact applyFlag_of_effective decides.1 decides.2 _ _ _

/-- The last of some turns that decides about a field. -/
def lastSetting (field : Field) (turns : List Turn) : Option Turn :=
  (turns.filter (sets field)).getLast?

theorem lastSetting_concat
    (field : Field) (turns : List Turn) (turn : Turn) :
    lastSetting field (turns ++ [turn]) =
      if sets field turn then some turn else lastSetting field turns := by
  rw [lastSetting, List.filter_append]
  split_ifs with decides
  · rw [List.filter_cons_of_pos decides, List.filter_nil,
      List.getLast?_concat]
  · rw [List.filter_cons_of_neg decides, List.filter_nil, List.append_nil]
    rfl

/-- A layer of turns, from the first to the last. -/
structure Layered (cfg resolved : Config) (turns : List Turn)
    (field : Field) : Prop where
  set :
    ∀ turn ∈ lastSetting field turns, ∀ other,
      Field.Same (applied other turn) resolved field
  kept : lastSetting field turns = none → Field.Same cfg resolved field

theorem layered_foldl (cfg : Config) (turns : List Turn) (field : Field) :
    Layered cfg (turns.foldl applied cfg) turns field := by
  induction turns using List.reverseRecOn with
  | nil => exact ⟨nofun, fun _ => by cases field <;> rfl⟩
  | append_singleton turns turn induction =>
      rw [List.foldl_append, List.foldl_cons, List.foldl_nil]
      cases decides : sets field turn with
      | true =>
          refine ⟨fun last isLast other => ?_, fun none => ?_⟩
          · rw [lastSetting_concat, if_pos decides] at isLast
            cases isLast
            exact applied_of_sets decides _ _
          · rw [lastSetting_concat, if_pos decides] at none
            cases none
      | false =>
          have same := applied_same decides (turns.foldl applied cfg)
          refine ⟨fun last isLast other => ?_, fun none => ?_⟩
          · rw [lastSetting_concat, decides] at isLast
            exact same_trans (induction.set last isLast other) same
          · rw [lastSetting_concat, decides] at none
            exact same_trans (induction.kept none) same

/-- Without a request for the usage text, every turn is taken. -/
theorem foldlM_apply_eq_some
    {turns : List Turn} {cfg resolved : Config}
    (returned : turns.foldlM Turn.apply cfg = some resolved) :
    turns.foldl applied cfg = resolved := by
  induction turns generalizing cfg with
  | nil => exact Option.some.inj returned
  | cons turn turns induction =>
      rw [List.foldlM_cons] at returned
      rcases Option.bind_eq_some_iff.mp returned with ⟨next, took, rest⟩
      rw [Turn.apply] at took
      split_ifs at took
      cases took
      exact induction rest

/-- The two layers, when neither ends the program. -/
theorem layered_of_resolved
    {haveConfparser : Bool} {host : Host} {args : List Bytes} {given : Config}
    (runs : resolve haveConfparser host args = .resolved given) :
    ∃ file,
      fileLayer haveConfparser host args = some (.ok file) ∧
        ∀ field, Layered file given (turns args) field := by
  rw [resolve] at runs
  cases layer : fileLayer haveConfparser host args with
  | none => simp only [layer, reduceCtorEq] at runs
  | some loaded =>
      cases loaded with
      | error cfg => simp only [layer, reduceCtorEq] at runs
      | ok file =>
          simp only [layer] at runs
          cases returned : parseArgs file args with
          | none => simp only [returned, reduceCtorEq] at runs
          | some last =>
              simp only [returned] at runs
              split_ifs at runs
              cases runs
              rw [parseArgs_eq_turns] at returned
              refine ⟨file, rfl, fun field => ?_⟩
              rw [← foldlM_apply_eq_some returned]
              exact layered_foldl file (turns args) field

/-- Twice the packets of an interval are no more than a size can say. -/
theorem assumedPackets_le (flushIntervalMs : UInt64) :
    assumedPackets flushIntervalMs ≤ 2 ^ 63 := by
  have interval : rounded flushIntervalMs.toNat ≤ 2 ^ 64 := by
    refine rounded_le (isDouble_two_pow 64) ?_
    exact_mod_cast flushIntervalMs.toNat_lt.le
  have times :
      rounded ((200 : ℕ) * rounded flushIntervalMs.toNat) ≤
        (125 : ℕ) * ((2 : ℕ) : ℚ≥0) ^ (65 : ℤ) := by
    refine rounded_le ⟨125, 65, by decide, by decide, rfl⟩ ?_
    calc
      (200 : ℕ) * rounded flushIntervalMs.toNat ≤ (250 : ℕ) * 2 ^ 64 :=
        mul_le_mul' (by norm_num) interval
      _ = (125 : ℕ) * ((2 : ℕ) : ℚ≥0) ^ (65 : ℤ) := by norm_num
  have divided :
      rounded (rounded ((200 : ℕ) * rounded flushIntervalMs.toNat) /
        (1000 : ℕ)) ≤ 2 ^ 62 := by
    refine rounded_le (isDouble_two_pow 62) ?_
    rw [div_le_iff₀ (by norm_num)]
    exact times.trans (by norm_num)
  refine rounded_le (isDouble_two_pow 63) ?_
  calc
    _ ≤ 2 ^ 62 * ((2 : ℕ) : ℚ≥0) := mul_le_mul_left divided _
    _ = 2 ^ 63 := by norm_num

/-- So the capacity fits its field. -/
theorem toNat_sized (cfg : Config) :
    (sized cfg).bufferCapacity.toNat =
      if cfg.autoBuffer then
        max cfg.bufferCapacity.toNat
          (max ⌊assumedPackets cfg.flushIntervalMs⌋₊ 64)
      else cfg.bufferCapacity.toNat := by
  have given := cfg.bufferCapacity.toNat_lt
  have assumed : ⌊assumedPackets cfg.flushIntervalMs⌋₊ ≤ 2 ^ 63 := by
    have floored := Nat.floor_mono (assumedPackets_le cfg.flushIntervalMs)
    rwa [show (2 : ℚ≥0) ^ 63 = ((2 ^ 63 : ℕ) : ℚ≥0) from by norm_cast,
      Nat.floor_natCast] at floored
  simp only [sized, UInt64.toNat_ofNat', bufferCapacity]
  split_ifs <;> omega

/--
The command line over the file, where there is one.  In the configuration that
the server runs with, each field is what the last option that sets it says,
whatever is in the file; and a field that no option sets is what the file
says, or the default in a build without files.  The capacity of the buffer
alone is raised once more, to what the interval needs, unless an option has
set it.
-/
theorem command_line_over_file
    (haveConfparser : Bool) (host : Host) (args : List Bytes) (cfg : Config)
    (runs : running haveConfparser host args = some cfg) :
    ∃ file given,
      fileLayer haveConfparser host args = some (.ok file) ∧
        (haveConfparser = false → file = Config.default) ∧
        (∀ field, Layered file given (turns args) field) ∧
        (∀ field ≠ .bufferCapacity, Field.Same given cfg field) ∧
        cfg.bufferCapacity.toNat =
          if given.autoBuffer then
            max given.bufferCapacity.toNat
              (max ⌊assumedPackets given.flushIntervalMs⌋₊ 64)
          else given.bufferCapacity.toNat := by
  rw [running] at runs
  cases started : resolve haveConfparser host args with
  | exited code => simp only [started, reduceCtorEq] at runs
  | threw cfg => simp only [started, reduceCtorEq] at runs
  | resolved given =>
      simp only [started, Option.some.injEq] at runs
      rcases layered_of_resolved started with ⟨file, loaded, layered⟩
      refine ⟨file, given, loaded, fun without => ?_, layered, ?_, ?_⟩
      · rw [fileLayer, without, if_neg (by decide)] at loaded
        cases loaded
        rfl
      · subst runs
        intro field others
        cases field with
        | bufferCapacity => exact absurd rfl others
        | _ => rfl
      · rw [← runs]
        exact toNat_sized given

/-- A host with one file, in `/etc`, that names a broker and a port. -/
def sampleHost : Host where
  fileExists path := path = ascii "/etc/gaccelserver/gaccelserver.conf"
  fopen _ :=
    some
      (ascii "[connection]" ++ [10] ++ ascii "host = broker" ++ [10] ++
        ascii "port = 1884" ++ [10])
  home := none

/-- An option that is ignored, and two that are not. -/
def sampleArgs : List Bytes :=
  [ascii "--port", ascii "no", ascii "--host", ascii "here",
    ascii "--flush-ms", ascii "20000"]

/-- The host, the port and the capacity of a server that runs. -/
def summary (cfg : Config) : Bytes × UInt16 × UInt64 :=
  (cfg.host, cfg.port, cfg.bufferCapacity)

theorem running_sampleHost :
    (running true sampleHost sampleArgs).map summary =
      some (ascii "here", 1884, 8000) := by
  decide +kernel

theorem command_line_over_file_sampleHost :
    ∃ file given cfg,
      running true sampleHost sampleArgs = some cfg ∧
        (∀ field, Layered file given (turns sampleArgs) field) ∧
        ∀ field ≠ .bufferCapacity, Field.Same given cfg field := by
  rcases Option.map_eq_some_iff.mp running_sampleHost with ⟨cfg, runs, -⟩
  rcases command_line_over_file true sampleHost sampleArgs cfg runs
    with ⟨file, given, -, -, layered, same, -⟩
  exact ⟨file, given, cfg, runs, layered, same⟩

/-! ## What is set up -/

/-- `parse_timesource` -/
def parseTimesource (s : Bytes) : TimeSource :=
  if s = ascii "host" then .host else .external

/-- A double times 9.80665, the value of the literal rounded. -/
def timesGravity : Double → Double
  | .finite negative magnitude =>
      .finite negative (rounded (magnitude * rounded (980665 / 100000)))
  | .infinite negative => .infinite negative
  | .nan => .nan

/-- Step 6 of `main`. -/
def validatorConfig (cfg : Config) : ValidatorConfig where
  maxAccMs2 :=
    if Double.zero.lt cfg.maxAccMs2 then cfg.maxAccMs2
    else timesGravity cfg.deviceRangeG.number
  timesource := parseTimesource cfg.timesource
  seqOptional := cfg.seqOptional

/-- What the callback of step 11 refers to; `webStarted` is what the web
interface answers in step 8. -/
def callbackSettings (cfg : Config) (webStarted : Bool) : Settings where
  validator := validatorConfig cfg
  webif := cfg.webEnabled && webStarted
  webStatsIntervalMs := cfg.webStatsIntervalMs

/-- The program that a configuration starts, on a file that does not exist
yet. -/
def program (cfg : Config) (webStarted : Bool) (startMs : UInt64) :
    Machine (ServerProgram.State CsvFile) (ServerProgram.Action Io) :=
  ServerProgram.machine (callbackSettings cfg webStarted)
    (csvFormatter cfg.csvSeparator) startMs (bufferCapacity cfg) .fresh .good

/-! ## The size of the buffer -/

theorem normal_of_le
    {magnitude : ℚ≥0} (notTiny : 1 / 1024 ≤ magnitude) :
    2 ^ (-1022 : ℤ) ≤ magnitude := by
  refine le_trans ?_ notTiny
  calc
    (2 : ℚ≥0) ^ (-1022 : ℤ) ≤ 2 ^ (-10 : ℤ) :=
      zpow_le_zpow_right₀ one_le_two (by decide)
    _ = 1 / 1024 := by norm_num

/-- What is not tiny is rounded to what is not much less. -/
theorem le_rounded
    {magnitude : ℚ≥0} {bound : ℚ} (below : bound ≤ magnitude)
    (notTiny : 1 / 1024 ≤ bound) :
    bound * (1 - 1 / 2 ^ 53) ≤ rounded magnitude := by
  have normal : (1 / 1024 : ℚ≥0) ≤ magnitude := by
    exact_mod_cast notTiny.trans below
  refine le_trans ?_ (mul_le_rounded (normal_of_le normal))
  exact mul_le_mul_of_nonneg_right below (by norm_num)

/-- Rounding four times takes off no more than one part in two to the 51. -/
theorem le_assumedPackets
    {flushIntervalMs : UInt64} (positive : 1 ≤ flushIntervalMs.toNat) :
    (2 * flushIntervalMs.toNat : ℚ) / 5 * (1 - 1 / 2 ^ 51) ≤
      assumedPackets flushIntervalMs := by
  have interval : (1 : ℚ) ≤ flushIntervalMs.toNat := by
    exact_mod_cast positive
  have converted :=
    le_rounded
      (show (flushIntervalMs.toNat : ℚ) ≤ (flushIntervalMs.toNat : ℚ≥0) from
        by push_cast; exact le_refl _)
      (by linarith)
  have times :=
    le_rounded
      (show 200 * (rounded flushIntervalMs.toNat : ℚ) ≤
          ((200 * rounded flushIntervalMs.toNat : ℚ≥0) : ℚ) from
        by push_cast; exact le_refl _)
      (by linarith)
  have divided :=
    le_rounded
      (show (rounded (200 * rounded flushIntervalMs.toNat) : ℚ) / 1000 ≤
          ((rounded (200 * rounded flushIntervalMs.toNat) / 1000 : ℚ≥0) : ℚ)
        from by push_cast; exact le_refl _)
      (by linarith)
  have doubled :=
    le_rounded
      (show (rounded (rounded (200 * rounded flushIntervalMs.toNat) / 1000)
          : ℚ) * 2 ≤
          ((rounded (rounded (200 * rounded flushIntervalMs.toNat) / 1000) * 2
            : ℚ≥0) : ℚ)
        from by push_cast; exact le_refl _)
      (by linarith)
  simp only [assumedPackets, Nat.cast_ofNat]
  linarith

theorem floor_le_bufferCapacity
    {cfg : Config} (auto : cfg.autoBuffer = true) :
    ⌊assumedPackets cfg.flushIntervalMs⌋₊ ≤ bufferCapacity cfg := by
  simp only [bufferCapacity, auto, if_true]
  split_ifs with small
  · exact le_max_left _ _
  · exact (le_max_left _ _).trans (not_lt.mp small)

/-- At 200 packets in a second, the buffer that is sized by itself does not
fill up in two intervals, but for a few milliseconds. -/
theorem lt_of_autoBuffer
    {cfg : Config} (auto : cfg.autoBuffer = true) {gap : Nat}
    (slack :
      gap + 6 + cfg.flushIntervalMs.toNat / 2 ^ 50 ≤
        2 * cfg.flushIntervalMs.toNat) :
    gap < 5 * bufferCapacity cfg := by
  have positive : 1 ≤ cfg.flushIntervalMs.toNat := by omega
  have assumed := le_assumedPackets positive
  have floor := Nat.lt_floor_add_one (assumedPackets cfg.flushIntervalMs)
  have floor' :
      (assumedPackets cfg.flushIntervalMs : ℚ) <
        ⌊assumedPackets cfg.flushIntervalMs⌋₊ + 1 := by
    exact_mod_cast floor
  have capacity :
      ((⌊assumedPackets cfg.flushIntervalMs⌋₊ : Nat) : ℚ) ≤
        bufferCapacity cfg := by
    exact_mod_cast floor_le_bufferCapacity auto
  have part :
      (cfg.flushIntervalMs.toNat : ℚ) <
        2 ^ 50 * ((cfg.flushIntervalMs.toNat / 2 ^ 50 : Nat) + 1) := by
    exact_mod_cast
      Nat.lt_mul_div_succ cfg.flushIntervalMs.toNat (Nat.two_pow_pos 50)
  have slack' :
      (gap : ℚ) + 6 + (cfg.flushIntervalMs.toNat / 2 ^ 50 : Nat) ≤
        2 * cfg.flushIntervalMs.toNat := by
    exact_mod_cast slack
  have below : (gap : ℚ) < 5 * bufferCapacity cfg := by linarith
  exact_mod_cast below

/--
The buffer that is sized by itself is large enough.  With it, a stream of at
most 200 packets in a second is stored packet by packet, however the threads
are interleaved, as long as the writer thread is not late by another interval.
-/
theorem auto_buffer_stores_stream
    (cfg : Config) (auto : cfg.autoBuffer = true) (gap : Nat)
    (slack :
      gap + 6 + cfg.flushIntervalMs.toNat / 2 ^ 50 ≤
        2 * cfg.flushIntervalMs.toNat)
    (webStarted : Bool) (startMs : UInt64)
    (run : List (Nat × ServerProgram.Action Io))
    (final : Clocked (ServerProgram.State CsvFile))
    (onTime :
      ((program cfg webStarted startMs).clocked
          ServerProgram.programEvent).Along
        (Machine.OnTime ServerProgram.programEvent 5 gap)
        ((program cfg webStarted startMs).clocked
          ServerProgram.programEvent).initial
        run)
    (good : ∀ action ∈ run, ServerProgram.StreamsGood action.2)
    (ran :
      ((program cfg webStarted startMs).clocked
        ServerProgram.programEvent).run run = some final)
    (snap : StatsSnapshot) (finished : final.state.main = .finished snap) :
    final.state.storage.file.content =
        some
          (makeHeader cfg.csvSeparator ++ [10] ++
            rows cfg.csvSeparator
              ((ServerProgram.accepted (callbackSettings cfg webStarted)
                final.state.arrivals).map Accepted.packet)) ∧
      final.state.storage.written = snap.packetsReceived ∧
      final.state.storage.dropped = 0 :=
  ServerProgram.stored_of_onTime (lt_of_autoBuffer auto slack) onTime good ran
    finished

/-! ### Two packets -/

/-- A buffer for one packet, as it is configured. -/
def smallConfig : Config :=
  { Config.default with bufferCapacity := 1, flushIntervalMs := 20 }

/-- Two packets at the shortest distance, and the end of the program. -/
def steadyRun : List (Nat × ServerProgram.Action Io) :=
  [(2, .arrival ⟨restPayload (ascii "1"), 2, 2⟩), (2, .push),
    (7, .arrival ⟨restPayload (ascii "2"), 7, 7⟩), (7, .push), (8, .signal),
    (8, .transportExit), (9, .join), (9, .stopper .good), (9, .writer .good),
    (10, .stopper .good), (10, .stopper .good), (10, .stopper .good),
    (10, .stopper .good), (11, .finish)]

def timedProgram :
    Machine (Clocked (ServerProgram.State CsvFile))
      (Nat × ServerProgram.Action Io) :=
  (program smallConfig false 0).clocked ServerProgram.programEvent

theorem steadyRun_onTime :
    timedProgram.Along (Machine.OnTime ServerProgram.programEvent 5 34)
      timedProgram.initial steadyRun := by
  decide +kernel

theorem steadyRun_summary :
    ((timedProgram.run steadyRun).map Clocked.state).bind
        ServerProgram.State.summary = some (2, 2, 0) := by
  decide +kernel

theorem steadyRun_good :
    ∀ action ∈ steadyRun, ServerProgram.StreamsGood action.2 := by
  simp [steadyRun, ServerProgram.StreamsGood]

theorem auto_buffer_stores_stream_steadyRun :
    ∃ final,
      timedProgram.run steadyRun = some final ∧
        final.state.storage.written = 2 := by
  rcases ServerProgram.exists_of_summary steadyRun_summary
    with ⟨state, snap, reached, finished, received, -⟩
  rcases Option.map_eq_some_iff.mp reached with ⟨final, ran, rfl⟩
  have stored :=
    auto_buffer_stores_stream smallConfig rfl 34 (by decide) false 0
      steadyRun final steadyRun_onTime steadyRun_good ran snap finished
  exact ⟨final, ran, stored.2.1.trans received⟩

end AccelObserver.Server.Startup
