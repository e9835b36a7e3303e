import AccelObserver.Library.CInteger
import AccelObserver.Library.CNumber

/-!
# The command line of the client

`parse_args` of `conf_argparse.h`.  The arguments are those behind the name of
the program, and none of them holds a NUL.  An option takes its value only
where another argument follows it; otherwise it is an unknown argument like
any other.  The warnings that are printed are left out.
-/

namespace AccelObserver.Client.ConfArgparse

open AccelObserver.Library
open AccelObserver.Library.CInteger (atoi)
open AccelObserver.Library.CNumber (atofNearest)

/-! ## The configuration -/

/-- The transports that are compiled in. -/
structure Build where
  haveWebsocket : Bool
  haveMqtt : Bool

/-- `app_config_t`; a pointer that may be null is an option. -/
structure AppConfig where
  protocol : Bytes
  host : Bytes
  port : UInt16
  topic : Bytes
  qos : ℤ
  clientId : Option Bytes
  username : Option Bytes
  password : Option Bytes
  keepaliveSec : ℤ
  cleanSession : ℤ
  willTopic : Option Bytes
  willPayload : Option Bytes
  willQos : ℤ
  willRetain : ℤ
  durationSec : Double
  rateHz : Double
  connectTimeoutMs : UInt32
  noiseAmplitude : Double
  gravityZ : Double
  retain : ℤ
  verboseLevel : ℤ

/-- What `parse_args` begins with. -/
def defaults : AppConfig where
  protocol := ascii "ws"
  host := ascii "localhost"
  port := 1883
  topic := ascii "sensors/accel"
  qos := 0
  clientId := none
  username := none
  password := none
  keepaliveSec := 60
  cleanSession := 1
  willTopic := none
  willPayload := none
  willQos := 0
  willRetain := 0
  durationSec := atofNearest (ascii "10.0")
  rateHz := atofNearest (ascii "10.0")
  connectTimeoutMs := 10000
  noiseAmplitude := atofNearest (ascii "0.05")
  gravityZ := atofNearest (ascii "9.81")
  retain := 0
  verboseLevel := 0

/-! ## Options -/

/-- What an argument can be as an option. -/
inductive Flag
  | help
  | host
  | port
  | protocol
  | topic
  | qos
  | id
  | user
  | pass
  | keepalive
  | noClean
  | willTopic
  | willPayload
  | willQos
  | willRetain
  | duration
  | rate
  | timeout
  | noise
  | gravity
  | retain
  | verbose
  | unknown
  deriving DecidableEq

/-- The names in front of the options that depend on the build. -/
def connectionNames : List (Bytes × Flag) :=
  [(ascii "--help", .help), (ascii "-h", .help), (ascii "--host", .host),
    (ascii "--port", .port), (ascii "--protocol", .protocol)]

/-- The names under `HAVE_WEBSOCKET`. -/
def websocketNames : List (Bytes × Flag) :=
  [(ascii "--topic", .topic), (ascii "--qos", .qos), (ascii "--id", .id),
    (ascii "--user", .user), (ascii "--pass", .pass),
    (ascii "--keepalive", .keepalive), (ascii "--no-clean", .noClean),
    (ascii "--will-topic", .willTopic), (ascii "--will-payload", .willPayload),
    (ascii "--will-qos", .willQos), (ascii "--will-retain", .willRetain)]

/-- The names behind them. -/
def otherNames : List (Bytes × Flag) :=
  [(ascii "--duration", .duration), (ascii "--rate", .rate),
    (ascii "--timeout", .timeout), (ascii "--noise", .noise),
    (ascii "--gravity", .gravity), (ascii "--retain", .retain),
    (ascii "--verbose", .verbose), (ascii "-v", .verbose)]

/-- The names that `parse_args` compares with, in its order. -/
def flagNames (build : Build) : List (Bytes × Flag) :=
  connectionNames ++ (if build.haveWebsocket then websocketNames else []) ++
    otherNames

def flagOf (build : Build) (a : Bytes) : Flag :=
  ((flagNames build).lookup a).getD .unknown

/-- The options that are followed by `i + 1 < argc` in their tests. -/
def Flag.takesValue : Flag → Bool
  | .host | .port | .protocol | .topic | .qos | .id | .user | .pass
  | .keepalive | .willTopic | .willPayload | .willQos | .duration | .rate
  | .timeout | .noise | .gravity => true
  | .help | .noClean | .willRetain | .retain | .verbose | .unknown => false

/-- The branch of an option, with its value. -/
def applyFlag (cfg : AppConfig) (value : Bytes) : Flag → AppConfig
  | .help | .unknown => cfg
  | .host => { cfg with host := value }
  | .port => { cfg with port := UInt16.ofInt (atoi value) }
  | .protocol => { cfg with protocol := value }
  | .topic => { cfg with topic := value }
  | .qos => { cfg with qos := atoi value }
  | .id => { cfg with clientId := some value }
  | .user => { cfg with username := some value }
  | .pass => { cfg with password := some value }
  | .keepalive => { cfg with keepaliveSec := atoi value }
  | .noClean => { cfg with cleanSession := 0 }
  | .willTopic => { cfg with willTopic := some value }
  | .willPayload => { cfg with willPayload := some value }
  | .willQos => { cfg with willQos := atoi value }
  | .willRetain => { cfg with willRetain := 1 }
  | .duration => { cfg with durationSec := atofNearest value }
  | .rate => { cfg with rateHz := atofNearest value }
  | .timeout => { cfg with connectTimeoutMs := UInt32.ofInt (atoi value) }
  | .noise => { cfg with noiseAmplitude := atofNearest value }
  | .gravity => { cfg with gravityZ := atofNearest value }
  | .retain => { cfg with retain := 1 }
  | .verbose => { cfg with verboseLevel := 1 }

/-! ## The loop -/

/-- The loop of `parse_args`; `none` is the exit behind the usage text. -/
def parseFrom (build : Build) (cfg : AppConfig) :
    List Bytes → Option AppConfig
  | [] => some cfg
  | a :: rest =>
      let flag := flagOf build a
      if flag = .help then none
      else
        match flag.takesValue, rest with
        | true, value :: more => parseFrom build (applyFlag cfg value flag) more
        | true, [] => some cfg
        | false, rest => parseFrom build (applyFlag cfg [] flag) rest

/-- `parse_args` -/
def parseArgs (build : Build) (args : List Bytes) : Option AppConfig :=
  parseFrom build defaults args

/-! ## What is written on the command line -/

/-- The options of a command line with their values, in their order; an option
without a value stands with an empty one. -/
def options (build : Build) : List Bytes → List (Flag × Bytes)
  | [] => []
  | a :: rest =>
      let flag := flagOf build a
      match flag.takesValue, rest with
      | true, value :: more => (flag, value) :: options build more
      | true, [] => []
      | false, rest => (flag, []) :: options build rest

/-- The value behind the last occurrence of an option. -/
def lastValue (flag : Flag) (written : List (Flag × Bytes)) : Option Bytes :=
  written.foldl
    (fun last entry => if entry.1 = flag then some entry.2 else last) none

/-- Without the usage text, the options are applied one after another. -/
theorem parseFrom_eq
    {build : Build} {args : List Bytes}
    (noHelp : ∀ a ∈ args, flagOf build a ≠ .help) (cfg : AppConfig) :
    parseFrom build cfg args =
      some
        ((options build args).foldl
          (fun cfg entry => applyFlag cfg entry.2 entry.1) cfg) := by
  induction size : args.length using Nat.strong_induction_on
    generalizing cfg args with
  | _ size induction =>
    cases args with
    | nil => rfl
    | cons a rest =>
        rcases List.forall_mem_cons.mp noHelp with ⟨noHelpHere, noHelpLater⟩
        rw [List.length_cons] at size
        unfold parseFrom options
        simp only [if_neg noHelpHere]
        cases takes : (flagOf build a).takesValue with
        | false => exact induction rest.length (by omega) noHelpLater _ rfl
        | true =>
            cases rest with
            | nil => rfl
            | cons value more =>
                rw [List.length_cons] at size
                exact induction more.length (by omega)
                  (List.forall_mem_cons.mp noHelpLater).2 _ rfl

/-- A field that one option sets has its last value, or the one before. -/
theorem field_foldl
    {Value : Type} (field : AppConfig → Value) (convert : Bytes → Value)
    (flag : Flag)
    (sets : ∀ cfg value, field (applyFlag cfg value flag) = convert value)
    (keeps : ∀ cfg value other, other ≠ flag →
      field (applyFlag cfg value other) = field cfg)
    (written : List (Flag × Bytes)) (cfg : AppConfig) :
    field
        (written.foldl (fun cfg entry => applyFlag cfg entry.2 entry.1) cfg) =
      ((lastValue flag written).map convert).getD (field cfg) := by
  suffices from_last : ∀ (start : AppConfig) (last : Option Bytes),
      field start = (last.map convert).getD (field cfg) →
      field
          (written.foldl (fun cfg entry => applyFlag cfg entry.2 entry.1)
            start) =
        ((written.foldl
            (fun last entry => if entry.1 = flag then some entry.2 else last)
            last).map convert).getD (field cfg) from
    from_last cfg none rfl
  induction written with
  | nil => exact fun _ _ same => same
  | cons entry rest induction =>
      intro start last same
      rw [List.foldl_cons, List.foldl_cons]
      apply induction
      by_cases own : entry.1 = flag
      · rw [if_pos own, own, sets]
        rfl
      · rw [if_neg own, keeps _ _ _ own, same]

/-- The fields that are validated, each from the last value of its option. -/
structure ReadFrom (written : List (Flag × Bytes)) (cfg : AppConfig) :
    Prop where
  protocol :
    cfg.protocol = (lastValue .protocol written).getD defaults.protocol
  port :
    cfg.port =
      ((lastValue .port written).map fun text =>
        UInt16.ofInt (atoi text)).getD defaults.port
  qos : cfg.qos = ((lastValue .qos written).map atoi).getD defaults.qos
  willQos :
    cfg.willQos = ((lastValue .willQos written).map atoi).getD defaults.willQos
  rateHz :
    cfg.rateHz =
      ((lastValue .rate written).map atofNearest).getD defaults.rateHz
  durationSec :
    cfg.durationSec =
      ((lastValue .duration written).map atofNearest).getD
        defaults.durationSec
  keepaliveSec :
    cfg.keepaliveSec =
      ((lastValue .keepalive written).map atoi).getD defaults.keepaliveSec

theorem readFrom_foldl (written : List (Flag × Bytes)) :
    ReadFrom written
      (written.foldl (fun cfg entry => applyFlag cfg entry.2 entry.1)
        defaults) := by
  have protocol :=
    field_foldl AppConfig.protocol id .protocol (fun _ _ => rfl)
      (fun _ _ other different => by
        cases other <;> first | rfl | exact absurd rfl different)
      written defaults
  rw [Option.map_id] at protocol
  refine ⟨protocol, field_foldl AppConfig.port _ .port ?_ ?_ _ _,
    field_foldl AppConfig.qos _ .qos ?_ ?_ _ _,
    field_foldl AppConfig.willQos _ .willQos ?_ ?_ _ _,
    field_foldl AppConfig.rateHz _ .rate ?_ ?_ _ _,
    field_foldl AppConfig.durationSec _ .duration ?_ ?_ _ _,
    field_foldl AppConfig.keepaliveSec _ .keepalive ?_ ?_ _ _⟩
  all_goals
    first
    | exact fun _ _ => rfl
    | intro _ _ other different
      cases other <;> first | rfl | exact absurd rfl different

/-- A command line without the usage text gives a configuration, whose
validated fields are read from the last values. -/
theorem exists_parseArgs
    {build : Build} {args : List Bytes}
    (noHelp : ∀ a ∈ args, flagOf build a ≠ .help) :
    ∃ cfg, parseArgs build args = some cfg ∧
      ReadFrom (options build args) cfg :=
  ⟨_, parseFrom_eq noHelp defaults, readFrom_foldl _⟩

end AccelObserver.Client.ConfArgparse
