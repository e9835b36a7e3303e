import AccelObserver.Server.CliArgs

/-!
# The path of the configuration file

`main` looks for `--config` in two passes: `extract_config_path` compares every
argument, `parse_args` only the ones that it reaches as options.  A turn of the
loop of `parse_args` is written down here with the place of its argument, so
that the two passes can be compared by the place of the path.
-/

namespace AccelObserver.Server.CliArgs

open AccelObserver.Library

/-! ## The first pass -/

/-- `extract_config_path` from a place on: the place and the text of the
argument that it returns. -/
def extractFrom : Nat → List Bytes → Option (Nat × Bytes)
  | i, a :: value :: rest =>
      if a = ascii "--config" then some (i + 1, value)
      else extractFrom (i + 1) (value :: rest)
  | _, _ => none

/-- `extract_config_path`; `argv[0]` is the name of the program. -/
def extractConfigPath (args : List Bytes) : Option (Nat × Bytes) :=
  extractFrom 1 args

/-! ## The second pass -/

/-- A turn of the loop: the place of its argument, what option it is, and the
arguments behind it. -/
structure Turn where
  place : Nat
  flag : Flag
  rest : List Bytes

/-- The turns of the loop from a place on; the usage text ends it. -/
def turnsFrom : Nat → List Bytes → List Turn
  | _, [] => []
  | i, a :: rest =>
      let flag := flagOf a
      let turn : Turn := { place := i, flag := flag, rest := rest }
      if flag = .help then [turn]
      else
        match flag.consumes rest, rest with
        | true, _ :: more => turn :: turnsFrom (i + 2) more
        | _, rest => turn :: turnsFrom (i + 1) rest

/-- The turns of `parse_args`. -/
def turns (args : List Bytes) : List Turn :=
  turnsFrom 1 args

/-- What a turn does to the configuration. -/
def Turn.apply (cfg : Config) (turn : Turn) : Option Config :=
  if turn.flag = .help then none
  else some (applyFlag cfg (turn.rest.headD []) turn.rest turn.flag)

/-- The argument that a `--config` skips, with its place. -/
def Turn.skipped (turn : Turn) : Option (Nat × Bytes) :=
  turn.rest.head?.map fun value => (turn.place + 1, value)

/-- What is skipped for the first `--config` that `parse_args` recognises. -/
def skippedConfig (args : List Bytes) : Option (Nat × Bytes) :=
  ((turns args).find? fun turn => turn.flag = .config).bind Turn.skipped

/-- Where the places of a loop go on behind an option. -/
def Flag.step (rest : List Bytes) (flag : Flag) : Nat :=
  if flag.consumes rest ∧ rest ≠ [] then 2 else 1

/-- One turn, and the turns behind its value. -/
theorem turnsFrom_cons (i : Nat) (a : Bytes) (rest : List Bytes) :
    turnsFrom i (a :: rest) =
      { place := i, flag := flagOf a, rest := rest } ::
        if flagOf a = .help then []
        else
          turnsFrom (i + (flagOf a).step rest) ((flagOf a).behind rest) := by
  conv_lhs => unfold turnsFrom
  by_cases help : flagOf a = .help
  · simp only [if_pos help]
  · simp only [if_neg help, Flag.behind, Flag.step]
    cases rest with
    | nil => cases (flagOf a).consumes [] <;> rfl
    | cons value more =>
        cases (flagOf a).consumes (value :: more) <;> simp

/-- The induction over the turns: behind an option and its value. -/
theorem turns_induction
    {motive : Nat → List Bytes → Prop} (nil : ∀ i, motive i [])
    (cons : ∀ i a rest,
      motive (i + (flagOf a).step rest) ((flagOf a).behind rest) →
        motive i (a :: rest))
    (i : Nat) (args : List Bytes) : motive i args := by
  induction size : args.length using Nat.strong_induction_on
    generalizing i args with
  | _ size induction =>
    cases args with
    | nil => exact nil i
    | cons a rest =>
        have shorter := (flagOf a).length_behind_le rest
        rw [List.length_cons] at size
        exact cons i a rest (induction _ (by omega) _ _ rfl)

/-- The loop of `parse_args` is the sequence of its turns. -/
theorem parseArgs_eq_turns (cfg : Config) (args : List Bytes) :
    parseArgs cfg args = (turns args).foldlM Turn.apply cfg := by
  suffices from_place : ∀ (cfg : Config),
      parseArgs cfg args = (turnsFrom 1 args).foldlM Turn.apply cfg from
    from_place cfg
  generalize 1 = i
  induction i, args using turns_induction with
  | nil i => exact fun _ => rfl
  | cons i a rest induction =>
      intro cfg
      rw [parseArgs_cons, turnsFrom_cons, List.foldlM_cons, Turn.apply]
      by_cases help : flagOf a = .help
      · rw [if_pos help, if_pos help]
        rfl
      · rw [if_neg help, if_neg help, if_neg help, Option.bind_eq_bind,
          Option.bind_some, induction]

/-! ## When the passes agree -/

/--
Both passes have the same path: what the first one returns is what the second
one skips for its first `--config`, and there is none exactly if no `--config`
that the second one recognises has a value.
-/
structure SamePath (args : List Bytes) : Prop where
  path : extractConfigPath args = skippedConfig args
  absent :
    extractConfigPath args = none ↔
      ∀ turn ∈ turns args, turn.flag = .config → turn.rest = []

/-- No option before the first `--config` takes as its value a `--config` that
has another argument behind it. -/
def unshadowed : List Bytes → Bool
  | [] => true
  | a :: rest =>
      if flagOf a = .config then true
      else
        match (flagOf a).consumes rest, rest with
        | true, value :: more =>
            !(value == ascii "--config" && !more.isEmpty) && unshadowed more
        | _, rest => unshadowed rest

/-- An argument that the passes pass over, and the arguments behind it. -/
theorem unshadowed_cons
    {a : Bytes} (other : flagOf a ≠ .config) (rest : List Bytes) :
    unshadowed (a :: rest) = true ↔
      ¬ ((flagOf a).consumes rest = true ∧
          ∃ value more, rest = ascii "--config" :: value :: more) ∧
        unshadowed ((flagOf a).behind rest) = true := by
  conv_lhs => unfold unshadowed
  simp only [if_neg other, Flag.behind]
  cases rest with
  | nil => cases (flagOf a).consumes [] <;> simp
  | cons value more =>
      cases (flagOf a).consumes (value :: more) with
      | false => simp
      | true => cases more <;> simp

theorem flagOf_eq_config_iff {a : Bytes} :
    flagOf a = .config ↔ a = ascii "--config" := by
  constructor
  · intro config
    have names :
        ∀ entry ∈ flagNames, entry.2 = .config →
          entry.1 = ascii "--config" := by
      decide
    have known : flagOf a ≠ .unknown := by simp [config]
    exact names _ (mem_flagNames known) config
  · rintro rfl
    rfl

/-- The first pass moves on by one argument. -/
theorem extractFrom_cons (i : Nat) (a : Bytes) (rest : List Bytes) :
    extractFrom i (a :: rest) =
      if a = ascii "--config" then
        rest.head?.map fun value => (i + 1, value)
      else extractFrom (i + 1) rest := by
  cases rest with
  | nil => split_ifs <;> rfl
  | cons value more => rfl

/-- What the second pass skips from a place on. -/
def skippedFrom (i : Nat) (args : List Bytes) : Option (Nat × Bytes) :=
  ((turnsFrom i args).find? fun turn => turn.flag = .config).bind Turn.skipped

/-- The second pass moves on by an option and its value. -/
theorem skippedFrom_cons
    {a : Bytes} (noHelp : flagOf a ≠ .help) (i : Nat) (rest : List Bytes) :
    skippedFrom i (a :: rest) =
      if flagOf a = .config then
        rest.head?.map fun value => (i + 1, value)
      else
        skippedFrom (i + (flagOf a).step rest) ((flagOf a).behind rest) := by
  rw [skippedFrom, turnsFrom_cons, if_neg noHelp]
  by_cases config : flagOf a = .config
  · simp [config, Turn.skipped]
  · simp [config, skippedFrom]

/-- The places of the turns go up from where the loop begins. -/
theorem le_place_of_mem_turnsFrom
    {i : Nat} {args : List Bytes} {turn : Turn}
    (member : turn ∈ turnsFrom i args) : i ≤ turn.place := by
  induction i, args using turns_induction with
  | nil i => cases member
  | cons i a rest induction =>
      rw [turnsFrom_cons] at member
      rcases List.mem_cons.mp member with rfl | later
      · exact Nat.le_refl i
      · split_ifs at later
        · cases later
        · exact (Nat.le_add_right i _).trans (induction later)

/-- What is skipped stands behind the place where the search begins. -/
theorem lt_of_skippedFrom
    {i place : Nat} {args : List Bytes} {value : Bytes}
    (skipped : skippedFrom i args = some (place, value)) : i < place := by
  rcases Option.bind_eq_some_iff.mp skipped with ⟨turn, found, taken⟩
  rcases Option.map_eq_some_iff.mp taken with ⟨_, _, same⟩
  have below := le_place_of_mem_turnsFrom (List.mem_of_find?_eq_some found)
  have place_eq : turn.place + 1 = place := congrArg Prod.fst same
  omega

/-- From every place on, the passes agree exactly if no path is shadowed. -/
theorem extractFrom_eq_skippedFrom_iff
    (i : Nat) {args : List Bytes} (noHelp : ∀ a ∈ args, flagOf a ≠ .help) :
    extractFrom i args = skippedFrom i args ↔ unshadowed args = true := by
  induction i, args using turns_induction with
  | nil i => exact ⟨fun _ => rfl, fun _ => rfl⟩
  | cons i a rest induction =>
      rcases List.forall_mem_cons.mp noHelp with ⟨noHelpHere, noHelpLater⟩
      have later := induction fun a member =>
        noHelpLater a (Flag.mem_of_mem_behind member)
      by_cases config : flagOf a = .config
      · have first : unshadowed (a :: rest) = true := by
          unfold unshadowed
          rw [if_pos config]
        rw [extractFrom_cons, skippedFrom_cons noHelpHere, if_pos config,
          if_pos (flagOf_eq_config_iff.mp config)]
        exact ⟨fun _ => first, fun _ => rfl⟩
      · have other : a ≠ ascii "--config" := fun same =>
          config (flagOf_eq_config_iff.mpr same)
        rw [extractFrom_cons, skippedFrom_cons noHelpHere, if_neg config,
          if_neg other, unshadowed_cons config, ← later]
        cases rest with
        | nil =>
            rw [Flag.behind, List.tail_nil, ite_self]
            simp [extractFrom, skippedFrom, turnsFrom]
        | cons value more =>
            by_cases consumes : (flagOf a).consumes (value :: more) = true
            · simp only [Flag.behind, Flag.step, consumes, ne_eq,
                reduceCtorEq, not_false_eq_true, and_self, if_true,
                List.tail_cons, true_and]
              rw [extractFrom_cons]
              by_cases shadow : value = ascii "--config"
              · cases more with
                | nil => simp [shadow, extractFrom, skippedFrom, turnsFrom]
                | cons path rest =>
                    rw [if_pos shadow]
                    have behind :
                        some (i + 1 + 1, path) ≠
                          skippedFrom (i + 2) (path :: rest) := by
                      intro same
                      exact Nat.lt_irrefl _ (lt_of_skippedFrom same.symm)
                    simp [shadow, behind]
              · rw [if_neg shadow]
                simp [shadow]
            · simp [Flag.behind, Flag.step, consumes]

/-- Nothing is skipped exactly if every `--config` is the last argument. -/
theorem skippedFrom_eq_none_iff
    (i : Nat) {args : List Bytes} (noHelp : ∀ a ∈ args, flagOf a ≠ .help) :
    skippedFrom i args = none ↔
      ∀ turn ∈ turnsFrom i args, turn.flag = .config → turn.rest = [] := by
  induction i, args using turns_induction with
  | nil i =>
      constructor
      · intro _ turn member
        cases member
      · exact fun _ => rfl
  | cons i a rest induction =>
      rcases List.forall_mem_cons.mp noHelp with ⟨noHelpHere, noHelpLater⟩
      have later := induction fun a member =>
        noHelpLater a (Flag.mem_of_mem_behind member)
      rw [skippedFrom_cons noHelpHere, turnsFrom_cons, if_neg noHelpHere,
        List.forall_mem_cons]
      by_cases config : flagOf a = .config
      · rw [if_pos config]
        cases rest with
        | nil =>
            rw [Flag.behind, List.tail_nil, ite_self]
            simp [turnsFrom]
        | cons value more => simp [config]
      · rw [if_neg config, later]
        simp [config]

/--
On a command line without `--help`, both passes see the same path exactly if
no option before the first `--config` takes as its value a `--config` with
another argument behind it.
-/
theorem samePath_iff
    {args : List Bytes} (noHelp : ∀ a ∈ args, flagOf a ≠ .help) :
    SamePath args ↔ unshadowed args = true := by
  have agree := extractFrom_eq_skippedFrom_iff 1 noHelp
  constructor
  · intro same
    exact agree.mp same.path
  · intro clear
    have path : extractConfigPath args = skippedConfig args :=
      agree.mpr clear
    exact ⟨path, path ▸ skippedFrom_eq_none_iff 1 noHelp⟩

/-- An option with its value in front of the path. -/
theorem samePath_iff_sample :
    SamePath [ascii "--host", ascii "h", ascii "--config", ascii "f"] := by
  refine (samePath_iff ?_).mpr ?_
  · simp only [List.forall_mem_cons]
    decide
  · decide +kernel

/-- `--host --config file`: the first pass loads a file that the second one
does not know of. -/
theorem not_samePath_host :
    ¬ ∀ args : List Bytes, (∀ a ∈ args, flagOf a ≠ .help) → SamePath args := by
  intro always
  have same :=
    (always [ascii "--host", ascii "--config", ascii "file"]
      (by simp only [List.forall_mem_cons]; decide)).path
  revert same
  decide +kernel

end AccelObserver.Server.CliArgs
