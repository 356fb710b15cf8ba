import Duende.Formats.Argv
import Duende.Platform.Services

/-!
# The command line of a container

`build_run_args` and how `docker run` reads what it builds. `argv_decodes_iff` says for which
configurations that gives the configuration back.
-/

namespace Duende.Platforms.Container

def ContainerAdapter.new : ContainerAdapter where
  runtime := .docker
  imagePrefix := "duende".toList

def containerName (daemonName : Text) : Text := "duende-".toList ++ replaceChar ' ' '-' daemonName

/-- The image: the base name of the binary, or the name of the daemon. -/
def image (a : ContainerAdapter) (config : DaemonConfig) : Text :=
  a.imagePrefix ++ '/' :: (config.binaryPath.fileName.map Path.display).getD config.name ++
    ":latest".toList

def buildRunArgs (a : ContainerAdapter) (config : DaemonConfig) : List Text :=
  ["run".toList, "-d".toList, "--name".toList, containerName config.name] ++
  (if 0 < config.resources.memoryBytes.toNat then
    ["--memory".toList, decimal config.resources.memoryBytes.toNat ++ ['b']] else []) ++
  (if (F64.finite 0).lt config.resources.cpuQuotaPercent &&
      config.resources.cpuQuotaPercent.lt (.finite 100) then
    ["--cpus".toList, (config.resources.cpuQuotaPercent.div 100).fixed2] else []) ++
  (if 0 < config.resources.pidsMax.toNat then
    ["--pids-limit".toList, decimal config.resources.pidsMax.toNat] else []) ++
  config.env.entries.flatMap (fun e => ["-e".toList, e.1 ++ '=' :: e.2]) ++
  (match config.workingDir with
    | some workingDir => ["-w".toList, workingDir.display]
    | none => []) ++
  (match config.user, config.group with
    | some user, some group => ["--user".toList, user ++ ':' :: group]
    | some user, none => ["--user".toList, user]
    | none, _ => []) ++
  ["--restart".toList, config.restart.text, "--stop-timeout".toList,
    decimal (asSecs config.shutdownTimeout), image a config] ++ config.args

/-! ## How `docker run` reads it -/

/-- The options of `docker run`: `-d` takes no value, the others one. -/
def arity (w : Text) : Option Bool :=
  if w = "-d".toList then some false
  else if w ∈ ["--name", "--memory", "--cpus", "--pids-limit", "-e", "-w", "--user", "--restart",
      "--stop-timeout"].map String.toList then some true
  else none

/-- What is read from a command line. -/
structure Decoded where
  name : Option Text
  memory : Option Nat
  pids : Option Nat
  env : List (Text × Text)
  workingDir : Option Path
  user : Option Text
  group : Option Text
  restart : Option RestartPolicy
  stopTimeout : Option Nat
  command : List Text
  deriving DecidableEq

def memoryOf (v : Text) : Option Nat :=
  if v.getLast? = some 'b' then parseNat v.dropLast else none

/-- The user and group: the parts before and after the first colon, up to the next. -/
def userOf (v : Text) : Option Text × Option Text :=
  if ':' ∈ v then
    (some (splitAtFirst ':' v).1, some (splitAtFirst ':' (splitAtFirst ':' v).2).1)
  else (some v, none)

def restartOf (v : Text) : Option RestartPolicy :=
  [RestartPolicy.never, .always, .onFailure, .unlessStopped].find? fun p => p.text = v

def lastValue (o : String) (opts : List Argv.Opt) : Option Text :=
  (Argv.values o.toList opts).getLast?

def decodeOpts (opts : List Argv.Opt) (command : List Text) : Decoded where
  name := lastValue "--name" opts
  memory := (lastValue "--memory" opts).bind memoryOf
  pids := (lastValue "--pids-limit" opts).bind parseNat
  env := (Argv.values "-e".toList opts).map (splitAtFirst '=')
  workingDir := (lastValue "-w" opts).map Path.ofText
  user := (lastValue "--user" opts).bind fun v => (userOf v).1
  group := (lastValue "--user" opts).bind fun v => (userOf v).2
  restart := (lastValue "--restart" opts).bind restartOf
  stopTimeout := (lastValue "--stop-timeout" opts).bind parseNat
  command := command

/-- Read a command line: the first operand of `run` is the image, the rest the command. -/
def decode : List Text → Option Decoded
  | [] => none
  | w :: ws =>
    if w = "run".toList then
      match Argv.parse arity ws with
      | some (opts, _ :: command) => some (decodeOpts opts command)
      | _ => none
    else none

/-- What the configuration says. -/
def wanted (config : DaemonConfig) : Decoded where
  name := some (containerName config.name)
  memory := some config.resources.memoryBytes.toNat
  pids := some config.resources.pidsMax.toNat
  env := config.env.entries
  workingDir := config.workingDir
  user := config.user
  group := config.group
  restart := some config.restart
  stopTimeout := some (asSecs config.shutdownTimeout)
  command := config.args

/-- Nothing in the configuration is split at another place than it was joined at, or lost. -/
structure Plain (a : ContainerAdapter) (config : DaemonConfig) : Prop where
  image : a.imagePrefix.head? ≠ some '-'
  env : ∀ e ∈ config.env.entries, '=' ∉ e.1
  workingDir : ∀ p, config.workingDir = some p → p.isUtf8 = true
  user : ∀ u, config.user = some u → ':' ∉ u
  group : ∀ g, config.group = some g → config.user ≠ none ∧ ':' ∉ g

/-! ## The options -/

variable {a : ContainerAdapter} {config : DaemonConfig} {table : Char → Bool}

/-- An option that is written under a condition. -/
def optIf (b : Bool) (o : String) (v : Text) : List Argv.Opt :=
  if b then [(o.toList, some v)] else []

/-- The user and group in one word. -/
def userWord (config : DaemonConfig) : Option Text :=
  match config.user, config.group with
  | some user, some group => some (user ++ ':' :: group)
  | user, _ => user

def options (config : DaemonConfig) : List Argv.Opt :=
  [("-d".toList, none), ("--name".toList, some (containerName config.name))] ++
  optIf (0 < config.resources.memoryBytes.toNat) "--memory"
    (decimal config.resources.memoryBytes.toNat ++ ['b']) ++
  optIf ((F64.finite 0).lt config.resources.cpuQuotaPercent &&
    config.resources.cpuQuotaPercent.lt (.finite 100)) "--cpus"
    (config.resources.cpuQuotaPercent.div 100).fixed2 ++
  optIf (0 < config.resources.pidsMax.toNat) "--pids-limit"
    (decimal config.resources.pidsMax.toNat) ++
  config.env.entries.map (fun e => ("-e".toList, some (e.1 ++ '=' :: e.2))) ++
  (config.workingDir.map fun p => ("-w".toList, some p.display)).toList ++
  ((userWord config).map fun u => ("--user".toList, some u)).toList ++
  [("--restart".toList, some config.restart.text),
    ("--stop-timeout".toList, some (decimal (asSecs config.shutdownTimeout)))]

theorem words_optIf (b : Bool) (o : String) (v : Text) :
    Argv.words (optIf b o v) = if b then [o.toList, v] else [] := by
  cases b <;> rfl

theorem words_env (es : List (Text × Text)) :
    Argv.words (es.map fun e => ("-e".toList, some (e.1 ++ '=' :: e.2))) =
      es.flatMap fun e => ["-e".toList, e.1 ++ '=' :: e.2] := List.flatMap_map ..

theorem buildRunArgs_eq : buildRunArgs a config =
    "run".toList :: (Argv.words (options config) ++ image a config :: config.args) := by
  have hwd : Argv.words (config.workingDir.map fun p => ("-w".toList, some p.display)).toList =
      match config.workingDir with
      | some workingDir => ["-w".toList, workingDir.display]
      | none => [] := by
    cases config.workingDir <;> rfl
  have huser : Argv.words ((userWord config).map fun u => ("--user".toList, some u)).toList =
      match config.user, config.group with
      | some user, some group => ["--user".toList, user ++ ':' :: group]
      | some user, none => ["--user".toList, user]
      | none, _ => [] := by
    unfold userWord
    cases config.user <;> cases config.group <;> rfl
  unfold buildRunArgs options
  simp only [Argv.words_append, Argv.words_cons, Argv.words_nil, Argv.optWords, words_optIf,
    words_env, hwd, huser, decide_eq_true_eq, List.cons_append, List.append_assoc, List.nil_append]

theorem known_value {o : String} (v : Text)
    (h : Argv.isOption o.toList = true ∧ arity o.toList = some true) :
    Argv.Known arity (o.toList, some v) := h

theorem options_known : ∀ o ∈ options config, Argv.Known arity o := by
  have hopt : ∀ (b : Bool) {o : String} (v : Text),
      (Argv.isOption o.toList = true ∧ arity o.toList = some true) →
      ∀ x ∈ optIf b o v, Argv.Known arity x := by
    intro b o v h x hx
    cases b with
    | false => cases hx
    | true => rw [List.mem_singleton.1 hx]; exact known_value v h
  intro o ho
  simp only [options, List.mem_append, List.mem_cons, List.not_mem_nil, or_false, List.mem_map,
    Option.mem_toList, Option.map_eq_some_iff] at ho
  rcases ho with ((((((((rfl | rfl) | h) | h) | h) | ⟨e, -, rfl⟩) | ⟨p, -, rfl⟩) | ⟨u, -, rfl⟩) |
    (rfl | rfl))
  · exact ⟨by decide, by decide⟩
  · exact known_value _ (by decide)
  · exact hopt _ _ (by decide) o h
  · exact hopt _ _ (by decide) o h
  · exact hopt _ _ (by decide) o h
  · exact known_value _ (by decide)
  · exact known_value _ (by decide)
  · exact known_value _ (by decide)
  · exact known_value _ (by decide)
  · exact known_value _ (by decide)

theorem values_optIf (w : Text) (b : Bool) (o : String) (v : Text) :
    Argv.values w (optIf b o v) = if o.toList = w ∧ b then [v] else [] := by
  cases b <;> simp [optIf]

theorem values_option {α : Type} (w w' : Text) (f : α → Text) (x : Option α) :
    Argv.values w (x.map fun x => (w', some (f x))).toList =
      if w' = w then (x.map f).toList else [] := by
  cases x <;> simp

theorem getLast?_toList {α : Type} (x : Option α) : x.toList.getLast? = x := by
  cases x <;> rfl

theorem memoryOf_decimal (n : Nat) : memoryOf (decimal n ++ ['b']) = some n := by
  simp [memoryOf]

theorem decodeOpts_options (hv : config.Valid table) :
    decodeOpts (options config) config.args =
      { wanted config with
        env := config.env.entries.map fun e => splitAtFirst '=' (e.1 ++ '=' :: e.2)
        workingDir := config.workingDir.map fun p => Path.ofText p.display
        user := (userWord config).bind fun v => (userOf v).1
        group := (userWord config).bind fun v => (userOf v).2 } := by
  have hmem : 0 < config.resources.memoryBytes.toNat := by
    have := hv.memory_ne
    exact Nat.pos_of_ne_zero fun h => this (UInt64.toNat_inj.1 h)
  have hpids : 0 < config.resources.pidsMax.toNat := by
    have := hv.pids_ne
    exact Nat.pos_of_ne_zero fun h => this (UInt64.toNat_inj.1 h)
  have hname : lastValue "--name" (options config) = some (containerName config.name) := by
    simp +decide [lastValue, options, values_optIf, Argv.values_map, values_option]
  have hmemory : lastValue "--memory" (options config) =
      some (decimal config.resources.memoryBytes.toNat ++ ['b']) := by
    simp +decide [lastValue, options, values_optIf, Argv.values_map, values_option, hmem]
  have hpidsLimit : lastValue "--pids-limit" (options config) =
      some (decimal config.resources.pidsMax.toNat) := by
    simp +decide [lastValue, options, values_optIf, Argv.values_map, values_option, hpids]
  have henv : Argv.values "-e".toList (options config) =
      config.env.entries.map fun e => e.1 ++ '=' :: e.2 := by
    simp +decide [options, values_optIf, Argv.values_map, values_option]
  have hwd : lastValue "-w" (options config) = config.workingDir.map Path.display := by
    simp +decide [lastValue, options, values_optIf, Argv.values_map, values_option,
      getLast?_toList]
  have huser : lastValue "--user" (options config) = userWord config := by
    simp +decide [lastValue, options, values_optIf, Argv.values_map, values_option,
      getLast?_toList]
  have hrestart : lastValue "--restart" (options config) = some config.restart.text := by
    simp +decide [lastValue, options, values_optIf, Argv.values_map, values_option]
  have hstop : lastValue "--stop-timeout" (options config) =
      some (decimal (asSecs config.shutdownTimeout)) := by
    simp +decide [lastValue, options, values_optIf, Argv.values_map, values_option]
  have hpolicy : restartOf config.restart.text = some config.restart := by
    cases config.restart <;> decide
  unfold decodeOpts wanted
  simp only [hname, hmemory, hpidsLimit, henv, hwd, huser, hrestart, hstop, Option.bind_some,
    memoryOf_decimal, parseNat_decimal, hpolicy, List.map_map, Option.map_map, Function.comp_def]

/-! ## The round trip -/

theorem decode_buildRunArgs (himage : a.imagePrefix.head? ≠ some '-') :
    decode (buildRunArgs a config) = some (decodeOpts (options config) config.args) := by
  have hop : Argv.isOption (image a config) = false := by
    unfold Argv.isOption image
    cases hp : a.imagePrefix with
    | nil => simp
    | cons c s => rw [hp] at himage; simpa using himage
  rw [buildRunArgs_eq, decode, if_pos rfl, Argv.parse_append options_known,
    Argv.parse_operand hop]
  simp

/-- An image that looks like an option is not read. -/
theorem decode_dash (himage : a.imagePrefix.head? = some '-') :
    decode (buildRunArgs a config) = none := by
  have hslash : '/' ∈ image a config := by simp [image]
  have hop : Argv.isOption (image a config) = true := by
    unfold Argv.isOption image
    cases hp : a.imagePrefix with
    | nil => rw [hp] at himage; cases himage
    | cons c s => rw [hp] at himage; simpa using himage
  have har : arity (image a config) = none := by
    unfold arity
    rw [if_neg, if_neg]
    · intro h
      have hno : ∀ w ∈ ["--name", "--memory", "--cpus", "--pids-limit", "-e", "-w", "--user",
          "--restart", "--stop-timeout"].map String.toList, '/' ∉ w := by decide
      exact hno _ h hslash
    · intro h
      rw [h] at hslash
      revert hslash
      decide
  rw [buildRunArgs_eq, decode, if_pos rfl, Argv.parse_append options_known,
    Argv.parse_unknown hop har]
  rfl

theorem env_iff {es : List (Text × Text)} :
    es.map (fun e => splitAtFirst '=' (e.1 ++ '=' :: e.2)) = es ↔ ∀ e ∈ es, '=' ∉ e.1 := by
  constructor
  · intro h e he
    have hfix : splitAtFirst '=' (e.1 ++ '=' :: e.2) = e := by
      have hall : ∀ x ∈ es,
          (fun e : Text × Text => splitAtFirst '=' (e.1 ++ '=' :: e.2)) x = id x :=
        List.map_inj_left.1 (h.trans (List.map_id es).symm)
      exact hall e he
    rw [← hfix]
    exact not_mem_splitAtFirst '=' _
  · intro h
    conv_rhs => rw [← List.map_id es]
    exact List.map_congr_left fun e he => splitAtFirst_append (h e he)

theorem workingDir_iff {p : Option Path} :
    (p.map fun p => Path.ofText p.display) = p ↔ ∀ q, p = some q → q.isUtf8 = true := by
  cases p with
  | none => simp
  | some p => simpa using Path.ofText_display

/-- The user and group come back exactly when neither is cut and the group has a user. -/
theorem user_iff : ((userWord config).bind fun v => (userOf v).1) = config.user ∧
    ((userWord config).bind fun v => (userOf v).2) = config.group ↔
      (∀ u, config.user = some u → ':' ∉ u) ∧
        ∀ g, config.group = some g → config.user ≠ none ∧ ':' ∉ g := by
  unfold userWord
  cases config.user with
  | none => cases config.group <;> simp
  | some u =>
    cases config.group with
    | none =>
      simp only [Option.bind_some, userOf]
      by_cases hu : ':' ∈ u
      · simp [hu]
      · simp [hu]
    | some g =>
      have hmem : ':' ∈ u ++ ':' :: g := by simp
      simp only [Option.bind_some, userOf, hmem, if_true, Option.some.injEq, ne_eq, reduceCtorEq,
        not_false_eq_true, true_and, forall_eq']
      constructor
      · rintro ⟨hu, hg⟩
        have hu' : ':' ∉ u := by rw [← hu]; exact not_mem_splitAtFirst ':' _
        rw [splitAtFirst_append hu'] at hg
        exact ⟨hu', by rw [← hg]; exact not_mem_splitAtFirst ':' _⟩
      · rintro ⟨hu, hg⟩
        rw [splitAtFirst_append hu]
        exact ⟨rfl, splitAtFirst_of_not_mem hg⟩

/-- **The command line of a container** is read back as the configuration exactly when the
image does not look like an option, no variable's name has an equals sign, the working
directory is UTF-8, neither user nor group has a colon, and a group comes with a user. -/
theorem argv_decodes_iff (hv : config.validate table = .ok ()) :
    decode (buildRunArgs a config) = some (wanted config) ↔ Plain a config := by
  have hdec := decodeOpts_options (validate_iff.1 hv)
  constructor
  · intro h
    have himage : a.imagePrefix.head? ≠ some '-' := fun hd => by
      rw [decode_dash hd] at h; cases h
    rw [decode_buildRunArgs himage, hdec, Option.some.injEq] at h
    have huser := user_iff.1 ⟨congrArg Decoded.user h, congrArg Decoded.group h⟩
    exact ⟨himage, env_iff.1 (congrArg Decoded.env h),
      workingDir_iff.1 (congrArg Decoded.workingDir h), huser.1, huser.2⟩
  · rintro ⟨himage, henv, hwd, huser, hgroup⟩
    obtain ⟨hu, hg⟩ := user_iff.2 ⟨huser, hgroup⟩
    rw [decode_buildRunArgs himage, hdec, env_iff.2 henv, workingDir_iff.2 hwd, hu, hg]
    rfl

def grouped (user : Option Text) : DaemonConfig :=
  { DaemonConfig.new "web".toList (.ofText "/usr/bin/web".toList) with
    user := user
    group := some "staff".toList }

theorem grouped_valid (user : Option Text) :
    (grouped user).validate (fun _ => false) = .ok () := by
  have hres : (grouped user).resources.validate = .ok () := default_resources_valid
  unfold DaemonConfig.validate
  rw [hres]
  rfl

/-- With a user, everything comes back. -/
theorem argv_decodes_grouped : decode (buildRunArgs .new (grouped (some "www".toList))) =
    some (wanted (grouped (some "www".toList))) :=
  (argv_decodes_iff (grouped_valid _)).2
    { image := by decide
      env := by decide
      workingDir := fun p hp => nomatch hp
      user := by decide
      group := by decide }

/-- Without one, the group is lost. -/
theorem group_dropped : (grouped none).validate (fun _ => false) = .ok () ∧
    decode (buildRunArgs .new (grouped none)) ≠ some (wanted (grouped none)) := by
  refine ⟨grouped_valid none, fun h => ?_⟩
  rw [decode_buildRunArgs (by decide), Option.some.injEq] at h
  have hg := congrArg Decoded.group h
  rw [decodeOpts_options (validate_iff.1 (grouped_valid none))] at hg
  cases hg

end Duende.Platforms.Container
