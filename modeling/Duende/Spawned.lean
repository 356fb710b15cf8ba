import Duende.Delivery
import Duende.Spawn

/-!
# What the service managers create

How a service manager reads the command that an adapter runs for a daemon, with the files that were
written for it. `spawned_addressed` says that it creates the one unit that the handle names, and
that `spawn` returns a handle exactly when it accepts the command.
-/

namespace Duende

open Trans

/-- A unit of a service manager, and what runs in it; for a container, the image comes first. -/
structure Creation where
  unit : Text
  program : List Text
  deriving DecidableEq

/-! ## Files -/

/-- What is in a file, after a deed. -/
def Deed.update (file : Path) (contents : Option Text) : (Σ q : Deed, q.Answer) → Option Text
  | ⟨.write f t, answer⟩ =>
    match answer with
    | .ok () => if f = file then some t else contents
    | .error _ => contents
  | ⟨.removeFile f, answer⟩ =>
    match answer with
    | .ok () => if f = file then none else contents
    | .error _ => contents
  | _ => contents

/-- What was written to a file, as far as it still is there. -/
def written (d : Dialogue Deed.Answer) (file : Path) : Option Text :=
  d.foldl (Deed.update file) none

/-- The command succeeds. -/
def Deed.accepts : (Σ q : Deed, q.Answer) → Bool
  | ⟨.command _ _, answer⟩ =>
    match answer with
    | .ok output => output.success
    | .error _ => false
  | ⟨.createDirAll _, answer⟩ | ⟨.write _ _, answer⟩ | ⟨.removeFile _, answer⟩ => answer.isOk

/-- What the commands that succeeded have printed. -/
def printedBy (d : Dialogue Deed.Answer) : List Text :=
  d.filterMap fun
    | ⟨.command _ _, answer⟩ =>
      match answer with
      | .ok output => if output.success then some (trim output.stdout) else none
      | .error _ => none
    | _ => none

/-! ## How the service managers read -/

/-- A name that systemd takes as it is. -/
def isUnitName (u : Text) : Bool :=
  u.all fun c => c.isAlphanum || c == ':' || c == '-' || c == '_' || c == '.' || c == '\\'

/-- The options of `systemd-run`. -/
def transientArity (w : Text) : Option Bool :=
  if w = "--unit".toList ∨ w = "--description".toList then some true
  else if w = "--user".toList ∨ w = "--remain-after-exit".toList ∨ w = "--collect".toList ∨
      w = "--".toList ∨ "--property=".toList.isPrefixOf w then some false
  else none

/-- `systemd-run OPTIONS -- PROGRAM` -/
def readTransient (args : List Text) : Option Creation :=
  match Argv.parse transientArity args with
  | some (opts, program) =>
    if opts.getLast? = some ("--".toList, none) then
      (lastOf "--unit" opts).bind fun u => if isUnitName u then some ⟨u, program⟩ else none
    else none
  | none => none

def jobOf (plist : Text) : Option Creation :=
  (Plist.parse plist).bind fun items =>
    (Plist.stringAt "Label".toList items).bind fun label =>
      (Plist.arrayAt "ProgramArguments".toList items).map fun program => ⟨label, program⟩

/-- `launchctl bootstrap DOMAIN FILE` -/
def readBootstrap (files : Path → Option Text) (args : List Text) (file : Path) :
    Option Creation :=
  match args with
  | [sub, domain] =>
    if sub = "bootstrap".toList then
      ((files file).bind jobOf).map fun job => { job with unit := domain ++ '/' :: job.unit }
    else none
  | _ => none

/-- `launchctl load -w FILE` -/
def readLoad (files : Path → Option Text) (args : List Text) (file : Path) : Option Creation :=
  if args = ["load".toList, "-w".toList] then (files file).bind jobOf else none

/-- `run -d --name NAME OPTIONS IMAGE PROGRAM` -/
def readRun (args : List Text) : Option Creation :=
  match subcommand Platforms.Container.arity "run" args with
  | some (opts, image :: program) =>
    (lastOf "--name" opts).map fun name => ⟨name, image :: program⟩
  | _ => none

/-- `ctr run -d IMAGE NAME PROGRAM` -/
def readCtrRun (args : List Text) : Option Creation :=
  match subcommand Platforms.Container.arity "run" args with
  | some (_, image :: name :: program) => some ⟨name, image :: program⟩
  | _ => none

/-- The characters of a word, if it has no specifiers. -/
def bareWord (w : List UnitFile.Piece) : Option Text :=
  w.mapM fun
    | .char c => some c
    | .specifier _ => none

/-- The program of a service, in its unit file. -/
def serviceProgram (file : Text) : Option (List Text) :=
  (UnitFile.read Platforms.Linux.manual Platforms.Linux.kinds file).bind fun directives =>
    directives.findSome? fun
      | ⟨sec, key, .command ws⟩ =>
        if sec = "Service".toList ∧ key = "ExecStart".toList then ws.mapM bareWord else none
      | _ => none

def daemonReload : Deed := .command ⟨.ofText "systemctl".toList, ["daemon-reload".toList]⟩ none

/-- The deeds up to the last `daemon-reload` that succeeded: systemd has read the files then. -/
def reloaded (d : Dialogue Deed.Answer) : Dialogue Deed.Answer :=
  (d.reverse.dropWhile fun q => !(q.1 = daemonReload && Deed.accepts q)).reverse

/-- `systemctl start UNIT`, where the unit files are in `dir`. -/
def readStart (dir : Path) (files : Path → Option Text) (args : List Text) : Option Creation :=
  match args with
  | [sub, unit] =>
    if sub = "start".toList ∧ isUnitName unit then
      ((files (dir.join (.ofText unit))).bind serviceProgram).map fun program => ⟨unit, program⟩
    else none
  | _ => none

/-- The commands that create units. -/
def Deed.creates : Deed → Bool
  | .command c _ =>
    c.program = .ofText "systemd-run".toList || c.args.head? = some "bootstrap".toList ||
      c.args.head? = some "load".toList || c.args.head? = some "run".toList ||
      c.args.head? = some "start".toList
  | _ => false

theorem creates_of_head {p : Path} {w : Text} {file : Option Path} (ws : List Text)
    (hp : p ≠ .ofText "systemd-run".toList)
    (hw : w ∉ ["bootstrap", "load", "run", "start"].map String.toList) :
    (Deed.command ⟨p, w :: ws⟩ file).creates = false := by
  simp only [List.map_cons, List.map_nil, List.mem_cons, List.not_mem_nil, or_false, not_or] at hw
  simp only [Deed.creates, List.head?_cons, Option.some.injEq, Bool.or_eq_false_iff,
    decide_eq_false_iff_not]
  exact ⟨⟨⟨⟨hp, hw.1⟩, hw.2.1⟩, hw.2.2.1⟩, hw.2.2.2⟩

theorem printedBy_cons {cmd : Command} {file : Option Path} {output : Output}
    (h : output.success = true) (d : Dialogue Deed.Answer) :
    printedBy (⟨.command cmd file, (.ok output : Ran)⟩ :: d) =
      trim output.stdout :: printedBy d := by
  rw [printedBy, List.filterMap_cons]
  simp only [h, if_true]
  rfl

theorem getLast?_printedBy {cmd : Command} {file : Option Path} {output : Output}
    (h : output.success = true) (d : Dialogue Deed.Answer) :
    (printedBy (d ++ [⟨.command cmd file, (.ok output : Ran)⟩])).getLast? =
      some (trim output.stdout) := by
  have hlast : printedBy [⟨.command cmd file, (.ok output : Ran)⟩] = [trim output.stdout] :=
    printedBy_cons h []
  rw [printedBy, List.filterMap_append]
  exact (congrArg (fun l => (printedBy d ++ l).getLast?) hlast).trans List.getLast?_concat

theorem find_printedBy (cmd : Command) (file : Option Path) (ran : Ran) :
    (printedBy [⟨.command cmd file, ran⟩]).find? (fun s => !s.isEmpty) =
      Core.Container.listedId ran := by
  rcases ran with e | output
  · rfl
  · cases hs : output.success with
    | false => simp [printedBy, Core.Container.listedId, hs]
    | true =>
      rw [printedBy_cons hs]
      cases he : (trim output.stdout).isEmpty <;>
        simp [printedBy, Core.Container.listedId, hs, he]

/-! ## Created units -/

/-- What `spawn` says to the system, and whether it returns `Ok`: one creating command at most,
read as the unit `c`; `Ok` means that it was accepted. -/
structure Spawned (reads : Dialogue Deed.Answer → Deed → Option Creation) (c : Creation)
    (d : Dialogue Deed.Answer) (ok : Bool) : Prop where
  read : ∀ pre q post, d = pre ++ q :: post → q.1.creates = true → reads pre q.1 = some c
  once : d.countP (·.1.creates) ≤ 1
  accepted : ok = true ↔ ∃ q ∈ d, q.1.creates = true ∧ Deed.accepts q = true

section

variable {reads : Dialogue Deed.Answer → Deed → Option Creation} {c : Creation}
  {d : Dialogue Deed.Answer} {ok : Bool} {p : Σ q : Deed, q.Answer}

theorem spawned_nil : Spawned reads c [] false where
  read := fun pre q post h => absurd h.symm (by simp)
  once := Nat.zero_le 1
  accepted := ⟨nofun, fun ⟨_, h, _⟩ => absurd h List.not_mem_nil⟩

theorem Spawned.quiet (h : Spawned reads c d ok) (hp : p.1.creates = false) :
    Spawned reads c (d ++ [p]) ok where
  read := fun pre q post hsplit hq => by
    rcases List.eq_nil_or_concat post with rfl | ⟨post, p', rfl⟩
    · obtain ⟨-, hlast⟩ := List.append_inj' hsplit rfl
      cases List.singleton_injective hlast
      rw [hp] at hq
      cases hq
    · have hd : d ++ [p] = (pre ++ q :: post) ++ [p'] := by simpa using hsplit
      exact h.read pre q post (List.append_inj' hd rfl).1 hq
  once := by
    rw [List.countP_append, List.countP_singleton, hp]
    exact h.once
  accepted := by
    rw [h.accepted]
    constructor
    · exact fun ⟨q, hq, hc⟩ => ⟨q, List.mem_append_left _ hq, hc⟩
    · rintro ⟨q, hq, hc, ha⟩
      rcases List.mem_append.1 hq with hq | hq
      · exact ⟨q, hq, hc, ha⟩
      · rw [List.mem_singleton.1 hq, hp] at hc
        cases hc

theorem spawned_creating (hd : ∀ q ∈ d, q.1.creates = false) (hp : p.1.creates = true)
    (hread : reads d p.1 = some c) : Spawned reads c (d ++ [p]) (Deed.accepts p) where
  read := fun pre q post hsplit hq => by
    rcases List.eq_nil_or_concat post with rfl | ⟨post, p', rfl⟩
    · obtain ⟨rfl, hlast⟩ := List.append_inj' hsplit rfl
      cases List.singleton_injective hlast
      exact hread
    · have hd' : d ++ [p] = (pre ++ q :: post) ++ [p'] := by simpa using hsplit
      rw [hd q ((List.append_inj' hd' rfl).1 ▸ List.mem_append_right _ List.mem_cons_self)] at hq
      cases hq
  once := by
    have hzero : d.countP (·.1.creates) = 0 :=
      List.countP_eq_zero.2 fun q hq => by rw [hd q hq]; decide
    rw [List.countP_append, hzero, List.countP_singleton]
    split <;> omega
  accepted := by
    constructor
    · exact fun h => ⟨p, List.mem_append_right _ List.mem_cons_self, hp, h⟩
    · rintro ⟨q, hq, hc, ha⟩
      rcases List.mem_append.1 hq with hq | hq
      · rw [hd q hq] at hc
        cases hc
      · rwa [List.mem_singleton.1 hq] at ha

theorem Spawned.ensures {ε η : Type} {ok : Bool} :
    ∀ {x : Doing (Except ε η)} {d : Dialogue Deed.Answer}, Spawned reads c d ok →
      x.All (fun q => q.creates = false) (fun r => r.isOk = ok) →
      x.Ensures (fun d r => Spawned reads c d r.isOk) d
  | .done _, _, h, hx => by
    rw [Ask.ensures_done, Ask.all_done.1 hx]
    exact h
  | .ask _ _, _, h, hx => fun a => Spawned.ensures (h.quiet hx.1) (hx.2 a)

theorem ensures_creating {ε η : Type} {cmd : Command} {file : Option Path}
    {k : Ran → Doing (Except ε η)} (hd : ∀ q ∈ d, q.1.creates = false)
    (hcreates : (Deed.command cmd file).creates = true)
    (hread : reads d (.command cmd file) = some c)
    (hk : ∀ ran : Ran, (k ran).All (fun q => q.creates = false)
      (fun r => r.isOk = Deed.accepts ⟨.command cmd file, ran⟩)) :
    (Ask.ask (.command cmd file) k : Doing (Except ε η)).Ensures
      (fun d r => Spawned reads c d r.isOk) d :=
  fun ran => (spawned_creating hd hcreates hread).ensures (hk ran)

theorem all_of_output {ε η : Type} {x y : Doing (Except ε η)} {output : Output}
    (hx : x.All (fun q => q.creates = false) (fun r => r.isOk = false))
    (hy : y.All (fun q => q.creates = false) (fun r => r.isOk = true)) :
    (if !output.success then x else y).All (fun q => q.creates = false)
      (fun r => r.isOk = output.success) := by
  cases output.success with
  | false => exact hx
  | true => exact hy

end

/-! ## The adapters of the core -/

namespace Core

/-- The adapters that hand daemons to a service manager. -/
inductive Manager where
  | systemd (a : Systemd.SystemdAdapter)
  | launchd (a : Launchd.LaunchdAdapter)
  | container (a : Container.ContainerAdapter)

namespace Manager

def adapter : Manager → Adapter
  | systemd a => .systemd a
  | launchd a => .launchd a
  | container a => .container a

def spawn (id : DaemonId) (daemonName : Text) : Manager → Spawning
  | systemd a => Systemd.spawn id daemonName a
  | launchd a => Launchd.spawn id daemonName a
  | container a => Container.spawn id daemonName a

/-- How the service manager reads a deed, after a dialogue. -/
def reads : Manager → Dialogue Deed.Answer → Deed → Option Creation
  | systemd _, _, .command c none =>
    if c.program = .ofText "systemd-run".toList then readTransient c.args else none
  | launchd _, past, .command c (some file) =>
    if c.program = .ofText "launchctl".toList then readBootstrap (written past) c.args file
    else none
  | container a, _, .command c none =>
    if c.program = .ofText a.runtime.command.toList then
      match a.runtime with
      | .docker | .podman => readRun c.args
      | .containerd => readCtrRun c.args
    else none
  | _, _, _ => none

def creation (daemonName : Text) : Manager → Creation
  | systemd _ => ⟨Systemd.unitName daemonName, ["/bin/true".toList]⟩
  | launchd a => ⟨Launchd.target a ++ '/' :: Launchd.serviceLabel daemonName,
      ["/usr/bin/true".toList]⟩
  | container a => ⟨Container.containerName daemonName, a.defaultImage :: Container.placeholder⟩

/-- The name, and the image, stand in the command or the file as they are. -/
def Takes (daemonName : Text) : Manager → Prop
  | systemd _ => isUnitName (Systemd.unitName daemonName) = true
  | launchd _ => Xml.Literal daemonName
  | container a => Argv.isOption a.defaultImage = false

/-- The name of the unit, after the dialogue of `spawn`: a container goes by the first ID that was
printed, if one was. -/
def identity (daemonName : Text) (d : Dialogue Deed.Answer) (m : Manager) : Text :=
  match m with
  | container _ =>
    ((printedBy d).find? fun s => !s.isEmpty).getD (m.creation daemonName).unit
  | _ => (m.creation daemonName).unit

/-- The handle names the unit. -/
structure Addresses (m : Manager) (id : DaemonId) (daemonName : Text) (d : Dialogue Deed.Answer)
    (h : DaemonHandle) : Prop where
  id : h.id = id
  platform : h.platform = m.adapter.platform
  target : m.adapter.target h = some (.service (m.identity daemonName d))
  plain : m.identity daemonName d = (m.creation daemonName).unit → m.adapter.Plain h

/-- What `spawn` owes to its dialogue with the system. -/
def Spawns (m : Manager) (id : DaemonId) (daemonName : Text) (d : Dialogue Deed.Answer)
    (r : Except PlatformError DaemonHandle) : Prop :=
  Spawned m.reads (m.creation daemonName) d r.isOk ∧
    ∀ h, r = .ok h → m.Addresses id daemonName d h

end Manager

variable {id : DaemonId} {daemonName : Text}

def transientOpts (daemonName : Text) : List Argv.Opt :=
  [("--unit".toList, some (Systemd.unitName daemonName)),
    ("--description".toList, some ("Duende daemon: ".toList ++ daemonName)),
    ("--remain-after-exit".toList, none), ("--collect".toList, none),
    ("--property=Restart=on-failure".toList, none), ("--property=RestartSec=5".toList, none),
    ("--".toList, none)]

theorem transientOpts_known : ∀ o ∈ transientOpts daemonName, Argv.Known transientArity o := by
  have hvalued : ∀ v : Text, Argv.Known transientArity ("--unit".toList, some v) ∧
      Argv.Known transientArity ("--description".toList, some v) :=
    fun _ => ⟨⟨rfl, rfl⟩, ⟨rfl, rfl⟩⟩
  have hflags : ∀ o ∈ ["--remain-after-exit", "--collect", "--property=Restart=on-failure",
      "--property=RestartSec=5", "--"].map String.toList,
      Argv.Known transientArity (o, none) := by
    unfold Argv.Known
    decide
  intro o ho
  simp only [transientOpts, List.mem_cons, List.not_mem_nil, or_false] at ho
  rcases ho with rfl | rfl | rfl | rfl | rfl | rfl | rfl
  · exact (hvalued _).1
  · exact (hvalued _).2
  all_goals exact hflags _ (by simp)

theorem lastOf_transientOpts :
    lastOf "--unit" (transientOpts daemonName) = some (Systemd.unitName daemonName) := by
  refine lastOf_cons_self (lastOf_none ?_) _
  simp only [List.forall_mem_cons, List.not_mem_nil, false_imp_iff, implies_true, and_true]
  decide

theorem readTransient_runArgs (a : Systemd.SystemdAdapter)
    (hu : isUnitName (Systemd.unitName daemonName) = true) :
    readTransient (Systemd.runArgs daemonName a) =
      some ⟨Systemd.unitName daemonName, ["/bin/true".toList]⟩ := by
  have hrest : Argv.parse transientArity
      (Argv.words (transientOpts daemonName) ++ ["/bin/true".toList]) =
        some (transientOpts daemonName, ["/bin/true".toList]) := by
    rw [Argv.parse_append transientOpts_known, Argv.parse_operand rfl]
    simp
  obtain ⟨user, hparse, hunit⟩ : ∃ user, Argv.parse transientArity (Systemd.runArgs daemonName a) =
      some (user ++ transientOpts daemonName, ["/bin/true".toList]) ∧
      lastOf "--unit" (user ++ transientOpts daemonName) =
        some (Systemd.unitName daemonName) := by
    cases hm : a.userMode with
    | false =>
      refine ⟨[], ?_, lastOf_transientOpts⟩
      rw [Systemd.runArgs, Systemd.systemctlArgs, if_neg (by rw [hm]; decide)]
      exact hrest
    | true =>
      refine ⟨[("--user".toList, none)], ?_, ?_⟩
      · have huser : Argv.Known transientArity ("--user".toList, none) := ⟨rfl, rfl⟩
        have hcons : Argv.parse transientArity (Argv.optWords ("--user".toList, none) ++
            (Argv.words (transientOpts daemonName) ++ ["/bin/true".toList])) = _ :=
          Argv.parse_cons huser
        rw [hrest] at hcons
        rw [Systemd.runArgs, Systemd.systemctlArgs, if_pos hm]
        exact hcons
      · rw [List.singleton_append, lastOf_cons_ne (by decide)]
        exact lastOf_transientOpts
  have hlast : (user ++ transientOpts daemonName).getLast? = some ("--".toList, none) := by
    simp [transientOpts]
  rw [readTransient, hparse]
  simp only [hlast, if_true, hunit, Option.bind_some, hu]

theorem jobOf_generatePlist {label program : Text} (hlabel : Xml.Literal label)
    (hprogram : Xml.Literal program) (hname : Xml.Literal daemonName) :
    jobOf (Launchd.generatePlist label daemonName program) = some ⟨label, [program]⟩ := by
  rw [jobOf, (Launchd.job_parses_iff hlabel hprogram).2 hname]
  rfl

theorem read_runArgs (a : Container.ContainerAdapter)
    (himage : Argv.isOption a.defaultImage = false) :
    (match a.runtime with
      | .docker | .podman => readRun (Container.runArgs daemonName a)
      | .containerd => readCtrRun (Container.runArgs daemonName a)) =
      some ⟨Container.containerName daemonName, a.defaultImage :: Container.placeholder⟩ := by
  have hdetached : Argv.Known Platforms.Container.arity ("-d".toList, none) := ⟨rfl, rfl⟩
  have hopts : ∀ o ∈ [("-d".toList, none), ("--name".toList,
      some (Container.containerName daemonName)), ("--restart".toList,
      some "on-failure:5".toList)], Argv.Known Platforms.Container.arity o := by
    simp only [List.forall_mem_cons, List.not_mem_nil, false_imp_iff, implies_true, and_true]
    exact ⟨hdetached, ⟨rfl, rfl⟩, ⟨rfl, rfl⟩⟩
  have hrun : Argv.parse Platforms.Container.arity (Argv.words _ ++ a.defaultImage ::
      Container.placeholder) = _ := Argv.parse_append hopts
  have hctr : Argv.parse Platforms.Container.arity (Argv.optWords _ ++ a.defaultImage ::
      Container.containerName daemonName :: Container.placeholder) = _ :=
    Argv.parse_cons hdetached
  rw [Argv.parse_operand himage] at hrun hctr
  have hname : readRun ("run".toList :: (Argv.words [("-d".toList, none), ("--name".toList,
      some (Container.containerName daemonName)), ("--restart".toList,
      some "on-failure:5".toList)] ++ a.defaultImage :: Container.placeholder)) =
      some ⟨Container.containerName daemonName, a.defaultImage :: Container.placeholder⟩ := by
    have hlast : lastOf "--name" [("-d".toList, none), ("--name".toList,
        some (Container.containerName daemonName)), ("--restart".toList,
        some "on-failure:5".toList)] = some (Container.containerName daemonName) := by
      rw [lastOf_cons_ne (by decide), lastOf_cons_self (lastOf_none (by simp))]
    rw [readRun, subcommand_self, hrun]
    simp only [Option.map_some, List.append_nil, hlast]
  unfold Container.runArgs
  cases a.runtime with
  | docker => exact hname
  | podman => exact hname
  | containerd =>
    show readCtrRun ("run".toList :: (Argv.optWords ("-d".toList, none) ++ a.defaultImage ::
      Container.containerName daemonName :: Container.placeholder)) = _
    rw [readCtrRun, subcommand_self, hctr]
    rfl

theorem systemd_spawns (a : Systemd.SystemdAdapter)
    (hu : (Manager.systemd a).Takes daemonName) :
    ((Manager.systemd a).spawn id daemonName).Ensures
      ((Manager.systemd a).Spawns id daemonName) [] := by
  refine Ask.Ensures.and (ensures_creating (fun _ h => absurd h List.not_mem_nil) rfl ?_ ?_) ?_
  · rw [Manager.reads, if_pos rfl]
    exact readTransient_runArgs a hu
  · rintro (e | output)
    · rfl
    · exact all_of_output rfl rfl
  · rintro (e | output)
    · exact nofun
    · refine Ask.ensures_ite.2 ⟨fun _ => nofun, fun _ => ?_⟩
      rintro h ⟨⟩
      refine ⟨rfl, rfl, ?_, fun _ u hu => ?_⟩
      · exact congrArg (fun t => some (Recipient.service t)) String.toList_ofList
      · cases hu
        rw [String.toList_ofList]
        rfl

theorem launchd_spawns (a : Launchd.LaunchdAdapter)
    (hname : (Manager.launchd a).Takes daemonName) :
    ((Manager.launchd a).spawn id daemonName).Ensures
      ((Manager.launchd a).Spawns id daemonName) [] := by
  rintro (e | ⟨⟩)
  · exact ⟨spawned_nil.quiet rfl, nofun⟩
  rintro (e | ⟨⟩)
  · exact ⟨(spawned_nil.quiet rfl).quiet rfl, nofun⟩
  refine Ask.Ensures.and (ensures_creating ?_ rfl ?_ ?_) ?_
  · intro q hq
    simp only [List.nil_append, List.cons_append, List.mem_cons, List.not_mem_nil, or_false] at hq
    rcases hq with rfl | rfl <;> rfl
  · have hjob : jobOf (Launchd.generatePlist (Launchd.serviceLabel daemonName) daemonName
        "/usr/bin/true".toList) = _ :=
      jobOf_generatePlist (Launchd.literal_serviceLabel hname)
        (Platforms.MacOS.literal_of_tame (Platforms.MacOS.tame_of_all (by decide))) hname
    rw [Manager.reads, if_pos rfl, readBootstrap, if_pos rfl]
    simp only [written, List.nil_append, List.cons_append, List.foldl_cons, List.foldl_nil,
      Deed.update, if_true, Option.bind_some, hjob, Option.map_some]
    rfl
  · rintro (e | output)
    · rfl
    · exact all_of_output ⟨rfl, fun _ => rfl⟩ rfl
  · rintro (e | output)
    · exact nofun
    · refine Ask.ensures_ite.2 ⟨fun _ _ => nofun, fun _ => ?_⟩
      rintro h ⟨⟩
      refine ⟨rfl, rfl, ?_, fun _ => trivial⟩
      exact congrArg (fun t => some (Recipient.service (Launchd.target a ++ '/' :: t)))
        String.toList_ofList

theorem container_spawns (a : Container.ContainerAdapter)
    (himage : (Manager.container a).Takes daemonName) :
    ((Manager.container a).spawn id daemonName).Ensures
      ((Manager.container a).Spawns id daemonName) [] := by
  have haddresses : ∀ (d : Dialogue Deed.Answer) (t : Text),
      (Manager.container a).identity daemonName d = t →
      (Manager.container a).Addresses id daemonName d
        (.container id a.runtime.name (String.ofList t)) := by
    rintro d t rfl
    refine ⟨rfl, rfl, ?_, fun hunit c hc => ?_⟩
    · exact congrArg (fun t => some (Recipient.service t)) String.toList_ofList
    · cases hc
      rw [String.toList_ofList, hunit]
      rfl
  refine Ask.Ensures.and (ensures_creating (fun _ h => absurd h List.not_mem_nil) ?_ ?_ ?_) ?_
  · unfold Deed.creates Container.runArgs
    cases a.runtime <;> rfl
  · rw [Manager.reads, if_pos rfl]
    exact read_runArgs a himage
  · rintro (e | output)
    · rfl
    · refine all_of_output rfl (Ask.all_ite.2 ⟨fun _ => ⟨?_, fun _ => rfl⟩, fun _ => rfl⟩)
      refine creates_of_head _ ?_ (by decide)
      cases a.runtime <;> decide
  · rintro (e | output)
    · exact nofun
    · refine Ask.ensures_ite.2 ⟨fun _ => nofun, fun hok => Ask.ensures_ite.2 ⟨fun hempty => ?_,
        fun hprinted => ?_⟩⟩
      · rintro ran h ⟨⟩
        refine haddresses _ _ ?_
        rw [Manager.identity, List.nil_append, List.singleton_append,
          printedBy_cons (by simpa using hok), List.find?_cons_of_neg (by simpa using hempty),
          find_printedBy]
        rfl
      · rintro h ⟨⟩
        refine haddresses _ _ ?_
        rw [Manager.identity, List.nil_append, printedBy_cons (by simpa using hok),
          List.find?_cons_of_pos (by simpa using hprinted)]
        rfl

theorem manager_spawns (m : Manager) (h : m.Takes daemonName) :
    (m.spawn id daemonName).Ensures (m.Spawns id daemonName) [] := by
  cases m with
  | systemd a => exact systemd_spawns a h
  | launchd a => exact launchd_spawns a h
  | container a => exact container_spawns a h

end Core

/-! ## The adapters of the platform crate -/

namespace Platforms

/-- The adapters that hand daemons to a service manager. -/
inductive Manager where
  | linux (a : Linux.LinuxAdapter)
  | macOS (a : MacOS.MacOSAdapter)
  | container (a : Container.ContainerAdapter)

namespace Manager

def adapter : Manager → Adapter
  | linux a => .linux a
  | macOS a => .macOS a
  | container a => .container a

def spawn (daemonName : Text) : Manager → Spawning
  | linux a => Linux.spawn daemonName a
  | macOS a => MacOS.spawn daemonName a
  | container a => Container.spawn daemonName a

/-- How the service manager reads a deed, after a dialogue. -/
def reads : Manager → Dialogue Deed.Answer → Deed → Option Creation
  | linux a, past, .command c none =>
    if c.program = .ofText "systemctl".toList then
      readStart a.unitDir (written (reloaded past)) c.args
    else none
  | macOS _, past, .command c (some file) =>
    if c.program = .ofText "launchctl".toList then readLoad (written past) c.args file else none
  | container a, _, .command c none =>
    if c.program = .ofText a.runtime.cliCommand.toList then readRun c.args else none
  | _, _, _ => none

def image (a : Container.ContainerAdapter) (daemonName : Text) : Text :=
  Container.image a (.new daemonName (.ofText "/bin/daemon".toList))

def creation (daemonName : Text) : Manager → Creation
  | linux _ => ⟨Linux.unitName daemonName, ["/bin/false".toList]⟩
  | macOS _ => ⟨MacOS.serviceLabel daemonName, ["/bin/false".toList]⟩
  | container a => ⟨Container.containerName daemonName, [image a daemonName]⟩

/-- The name, and the image, stand in the command or the file as they are. -/
def Takes (daemonName : Text) : Manager → Prop
  | linux _ => isUnitName (Linux.unitName daemonName) = true
  | macOS _ => Xml.Literal daemonName
  | container a => Argv.isOption (image a daemonName) = false

/-- The name of the unit, after the dialogue of `spawn`: a container goes by what was printed
last, also if that is nothing. -/
def identity (daemonName : Text) (d : Dialogue Deed.Answer) (m : Manager) : Text :=
  match m with
  | container _ => (printedBy d).getLast?.getD []
  | _ => (m.creation daemonName).unit

/-- The handle names the unit. -/
structure Addresses (m : Manager) (daemonName : Text) (d : Dialogue Deed.Answer)
    (h : DaemonHandle) : Prop where
  platform : h.platform = m.adapter.platform
  id : h.id = m.identity daemonName d
  plain : m.identity daemonName d = (m.creation daemonName).unit → m.adapter.Plain h

/-- What `spawn` owes to its dialogue with the system. -/
def Spawns (m : Manager) (daemonName : Text) (d : Dialogue Deed.Answer)
    (r : Except Pepita.SpawnError DaemonHandle) : Prop :=
  Spawned m.reads (m.creation daemonName) d r.isOk ∧
    ∀ h, r = .ok h → m.Addresses daemonName d h

end Manager

variable {daemonName : Text}

/-- systemd has read the files when a reload has just succeeded. -/
theorem reloaded_concat {output : Output} (h : output.success = true)
    (d : Dialogue Deed.Answer) : reloaded (d ++ [⟨daemonReload, (.ok output : Ran)⟩]) =
      d ++ [⟨daemonReload, .ok output⟩] := by
  have hlast : Deed.accepts ⟨daemonReload, (.ok output : Ran)⟩ = true := h
  unfold reloaded
  rw [List.reverse_append, List.reverse_singleton, List.singleton_append,
    List.dropWhile_cons_of_neg (by simp [hlast]), List.reverse_cons, List.reverse_reverse]

theorem serviceProgram_generateUnitFile (a : Linux.LinuxAdapter) :
    serviceProgram (Linux.generateUnitFile a
      (.new daemonName (.ofText "/bin/false".toList))) = some ["/bin/false".toList] := by
  have hchars : "/bin/false".toList.all (fun c => !UnitFile.isSpace c && !UnitFile.isQuote c &&
      c != '\\' && !UnitFile.isBreak c) = true := rfl
  simp only [List.all_eq_true, Bool.and_eq_true, Bool.not_eq_true', bne_iff_ne] at hchars
  have hword : Linux.PlainWord Linux.manual "/bin/false".toList :=
    ⟨⟨by decide, fun c hc => ⟨(hchars c hc).1.1.2, (hchars c hc).1.2⟩,
      fun c hc => (hchars c hc).1.1.1⟩, rfl, fun c hc => (hchars c hc).2⟩
  have hexec : ∀ c ∈ "/bin/false".toList.head?, Linux.manual.execPrefix c = false := by
    rintro c hc
    obtain rfl : '/' = c := Option.some.inj hc
    rfl
  have hplain : Linux.Plain Linux.manual (.new daemonName (.ofText "/bin/false".toList)) :=
    { description := ⟨⟨nofun, rfl, rfl⟩, rfl⟩
      binary := ⟨rfl, hword, hexec⟩
      args := nofun
      workingDir := nofun
      user := nofun
      group := nofun
      env := nofun }
  obtain ⟨binary, workingDir, hbinary, hdir, hread⟩ := Linux.reads_of_plain (a := a) hplain
  have hb : binary = "/bin/false".toList := by
    rw [← Path.display_ofText binary, hbinary]
    rfl
  have hd : workingDir = none := Option.map_eq_none_iff.1 hdir
  subst hb hd
  rw [serviceProgram, hread]
  rfl

theorem jobOf_generatePlist (a : MacOS.MacOSAdapter) (h : Xml.Literal daemonName) :
    jobOf (MacOS.generatePlist a (.new daemonName (.ofText "/bin/false".toList))) =
      some ⟨MacOS.serviceLabel daemonName, ["/bin/false".toList]⟩ := by
  have hreplace : Xml.Literal (replaceChar ' ' '-' daemonName) := h.map fun c _ => by
    split
    · exact .inr (by decide)
    · exact .inl rfl
  have hlabel : Xml.Literal (MacOS.serviceLabel daemonName) := by
    have hpre : Xml.Literal ("com.duende.".toList ++ _ ++ []) :=
      (Xml.literal_between (by decide) rfl).2 hreplace
    rwa [List.append_nil] at hpre
  have htext : ∀ t : Text, t.all (fun c => decide (MacOS.Tame c)) = true → Xml.Literal t :=
    fun t ht => MacOS.literal_of_tame (MacOS.tame_of_all ht)
  have hliteral : ∀ l ∈ MacOS.parts id Path.display a (.new daemonName
      (.ofText "/bin/false".toList)), ∀ t ∈ l.2.texts, Xml.Literal t :=
    (MacOS.says_written (fun t ht => htext t (by revert t; decide)) hlabel
      ((Xml.literal_between (by decide) (by decide)).2 hlabel)
      ((Xml.literal_between (by decide) (by decide)).2 hlabel)).2
      ⟨htext "/bin/false".toList (by decide), nofun, nofun, fun _ => ⟨nofun, nofun⟩, nofun⟩
  have hparse := Plist.parse_document (MacOS.moves_parts id Path.display) hliteral
  rw [jobOf, MacOS.generatePlist_eq, MacOS.written, hparse]
  rfl

theorem linux_spawns (a : Linux.LinuxAdapter) (hu : (Manager.linux a).Takes daemonName) :
    ((Manager.linux a).spawn daemonName).Ensures ((Manager.linux a).Spawns daemonName) [] := by
  rintro (e | ⟨⟩)
  · exact ⟨spawned_nil.quiet rfl, nofun⟩
  have hquiet : ∀ ran : Ran, Spawned (Manager.linux a).reads ((Manager.linux a).creation daemonName)
      ([] ++ [⟨.write (a.unitDir.join (.ofText (Linux.unitName daemonName)))
        (Linux.generateUnitFile a (.new daemonName (.ofText "/bin/false".toList))),
        (.ok () : Except String Unit)⟩] ++ [⟨daemonReload, ran⟩]) false :=
    fun ran => (spawned_nil.quiet rfl).quiet rfl
  rintro (e | reload)
  · exact ⟨hquiet _, nofun⟩
  refine Ask.ensures_ite.2 ⟨fun _ => ⟨hquiet _, nofun⟩, fun hok => ?_⟩
  refine Ask.Ensures.and (ensures_creating ?_ rfl ?_ ?_) ?_
  · intro q hq
    simp only [List.nil_append, List.cons_append, List.mem_cons, List.not_mem_nil, or_false] at hq
    rcases hq with rfl | rfl <;> rfl
  · have hread := reloaded_concat (show reload.success = true by simpa using hok)
    rw [Manager.reads, if_pos rfl, readStart, if_pos ⟨rfl, hu⟩]
    refine (congrArg (fun d => ((written d _).bind serviceProgram).map _) (hread _)).trans ?_
    simp only [written, List.nil_append, List.cons_append, List.foldl_cons, List.foldl_nil,
      Deed.update, if_true, daemonReload, Option.bind_some, serviceProgram_generateUnitFile,
      Option.map_some]
    rfl
  · rintro (e | output)
    · rfl
    · exact all_of_output rfl rfl
  · rintro (e | output)
    · exact nofun
    · refine Ask.ensures_ite.2 ⟨fun _ => nofun, fun _ => ?_⟩
      rintro h ⟨⟩
      exact ⟨rfl, rfl, fun _ => rfl⟩

theorem macOS_spawns (a : MacOS.MacOSAdapter) (hname : (Manager.macOS a).Takes daemonName) :
    ((Manager.macOS a).spawn daemonName).Ensures ((Manager.macOS a).Spawns daemonName) [] := by
  rintro (e | ⟨⟩)
  · exact ⟨spawned_nil.quiet rfl, nofun⟩
  refine Ask.Ensures.and (ensures_creating ?_ rfl ?_ ?_) ?_
  · intro q hq
    rw [List.mem_singleton.1 hq]
    rfl
  · rw [Manager.reads, if_pos rfl, readLoad, if_pos rfl]
    simp only [written, List.nil_append, List.foldl_cons, List.foldl_nil, Deed.update, if_true,
      Option.bind_some, jobOf_generatePlist a hname]
    rfl
  · rintro (e | output)
    · rfl
    · exact all_of_output rfl rfl
  · rintro (e | output)
    · exact nofun
    · refine Ask.ensures_ite.2 ⟨fun _ => nofun, fun _ => ?_⟩
      rintro h ⟨⟩
      exact ⟨rfl, rfl, fun _ => trivial⟩

theorem readRun_buildRunArgs (a : Container.ContainerAdapter)
    (himage : Argv.isOption (Manager.image a daemonName) = false) :
    readRun (Container.buildRunArgs a (.new daemonName (.ofText "/bin/daemon".toList))) =
      some ⟨Container.containerName daemonName, [Manager.image a daemonName]⟩ := by
  have hname : lastOf "--name" (Container.options (.new daemonName
      (.ofText "/bin/daemon".toList))) = some (Container.containerName daemonName) := by
    simp +decide [lastOf, Container.options, Container.values_optIf, Argv.values_map,
      Container.values_option, DaemonConfig.new]
  have hparse : Argv.parse Container.arity (Manager.image a daemonName ::
      (DaemonConfig.new daemonName (.ofText "/bin/daemon".toList)).args) = _ :=
    Argv.parse_operand himage
  rw [Container.buildRunArgs_eq, readRun, subcommand_self,
    Argv.parse_append Container.options_known, ← Manager.image, hparse]
  simp only [Option.map_some, List.append_nil, hname]
  rfl

theorem container_spawns (a : Container.ContainerAdapter)
    (himage : (Manager.container a).Takes daemonName) :
    ((Manager.container a).spawn daemonName).Ensures
      ((Manager.container a).Spawns daemonName) [] := by
  intro removed
  have hremove : Deed.creates (.command ⟨.ofText a.runtime.cliCommand.toList,
      ["rm".toList, "-f".toList, Container.containerName daemonName]⟩ none) = false :=
    creates_of_head _ (by cases a.runtime <;> decide) (by decide)
  have haddresses : ∀ (d : Dialogue Deed.Answer) (t : Text),
      (Manager.container a).identity daemonName d = t →
      (Manager.container a).Addresses daemonName d ⟨.container, t, none⟩ := by
    rintro d t rfl
    refine ⟨rfl, rfl, fun hunit => ?_⟩
    rw [Manager.adapter, Adapter.Plain, hunit]
    rfl
  refine Ask.Ensures.and (ensures_creating ?_ ?_ ?_ ?_) ?_
  · intro q hq
    rw [List.mem_singleton.1 hq]
    exact hremove
  · rw [Container.buildRunArgs_eq]
    unfold Deed.creates
    cases a.runtime <;> rfl
  · rw [Manager.reads, if_pos rfl]
    exact readRun_buildRunArgs a himage
  · rintro (e | output)
    · rfl
    · exact all_of_output rfl rfl
  · rintro (e | output)
    · exact nofun
    · refine Ask.ensures_ite.2 ⟨fun _ => nofun, fun hok => ?_⟩
      rintro h ⟨⟩
      have hsuccess : output.success = true := by simpa using hok
      exact haddresses _ _ (congrArg (Option.getD · _) (getLast?_printedBy hsuccess _))

theorem manager_spawns (m : Manager) (h : m.Takes daemonName) :
    (m.spawn daemonName).Ensures (m.Spawns daemonName) [] := by
  cases m with
  | linux a => exact linux_spawns a h
  | macOS a => exact macOS_spawns a h
  | container a => exact container_spawns a h

end Platforms

/-- **Spawned daemons are addressed by their handles.** In every dialogue of `spawn` with the
system, at most one command creates a unit, it is read as the unit of the daemon with its program,
`spawn` returns a handle exactly when that command was accepted, and the handle names the unit. -/
theorem spawned_addressed :
    (∀ (m : Core.Manager) (id : DaemonId) (daemonName : Text) d r, m.Takes daemonName →
      (m.spawn id daemonName).feed d = some r → m.Spawns id daemonName d r) ∧
    ∀ (m : Platforms.Manager) (daemonName : Text) d r, m.Takes daemonName →
      (m.spawn daemonName).feed d = some r → m.Spawns daemonName d r :=
  ⟨fun m _ _ _ _ hm hd => (Core.manager_spawns m hm).feed hd,
    fun m _ _ _ hm hd => (Platforms.manager_spawns m hm).feed hd⟩

/-- A container of docker, which prints its ID. -/
def dockerRun : Deed := .command ⟨.ofText "docker".toList,
  Core.Container.runArgs "web".toList ⟨.docker, "alpine:latest".toList⟩⟩ none

theorem spawned_addressed_web : ∃ r,
    ((Core.Manager.container ⟨.docker, "alpine:latest".toList⟩).spawn ⟨7⟩ "web".toList).feed
      [⟨dockerRun, (.ok (printed "9f3c\n") : Ran)⟩] = some r ∧
    (Core.Manager.container ⟨.docker, "alpine:latest".toList⟩).Spawns ⟨7⟩ "web".toList
      [⟨dockerRun, (.ok (printed "9f3c\n") : Ran)⟩] r := by
  refine ⟨.ok (.container ⟨7⟩ "docker" "9f3c"), ?_, ?_⟩
  · exact Ask.feed_ask_some.2 ⟨(.ok (printed "9f3c\n") : Ran), [], rfl, rfl⟩
  · exact spawned_addressed.1 _ _ _ _ _ rfl
      (Ask.feed_ask_some.2 ⟨(.ok (printed "9f3c\n") : Ran), [], rfl, rfl⟩)

end Duende
