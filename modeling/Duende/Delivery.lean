import Duende.Foreign
import Duende.Formats.Argv
import Duende.Search
import Duende.Trans.Dialogue

/-!
# What the service managers read

The adapters of both crates send a signal by a command of a service manager, and each writes the
signal and the daemon in its own way. `reads` is how the manager of an adapter reads a command;
`signals_delivered` says that it reads the signal that was asked for and the daemon of the handle,
and that `signal` returns `Ok` exactly when the manager accepts it.
-/

namespace Duende

open Trans

/-- What a signal is sent to. -/
inductive Recipient where
  | service (name : Text)
  | process (pid : Int)
  deriving DecidableEq

/-- A signal, as it is read from a command. -/
structure Delivery where
  signal : Signal
  target : Recipient
  deriving DecidableEq

/-! ## Words for signals -/

def signals : List Signal := [.term, .kill, .int, .quit, .hup, .usr1, .usr2, .stop, .cont]

/-- The signal that a word stands for, where `word` is how signals are written. -/
def signalOf (word : Signal → Text) (w : Text) : Option Signal := signals.find? fun s => word s = w

theorem signalOf_word {word : Signal → Text} (hw : Function.Injective word) (sig : Signal) :
    signalOf word (word sig) = some sig := by
  unfold signalOf
  simp only [hw.eq_iff]
  cases sig <;> decide

theorem signalName_injective : Function.Injective fun sig => (signalName sig).toList := by
  intro a b h
  cases a <;> cases b <;> first | rfl | exact absurd h (by decide)

theorem linuxWord_injective : Function.Injective fun sig => decimal (linuxNumber sig) :=
  decimal_injective.comp fun a b h => by
    cases a <;> cases b <;> first | rfl | exact absurd h (by decide)

theorem macWord_injective : Function.Injective fun sig => decimal (macNumber sig) :=
  decimal_injective.comp fun a b h => by
    cases a <;> cases b <;> first | rfl | exact absurd h (by decide)

theorem shortName_injective : Function.Injective Platforms.Pepita.signalName := by
  intro a b h
  cases a <;> cases b <;> first | rfl | exact absurd h (by decide)

/-! ## Commands -/

/-- The options that take a value. -/
def valued (os : List String) (w : Text) : Option Bool :=
  if os.any fun o => o.toList = w then some true else none

theorem valued_of_mem {os : List String} {w : Text} (h : w ∈ os.map String.toList) :
    valued os w = some true := by
  obtain ⟨o, ho, rfl⟩ := List.mem_map.1 h
  exact if_pos (List.any_eq_true.2 ⟨o, ho, decide_eq_true rfl⟩)

def lastOf (o : String) (opts : List Argv.Opt) : Option Text := (Argv.values o.toList opts).getLast?

/-- A subcommand with its options, the rest are operands. -/
def subcommand (arity : Text → Option Bool) (sub : String) :
    List Text → Option (List Argv.Opt × List Text)
  | [] => none
  | w :: ws => if w = sub.toList then Argv.parse arity ws else none

def readOperand (word : Signal → Text) (sub : String) (ws : List Text) : Option Delivery :=
  match subcommand (valued ["--signal"]) sub ws with
  | some (opts, [t]) =>
    (lastOf "--signal" opts).bind fun w => (signalOf word w).map fun sig => ⟨sig, .service t⟩
  | _ => none

/-- `signal OPTION TARGET --signal SIGNAL` -/
def readOption (word : Signal → Text) (o : String) (target : Text → Option Recipient)
    (ws : List Text) : Option Delivery :=
  match subcommand (valued [o, "--signal"]) "signal" ws with
  | some (opts, []) =>
    (lastOf "--signal" opts).bind fun w => (signalOf word w).bind fun sig =>
      ((lastOf o opts).bind target).map fun t => ⟨sig, t⟩
  | _ => none

theorem subcommand_self (arity : Text → Option Bool) (sub : String) (ws : List Text) :
    subcommand arity sub (sub.toList :: ws) = Argv.parse arity ws := if_pos rfl

@[simp] theorem lastOf_nil (o : String) : lastOf o [] = none := rfl

theorem lastOf_cons_ne {o o' : String} (h : o'.toList ≠ o.toList) (v : Option Text)
    (opts : List Argv.Opt) : lastOf o ((o'.toList, v) :: opts) = lastOf o opts := by
  rw [lastOf, Argv.values_cons, if_neg h]
  rfl

theorem lastOf_cons_self {o : String} {opts : List Argv.Opt} (h : lastOf o opts = none) (v : Text) :
    lastOf o ((o.toList, some v) :: opts) = some v := by
  have hnil : Argv.values o.toList opts = [] := List.getLast?_eq_none_iff.1 h
  rw [lastOf, Argv.values_cons, if_pos rfl, hnil]
  rfl

theorem lastOf_none {o : String} {opts : List Argv.Opt} (h : ∀ p ∈ opts, p.1 ≠ o.toList) :
    lastOf o opts = none :=
  List.getLast?_eq_none_iff.2 (List.filterMap_eq_nil_iff.2 fun p hp => if_neg (h p hp))

theorem lastOf_single (o : String) (v : Text) : lastOf o [(o.toList, some v)] = some v :=
  lastOf_cons_self rfl v

theorem lastOf_first {o o' : String} (h : o'.toList ≠ o.toList) (v w : Text) :
    lastOf o [(o.toList, some v), (o'.toList, some w)] = some v :=
  lastOf_cons_self (lastOf_cons_ne h _ _) v

theorem lastOf_second {o o' : String} (h : o'.toList ≠ o.toList) (v w : Text) :
    lastOf o [(o'.toList, some v), (o.toList, some w)] = some w := by
  rw [lastOf_cons_ne h, lastOf_single]

theorem readOperand_eq {word : Signal → Text} (hw : Function.Injective word) (sub : String)
    (sig : Signal) {t : Text} (ht : Argv.isOption t = false) :
    readOperand word sub [sub.toList, "--signal".toList, word sig, t] =
      some ⟨sig, .service t⟩ := by
  have hparse : Argv.parse (valued ["--signal"]) ["--signal".toList, word sig, t] =
      some ([("--signal".toList, some (word sig))], [t]) := by
    have hcons : Argv.parse (valued ["--signal"])
        (Argv.optWords ("--signal".toList, some (word sig)) ++ [t]) = _ :=
      Argv.parse_cons ⟨rfl, rfl⟩
    rwa [Argv.parse_operand ht] at hcons
  simp only [readOperand, subcommand_self, hparse, lastOf_single, Option.bind_some,
    signalOf_word hw, Option.map_some]

theorem readOption_eq {word : Signal → Text} (hw : Function.Injective word) {o : String}
    {target : Text → Option Recipient} {v : Text} {t : Recipient} (sig : Signal)
    (ho : o.toList ≠ "--signal".toList) (hopt : Argv.isOption o.toList = true)
    (ht : target v = some t) :
    readOption word o target ["signal".toList, o.toList, v, "--signal".toList, word sig] =
      some ⟨sig, t⟩ := by
  have hparse : Argv.parse (valued [o, "--signal"])
      [o.toList, v, "--signal".toList, word sig] =
      some ([(o.toList, some v), ("--signal".toList, some (word sig))], []) := by
    have hknown : ∀ w ∈ [o, "--signal"].map String.toList, valued [o, "--signal"] w = some true :=
      fun _ => valued_of_mem
    have hfirst : Argv.parse (valued [o, "--signal"]) (Argv.optWords (o.toList, some v) ++
        (Argv.optWords ("--signal".toList, some (word sig)) ++ [])) = _ :=
      Argv.parse_cons ⟨hopt, hknown _ List.mem_cons_self⟩
    have hsecond : Argv.parse (valued [o, "--signal"])
        (Argv.optWords ("--signal".toList, some (word sig)) ++ []) = _ :=
      Argv.parse_cons ⟨rfl, hknown _ (List.mem_cons_of_mem _ List.mem_cons_self)⟩
    rw [hsecond] at hfirst
    exact hfirst
  simp only [readOption, subcommand_self, hparse, lastOf_first ho.symm, lastOf_second ho,
    Option.bind_some, signalOf_word hw, ht, Option.map_some]

/-- `kill SIGNAL SERVICE` -/
def readWords (word : Signal → Text) : List Text → Option Delivery
  | [sub, w, t] =>
    if sub = "kill".toList ∧ Argv.isOption w = false ∧ Argv.isOption t = false then
      (signalOf word w).map fun sig => ⟨sig, .service t⟩
    else none
  | _ => none

/-- `kill -SIGNAL PID` -/
def readKill (word : Signal → Text) : List Text → Option Delivery
  | ['-' :: w, t] =>
    (signalOf word w).bind fun sig => (parseI32 t).map fun pid => ⟨sig, .process pid.toInt⟩
  | _ => none

/-- A command of `program`, whose arguments `read` reads. -/
def readCommand {α : Type} (program : Path) (read : List Text → Option α) : Question → Option α
  | .command c => if c.program = program then read c.args else none
  | _ => none

theorem readCommand_self {α : Type} {program : Path} {read : List Text → Option α}
    (args : List Text) :
    readCommand program read (.command ⟨program, args⟩) = read args := if_pos rfl

theorem sends_of_head {p : Path} {w : Text} (ws : List Text) (hp : p ≠ .ofText "kill".toList)
    (hw : w ∉ ["--user".toList, "kill".toList, "signal".toList, "task".toList]) :
    (Command.mk p (w :: ws)).sends = false := by
  simp only [List.mem_cons, List.not_mem_nil, or_false, not_or] at hw
  obtain ⟨huser, hkill, hsignal, htask⟩ := hw
  have hf : (w :: ws).filter (· ≠ "--user".toList) = w :: ws.filter (· ≠ "--user".toList) :=
    List.filter_cons_of_pos (decide_eq_true huser)
  unfold Command.sends
  rw [hf]
  simp only [Bool.or_eq_false_iff, decide_eq_false_iff_not]
  exact ⟨⟨⟨hp, fun h => hkill (Option.some.inj h)⟩, fun h => hsignal (Option.some.inj h)⟩,
    fun h => htask (List.cons.inj h).1⟩

/-! ## Delivered signals -/

/-- The system does what it was asked. -/
def accepts : (Σ q : Question, q.Answer) → Bool
  | ⟨.command _, answer⟩ =>
    match answer with
    | .ok output => output.success
    | .error _ => false
  | ⟨.kill _ _, answer⟩ => answer.isOk
  | ⟨.tryWait, answer⟩ => answer.isOk

/-- What `signal` says to the system, and whether it returns `Ok`: one command at most, read as
`sig` for a target that `names` knows; `Ok` means that the command was accepted, or that none was
needed. -/
structure Delivered (reads : Question → Option Delivery) (sig : Signal)
    (names : Dialogue Question.Answer → Recipient → Prop)
    (unmanaged : Dialogue Question.Answer → Prop) (d : Dialogue Question.Answer) (ok : Bool) :
    Prop where
  read : ∀ pre q post, d = pre ++ q :: post → q.1.sends = true →
    ∃ t, reads q.1 = some ⟨sig, t⟩ ∧ names pre t
  once : d.countP (·.1.sends) ≤ 1
  accepted : ok = true ↔ (∃ q ∈ d, q.1.sends = true ∧ accepts q = true) ∨ unmanaged d

section

variable {reads : Question → Option Delivery} {sig : Signal} {t : Recipient}
  {names : Dialogue Question.Answer → Recipient → Prop}
  {unmanaged : Dialogue Question.Answer → Prop} {d : Dialogue Question.Answer} {ok : Bool}

theorem quiet_nil : ∀ p ∈ ([] : Dialogue Question.Answer), p.1.sends = false :=
  fun _ hp => absurd hp List.not_mem_nil

/-- No signal is sent. -/
theorem delivered_quiet (hd : ∀ p ∈ d, p.1.sends = false) (hok : ok = true ↔ unmanaged d) :
    Delivered reads sig names unmanaged d ok where
  read := fun pre q post hsplit hs => by
    rw [hd q (by rw [hsplit]; exact List.mem_append_right _ List.mem_cons_self)] at hs
    cases hs
  once := by
    have hzero : d.countP (·.1.sends) = 0 :=
      List.countP_eq_zero.2 fun p hp => by rw [hd p hp]; decide
    omega
  accepted := by
    refine hok.trans ⟨.inr, fun h => h.resolve_left ?_⟩
    rintro ⟨q, hq, hs, -⟩
    rw [hd q hq] at hs
    cases hs

theorem delivered_last {q : Question} {answer : q.Answer} (hd : ∀ p ∈ d, p.1.sends = false)
    (hs : q.sends = true) (hread : reads q = some ⟨sig, t⟩) (hn : names d t)
    (hfree : ¬ unmanaged (d ++ [⟨q, answer⟩])) (hok : ok = accepts ⟨q, answer⟩) :
    Delivered reads sig names unmanaged (d ++ [⟨q, answer⟩]) ok where
  read := fun pre q' post hsplit hs' => by
    rcases List.eq_nil_or_concat post with rfl | ⟨post, p, rfl⟩
    · obtain ⟨rfl, hq⟩ := List.append_inj' hsplit rfl
      cases List.singleton_injective hq
      exact ⟨t, hread, hn⟩
    · have hmem : q' ∈ d := by
        have hd' : d ++ [⟨q, answer⟩] = (pre ++ q' :: post) ++ [p] := by simpa using hsplit
        obtain ⟨rfl, -⟩ := List.append_inj' hd' rfl
        exact List.mem_append_right _ List.mem_cons_self
      rw [hd q' hmem] at hs'
      cases hs'
  once := by
    have hzero : d.countP (·.1.sends) = 0 :=
      List.countP_eq_zero.2 fun p hp => by rw [hd p hp]; decide
    rw [List.countP_append, hzero, List.countP_singleton]
    split <;> omega
  accepted := by
    rw [hok]
    constructor
    · exact fun h => .inl ⟨_, List.mem_append_right _ List.mem_cons_self, hs, h⟩
    · rintro (⟨q', hq', hs', ha⟩ | hun)
      · rcases List.mem_append.1 hq' with hq' | hq'
        · rw [hd q' hq'] at hs'
          cases hs'
        · rwa [List.mem_singleton.1 hq'] at ha
      · exact absurd hun hfree

theorem ensures_sending {σ ε : Type} {q : Question} {k : q.Answer → Io (σ × Except ε Unit)}
    (hk : ∀ answer, ∃ s r, k answer = .done (s, r) ∧ r.isOk = accepts ⟨q, answer⟩)
    (hd : ∀ p ∈ d, p.1.sends = false) (hs : q.sends = true) (hread : reads q = some ⟨sig, t⟩)
    (hn : names d t) (hfree : ∀ answer, ¬ unmanaged (d ++ [⟨q, answer⟩])) :
    (.ask q k : Io (σ × Except ε Unit)).Ensures
      (fun d r => Delivered reads sig names unmanaged d r.2.isOk) d := by
  intro answer
  obtain ⟨s, r, hr, hok⟩ := hk answer
  rw [hr]
  exact delivered_last hd hs hread hn (hfree answer) hok

end

theorem done_of_output {σ ε : Type} {x y : σ × Except ε Unit} (output : Output)
    (hx : x.2.isOk = false) (hy : y.2.isOk = true) :
    ∃ s r, (if !output.success then .done x else .done y : Io (σ × Except ε Unit)) =
      .done (s, r) ∧ r.isOk = output.success := by
  cases hs : output.success with
  | false => exact ⟨x.1, x.2, rfl, hx⟩
  | true => exact ⟨y.1, y.2, rfl, hy⟩

theorem isOk_map {ε α β : Type} (f : α → β) (x : Except ε α) : (x.map f).isOk = x.isOk := by
  cases x <;> rfl

/-! ## The adapters of the core -/

namespace Core

namespace Adapter

/-- How the service manager of an adapter reads a command. -/
def reads : Adapter → Question → Option Delivery
  | systemd _ => readCommand (.ofText "systemctl".toList) fun args =>
      readOperand Systemd.signalName "kill" (args.dropWhile (· = "--user".toList))
  | launchd _ => readCommand (.ofText "launchctl".toList)
      (readWords fun sig => decimal (Launchd.signalNumber sig))
  | container a => readCommand (.ofText a.runtime.command.toList) fun args =>
      match a.runtime with
      | .docker | .podman => readOperand Container.signalName "kill" args
      | .containerd => if args.head? = some "task".toList then
          readOperand Container.signalName "kill" args.tail
        else none
  | pepita _ => readCommand (.ofText "pepita".toList)
      (readOption (fun sig => decimal (Pepita.signalNumber sig)) "--name" fun v =>
        some (.service v))
  | wos _ => readCommand (.ofText "wos-ctl".toList)
      (readOption (fun sig => decimal (Wos.signalNumber sig)) "--pid" fun v =>
        (parseNat v).map fun n => .process n)
  | native _ | systemdStub | launchdStub => fun _ => none

/-- What the handle names, to an adapter that sends signals by commands. -/
def target (h : DaemonHandle) : Adapter → Option Recipient
  | systemd _ => h.systemdUnit.map fun u => .service u.toList
  | launchd a => h.launchdLabel.map fun l => .service (Launchd.target a ++ '/' :: l.toList)
  | container _ => h.containerId.map fun c => .service c.toList
  | pepita _ => h.pepitaVmId.map fun v => .service v.toList
  | wos _ => h.pid.map fun p => .process p.toNat
  | native _ | systemdStub | launchdStub => none

/-- The name that stands in the command as an operand does not look like an option. -/
def Plain (h : DaemonHandle) : Adapter → Prop
  | systemd _ => ∀ u, h.systemdUnit = some u → Argv.isOption u.toList = false
  | container _ => ∀ c, h.containerId = some c → Argv.isOption c.toList = false
  | _ => True

/-- Inside WOS, without `wos-ctl`, the signal only changes the table. -/
def Unmanaged (h : DaemonHandle) (a : Adapter) (d : Dialogue Question.Answer) : Prop :=
  match a with
  | wos _ => h.pid ≠ none ∧ ∃ answer, d = [⟨.command ⟨.ofText "wos-ctl".toList,
      ["--version".toList]⟩, answer⟩] ∧ Wos.wosCtlAvailable answer = false
  | _ => False

/-- What `signal` owes to its dialogue with the system. -/
def Delivers (a : Adapter) (h : DaemonHandle) (sig : Signal) (d : Dialogue Question.Answer)
    (r : Adapter × Except PlatformError (Reply TracerHandle)) : Prop :=
  Delivered a.reads sig (fun _ t => a.target h = some t) (a.Unmanaged h) d r.2.isOk

end Adapter

variable {h : DaemonHandle} {sig : Signal}

theorem delivers_lift {σ : Type} {f : σ → Adapter} {x : Attempt σ Unit} {a : Adapter}
    (hx : x.Ensures (fun d r => Delivered a.reads sig (fun _ t => a.target h = some t)
      (a.Unmanaged h) d r.2.isOk) []) :
    (lift f (fun _ => .signalled) x).Ensures (a.Delivers h sig) [] :=
  Ask.ensures_map.2 (hx.mono fun d r hr => by rwa [Adapter.Delivers, isOk_map])

theorem systemd_delivers (a : Systemd.SystemdAdapter) (hp : (Adapter.systemd a).Plain h) :
    ((Adapter.systemd a).signal sig h).Ensures ((Adapter.systemd a).Delivers h sig) [] := by
  refine delivers_lift ?_
  unfold Systemd.signal
  cases hu : h.systemdUnit with
  | none => exact delivered_quiet quiet_nil ⟨nofun, nofun⟩
  | some u =>
    refine ensures_sending (t := .service u.toList) ?_ quiet_nil ?_ ?_ ?_ fun _ h => h
    · rintro (e | output)
      · exact ⟨_, _, rfl, rfl⟩
      · exact done_of_output output rfl rfl
    · cases hm : a.userMode <;> simp [Question.sends, Command.sends, Systemd.systemctlArgs, hm]
    · have hdrop : (Systemd.systemctlArgs a ["kill".toList, "--signal".toList,
          Systemd.signalName sig, u.toList]).dropWhile (· = "--user".toList) =
          ["kill".toList, "--signal".toList, Systemd.signalName sig, u.toList] := by
        cases hm : a.userMode <;> simp [Systemd.systemctlArgs, hm]
      rw [Adapter.reads, readCommand_self, hdrop]
      exact readOperand_eq signalName_injective "kill" sig (hp u hu)
    · rw [Adapter.target, hu]; rfl

theorem launchd_delivers (a : Launchd.LaunchdAdapter) :
    ((Adapter.launchd a).signal sig h).Ensures ((Adapter.launchd a).Delivers h sig) [] := by
  refine delivers_lift ?_
  unfold Launchd.signal
  cases hl : h.launchdLabel with
  | none => exact delivered_quiet quiet_nil ⟨nofun, nofun⟩
  | some l =>
    refine ensures_sending (t := .service (Launchd.target a ++ '/' :: l.toList)) ?_ quiet_nil
      ?_ ?_ ?_ fun _ h => h
    · rintro (e | output)
      · exact ⟨_, _, rfl, rfl⟩
      · exact done_of_output output rfl rfl
    · simp [Question.sends, Command.sends]
    · have hword : Argv.isOption (decimal (Launchd.signalNumber sig)) = false := by
        cases sig <;> decide
      have htarget : Argv.isOption (Launchd.target a ++ '/' :: l.toList) = false := by
        unfold Launchd.target
        cases a.domain <;> rfl
      rw [Adapter.reads, readCommand_self, readWords, if_pos ⟨rfl, hword, htarget⟩]
      exact congrArg (Option.map _) (signalOf_word macWord_injective sig)
    · rw [Adapter.target, hl]; rfl

theorem container_delivers (a : Container.ContainerAdapter) (hp : (Adapter.container a).Plain h) :
    ((Adapter.container a).signal sig h).Ensures ((Adapter.container a).Delivers h sig) [] := by
  refine delivers_lift ?_
  unfold Container.signal
  cases hc : h.containerId with
  | none => exact delivered_quiet quiet_nil ⟨nofun, nofun⟩
  | some c =>
    have hread := readOperand_eq signalName_injective "kill" sig (hp c hc)
    refine ensures_sending (t := .service c.toList) ?_ quiet_nil ?_ ?_ ?_ fun _ h => h
    · rintro (e | output)
      · exact ⟨_, _, rfl, rfl⟩
      · exact done_of_output output rfl rfl
    · cases hr : a.runtime <;> simp [Question.sends, Command.sends]
    · rw [Adapter.reads, readCommand_self]
      cases hr : a.runtime with
      | docker => exact hread
      | podman => exact hread
      | containerd => exact (if_pos rfl).trans hread
    · rw [Adapter.target, hc]; rfl

theorem pepita_delivers (a : Pepita.PepitaAdapter) :
    ((Adapter.pepita a).signal sig h).Ensures ((Adapter.pepita a).Delivers h sig) [] := by
  refine delivers_lift ?_
  unfold Pepita.signal
  cases hv : h.pepitaVmId with
  | none => exact delivered_quiet quiet_nil ⟨nofun, nofun⟩
  | some v =>
    cases hcid : h.vsockCid with
    | none => exact delivered_quiet quiet_nil ⟨nofun, nofun⟩
    | some cid =>
      refine ensures_sending (t := .service v.toList) ?_ quiet_nil ?_ ?_ ?_ fun _ h => h
      · rintro (e | output)
        · exact ⟨_, _, rfl, rfl⟩
        · exact done_of_output output rfl rfl
      · simp [Question.sends, Command.sends]
      · rw [Adapter.reads, readCommand_self]
        exact readOption_eq linuxWord_injective sig (by decide) rfl rfl
      · rw [Adapter.target, hv]; rfl

theorem wos_delivers (a : Wos.WosAdapter) :
    ((Adapter.wos a).signal sig h).Ensures ((Adapter.wos a).Delivers h sig) [] := by
  refine delivers_lift ?_
  unfold Wos.signalCtl
  cases hpid : h.pid with
  | none => exact delivered_quiet quiet_nil ⟨nofun, fun hun => absurd hpid hun.1⟩
  | some pid =>
    have hquiet : ∀ answer, ∀ p ∈ [(⟨.command ⟨.ofText "wos-ctl".toList, ["--version".toList]⟩,
        answer⟩ : Σ q : Question, q.Answer)], p.1.sends = false := by
      intro answer p hp
      rw [List.mem_singleton.1 hp]
      rfl
    intro version
    refine Ask.ensures_ite.2 ⟨fun hv => ?_, fun hv => ?_⟩
    · refine ensures_sending (t := .process pid.toNat) ?_ (hquiet version) ?_ ?_ ?_ ?_
      · rintro (e | output)
        · exact ⟨_, _, rfl, rfl⟩
        · exact done_of_output output rfl rfl
      · simp [Question.sends, Command.sends]
      · rw [Adapter.reads, readCommand_self]
        exact readOption_eq linuxWord_injective sig (by decide) rfl (by rw [parseNat_decimal]; rfl)
      · rw [Adapter.target, hpid]; rfl
      · rintro answer ⟨-, version', hd, -⟩
        have hlen := congrArg List.length hd
        cases hlen
    · exact delivered_quiet (hquiet version)
        ⟨fun _ => ⟨by rw [hpid]; nofun, version, rfl, Bool.eq_false_of_not_eq_true hv⟩,
          fun _ => rfl⟩

/-- **The adapters of the core**, but the native one. -/
theorem signal_delivers (a : Adapter) (hn : ∀ n, a ≠ .native n) (hp : a.Plain h) :
    (a.signal sig h).Ensures (a.Delivers h sig) [] := by
  cases a with
  | native n => exact absurd rfl (hn n)
  | systemd a => exact systemd_delivers a hp
  | systemdStub => exact delivered_quiet quiet_nil ⟨nofun, nofun⟩
  | launchd a => exact launchd_delivers a
  | launchdStub => exact delivered_quiet quiet_nil ⟨nofun, nofun⟩
  | container a => exact container_delivers a hp
  | pepita a => exact pepita_delivers a
  | wos a => exact wos_delivers a

end Core

/-! ## The adapters of the platform crate -/

namespace Platforms

namespace Adapter

/-- How the system of an adapter reads what it is asked. -/
def reads : Adapter → Question → Option Delivery
  | native _ => fun
    | .kill raw (some sig) => some ⟨sig, .process raw.toInt⟩
    | _ => none
  | linux _ => readCommand (.ofText "systemctl".toList) (readOperand Linux.signalName "kill")
  | macOS _ => readCommand (.ofText "kill".toList)
      (readKill fun sig => decimal (MacOS.signalNumber sig))
  | container a => readCommand (.ofText a.runtime.cliCommand.toList)
      (readOperand Container.signalName "kill")
  | pepita a => readCommand a.pepitaPath
      (readOption Pepita.signalName "--vm" fun v => some (.service v))
  | wos _ => fun _ => none

/-- What the handle names; launchd is asked for the process of a service. -/
def Names (h : DaemonHandle) (a : Adapter) (d : Dialogue Question.Answer) (t : Recipient) : Prop :=
  match a with
  | native _ => h.pid.map (fun p => .process p.toNat) = some t
  | macOS _ => ∃ output pid, d = [⟨.command ⟨.ofText "launchctl".toList, ["list".toList, h.id]⟩,
      .ok output⟩] ∧ MacOS.pidOf output.stdout = some pid ∧ t = .process pid.toInt
  | _ => t = .service h.id

/-- The name that stands in the command as an operand does not look like an option, and the number
that is given to the kernel is that of one process. -/
def Plain (h : DaemonHandle) : Adapter → Prop
  | native _ => ∀ pid ∈ h.pid, 0 < pid.toNat ∧ pid.toNat < 2 ^ 31
  | linux _ | container _ => Argv.isOption h.id = false
  | _ => True

/-- A process of the simulated table is signalled without the system. -/
def Unmanaged (h : DaemonHandle) : Adapter → Prop
  | wos a => h.platform = .wos ∧ ∃ pid p, h.process = some pid ∧ a.processes.lookup pid = some p
  | _ => False

/-- What `signal` owes to its dialogue with the system. -/
def Delivers (a : Adapter) (h : DaemonHandle) (sig : Signal) (d : Dialogue Question.Answer)
    (r : Adapter × Except PlatformError (Reply TracerHandle)) : Prop :=
  Delivered a.reads sig (a.Names h) (fun _ => a.Unmanaged h) d r.2.isOk

end Adapter

variable {h : DaemonHandle} {sig : Signal}

theorem delivers_lift {σ : Type} {f : σ → Adapter} {x : Attempt σ Unit} {a : Adapter}
    (hx : x.Ensures (fun d r => Delivered a.reads sig (a.Names h) (fun _ => a.Unmanaged h) d
      r.2.isOk) []) :
    (lift f (fun _ => .signalled) x).Ensures (a.Delivers h sig) [] :=
  Ask.ensures_map.2 (hx.mono fun d r hr => by rwa [Adapter.Delivers, isOk_map])

theorem native_delivers (a : Native.NativeAdapter) (hp : (Adapter.native a).Plain h) :
    ((Adapter.native a).signal sig h).Ensures ((Adapter.native a).Delivers h sig) [] := by
  refine delivers_lift ?_
  unfold Native.signal
  cases hpid : h.pid with
  | none => exact delivered_quiet quiet_nil ⟨nofun, nofun⟩
  | some pid =>
    have hcast : pid.toInt32.toInt = pid.toNat := by
      rw [toInt_toInt32, if_pos (hp pid hpid).2]
    refine ensures_sending (t := .process pid.toNat) ?_ quiet_nil rfl ?_ ?_ fun _ h => h
    · rintro (e | ⟨⟩) <;> exact ⟨_, _, rfl, rfl⟩
    · rw [← hcast]; rfl
    · rw [Adapter.Names, hpid]; rfl

theorem linux_delivers (a : Linux.LinuxAdapter) (hp : (Adapter.linux a).Plain h) :
    ((Adapter.linux a).signal sig h).Ensures ((Adapter.linux a).Delivers h sig) [] := by
  refine delivers_lift (Ask.ensures_ite.2 ⟨fun _ => ?_, fun _ => ?_⟩)
  · exact delivered_quiet quiet_nil ⟨nofun, nofun⟩
  · refine ensures_sending (t := .service h.id) ?_ quiet_nil ?_ ?_ rfl fun _ h => h
    · rintro (e | output)
      · exact ⟨_, _, rfl, rfl⟩
      · exact done_of_output output rfl rfl
    · simp [Question.sends, Command.sends]
    · rw [Adapter.reads, readCommand_self]
      exact readOperand_eq signalName_injective "kill" sig hp

theorem macOS_delivers (a : MacOS.MacOSAdapter) :
    ((Adapter.macOS a).signal sig h).Ensures ((Adapter.macOS a).Delivers h sig) [] := by
  refine delivers_lift (Ask.ensures_ite.2 ⟨fun _ => ?_, fun _ => ?_⟩)
  · exact delivered_quiet quiet_nil ⟨nofun, nofun⟩
  · have hquiet : ∀ answer, ∀ p ∈ [(⟨.command ⟨.ofText "launchctl".toList,
        ["list".toList, h.id]⟩, answer⟩ : Σ q : Question, q.Answer)], p.1.sends = false := by
      intro answer p hp
      rw [List.mem_singleton.1 hp]
      have hprogram : Path.ofText "launchctl".toList ≠ .ofText "kill".toList := by decide
      have hword : "list".toList ∉ ["--user".toList, "kill".toList, "signal".toList,
          "task".toList] := by decide
      exact sends_of_head [h.id] hprogram hword
    rintro (e | output)
    · exact delivered_quiet (hquiet _) ⟨nofun, nofun⟩
    · dsimp only
      cases hpid : MacOS.pidOf output.stdout with
      | none => exact delivered_quiet (hquiet _) ⟨nofun, nofun⟩
      | some pid =>
        refine ensures_sending (t := .process pid.toInt) ?_ (hquiet _) ?_ ?_
          ⟨output, pid, rfl, hpid, rfl⟩ fun _ h => h
        · rintro (e | kill)
          · exact ⟨_, _, rfl, rfl⟩
          · exact done_of_output kill rfl rfl
        · simp [Question.sends, Command.sends]
        · rw [Adapter.reads, readCommand_self, readKill, parseI32_decimalInt]
          exact congrArg (Option.bind · _) (signalOf_word macWord_injective sig)

theorem container_delivers (a : Container.ContainerAdapter) (hp : (Adapter.container a).Plain h) :
    ((Adapter.container a).signal sig h).Ensures ((Adapter.container a).Delivers h sig) [] := by
  refine delivers_lift (Ask.ensures_ite.2 ⟨fun _ => ?_, fun _ => ?_⟩)
  · exact delivered_quiet quiet_nil ⟨nofun, nofun⟩
  · refine ensures_sending (t := .service h.id) ?_ quiet_nil ?_ ?_ rfl fun _ h => h
    · rintro (e | output)
      · exact ⟨_, _, rfl, rfl⟩
      · exact done_of_output output rfl rfl
    · simp [Question.sends, Command.sends]
    · rw [Adapter.reads, readCommand_self]
      exact readOperand_eq signalName_injective "kill" sig hp

theorem pepita_delivers (a : Pepita.PepitaAdapter) :
    ((Adapter.pepita a).signal sig h).Ensures ((Adapter.pepita a).Delivers h sig) [] := by
  refine delivers_lift (Ask.ensures_ite.2 ⟨fun _ => ?_, fun _ => ?_⟩)
  · exact delivered_quiet quiet_nil ⟨nofun, nofun⟩
  · refine ensures_sending (t := .service h.id) ?_ quiet_nil ?_ ?_ rfl fun _ h => h
    · rintro (e | output)
      · exact ⟨_, _, rfl, rfl⟩
      · exact done_of_output output rfl rfl
    · simp [Question.sends, Command.sends]
    · rw [Adapter.reads, readCommand_self]
      exact readOption_eq shortName_injective sig (by decide) rfl rfl

theorem wos_delivers (a : WosAdapter) :
    ((Adapter.wos a).signal sig h).Ensures ((Adapter.wos a).Delivers h sig) [] := by
  refine delivers_lift (Ask.ensures_ite.2 ⟨fun hpl => ?_, fun hpl => ?_⟩)
  · exact delivered_quiet quiet_nil ⟨nofun, fun hun => absurd hun.1 hpl⟩
  · cases hpid : h.process with
    | none =>
      refine delivered_quiet quiet_nil ⟨nofun, ?_⟩
      rintro ⟨-, pid, p, hp, -⟩
      rw [hpid] at hp
      cases hp
    | some pid =>
      cases hl : a.processes.lookup pid with
      | none =>
        simp only [hl]
        refine delivered_quiet quiet_nil ⟨nofun, ?_⟩
        rintro ⟨-, pid', p, hp, hlook⟩
        rw [hpid] at hp
        cases hp
        rw [hl] at hlook
        cases hlook
      | some p =>
        simp only [hl]
        have hun : (Adapter.wos a).Unmanaged h := ⟨not_not.1 hpl, pid, p, hpid, hl⟩
        exact Ask.ensures_ite.2 ⟨fun _ => delivered_quiet quiet_nil ⟨fun _ => hun, fun _ => rfl⟩,
          fun _ => delivered_quiet quiet_nil ⟨fun _ => hun, fun _ => rfl⟩⟩

/-- **The adapters of the platform crate.** -/
theorem signal_delivers (a : Adapter) (hp : a.Plain h) :
    (a.signal sig h).Ensures (a.Delivers h sig) [] := by
  cases a with
  | native a => exact native_delivers a hp
  | linux a => exact linux_delivers a hp
  | macOS a => exact macOS_delivers a
  | container a => exact container_delivers a hp
  | pepita a => exact pepita_delivers a
  | wos a => exact wos_delivers a

end Platforms

/-- **Signals are delivered.** In every dialogue of `signal` with the system, at most one command
sends a signal, it is read as the signal asked for and the daemon of the handle, and `signal`
returns `Ok` exactly when it was accepted (or a simulated process needs none). -/
theorem signals_delivered :
    (∀ (a : Core.Adapter) (h : DaemonHandle) (sig : Signal) d r, (∀ n, a ≠ .native n) →
      a.Plain h → (a.call h (.signal sig)).feed d = some r → a.Delivers h sig d r) ∧
    ∀ (table : Char → Text) (a : Platforms.Adapter) (h : Platforms.DaemonHandle) (sig : Signal)
      d r, a.Plain h → (a.call table h (.signal sig)).feed d = some r → a.Delivers h sig d r :=
  ⟨fun a _ _ _ _ hn hp hd => (Core.signal_delivers a hn hp).feed hd,
    fun _ a _ _ _ _ hp hd => (Platforms.signal_delivers a hp).feed hd⟩

/-- A unit of a user, which is told to end. -/
def userUnit : Core.Adapter × DaemonHandle :=
  (.systemd ⟨.ofText "/etc/systemd/user".toList, true⟩, .systemd ⟨7⟩ "web.service")

def termUnit : Question := .command ⟨.ofText "systemctl".toList,
  ["--user", "kill", "--signal", "SIGTERM", "web.service"].map String.toList⟩

theorem signals_delivered_user : ∃ r,
    (userUnit.1.call userUnit.2 (.signal .term)).feed [⟨termUnit, .ok (printed "")⟩] = some r ∧
    userUnit.1.Delivers userUnit.2 .term [⟨termUnit, .ok (printed "")⟩] r := by
  obtain ⟨r, hr⟩ : ∃ r, (userUnit.1.call userUnit.2 (.signal .term)).feed
      [⟨termUnit, .ok (printed "")⟩] = some r :=
    ⟨_, Ask.feed_ask_some.2 ⟨Except.ok (printed ""), [], rfl, rfl⟩⟩
  exact ⟨r, hr, signals_delivered.1 _ _ _ _ _ nofun (fun u hu => by cases hu; decide) hr⟩

end Duende
