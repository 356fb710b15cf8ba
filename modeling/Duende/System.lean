import Duende.Core.Config
import Duende.Trans.Ask

/-!
# What the adapters ask of the operating system

Running a command, `kill(2)`, and waiting for a child. `Rejects` says that an operation
fails whatever the system answers, without a signal to any process and without a change to
the state of its adapter.
-/

namespace Duende

open Trans

/-- The output of a command that ran, as `from_utf8_lossy` reads it; without a code if a
signal ended it. -/
structure Output where
  code : Option Int32
  stdout : Text
  stderr : Text
  deriving DecidableEq

def Output.success (o : Output) : Bool := o.code = some 0

/-- Running a command: it may fail to execute. -/
abbrev Ran := Except String Output

structure Command where
  program : Path
  args : List Text
  deriving DecidableEq

/-- The commands that send a signal: `kill` itself, and the `kill` and `signal` commands of
the service managers. -/
def Command.sends (c : Command) : Bool :=
  let args := c.args.filter (· ≠ "--user".toList)
  c.program = .ofText "kill".toList || args.head? = some "kill".toList ||
    args.head? = some "signal".toList || args.take 2 = ["task".toList, "kill".toList]

/-- An error of `kill(2)`. -/
inductive Errno where
  | esrch
  | other (msg : String)
  deriving DecidableEq, Repr

def Errno.display : Errno → String
  | esrch => "ESRCH: No such process"
  | other msg => msg

/-- A question to the system. In `kill`, no signal is the null signal. -/
inductive Question where
  | command (c : Command)
  | kill (raw : Int32) (sig : Option Signal)
  | tryWait
  deriving DecidableEq

namespace Question

def Answer : Question → Type
  | command _ => Ran
  | kill _ _ => Except Errno Unit
  | tryWait => Except String Unit

/-- Whether a signal is sent to a process. -/
def sends : Question → Bool
  | command c => c.sends
  | kill _ sig => sig.isSome
  | tryWait => false

end Question

/-- An operation that asks the system. -/
abbrev Io := Ask Question Question.Answer

namespace Io

def commandAt {α : Type} (program : Path) (args : List Text) (k : Ran → Io α) : Io α :=
  .ask (.command ⟨program, args⟩) k

def command {α : Type} (program : String) : List Text → (Ran → Io α) → Io α :=
  commandAt (.ofText program.toList)

def kill {α : Type} (raw : Int32) (sig : Option Signal) (k : Except Errno Unit → Io α) : Io α :=
  .ask (.kill raw sig) k

def tryWait {α : Type} (k : Except String Unit → Io α) : Io α := .ask .tryWait k

end Io

/-- The operation fails, sends no signal and leaves the state `s`, whatever the system
answers. -/
def Rejects {σ ε α : Type} (x : Io (σ × Except ε α)) (s : σ) : Prop :=
  x.All (fun q => q.sends = false) fun r => r.1 = s ∧ ∃ e, r.2 = .error e

/-- Some answers of the system let the operation succeed. -/
def MaySucceed {σ ε α : Type} (x : Io (σ × Except ε α)) : Prop := ∃ s r, x.Gives (s, .ok r)

section

variable {σ ε α : Type} {x : Io (σ × Except ε α)} {s : σ}

theorem rejects_done (e : ε) : Rejects (.done (s, .error e) : Io (σ × Except ε α)) s :=
  ⟨rfl, e, rfl⟩

theorem maySucceed_done (r : α) : MaySucceed (.done (s, .ok r) : Io (σ × Except ε α)) :=
  ⟨s, r, .done _⟩

theorem maySucceed_ask {q : Question} {k : q.Answer → Io (σ × Except ε α)} (a : q.Answer)
    (h : MaySucceed (k a)) : MaySucceed (.ask q k) := by
  obtain ⟨s', r, hg⟩ := h
  exact ⟨s', r, .ask q k a _ hg⟩

theorem MaySucceed.not_rejects (h : MaySucceed x) : ¬ Rejects x s := by
  obtain ⟨s', r, hg⟩ := h
  intro hr
  obtain ⟨-, e, he⟩ := hr.gives hg
  cases he

end

/-! ## Signals -/

def signalName : Signal → String
  | .term => "SIGTERM"
  | .kill => "SIGKILL"
  | .int => "SIGINT"
  | .quit => "SIGQUIT"
  | .hup => "SIGHUP"
  | .usr1 => "SIGUSR1"
  | .usr2 => "SIGUSR2"
  | .stop => "SIGSTOP"
  | .cont => "SIGCONT"

def signalDebug : Signal → String
  | .hup => "Hup"
  | .int => "Int"
  | .quit => "Quit"
  | .term => "Term"
  | .kill => "Kill"
  | .usr1 => "Usr1"
  | .usr2 => "Usr2"
  | .stop => "Stop"
  | .cont => "Cont"

/-- The signal numbers of Linux. -/
def linuxNumber : Signal → Nat
  | .term => 15
  | .kill => 9
  | .int => 2
  | .quit => 3
  | .hup => 1
  | .usr1 => 10
  | .usr2 => 12
  | .stop => 19
  | .cont => 18

/-- The signal numbers of macOS. -/
def macNumber : Signal → Nat
  | .term => 15
  | .kill => 9
  | .int => 2
  | .quit => 3
  | .hup => 1
  | .usr1 => 30
  | .usr2 => 31
  | .stop => 17
  | .cont => 19

end Duende
