import Duende.Core.Adapter
import Duende.Trans.Interleave
import Mathlib.Data.Finmap

/-!
# The native adapter of the core

`spawn`, `signal`, `status` and `stop` for any number of callers, with the operating system
as the environment: it decides which pid a process gets, when and how it exits, and whether
a call fails. Every hold of the lock of the process table is one step. What the code cannot
see is the system's or history: the processes with their flags, the signals sent, `lost`.
-/

namespace Duende.Core.Native

open Trans

/-- How a process ended. -/
inductive ExitStatus where
  | exited (code : Int32)
  | signaled (sig : Int32)
  deriving DecidableEq, Repr

namespace ExitStatus

def success : ExitStatus → Bool
  | exited code => code = 0
  | signaled _ => false

def status (e : ExitStatus) : DaemonStatus :=
  if e.success then .stopped
  else
    match e with
    | exited code => .failed (.exitCode code)
    | signaled sig => .failed (.signal sig)

end ExitStatus

/-- A spawned process. `tracked`: it was put into the table; `observed`: a `status` found it
ended; `killed`: a SIGKILL was sent to it; `reaped`: its pid is free again. -/
structure Proc where
  pid : UInt32
  exit : Option ExitStatus := none
  tracked : Bool := false
  observed : Bool := false
  killed : Bool := false
  reaped : Bool := false
  deriving DecidableEq, Repr

/-- `processes` maps a daemon to the child stored for it, one of the first `count` of
`procs`, all in the process group `group`. `sent` lists the calls of `kill`, and `lost h` says
that a `status` through `h` found the process failed and removed it, with no spawn of that
daemon since. -/
structure NativeAdapter where
  processes : Finmap fun _ : DaemonId => Nat
  group : Int32
  count : Nat
  procs : Nat → Proc
  sent : List (Int32 × Signal)
  lost : DaemonHandle → Bool

abbrev OsResult := Except String Unit

namespace NativeAdapter

def new (group : Int32) : NativeAdapter where
  processes := ∅
  group := group
  count := 0
  procs := fun _ => { pid := 0 }
  sent := []
  lost := fun _ => false

/-- Something changes about one process. -/
def set (a : NativeAdapter) (i : Nat) (p : Proc) : NativeAdapter :=
  { a with procs := Function.update a.procs i p }

def fork (a : NativeAdapter) (pid : UInt32) : NativeAdapter :=
  { a with count := a.count + 1, procs := Function.update a.procs a.count { pid := pid } }

def insert (a : NativeAdapter) (id : DaemonId) (i : Nat) : NativeAdapter :=
  { a with
    processes := a.processes.insert id i
    procs := Function.update a.procs i { a.procs i with tracked := true }
    lost := fun h => if h.id = id then false else a.lost h }

/-- Whether `kill(raw, _)` is meant for the process: only a positive `raw` is one pid, the
others name the caller's group, everyone, or the group `-raw`. -/
def addressed (a : NativeAdapter) (raw : Int32) (p : Proc) : Bool :=
  if 0 < raw then p.pid.toInt32 = raw else raw = 0 || raw = -1 || raw = -a.group

/-- The operating system carries out `kill(raw, sig)`. -/
def deliver (a : NativeAdapter) (raw : Int32) (sig : Signal) : NativeAdapter :=
  { a with
    sent := a.sent ++ [(raw, sig)]
    procs := fun i =>
      let p := a.procs i
      { p with killed := p.killed || (sig = .kill && a.addressed raw p && !p.reaped) } }

def signal (a : NativeAdapter) (h : DaemonHandle) (sig : Signal) (k : OsResult) :
    NativeAdapter × Except PlatformError Unit :=
  match a.processes.lookup h.id with
  | none => (a, .error (.notFound h.id.display))
  | some i =>
    match h.pid with
    | none => (a, .error (.signalFailed "no PID in handle"))
    | some pid =>
      match k with
      | .error e => (a, .error (.signalFailed s!"kill failed: {e}"))
      | .ok () =>
        let a := a.deliver pid.toInt32 sig
        if sig = .kill then
          -- `start_kill` on the stored child, whose pid need not be that of the handle
          let a := a.deliver (a.procs i).pid.toInt32 .kill
          ({ a with processes := a.processes.erase h.id }, .ok ())
        else (a, .ok ())

/-- A child is found ended and its entry removed. -/
def remove (a : NativeAdapter) (h : DaemonHandle) (i : Nat) (e : ExitStatus) : NativeAdapter :=
  { a with
    processes := a.processes.erase h.id
    procs := Function.update a.procs i { a.procs i with observed := true, reaped := true }
    lost := if e.success then a.lost else Function.update a.lost h true }

def status (a : NativeAdapter) (h : DaemonHandle) (k : OsResult) :
    NativeAdapter × Except PlatformError DaemonStatus :=
  match a.processes.lookup h.id with
  | none => (a, .ok .stopped)
  | some i =>
    match k with
    | .error e => (a, .error (.statusFailed s!"failed to get status: {e}"))
    | .ok () =>
      match (a.procs i).exit with
      | none => (a, .ok .running)
      | some e => (a.remove h i e, .ok e.status)

def attachTracer (a : NativeAdapter) (h : DaemonHandle) : Except PlatformError TracerHandle :=
  match a.processes.lookup h.id with
  | none => .error (.notFound h.id.display)
  | some _ => .ok ⟨h.id, .ptrace⟩

/-- No process that is not reaped holds the pid. -/
def PidFree (a : NativeAdapter) (pid : UInt32) : Prop :=
  ∀ i < a.count, (a.procs i).reaped = false → (a.procs i).pid ≠ pid

instance (a : NativeAdapter) (pid : UInt32) : Decidable (a.PidFree pid) :=
  inferInstanceAs (Decidable (∀ i < a.count, _))

end NativeAdapter

inductive Op where
  | spawn (id : DaemonId)
  | signal (h : DaemonHandle) (sig : Signal)
  | status (h : DaemonHandle)
  | stop (h : DaemonHandle)
  deriving DecidableEq, Repr

/-- Program points: the next fork or hold of the lock, or the clock read by `stop`. -/
inductive Pc where
  | fork (id : DaemonId)
  | insert (id : DaemonId) (i : Nat) (pid : UInt32)
  | signal (h : DaemonHandle) (sig : Signal)
  | status (h : DaemonHandle)
  | stopTerm (h : DaemonHandle)
  | stopWait (h : DaemonHandle)
  | stopPoll (h : DaemonHandle)
  | stopKill (h : DaemonHandle)
  deriving DecidableEq, Repr

inductive Res where
  | spawn (r : Except PlatformError DaemonHandle)
  | done (r : Except PlatformError Unit)
  | status (r : Except PlatformError DaemonStatus)
  deriving DecidableEq, Repr

/-- What a step is answered: the pid of a new process, the result of a system call, or
whether the timeout has passed. -/
inductive Answer where
  | forked (pid : UInt32)
  | os (k : OsResult)
  | late (b : Bool)
  deriving DecidableEq, Repr

def exec (a : NativeAdapter) (p : Pc) (k : Answer) : Option (NativeAdapter × (Pc ⊕ Res)) :=
  match p, k with
  | .fork id, .forked pid =>
    if 0 < pid.toInt32 ∧ a.PidFree pid then some (a.fork pid, .inl (.insert id a.count pid))
    else none
  | .fork _, .os (.error e) =>
    some (a, .inr (.spawn (.error (.spawnFailed s!"failed to spawn: {e}"))))
  | .insert id i pid, _ => some (a.insert id i, .inr (.spawn (.ok (.native id pid))))
  | .signal h sig, .os k => some ((a.signal h sig k).1, .inr (.done (a.signal h sig k).2))
  | .status h, .os k => some ((a.status h k).1, .inr (.status (a.status h k).2))
  | .stopTerm h, .os k =>
    some ((a.signal h .term k).1,
      match (a.signal h .term k).2 with
      | .error e => .inr (.done (.error e))
      | .ok () => .inl (.stopWait h))
  | .stopWait h, .late b => some (a, .inl (if b then .stopKill h else .stopPoll h))
  | .stopPoll h, .os k =>
    some ((a.status h k).1,
      match (a.status h k).2 with
      | .error e => .inr (.done (.error e))
      | .ok s => if s.isTerminal then .inr (.done (.ok ())) else .inl (.stopWait h))
  | .stopKill h, .os k => some ((a.signal h .kill k).1, .inr (.done (a.signal h .kill k).2))
  | _, _ => none

/-- What the operating system does on its own. -/
inductive Env where
  /-- A process exits. -/
  | exits (i : Nat) (e : ExitStatus)
  /-- An ended process that the table has dropped is reaped. -/
  | reaps (i : Nat)
  deriving DecidableEq, Repr

/-- No entry of the table holds the child. -/
def Dropped (a : NativeAdapter) (i : Nat) : Prop :=
  ∀ id ∈ a.processes, a.processes.lookup id ≠ some i

instance (a : NativeAdapter) (i : Nat) : Decidable (Dropped a i) :=
  decidable_of_iff (∀ id ∈ a.processes.keys, a.processes.lookup id ≠ some i) (by
    unfold Dropped; simp [Finmap.mem_keys])

def env (a : NativeAdapter) : Env → Option NativeAdapter
  | .exits i e =>
    if i < a.count ∧ (a.procs i).exit = none then
      some (a.set i { a.procs i with exit := some e })
    else none
  | .reaps i =>
    if (a.procs i).exit ≠ none ∧ (a.procs i).tracked = true ∧ Dropped a i then
      some (a.set i { a.procs i with reaped := true })
    else none

/-- **What the operating system does on its own.** -/
theorem env_cases {a a' : NativeAdapter} {e : Env} (he : env a e = some a') :
    (∃ i e, a' = a.set i { a.procs i with exit := some e }) ∨
    ∃ i, (a.procs i).tracked = true ∧ Dropped a i ∧
      a' = a.set i { a.procs i with reaped := true } := by
  cases e with
  | exits i e =>
    simp only [env] at he
    split at he <;> cases he
    exact .inl ⟨i, e, rfl⟩
  | reaps i =>
    simp only [env] at he
    split at he <;> cases he
    rename_i hcond
    exact .inr ⟨i, hcond.2.1, hcond.2.2, rfl⟩

def nativeObj : Obj NativeAdapter Pc Op Res Answer Env where
  start
    | .spawn id => .fork id
    | .signal h sig => .signal h sig
    | .status h => .status h
    | .stop h => .stopTerm h
  exec := exec
  env := env

abbrev NConf (ι : Type*) := Conf ι NativeAdapter Pc

abbrev NAct (ι : Type*) := Act ι Op Answer Env

/-! ## What a step does -/

namespace Pc

def signals : Pc → Option (DaemonHandle × Signal)
  | signal h sig => some (h, sig)
  | stopTerm h => some (h, .term)
  | stopKill h => some (h, .kill)
  | _ => none

def asks : Pc → Option DaemonHandle
  | status h | stopPoll h => some h
  | _ => none

def stores : Pc → Option (DaemonId × Nat)
  | insert id i _ => some (id, i)
  | _ => none

end Pc

variable {a a' : NativeAdapter} {p : Pc} {q : Pc ⊕ Res} {k : Answer} {h : DaemonHandle}
  {sig : Signal} {r : OsResult} {i : Nat} {id : DaemonId}

/-- **What a step of a call does**: it forks, stores the child, calls `signal` or `status`,
or leaves everything as it is. -/
theorem exec_cases (hx : exec a p k = some (a', q)) :
    (∃ id pid, p = .fork id ∧ a.PidFree pid ∧ a' = a.fork pid ∧
      q = .inl (.insert id a.count pid)) ∨
    (∃ id i pid, p = .insert id i pid ∧ a' = a.insert id i ∧ q.getLeft? = none) ∨
    (∃ h sig r, p.signals = some (h, sig) ∧ p.asks = none ∧ k = .os r ∧ a' = (a.signal h sig r).1 ∧
      q.getLeft?.bind Pc.stores = none) ∨
    (∃ h r, p.asks = some h ∧ p.signals = none ∧ k = .os r ∧ a' = (a.status h r).1 ∧
      q.getLeft?.bind Pc.stores = none) ∨
    (p.asks = none ∧ p.signals = none ∧ p.stores = none ∧ a' = a ∧
      q.getLeft?.bind Pc.stores = none) := by
  cases p with
  | fork id =>
    cases k with
    | forked pid =>
      simp only [exec] at hx
      split at hx <;> cases hx
      rename_i hfree
      exact .inl ⟨id, pid, rfl, hfree.2, rfl, rfl⟩
    | os r =>
      cases r with
      | error e => cases hx; exact .inr (.inr (.inr (.inr ⟨rfl, rfl, rfl, rfl, rfl⟩)))
      | ok u => cases hx
    | late b => cases hx
  | insert id i pid => cases hx; exact .inr (.inl ⟨id, i, pid, rfl, rfl, rfl⟩)
  | signal h sig =>
    cases k with
    | os r => cases hx; exact .inr (.inr (.inl ⟨h, sig, r, rfl, rfl, rfl, rfl, rfl⟩))
    | _ => cases hx
  | status h =>
    cases k with
    | os r => cases hx; exact .inr (.inr (.inr (.inl ⟨h, r, rfl, rfl, rfl, rfl, rfl⟩)))
    | _ => cases hx
  | stopTerm h =>
    cases k with
    | os r =>
      cases hx
      refine .inr (.inr (.inl ⟨h, .term, r, rfl, rfl, rfl, rfl, ?_⟩))
      split <;> rfl
    | _ => cases hx
  | stopWait h =>
    cases k with
    | late b =>
      cases hx
      refine .inr (.inr (.inr (.inr ⟨rfl, rfl, rfl, rfl, ?_⟩)))
      cases b <;> rfl
    | _ => cases hx
  | stopPoll h =>
    cases k with
    | os r =>
      cases hx
      refine .inr (.inr (.inr (.inl ⟨h, r, rfl, rfl, rfl, rfl, ?_⟩)))
      split
      · rfl
      · split <;> rfl
    | _ => cases hx
  | stopKill h =>
    cases k with
    | os r => cases hx; exact .inr (.inr (.inl ⟨h, .kill, r, rfl, rfl, rfl, rfl, rfl⟩))
    | _ => cases hx

/-- **What `signal` does**: it fails and changes nothing, sends the signal, or also kills the
stored child and removes its entry. -/
theorem signal_cases (a : NativeAdapter) (h : DaemonHandle) (sig : Signal) (r : OsResult) :
    (∃ e, a.signal h sig r = (a, .error e)) ∨
    ∃ i pid, a.processes.lookup h.id = some i ∧ h.pid = some pid ∧ r = .ok () ∧
      ((sig ≠ .kill ∧ a.signal h sig r = (a.deliver pid.toInt32 sig, .ok ())) ∨
        (sig = .kill ∧ a.signal h sig r =
          ({ (a.deliver pid.toInt32 .kill).deliver (a.procs i).pid.toInt32 .kill with
            processes := a.processes.erase h.id }, .ok ()))) := by
  unfold NativeAdapter.signal
  cases hl : a.processes.lookup h.id with
  | none => exact .inl ⟨_, rfl⟩
  | some i =>
    cases hp : h.pid with
    | none => exact .inl ⟨_, rfl⟩
    | some pid =>
      cases r with
      | error e => exact .inl ⟨_, rfl⟩
      | ok u =>
        refine .inr ⟨i, pid, rfl, rfl, rfl, ?_⟩
        by_cases hs : sig = .kill
        · subst hs; exact .inr ⟨rfl, if_pos rfl⟩
        · exact .inl ⟨hs, if_neg hs⟩

/-- **What `status` does**: it changes nothing, or finds the stored child ended and removes
its entry. -/
theorem status_cases (a : NativeAdapter) (h : DaemonHandle) (r : OsResult) :
    (a.processes.lookup h.id = none ∧ a.status h r = (a, .ok .stopped)) ∨
    ∃ i, a.processes.lookup h.id = some i ∧
      ((∃ e, r = .error e ∧ a.status h r =
          (a, .error (.statusFailed s!"failed to get status: {e}"))) ∨
        (r = .ok () ∧ (a.procs i).exit = none ∧ a.status h r = (a, .ok .running)) ∨
        ∃ e, r = .ok () ∧ (a.procs i).exit = some e ∧
          a.status h r = (a.remove h i e, .ok e.status)) := by
  unfold NativeAdapter.status
  cases hl : a.processes.lookup h.id with
  | none => exact .inl ⟨rfl, rfl⟩
  | some i =>
    refine .inr ⟨i, rfl, ?_⟩
    cases r with
    | error e => exact .inl ⟨e, rfl, rfl⟩
    | ok u =>
      cases he : (a.procs i).exit with
      | none => exact .inr (.inl ⟨rfl, rfl, by simp only [he]⟩)
      | some e => exact .inr (.inr ⟨e, rfl, rfl, by simp only [he]⟩)

end Duende.Core.Native
