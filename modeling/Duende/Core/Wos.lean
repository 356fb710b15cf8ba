import Duende.Core.Types
import Duende.Trans.Run
import Mathlib.Data.Finmap

/-!
# The WOS adapter of the core

The local process table of the adapter, inside WOS and without `wos-ctl`. A signal changes
the recorded state of a process whatever that state is; `terminal_final_iff` says which
signals leave a terminal status alone.
-/

namespace Duende.Core.Wos

open Trans

inductive ProcessState where
  | ready
  | running
  | waiting
  | stopped
  | exited (code : Int32)
  | killed (sig : Int32)
  deriving DecidableEq, Repr

/-- Information about a WOS process. -/
structure ProcessInfo where
  pid : UInt32
  parentPid : UInt32
  name : String
  priority : UInt8
  state : ProcessState
  deriving DecidableEq, Repr

structure WosAdapter where
  defaultPriority : UInt8
  processes : Finmap fun _ : UInt32 => ProcessInfo

inductive PlatformError where
  | spawnFailed (msg : String)
  deriving DecidableEq, Repr

/-- What a signal makes of the recorded state. -/
def ProcessState.signal (st : ProcessState) : Signal → ProcessState
  | .kill => .killed 9
  | .term => .exited 0
  | .stop => .stopped
  | .cont => if st = .stopped then .running else st
  | _ => st

def ProcessState.status : ProcessState → DaemonStatus
  | .ready | .running => .running
  | .waiting => .running
  | .stopped => .paused
  | .exited code => if code ≠ 0 then .failed (.exitCode code) else .stopped
  | .killed sig => .failed (.signal sig)

namespace WosAdapter

def new : WosAdapter where
  defaultPriority := 4
  processes := ∅

/-- A daemon is spawned; `pid` is what `allocate_pid` returned. -/
def spawn (a : WosAdapter) (id : DaemonId) (name : String) (pid : UInt32) :
    WosAdapter × DaemonHandle :=
  let p : ProcessInfo :=
    { pid := pid, parentPid := 1, name := name, priority := a.defaultPriority, state := .running }
  ({ a with processes := a.processes.insert pid p }, .wos id pid)

def signal (a : WosAdapter) (h : DaemonHandle) (sig : Signal) :
    WosAdapter × Except PlatformError Unit :=
  match h.pid with
  | none => (a, .error (.spawnFailed "Invalid handle type for WOS adapter"))
  | some pid =>
    match a.processes.lookup pid with
    | some p =>
      ({ a with processes := a.processes.insert pid { p with state := p.state.signal sig } }, .ok ())
    | none => (a, .ok ())

def status (a : WosAdapter) (h : DaemonHandle) : Except PlatformError DaemonStatus :=
  match h.pid with
  | none => .error (.spawnFailed "Invalid handle type for WOS adapter")
  | some pid =>
    match a.processes.lookup pid with
    | some p => .ok p.state.status
    | none => .ok .stopped

end WosAdapter

/-! ## Runs of signals -/

abbrev Call := DaemonHandle × Signal

def step (a : WosAdapter) (c : Call) : Option WosAdapter := some (a.signal c.1 c.2).1

/-- The signals that leave a state alone in which the process has ended. -/
def harmless (st : ProcessState) : Signal → Bool
  | .stop => false
  | .kill => st = .killed 9
  | .term => st = .exited 0
  | _ => true

variable {a a' : WosAdapter} {c : Call} {cs : List Call} {h : DaemonHandle} {pid : UInt32}
  {p : ProcessInfo} {st : ProcessState} {sig : Signal}

/-- A signal to the process of `h` finds it ended, and is harmless. -/
def Harmless (h : DaemonHandle) (a : WosAdapter) (c : Call) : Prop :=
  ∀ pid p, h.pid = some pid → c.1.pid = some pid → a.processes.lookup pid = some p →
    p.state.status.isTerminal = true → harmless p.state c.2 = true

/-- Once the status of `h` is terminal, no later signal of the run changes it. -/
def Final (h : DaemonHandle) (a : WosAdapter) (cs : List Call) : Prop :=
  ∀ pre mid post a1 a2 s, cs = pre ++ (mid ++ post) → run step a pre = some a1 →
    run step a1 mid = some a2 → a1.status h = .ok s → s.isTerminal = true → a2.status h = .ok s

theorem signal_of_harmless (ht : st.status.isTerminal = true) (hs : harmless st sig = true) :
    st.signal sig = st := by
  cases sig with
  | kill =>
    have : st = .killed 9 := by simpa [harmless] using hs
    rw [this]; rfl
  | term =>
    have : st = .exited 0 := by simpa [harmless] using hs
    rw [this]; rfl
  | stop => cases hs
  | cont =>
    have : st ≠ .stopped := by rintro rfl; cases ht
    simp [ProcessState.signal, this]
  | _ => rfl

theorem status_signal_ne (ht : st.status.isTerminal = true) (hs : harmless st sig = false) :
    (st.signal sig).status ≠ st.status := by
  cases sig with
  | stop =>
    intro he
    rw [← he] at ht; cases ht
  | kill =>
    have hne : st ≠ .killed 9 := by simpa [harmless] using hs
    intro he
    cases st with
    | killed s =>
      have : (9 : Int32) = s := by simpa [ProcessState.signal, ProcessState.status] using he
      exact hne (this ▸ rfl)
    | exited code =>
      simp only [ProcessState.signal, ProcessState.status] at he
      split at he <;> cases he
    | _ => cases ht
  | term =>
    have hne : st ≠ .exited 0 := by simpa [harmless] using hs
    intro he
    cases st with
    | killed s => cases he
    | exited code =>
      have hc : code ≠ 0 := by rintro rfl; exact hne rfl
      simp [ProcessState.signal, ProcessState.status, hc] at he
    | _ => cases ht
  | _ => cases hs

/-! ## What a signal does to the table -/

theorem status_eq (hh : h.pid = some pid) (hp : a.processes.lookup pid = some p) :
    a.status h = .ok p.state.status := by
  simp only [WosAdapter.status, hh, hp]

theorem lookup_signal_self (hc : c.1.pid = some pid) (hp : a.processes.lookup pid = some p) :
    (a.signal c.1 c.2).1.processes.lookup pid = some { p with state := p.state.signal c.2 } := by
  simp only [WosAdapter.signal, hc, hp, Finmap.lookup_insert]

theorem lookup_signal_other (hc : c.1.pid ≠ some pid) :
    (a.signal c.1 c.2).1.processes.lookup pid = a.processes.lookup pid := by
  unfold WosAdapter.signal
  split
  · rfl
  · rename_i pid' hpid
    have hne : pid ≠ pid' := by rintro rfl; exact hc hpid
    split
    · exact Finmap.lookup_insert_of_ne _ hne
    · rfl

theorem lookup_run (hr : run step a cs = some a') (hp : a.processes.lookup pid = some p) :
    ∃ p', a'.processes.lookup pid = some p' :=
  run_inv (P := fun a : WosAdapter => ∃ p', a.processes.lookup pid = some p')
    (fun a c a' hx hs => by
      obtain ⟨p', hp'⟩ := hx
      cases hs
      by_cases hc : c.1.pid = some pid
      · exact ⟨_, lookup_signal_self hc hp'⟩
      · exact ⟨p', by rw [lookup_signal_other hc]; exact hp'⟩) ⟨p, hp⟩ hr

/-- A run of harmless signals leaves a state alone in which the process has ended. -/
theorem state_run (hh : h.pid = some pid) (hm : Meets step (Harmless h) a cs)
    (hr : run step a cs = some a') (hp : a.processes.lookup pid = some p)
    (ht : p.state.status.isTerminal = true) :
    ∃ p', a'.processes.lookup pid = some p' ∧ p'.state = p.state := by
  refine Meets.run_inv (P := fun a : WosAdapter =>
      ∃ p', a.processes.lookup pid = some p' ∧ p'.state = p.state)
    (fun a c a' hx hC hs => ?_) hm ⟨p, hp, rfl⟩ hr
  obtain ⟨p', hp', hst⟩ := hx
  cases hs
  by_cases hc : c.1.pid = some pid
  · have ht' : p'.state.status.isTerminal = true := by rw [hst]; exact ht
    refine ⟨_, lookup_signal_self hc hp', ?_⟩
    exact (signal_of_harmless ht' (hC pid p' hh hc hp' ht')).trans hst
  · exact ⟨p', by rw [lookup_signal_other hc]; exact hp', hst⟩

/-- **Terminal statuses**: once the status of a process in the table is terminal no later
signal changes it, exactly when an ended process is sent no `Stop`, a `Kill` only if it was
killed by signal 9 and a `Term` only if it exited with code 0. -/
theorem terminal_final_iff (hh : h.pid = some pid) (hp : a.processes.lookup pid = some p) :
    Final h a cs ↔ Meets step (Harmless h) a cs := by
  constructor
  · intro hf
    refine meets_iff.2 fun pre c post a1 hcs hpre pid' p1 hh' hc hp1 ht => ?_
    cases hh.symm.trans hh'
    by_contra hne
    have hfin := hf pre [c] post a1 _ _ hcs hpre rfl (status_eq hh hp1) ht
    rw [status_eq hh (lookup_signal_self hc hp1)] at hfin
    exact status_signal_ne ht (by simpa using hne) (Except.ok.inj hfin)
  · rintro hm pre mid post a1 a2 s rfl hpre hmid hs ht
    obtain ⟨p1, hp1⟩ := lookup_run hpre hp
    rw [status_eq hh hp1] at hs
    cases hs
    obtain ⟨p2, hp2, hst⟩ := state_run hh (Meets.append ((Meets.append hm).2 a1 hpre)).1 hmid hp1 ht
    rw [status_eq hh hp2, hst]

def spawned : WosAdapter × DaemonHandle := WosAdapter.new.spawn ⟨1⟩ "daemon" 2

/-- A process that is killed twice stays killed. -/
theorem killed_twice : Final spawned.2 spawned.1 [(spawned.2, .kill), (spawned.2, .kill)] := by
  refine (terminal_final_iff rfl rfl).2 ⟨?_, fun a1 h1 => ⟨?_, fun _ _ => trivial⟩⟩
  · intro pid p hh _ hp ht
    cases hh; cases hp; cases ht
  · intro pid p hh _ hp _
    cases h1; cases hh; cases hp; rfl

/-- A stop brings a killed process back: it is reported as paused. -/
theorem stop_after_kill : ¬ Final spawned.2 spawned.1 [(spawned.2, .kill), (spawned.2, .stop)] := by
  intro hf
  have := hf [(spawned.2, .kill)] [(spawned.2, .stop)] [] _ _ _ rfl rfl rfl rfl rfl
  cases this

end Duende.Core.Wos
