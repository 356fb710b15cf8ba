import Duende.Core.Context
import Mathlib.Data.Finmap

/-!
# The daemon manager

The registry of the manager, the channels its context handles lead to, and the manager's
calls, each run without interruption. A call that awaits a free slot of a channel for
ever is `none`. `Duende.Core.Locked` runs the same calls one lock acquisition at a time.
-/

namespace Duende.Core

open Trans

/-- Backoff configuration for restart delays; durations in nanoseconds. -/
structure BackoffConfig where
  initialDelay : Nat
  maxDelay : Nat
  multiplier : ℚ
  maxRetries : UInt32
  deriving DecidableEq

/-- Restart policy for daemons. -/
inductive RestartPolicy where
  | never
  | always
  | onFailure
  | maxRetries (max : UInt32)
  | withBackoff (config : BackoffConfig)
  deriving DecidableEq

/-- Which channel: clones of a handle lead to the same one. -/
abbrev ChanId := Nat

/-- Handle for sending signals to a daemon context. -/
@[ext]
structure DaemonContextHandle where
  signalTx : ChanId
  deriving DecidableEq

/-- State for a managed daemon. -/
structure ManagedDaemon where
  id : DaemonId
  name : String
  status : DaemonStatus
  restartPolicy : RestartPolicy
  restartCount : Nat
  lastHealth : Option HealthStatus
  lastStarted : Option Nat
  contextHandle : Option DaemonContextHandle
  deriving DecidableEq

namespace ManagedDaemon

def new (id : DaemonId) (name : String) : ManagedDaemon where
  id := id
  name := name
  status := .created
  restartPolicy := .onFailure
  restartCount := 0
  lastHealth := none
  lastStarted := none
  contextHandle := none

def withRestartPolicy (d : ManagedDaemon) (policy : RestartPolicy) : ManagedDaemon :=
  { d with restartPolicy := policy }

end ManagedDaemon

/-- What a call returns. -/
inductive Value where
  | unit
  | id (id : DaemonId)
  | status (status : DaemonStatus)
  | count (n : Nat)
  | ids (ids : List DaemonId)
  | policy (policy : RestartPolicy)
  | health (health : Option HealthStatus)
  deriving DecidableEq

abbrev Res := Except DaemonError Value

/-- The calls that lock one entry under the read lock of the registry and do nothing
else. -/
inductive EntryOp where
  | status
  | updateStatus (status : DaemonStatus)
  | setContextHandle (handle : DaemonContextHandle) (now : Nat)
  | incrementRestartCount
  | getRestartPolicy
  | getRestartCount
  | updateHealth (health : HealthStatus)
  | getHealth
  deriving DecidableEq

def EntryOp.body : EntryOp → ManagedDaemon → ManagedDaemon × Value
  | .status, d => (d, .status d.status)
  | .updateStatus s, d => ({ d with status := s }, .unit)
  | .setContextHandle handle now, d =>
    ({ d with contextHandle := some handle, lastStarted := some now }, .unit)
  | .incrementRestartCount, d =>
    ({ d with restartCount := u32Add d.restartCount 1 }, .count (u32Add d.restartCount 1))
  | .getRestartPolicy, d => (d, .policy d.restartPolicy)
  | .getRestartCount, d => (d, .count d.restartCount)
  | .updateHealth health, d => ({ d with lastHealth := some health }, .unit)
  | .getHealth, d => (d, .health d.lastHealth)

namespace ManagedDaemon

/-- The tests of `signal` on the entry: the handle to send through. -/
def signalTarget (d : ManagedDaemon) (id : DaemonId) : Except DaemonError DaemonContextHandle :=
  if d.status.canSignal = false then
    .error (.state s!"daemon {id.display} cannot receive signals in state {d.status.debug}")
  else
    match d.contextHandle with
    | some handle => .ok handle
    | none => .error (.state s!"daemon {id.display} has no context handle")

theorem signalTarget_eq_ok {d : ManagedDaemon} {id : DaemonId} {handle : DaemonContextHandle} :
    d.signalTarget id = .ok handle ↔
      d.status.canSignal = true ∧ d.contextHandle = some handle := by
  unfold signalTarget
  cases d.status.canSignal with
  | false => simp
  | true => cases d.contextHandle <;> simp

end ManagedDaemon

/-- The registry of the manager and the channels of the contexts. -/
structure World where
  daemons : Finmap fun _ : DaemonId => ManagedDaemon
  chans : ChanId → SignalChan

namespace World

variable (w : World) (id : DaemonId)

def register (name : String) (policy : RestartPolicy) : World × Res :=
  if id ∈ w.daemons then (w, .error (.config s!"daemon {id.display} already registered"))
  else
    ({ w with daemons := w.daemons.insert id ((ManagedDaemon.new id name).withRestartPolicy policy) },
      .ok (.id id))

def unregister : World × Res :=
  match w.daemons.lookup id with
  | none => (w, .error (.notFound id.display))
  | some d =>
    if d.status.isActive then (w, .error (.state s!"cannot unregister active daemon {id.display}"))
    else ({ w with daemons := w.daemons.erase id }, .ok .unit)

/-- Look the daemon up, lock its entry and run `o` on it. -/
def entry (o : EntryOp) : World × Res :=
  match w.daemons.lookup id with
  | none => (w, .error (.notFound id.display))
  | some d => ({ w with daemons := w.daemons.insert id (o.body d).1 }, .ok (o.body d).2)

def status : World × Res := w.entry id .status

def updateStatus (status : DaemonStatus) : World × Res := w.entry id (.updateStatus status)

def setContextHandle (handle : DaemonContextHandle) (now : Nat) : World × Res :=
  w.entry id (.setContextHandle handle now)

def incrementRestartCount : World × Res := w.entry id .incrementRestartCount

def getRestartPolicy : World × Res := w.entry id .getRestartPolicy

def getRestartCount : World × Res := w.entry id .getRestartCount

def updateHealth (health : HealthStatus) : World × Res := w.entry id (.updateHealth health)

def getHealth : World × Res := w.entry id .getHealth

def count : Nat := w.daemons.keys.card

/-- An order in which `list` may return the ids. -/
def Listing (ids : List DaemonId) : Prop := ids.Nodup ∧ ids.toFinset = w.daemons.keys

instance (ids : List DaemonId) : Decidable (w.Listing ids) := inferInstanceAs (Decidable (_ ∧ _))

def setChan (c : ChanId) (ch : SignalChan) : World :=
  { w with chans := Function.update w.chans c ch }

/-- Send through a handle; `none` while it waits for a slot. -/
def send (handle : DaemonContextHandle) (signal : Signal) : Option (World × Res) :=
  (sendSignal (w.chans handle.signalTx) signal).map fun r =>
    (w.setChan handle.signalTx r.1, r.2.map fun _ => .unit)

/-- `none` while it waits for a slot of the daemon's channel. -/
def signal (signal : Signal) : Option (World × Res) :=
  match w.daemons.lookup id with
  | none => some (w, .error (.notFound id.display))
  | some d =>
    match d.signalTarget id with
    | .error e => some (w, .error e)
    | .ok handle => w.send handle signal

end World

/-- How far `shutdown_all` got: the result of each signal it sent, and the ids it has not
come past. The send to the first of these waits. -/
structure Sweep where
  world : World
  results : List (DaemonId × Res)
  waiting : List DaemonId

namespace World

def signalAll (w : World) : List DaemonId → Sweep
  | [] => ⟨w, [], []⟩
  | id :: ids =>
    match w.signal id .term with
    | none => ⟨w, [], id :: ids⟩
    | some (w', r) =>
      let s := signalAll w' ids
      { s with results := (id, r) :: s.results }

/-- `shutdown_all`, when `list` returns `ids`: what it did, and its result if it returns. The
results of the signals only go to the log. -/
def shutdownAll (w : World) (ids : List DaemonId) : Sweep × Option Res :=
  let s := w.signalAll ids
  (s, if s.waiting = [] then some (.ok .unit) else none)

end World

/-- The calls that take the lock of the registry once. -/
inductive Job where
  | register (id : DaemonId) (name : String) (policy : RestartPolicy)
  | unregister (id : DaemonId)
  | entry (id : DaemonId) (o : EntryOp)
  | signal (id : DaemonId) (signal : Signal)
  | count
  | list
  deriving DecidableEq

/-- What a call does when it is alone; `order` is the order in which `list` sees the ids. -/
def World.eval (w : World) (order : List DaemonId) : Job → Option (World × Res)
  | .register id name policy => some (w.register id name policy)
  | .unregister id => some (w.unregister id)
  | .entry id o => some (w.entry id o)
  | .signal id signal => w.signal id signal
  | .count => some (w, .ok (.count w.count))
  | .list => if w.Listing order then some (w, .ok (.ids order)) else none

/-! ## What a send does -/

namespace World

@[simp] theorem setChan_daemons {w : World} {c : ChanId} {ch : SignalChan} :
    (w.setChan c ch).daemons = w.daemons := rfl

@[simp] theorem setChan_self {w : World} {c : ChanId} : w.setChan c (w.chans c) = w := by
  simp [setChan]

variable {w w' : World} {id : DaemonId} {sig : Signal} {r : Res} {handle : DaemonContextHandle}

/-- **What a send can do**: it is accepted and queued last, or refused. -/
theorem send_cases (h : w.send handle sig = some (w', r)) :
    (r = .ok .unit ∧ (w.chans handle.signalTx).receiver = true ∧
      ∃ hq, w' = w.setChan handle.signalTx ((w.chans handle.signalTx).push sig hq)) ∨
    (r = .error (.signal "daemon context closed") ∧
      (w.chans handle.signalTx).receiver = false ∧ w' = w) := by
  simp only [send, sendSignal, Option.map_map, Option.map_eq_some_iff] at h
  obtain ⟨⟨ch, ok⟩, ho, he⟩ := h
  rcases Chan.offer_cases ho with ⟨rfl, hr, hq, rfl⟩ | ⟨rfl, hr, rfl⟩
  · cases he; exact .inl ⟨rfl, hr, hq, rfl⟩
  · cases he
    refine .inr ⟨rfl, hr, ?_⟩
    simp

theorem send_eq_none : w.send handle sig = none ↔ (w.chans handle.signalTx).Full := by
  simp only [send, sendSignal, Option.map_eq_none_iff, Chan.offer_eq_none]

/-! ## What a call does -/

theorem Listing.mem {w : World} {ids : List DaemonId} {id : DaemonId} {d : ManagedDaemon}
    (hl : w.Listing ids) (hd : w.daemons.lookup id = some d) : id ∈ ids := by
  rw [← List.mem_toFinset, hl.2, Finmap.mem_keys]
  exact Finmap.mem_of_lookup_eq_some hd

variable {order : List DaemonId} {j : Job}

/-- When a call may fail; whether a signal does depends on the channels too. -/
def Fails (w : World) : Job → Prop
  | .register id _ _ => ∃ d, w.daemons.lookup id = some d
  | .unregister id => ∀ d, w.daemons.lookup id = some d → d.status.isActive = true
  | .entry id _ => w.daemons.lookup id = none
  | .signal _ _ => True
  | .count | .list => False

/-- **What a call can do to the registry and answer.** -/
inductive Effect (w : World) : Job → World → Res → Prop where
  | failed (j : Job) (e : DaemonError) (why : w.Fails j) : Effect w j w (.error e)
  | registered (id : DaemonId) (name : String) (policy : RestartPolicy)
      (absent : w.daemons.lookup id = none) :
    Effect w (.register id name policy)
      { w with daemons :=
          w.daemons.insert id ((ManagedDaemon.new id name).withRestartPolicy policy) } (.ok (.id id))
  | unregistered (id : DaemonId) (d : ManagedDaemon) (found : w.daemons.lookup id = some d)
      (inactive : d.status.isActive = false) :
    Effect w (.unregister id) { w with daemons := w.daemons.erase id } (.ok .unit)
  | entry (id : DaemonId) (o : EntryOp) (d : ManagedDaemon)
      (found : w.daemons.lookup id = some d) :
    Effect w (.entry id o) { w with daemons := w.daemons.insert id (o.body d).1 }
      (.ok (o.body d).2)
  | signalled (id : DaemonId) (sig : Signal) (w' : World) (same : w'.daemons = w.daemons) :
    Effect w (.signal id sig) w' (.ok .unit)
  | read (j : Job) (v : Value) (query : j = .count ∨ j = .list) : Effect w j w (.ok v)

theorem effect_of_eval (h : w.eval order j = some (w', r)) : Effect w j w' r := by
  cases j with
  | register id name policy =>
    simp only [eval, register, Option.some.injEq] at h
    split at h
    · rename_i hp
      cases h; exact .failed _ _ (Finmap.mem_iff.1 hp)
    · rename_i hn
      cases h; exact .registered id name policy (Finmap.lookup_eq_none.2 hn)
  | unregister id =>
    simp only [eval, unregister, Option.some.injEq] at h
    split at h
    · rename_i hl
      cases h; exact .failed _ _ fun d hd => by rw [hl] at hd; cases hd
    · rename_i d hd
      split at h
      · rename_i ha
        cases h; exact .failed _ _ fun d' hd' => by cases hd.symm.trans hd'; exact ha
      · rename_i ha
        cases h; exact .unregistered id d hd (by simpa using ha)
  | entry id o =>
    simp only [eval, entry, Option.some.injEq] at h
    split at h
    · rename_i hl
      cases h; exact .failed _ _ hl
    · rename_i d hd
      cases h; exact .entry id o d hd
  | signal id sig =>
    simp only [eval, signal] at h
    split at h
    · cases h; exact .failed _ _ trivial
    · split at h
      · cases h; exact .failed _ _ trivial
      · rcases send_cases h with ⟨rfl, -, -, rfl⟩ | ⟨rfl, -, rfl⟩
        · exact .signalled id sig _ rfl
        · exact .failed _ _ trivial
  | count => cases h; exact .read _ _ (.inl rfl)
  | list =>
    simp only [eval, Option.ite_none_right_eq_some] at h
    cases h.2; exact .read _ _ (.inr rfl)

end World

end Duende.Core
