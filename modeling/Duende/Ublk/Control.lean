import Duende.Trans.Run
import Duende.Ublk.Sys
import Mathlib.Data.List.Nodup

/-!
# The ublk control device

One thread runs the calls of `UblkControl` on a ring of four entries; `thread` is its next
step, from one access of the ring or the clock to the next. The kernel completes the
commands it has taken, in any order and at any time. `id`, `of`, `completed` and `log`
are history: the code cannot see them, every entry it pushes carries the user data 1.
-/

namespace Duende.Ublk

/-- A submission entry. -/
structure Sqe where
  id : Nat
  opcode : UInt32
  cmd : UblkCtrlCmdExt
  userData : UInt64 := 1
  deriving DecidableEq, Repr

/-- A completion entry; `info` is what the kernel wrote into the command's buffer. -/
structure Cqe where
  userData : UInt64
  result : Int32
  of : Sqe
  info : UblkCtrlDevInfo
  deriving DecidableEq, Repr

/-- The public calls; the device info goes to a buffer at `addr`. -/
inductive Call where
  | deleteDevice (devId : UInt32)
  | stopDevice (devId : UInt32)
  | forceDelete (devId : UInt32)
  | getDeviceInfo (devId : UInt32) (addr : UInt64)
  deriving DecidableEq, Repr

/-- A command of a call: `force_delete` has two. -/
inductive Job where
  | delete (devId : UInt32)
  | stop (devId : UInt32)
  | forceStop (devId : UInt32)
  | forceDelete (devId : UInt32)
  | info (devId : UInt32) (addr : UInt64)
  deriving DecidableEq, Repr

inductive Ret where
  | done (b : Bool)
  | info (i : UblkCtrlDevInfo)
  | error (e : Error)
  deriving DecidableEq, Repr

def Call.job : Call → Job
  | deleteDevice d => .delete d
  | stopDevice d => .stop d
  | forceDelete d => .forceStop d
  | getDeviceInfo d addr => .info d addr

namespace Job

def opcode : Job → UInt32
  | delete _ | forceDelete _ => ublkCmdDelDev
  | stop _ | forceStop _ => ublkCmdStopDev
  | info _ _ => ublkCmdGetDevInfo

def cmd : Job → UblkCtrlCmdExt
  | delete d | stop d | forceStop d | forceDelete d => .forDevice d
  | info d addr =>
    { cmd := { devId := d, queueId := 0xffff, len := ublkCtrlDevInfoSize, addr := addr } }

def sqe (j : Job) (id : Nat) : Sqe where
  id := id
  opcode := j.opcode
  cmd := j.cmd

/-- The result of a call from the result of a completion. -/
def answer (j : Job) (res : Int32) (buffer : UblkCtrlDevInfo) : Ret :=
  match j with
  | delete d | stop d | forceStop d | forceDelete d =>
    if res < 0 then
      if res = -ENOENT then .done false
      else if res = -EBUSY then .error (.deviceBusy d)
      else .error (.fromErrno res)
    else .done true
  | info d _ =>
    if res < 0 then
      if res = -ENOENT then .error (.deviceNotFound d)
      else .error (.fromErrno res)
    else .info buffer

end Job

/-- Where the thread stands; `own` is the entry its call pushed. -/
inductive Phase where
  | idle
  | push (j : Job)
  | submit (j : Job) (own : Sqe)
  | start (j : Job) (own : Sqe)
  | poll (j : Job) (own : Sqe) (start : Nat)
  | expire (j : Job) (own : Sqe) (start : Nat)
  | sleep (j : Job) (own : Sqe) (start wake : Nat)
  | wait (j : Job) (own : Sqe)
  | reap (j : Job) (own : Sqe)
  deriving DecidableEq, Repr

/-- The command that runs, and the entry it has pushed. -/
def Phase.running : Phase → Option (Job × Sqe)
  | idle | push _ => none
  | submit j q | start j q | poll j q _ | expire j q _ | sleep j q _ _ | wait j q | reap j q =>
    some (j, q)

/-- A command that has returned: the entry it pushed and the completion it popped. -/
structure Return where
  job : Job
  own : Option Sqe
  popped : Option Cqe
  result : Ret
  deriving DecidableEq, Repr

structure Control where
  sq : List Sqe
  inflight : List Sqe
  cq : List Cqe
  /-- The local variable `info` of `get_device_info`. -/
  buffer : UblkCtrlDevInfo
  now : Nat
  phase : Phase
  next : Nat
  completed : List Cqe
  log : List Return
  deriving DecidableEq, Repr

def ringSize : Nat := 4

def sendTimeout : Nat := 5000000000

def pollInterval : Nat := 10000000

def asMillis (d : Nat) : Nat := d / 1000000

namespace Control

/-- What `open` leaves: an empty ring. -/
def new (now : Nat) : Control where
  sq := []
  inflight := []
  cq := []
  buffer := {}
  now := now
  phase := .idle
  next := 0
  completed := []
  log := []

/-- The command of `j` returns. `force_delete` ignores what its stop returns. -/
def ret (s : Control) (j : Job) (own : Option Sqe) (popped : Option Cqe) (result : Ret) : Control :=
  { s with
    log := s.log ++ [⟨j, own, popped, result⟩]
    phase := match j with
      | .forceStop d => .push (.forceDelete d)
      | _ => .idle }

def call (s : Control) (c : Call) : Option Control :=
  match s.phase with
  | .idle => some { s with phase := .push c.job, buffer := {} }
  | _ => none

/-- Where a submitted command is waited for. -/
def afterSubmit (j : Job) (q : Sqe) : Phase :=
  match j with
  | .info _ _ => .wait j q
  | _ => .start j q

/-- The thread's next step; `k` is what the kernel answers a submission: how many entries
it takes, or an error. -/
def thread (s : Control) (k : Except Int32 Nat) : Option Control :=
  match s.phase with
  | .idle => none
  | .push j =>
    if s.sq.length < ringSize then
      some { s with
        sq := s.sq ++ [j.sqe s.next]
        next := s.next + 1
        phase := .submit j (j.sqe s.next) }
    else some (s.ret j none none (.error (.ioUringSubmit ENOSPC)))
  | .submit j q =>
    match k with
    | .error os => some (s.ret j (some q) none (.error (.ioUringSubmit os)))
    | .ok n =>
      some { s with
        sq := s.sq.drop n
        inflight := s.inflight ++ s.sq.take n
        phase := afterSubmit j q }
  | .start j q => some { s with phase := .poll j q s.now }
  | .poll j q t =>
    match s.cq with
    | e :: cq => some (ret { s with cq := cq } j (some q) (some e) (j.answer e.result s.buffer))
    | [] => some { s with phase := .expire j q t }
  | .expire j q t =>
    if sendTimeout < s.now - t then
      some (s.ret j (some q) none (.error (.timeout (asMillis sendTimeout))))
    else some { s with phase := .sleep j q t (s.now + pollInterval) }
  | .sleep j q t wake => if wake ≤ s.now then some { s with phase := .poll j q t } else none
  -- `submit_and_wait` may be `Ok` without a completion: a signal ends the wait, and so does a
  -- queue that is taken in part
  | .wait j q => some { s with phase := .reap j q }
  | .reap j q =>
    match s.cq with
    | e :: cq => some (ret { s with cq := cq } j (some q) (some e) (j.answer e.result s.buffer))
    | [] => some (s.ret j (some q) none (.info s.buffer))

/-- The kernel completes the `i`-th command it has taken. A command that asks for device
info writes it, if its call still waits. -/
def complete (s : Control) (i : Nat) (res : Int32) (info : UblkCtrlDevInfo) : Option Control :=
  match s.inflight[i]? with
  | none => none
  | some q =>
    let e : Cqe := ⟨q.userData, res, q, info⟩
    some { s with
      inflight := s.inflight.eraseIdx i
      cq := s.cq ++ [e]
      completed := s.completed ++ [e]
      buffer :=
        if s.phase.running.map Prod.snd = some q ∧ q.opcode = ublkCmdGetDevInfo ∧ 0 ≤ res then info
        else s.buffer }

end Control

inductive Act where
  | call (c : Call)
  | thread (k : Except Int32 Nat)
  | complete (i : Nat) (res : Int32) (info : UblkCtrlDevInfo)
  | tick (d : Nat)

/-- A step of the thread, the kernel or the clock. -/
def Control.act (s : Control) : Act → Option Control
  | .call c => s.call c
  | .thread k => s.thread k
  | .complete i res info => s.complete i res info
  | .tick d => some { s with now := s.now + d }

end Duende.Ublk
