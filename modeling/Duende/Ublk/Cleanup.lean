import Duende.Text
import Duende.Ublk.Attribution

/-!
# Cleaning up orphaned devices

`cleanup_orphaned_devices` as a thread that owns a ring: it scans `/dev`, opens the control
device, and then runs `force_delete` for one device after another. `spares_live_devices` says
that no command it submits is for a device whose block node exists, whatever the scan finds
and whatever the kernel answers.
-/

namespace Duende.Ublk

open Trans Control

/-- `/dev` during the call: what listing it gives, each file name as `to_string_lossy` returns
it, and which paths exist. -/
structure DevDir where
  listing : Except Int32 (List (Except Int32 Text))
  pathExists : Text → Bool

def blockPath (devId : UInt32) : Text := "/dev/ublkb".toList ++ Nat.toDigits 10 devId.toNat

namespace DevDir

def blockExists (dev : DevDir) (devId : UInt32) : Bool := dev.pathExists (blockPath devId)

/-- The device of a file name `ublkcN`, if its block node is missing. -/
def orphan (dev : DevDir) (name : Text) : Option UInt32 :=
  match stripPrefix "ublkc".toList name with
  | none => none
  | some idStr =>
    match (parseUnsigned u32Max idStr).map UInt32.ofNat with
    | none => none
    | some devId => if dev.blockExists devId then none else some devId

def scan (dev : DevDir) (orphans : List UInt32) :
    List (Except Int32 Text) → Except Error (List UInt32)
  | [] => .ok orphans
  | .error os :: _ => .error (.scanDevDir os)
  | .ok name :: entries => dev.scan (orphans ++ (dev.orphan name).toList) entries

def detectOrphanedDevices (dev : DevDir) : Except Error (List UInt32) :=
  if !dev.pathExists "/dev".toList then .ok []
  else
    match dev.listing with
    | .error os => .error (.scanDevDir os)
    | .ok entries => dev.scan [] entries

end DevDir

/-- How opening the control file and creating the ring goes. -/
inductive Opened where
  | ok
  | file (os : Int32)
  | ring (os : Int32)
  deriving DecidableEq, Repr

/-- `UblkControl::open`, up to the ring it returns. -/
def openControl (dev : DevDir) (k : Opened) : Except Error Unit :=
  if !dev.pathExists "/dev/ublk-control".toList then .error .controlDeviceNotFound
  else
    match k with
    | .ok => .ok ()
    | .file os => .error (.openControl os)
    | .ring os => .error (.ioUringCreate os)

/-- Where the call stands. -/
inductive CleanPhase where
  | opening
  /-- Before the next device of the loop. -/
  | next (todo : List UInt32)
  /-- Inside `force_delete`. -/
  | deleting (todo : List UInt32)
  | returned (r : Except Error Nat)

/-- `ranged`: the loop is that of `cleanup_device_range`, which checks the block node of every
device; `ids` are the devices of the loop. -/
structure Cleaner where
  ranged : Bool
  ids : List UInt32
  phase : CleanPhase
  cleaned : Nat
  ctrl : Control

/-- `start..end`. -/
def deviceRange (start stop : UInt32) : List UInt32 :=
  (List.range' start.toNat (stop.toNat - start.toNat)).map UInt32.ofNat

/-- The call up to where it opens the control device: the orphans, or the common range when
the scan finds none or fails. -/
def cleanupOrphanedDevices (dev : DevDir) (now : Nat) : Cleaner :=
  let orphans := dev.detectOrphanedDevices.toOption.getD []
  { ranged := orphans.isEmpty
    ids := if orphans.isEmpty then deviceRange 0 8 else orphans
    phase := .opening
    cleaned := 0
    ctrl := .new now }

/-- A step of the call, with what opening the control device gives, or a step of the ring:
of `force_delete`, the kernel or the clock. -/
inductive CleanAct where
  | step (k : Opened)
  | ring (k : Except Int32 Nat)
  | complete (i : Nat) (res : Int32) (info : UblkCtrlDevInfo)
  | tick (d : Nat)

def Cleaner.step (dev : DevDir) (s : Cleaner) (k : Opened) : Option Cleaner :=
  match s.phase with
  | .opening =>
    match openControl dev k with
    | .ok () => some { s with phase := .next s.ids }
    | .error .controlDeviceNotFound => some { s with phase := .returned (.ok 0) }
    | .error e => some { s with phase := .returned (.error e) }
  | .next [] => some { s with phase := .returned (.ok s.cleaned) }
  | .next (devId :: todo) =>
    if s.ranged && dev.blockExists devId then some { s with phase := .next todo }
    else (s.ctrl.call (.forceDelete devId)).map fun ctrl =>
      { s with phase := .deleting todo, ctrl := ctrl }
  | .deleting todo =>
    match s.ctrl.phase with
    | .idle =>
      -- the result of `force_delete` is that of its last command
      let deleted := decide ((s.ctrl.log.getLast?.map (·.result)) = some (.done true))
      some { s with phase := .next todo, cleaned := if deleted then s.cleaned + 1 else s.cleaned }
    | _ => none
  | .returned _ => none

def Cleaner.act (dev : DevDir) (s : Cleaner) : CleanAct → Option Cleaner
  | .step k => s.step dev k
  | .ring k => (s.ctrl.thread k).map fun ctrl => { s with ctrl := ctrl }
  | .complete i res info => (s.ctrl.complete i res info).map fun ctrl => { s with ctrl := ctrl }
  | .tick d => some { s with ctrl := { s.ctrl with now := s.ctrl.now + d } }

/-! ## Which devices the ring works on -/

variable {P : UInt32 → Prop} {s s' : Control} {dev : DevDir}

def Job.devId : Job → UInt32
  | delete d | stop d | forceStop d | forceDelete d | info d _ => d

def Call.devId : Call → UInt32
  | deleteDevice d | stopDevice d | forceDelete d | getDeviceInfo d _ => d

def Sqe.devId (q : Sqe) : UInt32 := q.cmd.cmd.devId

/-- The command that is about to be pushed, or runs. -/
def Phase.job : Phase → Option Job
  | push j => some j
  | p => p.running.map Prod.fst

theorem devId_sqe {j : Job} {id : Nat} : (j.sqe id).devId = j.devId := by cases j <;> rfl

theorem devId_job {c : Call} : c.job.devId = c.devId := by cases c <;> rfl

theorem job_of_running {p : Phase} {j : Job} {q : Sqe} (h : p.running = some (j, q)) :
    p.job = some j := by
  cases p with
  | idle | push => cases h
  | _ => cases h; rfl

/-- All commands, wherever they are, and the running call are for devices in `P`. -/
structure OnlyFor (P : UInt32 → Prop) (s : Control) : Prop where
  commands : ∀ q ∈ s.commands, P q.devId
  job : ∀ j, s.phase.job = some j → P j.devId

theorem onlyFor_new (now : Nat) : OnlyFor P (.new now) :=
  ⟨fun _ hq => (by cases hq), fun _ hj => (by cases hj)⟩

theorem OnlyFor.of_perm (h : OnlyFor P s) (hp : s'.commands.Perm s.commands)
    (hj : ∀ j, s'.phase.job = some j → ∃ j', s.phase.job = some j' ∧ j'.devId = j.devId) :
    OnlyFor P s' where
  commands := fun q hq => h.commands q (hp.mem_iff.1 hq)
  job := fun j hjob => by
    obtain ⟨j', hj', he⟩ := hj j hjob
    rw [← he]; exact h.job j' hj'

/-- After a command only `force_delete` goes on, with the same device. -/
theorem job_ret {j j' : Job} {own : Option Sqe} {popped : Option Cqe} {r : Ret}
    (h : (s.ret j own popped r).phase.job = some j') : j.devId = j'.devId := by
  cases j with
  | forceStop d => cases h; rfl
  | _ => cases h

theorem OnlyFor.call {c : Call} (h : OnlyFor P s) (hc : P c.devId) (ha : s.call c = some s') :
    OnlyFor P s' := by
  unfold Control.call at ha
  split at ha <;> cases ha
  refine ⟨h.commands, fun j hj => ?_⟩
  cases hj
  rw [devId_job]; exact hc

theorem OnlyFor.move (h : OnlyFor P s) (hm : Move s s') : OnlyFor P s' := by
  cases hm with
  | push j hp room =>
    have hj : P j.devId := h.job j (by rw [hp]; rfl)
    refine ⟨fun q hq => ?_, fun j' hj' => by cases hj'; exact hj⟩
    rcases List.mem_cons.1 (commands_push.mem_iff.1 hq) with rfl | hq
    · rw [devId_sqe]; exact hj
    · exact h.commands q hq
  | refused j own e hp =>
    refine h.of_perm (.refl _) fun j' hj' => ⟨j, ?_, job_ret hj'⟩
    rcases hp with ⟨hp, -⟩ | ⟨q, hr, -⟩
    · rw [hp]; rfl
    · exact job_of_running hr
  | submit j q n hp =>
    refine h.of_perm commands_submit fun j' hj' => ⟨j', ?_, rfl⟩
    rw [job_of_running running_afterSubmit] at hj'
    rw [hp]; exact hj'
  | pop j q e cq hp hcq =>
    exact h.of_perm (.refl _) fun j' hj' => ⟨j, job_of_running hp, job_ret hj'⟩
  | on j q p hp same =>
    refine h.of_perm (.refl _) fun j' hj' => ⟨j', ?_, rfl⟩
    rw [job_of_running hp, ← hj']
    exact (job_of_running same).symm
  | unready j q hp empty =>
    exact h.of_perm (.refl _) fun j' hj' => ⟨j, by rw [hp]; rfl, job_ret hj'⟩

theorem OnlyFor.complete (h : OnlyFor P s) {i : Nat} {res : Int32} {info : UblkCtrlDevInfo}
    (ha : s.complete i res info = some s') : OnlyFor P s' := by
  refine h.of_perm (commands_complete ha) fun j hj => ⟨j, ?_, rfl⟩
  obtain ⟨q, -, rfl⟩ := complete_some ha
  exact hj

/-! ## The devices of the loop -/

theorem orphan_eq_some {name : Text} {d : UInt32} (h : dev.orphan name = some d) :
    dev.blockExists d = false := by
  unfold DevDir.orphan at h
  split at h
  · cases h
  · split at h
    · cases h
    · split at h <;> cases h
      rename_i hb
      simpa using hb

theorem scan_ok {entries : List (Except Int32 Text)} {orphans ids : List UInt32}
    (ho : ∀ d ∈ orphans, dev.blockExists d = false) (h : dev.scan orphans entries = .ok ids) :
    ∀ d ∈ ids, dev.blockExists d = false := by
  induction entries generalizing orphans with
  | nil => cases h; exact ho
  | cons e entries ih =>
    cases e with
    | error os => cases h
    | ok name =>
      refine ih (fun d hd => ?_) h
      rcases List.mem_append.1 hd with hd | hd
      · exact ho d hd
      · exact orphan_eq_some (Option.mem_toList.1 hd)

/-- **The orphans found have no block node.** -/
theorem detected_orphans {ids : List UInt32} (h : dev.detectOrphanedDevices = .ok ids) :
    ∀ d ∈ ids, dev.blockExists d = false := by
  unfold DevDir.detectOrphanedDevices at h
  split at h
  · cases h; exact fun _ hd => (by cases hd)
  · split at h
    · cases h
    · exact scan_ok (fun _ hd => by cases hd) h

/-- The devices still ahead in the loop. -/
def Cleaner.todo (c : Cleaner) : List UInt32 :=
  match c.phase with
  | .opening => c.ids
  | .next todo | .deleting todo => todo
  | .returned _ => []

/-- A device of the orphan path has no block node, and the ring works on no other. -/
structure Spared (dev : DevDir) (c : Cleaner) : Prop where
  orphans : c.ranged = false → ∀ d ∈ c.todo, dev.blockExists d = false
  ring : OnlyFor (fun d => dev.blockExists d = false) c.ctrl

theorem spared_start (dev : DevDir) (now : Nat) : Spared dev (cleanupOrphanedDevices dev now) := by
  refine ⟨fun hr => ?_, onlyFor_new now⟩
  unfold cleanupOrphanedDevices Cleaner.todo at *
  simp only at hr ⊢
  rw [if_neg (by rw [hr]; exact Bool.false_ne_true)]
  cases hd : dev.detectOrphanedDevices with
  | error e => exact fun d h => by cases h
  | ok ids => exact detected_orphans hd

variable {c c' : Cleaner}

theorem Spared.step {k : Opened} (h : Spared dev c) (ha : c.step dev k = some c') :
    Spared dev c' := by
  have hout := h.orphans
  unfold Cleaner.todo at hout
  unfold Cleaner.step at ha
  split at ha
  · rename_i hp
    rw [hp] at hout
    split at ha <;> cases ha
    · exact ⟨hout, h.ring⟩
    · exact ⟨fun _ _ hd => (by cases hd), h.ring⟩
    · exact ⟨fun _ _ hd => (by cases hd), h.ring⟩
  · cases ha
    exact ⟨fun _ _ hd => (by cases hd), h.ring⟩
  · rename_i devId todo hp
    rw [hp] at hout
    have htodo : c.ranged = false → ∀ d ∈ todo, dev.blockExists d = false :=
      fun hr d hd => hout hr d (List.mem_cons_of_mem _ hd)
    split at ha
    · cases ha; exact ⟨htodo, h.ring⟩
    · rename_i hb
      obtain ⟨ctrl, hcall, rfl⟩ := Option.map_eq_some_iff.1 ha
      -- either path has checked the block node
      have hdev : dev.blockExists devId = false := by
        cases hr : c.ranged with
        | false => exact hout hr devId List.mem_cons_self
        | true => simpa [hr] using hb
      exact ⟨htodo, h.ring.call (c := .forceDelete devId) hdev hcall⟩
  · rename_i todo hp
    rw [hp] at hout
    split at ha <;> cases ha
    exact ⟨hout, h.ring⟩
  · cases ha

theorem Spared.act {a : CleanAct} (h : Spared dev c) (ha : c.act dev a = some c') :
    Spared dev c' := by
  cases a with
  | step k => exact h.step ha
  | ring k =>
    obtain ⟨ctrl, ht, rfl⟩ := Option.map_eq_some_iff.1 ha
    exact ⟨h.orphans, h.ring.move (move_of_thread ht)⟩
  | complete i res info =>
    obtain ⟨ctrl, ht, rfl⟩ := Option.map_eq_some_iff.1 ha
    exact ⟨h.orphans, h.ring.complete ht⟩
  | tick d =>
    cases ha
    exact ⟨h.orphans, h.ring.of_perm (.refl _) fun j hj => ⟨j, hj, rfl⟩⟩

/-- **Cleanup spares live devices**: at any point of the call, whatever `/dev` holds and the
kernel answers, no command pushed so far is for a device whose block node exists. -/
theorem spares_live_devices (dev : DevDir) (now : Nat) (as : List CleanAct) (c : Cleaner)
    (hr : run (Cleaner.act dev) (cleanupOrphanedDevices dev now) as = some c) :
    ∀ q ∈ c.ctrl.commands, q.opcode = ublkCmdStopDev ∨ q.opcode = ublkCmdDelDev →
      dev.blockExists q.devId = false :=
  fun q hq _ =>
    (run_inv (P := Spared dev) (fun _ _ _ => Spared.act) (spared_start dev now) hr).ring.commands q hq

/-- Device 5 is live, device 3 is orphaned. -/
def devFiveLive : DevDir where
  listing := .ok [.ok "ublk-control".toList, .ok "ublkc5".toList, .ok "ublkc3".toList]
  pathExists p :=
    p = "/dev".toList || p = "/dev/ublk-control".toList || p = "/dev/ublkb5".toList

/-- The stop of device 3 is submitted. -/
def stopThree : List CleanAct := [.step .ok, .step .ok, .ring (.ok 0), .ring (.ok 1)]

theorem run_stopThree : (run (Cleaner.act devFiveLive) (cleanupOrphanedDevices devFiveLive 0)
    stopThree).isSome := by decide +kernel

theorem spares_device_five : ∃ c,
    run (Cleaner.act devFiveLive) (cleanupOrphanedDevices devFiveLive 0) stopThree = some c ∧
    c.ctrl.inflight.map Sqe.devId = [3] ∧
    ∀ q ∈ c.ctrl.commands, q.opcode = ublkCmdStopDev ∨ q.opcode = ublkCmdDelDev →
      devFiveLive.blockExists q.devId = false :=
  ⟨_, (Option.some_get run_stopThree).symm, by decide +kernel,
    spares_live_devices devFiveLive 0 _ _ (Option.some_get run_stopThree).symm⟩

end Duende.Ublk
