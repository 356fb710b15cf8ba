import Duende.Status.LockedMemory
import Duende.Trans.Dialogue
import Duende.Trans.Run
import Mathlib.Data.Finset.Insert

/-!
# Memory that stays resident

The locking calls of `duende_mlock` and `duende_platform` ask the kernel for `mlockall` and
`munlockall`; the pages of the process are locked as it documents, at once or when they are faulted
in. `pages_resident` says which results keep every page out of swap, from the call on and whatever
is mapped later.
-/

namespace Duende.Residency

open Trans

/-! ## The calls -/

inductive Os where
  | linux
  | macos
  /-- Neither of them, and no unix. -/
  | other
  deriving DecidableEq, Repr

/-- What is asked of the kernel, and reading `/proc/self/status`. -/
inductive MemCall where
  | mlockall (flags : Int32)
  | munlockall
  | readStatus
  deriving DecidableEq, Repr

/-- An error is its errno; `-1` if there is none. -/
def MemCall.Answer : MemCall → Type
  | mlockall _ | munlockall => Except Int32 Unit
  | readStatus => Option Text

def mclCurrent : Int32 := 1
def mclFuture : Int32 := 2
def mclOnfault : Int32 := 4

structure MlockConfig where
  current : Bool := true
  future : Bool := true
  required : Bool := true
  onfault : Bool := false
  deriving DecidableEq, Repr

def MlockConfig.asFlags (os : Os) (config : MlockConfig) : Int32 :=
  let flags := 0
  let flags := if config.current then flags ||| mclCurrent else flags
  let flags := if config.future then flags ||| mclFuture else flags
  if os = .linux ∧ config.onfault then flags ||| mclOnfault else flags

inductive MlockStatus where
  | locked (bytesLocked : UInt64)
  | failed (errno : Int32)
  | unsupported
  deriving DecidableEq, Repr

inductive MlockError where
  | permissionDenied
  | resourceLimit
  | invalidArgument
  | wouldBlock
  | unknown (errno : Int32)
  deriving DecidableEq, Repr

/-- `EAGAIN` has a number of its own on macOS. -/
def eagain : Os → Int32
  | .macos => 35
  | _ => 11

namespace MlockError

def fromErrno (os : Os) (errno : Int32) : MlockError :=
  if errno = 1 then permissionDenied
  else if errno = 12 then resourceLimit
  else if errno = 22 then invalidArgument
  else if errno = eagain os then wouldBlock
  else unknown errno

end MlockError

abbrev Kernel := Ask MemCall MemCall.Answer

def mlockall {α : Type} (flags : Int32) (k : Except Int32 Unit → Kernel α) : Kernel α :=
  .ask (.mlockall flags) k

def munlockall {α : Type} (k : Except Int32 Unit → Kernel α) : Kernel α := .ask .munlockall k

/-- `locked_bytes`: other systems than Linux have no file to read. -/
def lockedBytes {α : Type} (os : Os) (k : UInt64 → Kernel α) : Kernel α :=
  if os = .linux then .ask .readStatus fun status : Option Text => k (Mlock.lockedBytes status)
  else k 0

def lockWithConfig (os : Os) (config : MlockConfig) : Kernel (Except MlockError MlockStatus) :=
  if os = .other then
    .done (if config.required then .error .invalidArgument else .ok .unsupported)
  else
    let flags := config.asFlags os
    if flags = 0 then .done (.ok (.locked 0))
    else mlockall flags fun
      | .ok _ => lockedBytes os fun bytes => .done (.ok (.locked bytes))
      | .error errno =>
        .done (if config.required then .error (.fromErrno os errno) else .ok (.failed errno))

def unlockAll (os : Os) : Kernel (Except MlockError Unit) :=
  if os = .other then .done (.ok ())
  else munlockall fun
    | .ok _ => .done (.ok ())
    | .error errno => .done (.error (.fromErrno os errno))

inductive MlockResult where
  | success
  | disabled
  | failed (errno : Int32)
  deriving DecidableEq, Repr

def errMsg (os : Os) (errno : Int32) : String :=
  if os = .linux then
    if errno = 12 then "insufficient memory or resource limits (check RLIMIT_MEMLOCK)"
    else if errno = 1 then "insufficient privileges (need CAP_IPC_LOCK or root)"
    else if errno = 22 then "invalid flags"
    else "unknown error"
  else if errno = 12 then "insufficient memory or resource limits"
  else if errno = 1 then
    "insufficient privileges (may need com.apple.security.cs.allow-jit entitlement)"
  else if errno = 22 then "invalid flags"
  else if errno = eagain os then "system resources temporarily unavailable"
  else "unknown error"

/-- The text of the `PlatformError::Resource`. -/
def lockFailed (os : Os) (errno : Int32) : String :=
  let shown := String.ofList (decimalInt errno.toInt)
  if os = .linux then
    s!"mlockall() failed: {errMsg os errno} (errno={shown}). " ++
      "Cannot safely run as swap device without mlock(). " ++
      "Either run as root, add CAP_IPC_LOCK, or set lock_memory_required=false"
  else s!"mlockall() failed on macOS: {errMsg os errno} (errno={shown})"

/-- Lock all current and future memory allocations to prevent swapping. -/
def lockDaemonMemory (os : Os) (required : Bool) : Kernel (Except String MlockResult) :=
  if os = .other then .done (.ok .disabled)
  else mlockall (mclCurrent ||| mclFuture) fun
    | .ok _ => .done (.ok .success)
    | .error errno =>
      .done (if required then .error (lockFailed os errno) else .ok (.failed errno))

def unlockDaemonMemory (os : Os) : Kernel (Except String Unit) :=
  if os = .other then .done (.ok ())
  else munlockall fun
    | .ok _ => .done (.ok ())
    | .error _ => .done (.error "munlockall() failed")

/-- Apply memory-related resource configuration. -/
def applyMemoryConfig (os : Os) (lockMemory lockMemoryRequired : Bool) :
    Kernel (Except String Unit) :=
  if lockMemory then (lockDaemonMemory os lockMemoryRequired).map fun r => r.map fun _ => ()
  else .done (.ok ())

/-! ## The pages of the process -/

abbrev Page := Nat

/-- How pages are locked: not at all, when they are faulted in, or at once. -/
inductive Locking where
  | off
  | onFault
  | now
  deriving DecidableEq

/-- The pages that are mapped, those of them that are in memory, that are locked there, and that
are locked when they come in, and how the pages to come will be locked. -/
structure Memory where
  mapped : Finset Page
  present : Finset Page
  locked : Finset Page
  marked : Finset Page
  future : Locking
  deriving DecidableEq

namespace Memory

/-- The pages of now are locked; at once, they are all brought in. -/
def lockAll (m : Memory) : Locking → Memory
  | .off => m
  | .onFault => { m with locked := m.present, marked := m.mapped }
  | .now => { m with present := m.mapped, locked := m.mapped, marked := m.mapped }

/-- How the flags say that pages are locked. -/
def locking (flags : Int32) : Locking := if flags &&& mclOnfault ≠ 0 then .onFault else .now

/-- How the kernel answers: an error changes no lock. -/
def answered (m : Memory) : (Σ q : MemCall, q.Answer) → Memory
  | ⟨.mlockall flags, answer⟩ =>
    match answer with
    | .ok _ => { m.lockAll (if flags &&& mclCurrent ≠ 0 then locking flags else .off) with
        future := if flags &&& mclFuture ≠ 0 then locking flags else .off }
    | .error _ => m
  | ⟨.munlockall, answer⟩ =>
    match answer with
    | .ok _ => { m with locked := ∅, marked := ∅, future := .off }
    | .error _ => m
  | ⟨.readStatus, _⟩ => m

/-- After a dialogue with the kernel. -/
def after (m : Memory) (d : Dialogue MemCall.Answer) : Memory := d.foldl answered m

def map (m : Memory) (p : Page) : Memory :=
  { m with
    mapped := insert p m.mapped
    present := if m.future = .now then insert p m.present else m.present
    locked := if m.future = .now then insert p m.locked else m.locked
    marked := if m.future = .off then m.marked else insert p m.marked }

def unmap (m : Memory) (p : Page) : Memory :=
  { m with
    mapped := m.mapped.erase p
    present := m.present.erase p
    locked := m.locked.erase p
    marked := m.marked.erase p }

def fault (m : Memory) (p : Page) : Memory :=
  { m with
    present := insert p m.present
    locked := if p ∈ m.marked then insert p m.locked else m.locked }

end Memory

inductive Op where
  | lockWithConfig (config : MlockConfig)
  | unlockAll
  | lockDaemonMemory (required : Bool)
  | unlockDaemonMemory
  | applyMemoryConfig (lockMemory lockMemoryRequired : Bool)
  deriving DecidableEq, Repr

inductive Result where
  | mlock (r : Except MlockError MlockStatus)
  | munlock (r : Except MlockError Unit)
  | daemon (r : Except String MlockResult)
  | done (r : Except String Unit)

def Op.perform (os : Os) : Op → Kernel Result
  | lockWithConfig config => (Residency.lockWithConfig os config).map .mlock
  | unlockAll => (Residency.unlockAll os).map .munlock
  | lockDaemonMemory required => (Residency.lockDaemonMemory os required).map .daemon
  | unlockDaemonMemory => (Residency.unlockDaemonMemory os).map .done
  | applyMemoryConfig lockMemory required =>
    (Residency.applyMemoryConfig os lockMemory required).map .done

/-- A page is mapped, unmapped, faulted in or swapped out, or a call is made with its dialogue with
the kernel. -/
inductive Event where
  | map (p : Page)
  | unmap (p : Page)
  | fault (p : Page)
  | evict (p : Page)
  | call (op : Op) (d : Dialogue MemCall.Answer)

/-- Only a page that is not locked is swapped out. -/
def step (os : Os) (m : Memory) : Event → Option Memory
  | .map p => if p ∈ m.mapped then none else some (m.map p)
  | .unmap p => some (m.unmap p)
  | .fault p => if p ∈ m.mapped then some (m.fault p) else none
  | .evict p =>
    if p ∈ m.present ∧ p ∉ m.locked then some { m with present := m.present.erase p } else none
  | .call op d => ((op.perform os).feed d).map fun _ => m.after d

/-! ## What a result says -/

def Result.IsErr : Result → Prop
  | mlock r => r.isOk = false
  | munlock r => r.isOk = false
  | daemon r => r.isOk = false
  | done r => r.isOk = false

/-- All pages are locked, and those to come. -/
def Op.Secures : Op → Result → Prop
  | lockWithConfig config, .mlock (.ok (.locked _)) => config.current = true ∧ config.future = true
  | lockDaemonMemory _, .daemon (.ok .success) => True
  | applyMemoryConfig lockMemory required, .done (.ok _) => lockMemory = true ∧ required = true
  | _, _ => False

/-- No lock is given up. -/
def Op.Keeps : Op → Result → Prop
  | lockWithConfig config, .mlock (.ok (.locked _)) => config.future = true
  | unlockAll, .munlock (.ok _) | unlockDaemonMemory, .done (.ok _) => False
  | _, _ => True

/-- A call that fails has been told to. -/
def Op.MayFail : Op → Prop
  | lockWithConfig config => config.required = true
  | lockDaemonMemory required => required = true
  | applyMemoryConfig lockMemory required => lockMemory = true ∧ required = true
  | unlockAll | unlockDaemonMemory => True

def Event.Keeps (os : Os) : Event → Prop
  | call op d => ∀ r, (op.perform os).feed d = some r → op.Keeps r
  | _ => True

/-- Pages are not to be locked on faults only. -/
def Op.Prompt (os : Os) : Op → Prop
  | lockWithConfig config => ¬ (os = .linux ∧ config.onfault = true)
  | _ => True

def Event.Prompt (os : Os) : Event → Prop
  | call op _ => op.Prompt os
  | _ => True

/-- Every page in memory is locked, and every other one will be when it comes in; where pages are
locked at once (`all`), there is none. -/
structure Resident (all : Prop) (m : Memory) : Prop where
  locked : m.present ⊆ m.locked
  marked : m.mapped ⊆ m.marked
  future : m.future ≠ .off
  prompt : all → m.mapped ⊆ m.present ∧ m.future = .now

variable {os : Os} {all : Prop} {m m' m0 m1 : Memory} {d : Dialogue MemCall.Answer} {op : Op}
  {r : Result} {e : Event} {es : List Event} {config : MlockConfig}

theorem asFlags_bits (os : Os) (config : MlockConfig) :
    (config.asFlags os &&& mclCurrent ≠ 0 ↔ config.current = true) ∧
      (config.asFlags os &&& mclFuture ≠ 0 ↔ config.future = true) ∧
      (config.asFlags os &&& mclOnfault ≠ 0 ↔ os = .linux ∧ config.onfault = true) := by
  obtain ⟨current, future, required, onfault⟩ := config
  cases os <;> cases current <;> cases future <;> cases required <;> cases onfault <;> decide

theorem locking_ne_off (flags : Int32) : Memory.locking flags ≠ .off := by
  unfold Memory.locking
  split <;> decide

theorem locking_prompt {flags : Int32} (h : ¬ flags &&& mclOnfault ≠ 0) :
    Memory.locking flags = .now := if_neg h

theorem resident_lockAll {how : Locking} (hhow : how ≠ .off) (hall : all → how = .now) :
    Resident all { m.lockAll how with future := how } := by
  cases how with
  | off => exact absurd rfl hhow
  | onFault =>
    exact ⟨Finset.Subset.refl _, Finset.Subset.refl _, hhow, fun h => absurd (hall h) (by decide)⟩
  | now => exact ⟨Finset.Subset.refl _, Finset.Subset.refl _, hhow,
      fun _ => ⟨Finset.Subset.refl _, rfl⟩⟩

theorem resident_mlockall {flags : Int32} (hc : flags &&& mclCurrent ≠ 0)
    (hf : flags &&& mclFuture ≠ 0) (hall : all → ¬ flags &&& mclOnfault ≠ 0) :
    Resident all (m.answered ⟨.mlockall flags, (.ok () : Except Int32 Unit)⟩) := by
  have h := resident_lockAll (m := m) (locking_ne_off flags) fun h => locking_prompt (hall h)
  unfold Memory.answered
  simp only [if_pos hc, if_pos hf]
  exact h

theorem Resident.mlockall {flags : Int32} (hm : Resident all m) (hf : flags &&& mclFuture ≠ 0)
    (hall : all → ¬ flags &&& mclOnfault ≠ 0) :
    Resident all (m.answered ⟨.mlockall flags, (.ok () : Except Int32 Unit)⟩) := by
  by_cases hc : flags &&& mclCurrent ≠ 0
  · exact resident_mlockall hc hf hall
  · unfold Memory.answered
    simp only [if_neg hc, if_pos hf]
    exact ⟨hm.locked, hm.marked, locking_ne_off flags,
      fun h => ⟨(hm.prompt h).1, locking_prompt (hall h)⟩⟩

/-- What a call leaves of the memory, by its result. -/
structure Honest (os : Os) (op : Op) (d : Dialogue MemCall.Answer) (r : Result) : Prop where
  secures : ∀ (all : Prop) (m : Memory), os ≠ .other → op.Secures r → (all → op.Prompt os) →
    Resident all (m.after d)
  keeps : ∀ (all : Prop) (m : Memory), op.Keeps r → (all → op.Prompt os) → Resident all m →
    Resident all (m.after d)
  fails : r.IsErr → op.MayFail ∧ ∀ m : Memory, m.after d = m

theorem Honest.mlock_locked {bytes : UInt64} (os : Os) (config : MlockConfig)
    (hd : ∀ m : Memory, m.after d =
      m.answered ⟨.mlockall (config.asFlags os), (.ok () : Except Int32 Unit)⟩) :
    Honest os (.lockWithConfig config) d (.mlock (.ok (.locked bytes))) := by
  obtain ⟨hcurrent, hfuture, honfault⟩ := asFlags_bits os config
  refine ⟨fun all m _ h hall => ?_, fun all m h hall hm => ?_, fun h => by cases h⟩
  · rw [hd]
    exact resident_mlockall (hcurrent.2 h.1) (hfuture.2 h.2)
      fun ha hbit => hall ha (honfault.1 hbit)
  · rw [hd]
    exact hm.mlockall (hfuture.2 h) fun ha hbit => hall ha (honfault.1 hbit)

theorem Honest.idle (hd : ∀ m : Memory, m.after d = m) (hsec : op.Secures r → os = .other)
    (hfail : r.IsErr → op.MayFail) : Honest os op d r where
  secures _ _ hos h := absurd (hsec h) hos
  keeps _ m _ _ hm := (hd m).symm ▸ hm
  fails h := ⟨hfail h, hd⟩

theorem Honest.unlocked (hsec : ¬ op.Secures r) (hkeep : ¬ op.Keeps r) (hok : ¬ r.IsErr) :
    Honest os op d r where
  secures _ _ _ h := absurd h hsec
  keeps _ _ h := absurd h hkeep
  fails h := absurd h hok

theorem lockWithConfig_honest (os : Os) (config : MlockConfig) :
    (Op.perform os (.lockWithConfig config)).Ensures (Honest os (.lockWithConfig config)) [] := by
  refine Ask.ensures_map.2 ?_
  unfold lockWithConfig
  refine Ask.ensures_ite.2 ⟨fun hos => ?_, fun hos => ?_⟩
  · cases hreq : config.required with
    | true => exact .idle (fun _ => rfl) (fun _ => hos) fun _ => hreq
    | false => exact .idle (fun _ => rfl) (fun _ => hos) nofun
  refine Ask.ensures_ite.2 ⟨fun hzero => ?_, fun _ answer => ?_⟩
  · refine .idle (fun _ => rfl) (fun h => ?_) nofun
    have hbit := (asFlags_bits os config).2.1.2 h.2
    rw [hzero] at hbit
    exact absurd rfl hbit
  · cases answer with
    | error errno =>
      cases hreq : config.required with
      | true => exact .idle (fun _ => rfl) False.elim fun _ => hreq
      | false => exact .idle (fun _ => rfl) False.elim nofun
    | ok u =>
      cases u
      exact Ask.ensures_ite.2 ⟨fun _ status => .mlock_locked os config fun m => rfl,
        fun _ => .mlock_locked os config fun m => rfl⟩

theorem unlockAll_honest (os : Os) :
    (Op.perform os .unlockAll).Ensures (Honest os .unlockAll) [] := by
  refine Ask.ensures_map.2 (Ask.ensures_ite.2 ⟨fun _ => ?_, fun _ answer => ?_⟩)
  · exact .unlocked id id nofun
  · cases answer with
    | ok u => exact .unlocked id id nofun
    | error e => exact .idle (fun _ => rfl) False.elim fun _ => trivial

theorem unlockDaemonMemory_honest (os : Os) :
    (Op.perform os .unlockDaemonMemory).Ensures (Honest os .unlockDaemonMemory) [] := by
  refine Ask.ensures_map.2 (Ask.ensures_ite.2 ⟨fun _ => ?_, fun _ answer => ?_⟩)
  · exact .unlocked id id nofun
  · cases answer with
    | ok u => exact .unlocked id id nofun
    | error e => exact .idle (fun _ => rfl) False.elim fun _ => trivial

theorem Honest.both (hd : ∀ m : Memory, m.after d =
      m.answered ⟨.mlockall (mclCurrent ||| mclFuture), (.ok () : Except Int32 Unit)⟩)
    (hok : ¬ r.IsErr) : Honest os op d r := by
  have hboth : ∀ (all : Prop) (m : Memory), Resident all (m.after d) := fun all m => by
    rw [hd]
    exact resident_mlockall (by decide) (by decide) fun _ => by decide
  exact ⟨fun all m _ _ _ => hboth all m, fun all m _ _ _ => hboth all m, fun h => absurd h hok⟩

theorem lockDaemonMemory_honest (os : Os) (required : Bool) :
    (Op.perform os (.lockDaemonMemory required)).Ensures
      (Honest os (.lockDaemonMemory required)) [] := by
  refine Ask.ensures_map.2 (Ask.ensures_ite.2 ⟨fun hos => ?_, fun _ answer => ?_⟩)
  · exact .idle (fun _ => rfl) (fun _ => hos) nofun
  · cases answer with
    | ok u => exact .both (fun _ => rfl) nofun
    | error errno =>
      cases required with
      | true => exact .idle (fun _ => rfl) False.elim fun _ => rfl
      | false => exact .idle (fun _ => rfl) False.elim nofun

theorem applyMemoryConfig_honest (os : Os) (lockMemory required : Bool) :
    (Op.perform os (.applyMemoryConfig lockMemory required)).Ensures
      (Honest os (.applyMemoryConfig lockMemory required)) [] := by
  refine Ask.ensures_map.2 (Ask.ensures_ite.2 ⟨fun hlock => ?_, fun hlock => ?_⟩)
  · refine Ask.ensures_map.2 (Ask.ensures_ite.2 ⟨fun hos => ?_, fun _ answer => ?_⟩)
    · exact .idle (fun _ => rfl) (fun _ => hos) nofun
    · cases answer with
      | ok u => exact .both (fun _ => rfl) nofun
      | error errno =>
        cases required with
        | true => exact .idle (fun _ => rfl) False.elim fun _ => ⟨hlock, rfl⟩
        | false => exact .idle (fun _ => rfl) (fun h => absurd h.2 (by decide)) nofun
  · exact .idle (fun _ => rfl) (fun h => absurd h.1 hlock) nofun

/-- **Results are honest.** -/
theorem perform_honest (os : Os) (op : Op) : (op.perform os).Ensures (Honest os op) [] := by
  cases op with
  | lockWithConfig config => exact lockWithConfig_honest os config
  | unlockAll => exact unlockAll_honest os
  | lockDaemonMemory required => exact lockDaemonMemory_honest os required
  | unlockDaemonMemory => exact unlockDaemonMemory_honest os
  | applyMemoryConfig lockMemory required => exact applyMemoryConfig_honest os lockMemory required

theorem feed_honest (h : (op.perform os).feed d = some r) : Honest os op d r := by
  have hd := (perform_honest os op).feed h
  rwa [List.nil_append] at hd

/-! ## Runs -/

theorem Resident.map (hm : Resident all m) (p : Page) : Resident all (m.map p) := by
  have hlocked := hm.locked
  have hmarked := Finset.insert_subset_insert p hm.marked
  refine ⟨?_, ?_, hm.future, fun h => ⟨?_, (hm.prompt h).2⟩⟩
  · unfold Memory.map
    dsimp only
    split
    · exact Finset.insert_subset_insert p hlocked
    · exact hlocked
  · unfold Memory.map
    dsimp only
    rwa [if_neg hm.future]
  · unfold Memory.map
    dsimp only
    rw [if_pos (hm.prompt h).2]
    exact Finset.insert_subset_insert p (hm.prompt h).1

theorem Resident.unmap (hm : Resident all m) (p : Page) : Resident all (m.unmap p) where
  locked := Finset.erase_subset_erase p hm.locked
  marked := Finset.erase_subset_erase p hm.marked
  future := hm.future
  prompt h := ⟨Finset.erase_subset_erase p (hm.prompt h).1, (hm.prompt h).2⟩

theorem Resident.fault {p : Page} (hm : Resident all m) (hp : p ∈ m.mapped) :
    Resident all (m.fault p) where
  locked := by
    unfold Memory.fault
    dsimp only
    rw [if_pos (hm.marked hp)]
    exact Finset.insert_subset_insert p hm.locked
  marked := hm.marked
  future := hm.future
  prompt h := ⟨(hm.prompt h).1.trans (Finset.subset_insert p m.present), (hm.prompt h).2⟩

/-- **The step lemma**: pages stay resident, and none is swapped out. -/
theorem Resident.step (hm : Resident all m) (hk : e.Keeps os) (hall : all → e.Prompt os)
    (hs : step os m e = some m') : Resident all m' ∧ ∀ p, e ≠ .evict p := by
  cases e with
  | map p =>
    obtain ⟨-, h⟩ := Option.ite_none_left_eq_some.1 hs
    cases h
    exact ⟨hm.map p, nofun⟩
  | unmap p =>
    cases hs
    exact ⟨hm.unmap p, nofun⟩
  | fault p =>
    obtain ⟨hp, h⟩ := Option.ite_none_right_eq_some.1 hs
    cases h
    exact ⟨hm.fault hp, nofun⟩
  | evict p =>
    obtain ⟨hp, -⟩ := Option.ite_none_right_eq_some.1 hs
    exact absurd (hm.locked hp.1) hp.2
  | call op d =>
    obtain ⟨r, hr, rfl⟩ := Option.map_eq_some_iff.1 hs
    exact ⟨(feed_honest hr).keeps all m (hk r hr) hall hm, nofun⟩

/-- **The run lemma.** -/
theorem Resident.run (hm : Resident all m) (hkeep : ∀ e ∈ es, e.Keeps os)
    (hall : all → ∀ e ∈ es, e.Prompt os) (hr : Trans.run (Residency.step os) m es = some m') :
    Resident all m' ∧ ∀ p, Event.evict p ∉ es := by
  induction es generalizing m with
  | nil =>
    cases hr
    exact ⟨hm, fun p => List.not_mem_nil⟩
  | cons e es ih =>
    obtain ⟨m1, hs, hr⟩ := Option.bind_eq_some_iff.1 hr
    obtain ⟨hk, hkeep⟩ := List.forall_mem_cons.1 hkeep
    obtain ⟨hm1, he⟩ := hm.step hk (fun h => (List.forall_mem_cons.1 (hall h)).1) hs
    obtain ⟨hm', hes⟩ := ih hm1 hkeep (fun h => (List.forall_mem_cons.1 (hall h)).2) hr
    refine ⟨hm', fun p hp => ?_⟩
    rcases List.mem_cons.1 hp with rfl | hp
    · exact he p rfl
    · exact hes p hp

/-- **Pages stay resident.** After a call whose result says that all pages are locked and those to
come, every page in memory is locked and none is swapped out, whatever is mapped, unmapped, faulted
in and called for afterwards, until a call succeeds that gives up locks: an unlocking one, or one
that locks without the pages to come. Every page at all is in memory and locked if none of the calls
asks for locking on faults only. A call that fails changes no lock, and it was told that it may
fail. -/
theorem pages_resident (hos : os ≠ .other) (hcall : step os m0 (.call op d) = some m1)
    (hsec : ∀ r, (op.perform os).feed d = some r → op.Secures r)
    (hkeep : ∀ e ∈ es, e.Keeps os) (hr : run (step os) m1 es = some m) :
    m.present ⊆ m.locked ∧ (∀ p, Event.evict p ∉ es) ∧
      (op.Prompt os → (∀ e ∈ es, e.Prompt os) →
        m.mapped ⊆ m.present ∧ m.mapped ⊆ m.locked) ∧
      ∀ op d r m', (Op.perform os op).feed d = some r → r.IsErr →
        step os m (.call op d) = some m' → m' = m ∧ op.MayFail := by
  obtain ⟨r, hfeed, rfl⟩ := Option.map_eq_some_iff.1 hcall
  have hstart := fun all => (feed_honest hfeed).secures all m0 hos (hsec r hfeed)
  obtain ⟨hm, hnone⟩ := (hstart False False.elim).run hkeep False.elim hr
  refine ⟨hm.locked, hnone, fun hop hes => ?_, fun op d r m' hd herr hs => ?_⟩
  · have hall := ((hstart True fun _ => hop).run hkeep (fun _ => hes) hr).1.prompt trivial
    exact ⟨hall.1, hall.1.trans hm.locked⟩
  · obtain ⟨r', hd', rfl⟩ := Option.map_eq_some_iff.1 hs
    obtain ⟨hmay, hsame⟩ := (feed_honest hd).fails herr
    exact ⟨hsame m, hmay⟩

/-- Another page is mapped and one unmapped, a page is faulted in, and `munlockall` fails. -/
def laterEvents : List Event :=
  [.map 3, .unmap 1, .fault 3, .call .unlockAll [⟨.munlockall, (.error 1 : Except Int32 Unit)⟩]]

/-- Two pages are locked when they are faulted in, of which one is in memory. -/
theorem pages_resident_mapped : ∃ m,
    run (step .linux) ⟨{1, 2}, {2}, {2}, {1, 2}, .onFault⟩ laterEvents = some m ∧
      m.mapped = {2, 3} ∧ m.present ⊆ m.locked := by
  have hcall : step .linux ⟨{1, 2}, {2}, ∅, ∅, .off⟩ (.call (.lockWithConfig { onfault := true })
      [⟨.mlockall 7, (.ok () : Except Int32 Unit)⟩, ⟨.readStatus, (none : Option Text)⟩]) =
      some ⟨{1, 2}, {2}, {2}, {1, 2}, .onFault⟩ := by decide
  obtain ⟨m, hr, hm⟩ : ∃ m,
      run (step .linux) ⟨{1, 2}, {2}, {2}, {1, 2}, .onFault⟩ laterEvents = some m ∧
        m.mapped = {2, 3} := ⟨_, rfl, by decide⟩
  have hsec : ∀ r, (Op.perform .linux (.lockWithConfig { onfault := true })).feed
      [⟨.mlockall 7, (.ok () : Except Int32 Unit)⟩, ⟨.readStatus, (none : Option Text)⟩] = some r →
        (Op.lockWithConfig { onfault := true }).Secures r := by
    intro r h
    cases h
    exact ⟨rfl, rfl⟩
  have hkeep : ∀ e ∈ laterEvents, e.Keeps .linux := by
    intro e he
    simp only [laterEvents, List.mem_cons, List.not_mem_nil, or_false] at he
    rcases he with rfl | rfl | rfl | rfl
    · trivial
    · trivial
    · trivial
    · intro r h
      cases h
      trivial
  exact ⟨m, hr, hm, (pages_resident (by decide) hcall hsec hkeep hr).1⟩

/-! ## The two crates -/

/-- The results of the two crates that say the same. -/
def Agree : Except MlockError MlockStatus → Except String MlockResult → Prop
  | .ok (.locked _), .ok .success | .error _, .error _ => True
  | .ok (.failed e), .ok (.failed e') => e = e'
  | _, _ => False

/-- Both crates ask the kernel for the same, and tell the same of its answer. -/
theorem crates_agree {required : Bool} {x : Except MlockError MlockStatus} (hos : os ≠ .other)
    (h : (lockWithConfig os { required }).feed d = some x) :
    ∃ y, (lockDaemonMemory os required).feed (d.take 1) = some y ∧ Agree x y := by
  have hflags : MlockConfig.asFlags os { required } = mclCurrent ||| mclFuture := by
    cases os <;> rfl
  have hzero : mclCurrent ||| mclFuture ≠ (0 : Int32) := by decide
  simp only [lockWithConfig, if_neg hos, hflags, if_neg hzero] at h
  obtain ⟨answer, d', rfl, h⟩ := Ask.feed_ask_some.1 h
  rw [lockDaemonMemory, if_neg hos, List.take_succ_cons, List.take_zero]
  cases answer with
  | ok u =>
    refine ⟨.ok .success, Ask.feed_ask_some.2 ⟨_, [], rfl, rfl⟩, ?_⟩
    have hread : (lockedBytes os fun bytes => .done (.ok (.locked bytes)) :
        Kernel (Except MlockError MlockStatus)).feed d' = some x := h
    unfold lockedBytes at hread
    split at hread
    · obtain ⟨status, d2, -, hdone⟩ := Ask.feed_ask_some.1 hread
      obtain ⟨-, rfl⟩ := Ask.feed_done_some.1 hdone
      trivial
    · obtain ⟨-, rfl⟩ := Ask.feed_done_some.1 hread
      trivial
  | error errno =>
    obtain ⟨-, rfl⟩ := Ask.feed_done_some.1 h
    refine ⟨_, Ask.feed_ask_some.2 ⟨_, [], rfl, rfl⟩, ?_⟩
    cases required with
    | true => trivial
    | false => exact rfl

end Duende.Residency
