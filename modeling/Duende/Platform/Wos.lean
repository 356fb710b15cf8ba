import Duende.Platform.Adapter
import Duende.Trans.Interleave
import Mathlib.Data.Finmap

/-!
# The WOS adapter of the platform crate

`signal` and `status` with every hold of the lock of the process table as one step. A signal
that ends a process releases the lock and takes it again to remove the entry;
`kill_final_iff` says what may not happen in between.
-/

namespace Duende.Platforms

open Trans

inductive Priority where
  | idle | low | belowNormal | normal | aboveNormal | high | veryHigh | realTime
  deriving DecidableEq, Repr

inductive ProcessState where
  | created
  | ready
  | running
  | blocked
  | exited (code : Int32)
  | killed (signal : Signal)
  deriving DecidableEq, Repr

/-- WOS process control block. -/
structure ProcessInfo where
  pid : UInt32
  name : String
  state : ProcessState
  priority : Priority
  basePriority : Priority
  parentPid : UInt32
  memoryLimit : UInt64
  deriving DecidableEq, Repr

/-- The process table of the adapter. -/
structure WosAdapter where
  processes : Finmap fun _ : UInt32 => ProcessInfo

def signalNumber : Signal → Int32
  | .term => 15
  | .kill => 9
  | .hup => 1
  | .int => 2
  | .quit => 3
  | .usr1 => 10
  | .usr2 => 12
  | .stop => 19
  | .cont => 18

def stateToStatus : ProcessState → DaemonStatus
  | .created => .created
  | .ready | .running | .blocked => .running
  | .exited code => if code = 0 then .stopped else .failed (.exitCode code)
  | .killed signal => .failed (.signal (signalNumber signal))

def applySignal (st : ProcessState) : Signal → ProcessState
  | .kill => .killed .kill
  | .term => .killed .term
  | .stop => .blocked
  | .cont => if st = .blocked then .ready else st
  | _ => st

/-- Exited or killed: the entry is to be removed. -/
def ProcessState.terminated : ProcessState → Bool
  | .exited _ | .killed _ => true
  | _ => false

/-- The process that a handle of the adapter stands for. -/
def DaemonHandle.process (h : DaemonHandle) : Option UInt32 :=
  if h.platform = .wos then (parseUnsigned u32Max h.id).map UInt32.ofNat else none

inductive Op where
  | signal (h : DaemonHandle) (sig : Signal)
  | status (h : DaemonHandle)
  deriving DecidableEq

/-- Program points: the next hold of the lock. -/
inductive Pc where
  /-- `signal`: find the process and apply the signal. -/
  | apply (h : DaemonHandle) (sig : Signal)
  /-- `signal`: remove the process that was ended. -/
  | remove (pid : UInt32)
  | status (h : DaemonHandle)
  deriving DecidableEq

inductive Res where
  | signal (r : Except PlatformError Unit)
  | status (r : Except PlatformError DaemonStatus)
  deriving DecidableEq

def exec (m : WosAdapter) : Pc → WosAdapter × (Pc ⊕ Res)
  | .apply h sig =>
    if h.platform ≠ .wos then (m, .inr (.signal (.error (.signal "not a WOS handle"))))
    else
      match h.process with
      | none => (m, .inr (.signal (.error (.signal "invalid PID"))))
      | some pid =>
        match m.processes.lookup pid with
        | none => (m, .inr (.signal (.error (.signal "process not found"))))
        | some p =>
          let p := { p with state := applySignal p.state sig }
          ({ m with processes := m.processes.insert pid p },
            if p.state.terminated then .inl (.remove pid) else .inr (.signal (.ok ())))
  | .remove pid => ({ m with processes := m.processes.erase pid }, .inr (.signal (.ok ())))
  | .status h =>
    if h.platform ≠ .wos then (m, .inr (.status (.error (.status "not a WOS handle"))))
    else
      match h.process with
      | none => (m, .inr (.status (.error (.status "invalid PID"))))
      | some pid =>
        match m.processes.lookup pid with
        | none => (m, .inr (.status (.ok .stopped)))
        | some p => (m, .inr (.status (.ok (stateToStatus p.state))))

/-- The adapter as an object; no step waits. -/
def wosObj : Obj WosAdapter Pc Op Res Unit Empty where
  start
    | .signal h sig => .apply h sig
    | .status h => .status h
  exec m p _ := some (exec m p)
  env _ e := nomatch e

abbrev WConf (ι : Type*) := Conf ι WosAdapter Pc

abbrev WAct (ι : Type*) := Act ι Op Unit Empty

/-! ## After a kill -/

/-- The process is ended: removed, or about to be. -/
def Gone (m : WosAdapter) (pid : UInt32) : Prop :=
  ∀ p, m.processes.lookup pid = some p → p.state.terminated = true

/-- A Kill or Term was applied to the process, and its entry is still there. -/
def Ended (m : WosAdapter) (pid : UInt32) : Prop :=
  ∃ p, m.processes.lookup pid = some p ∧ p.state.terminated = true

variable {m m' : WosAdapter} {pid : UInt32} {p : Pc} {q : Pc ⊕ Res} {sig : Signal}
  {st : ProcessState}

theorem terminated_applySignal (ht : st.terminated = true) (hs : sig ≠ .stop) :
    (applySignal st sig).terminated = true := by
  cases sig with
  | stop => exact absurd rfl hs
  | cont =>
    have : st ≠ .blocked := by rintro rfl; cases ht
    simpa [applySignal, this] using ht
  | kill | term => rfl
  | _ => exact ht

theorem isTerminal_stateToStatus (ht : st.terminated = true) :
    (stateToStatus st).isTerminal = true := by
  cases st with
  | exited code =>
    show (if code = 0 then DaemonStatus.stopped else .failed (.exitCode code)).isTerminal = true
    split <;> rfl
  | killed => rfl
  | _ => cases ht

/-- **What a step does to the table**: nothing, one process is signalled, or one is
removed. -/
theorem exec_cases (hx : exec m p = (m', q)) :
    m' = m ∨
    (∃ h sig pid i, p = .apply h sig ∧ h.process = some pid ∧ m.processes.lookup pid = some i ∧
      m' = ⟨m.processes.insert pid { i with state := applySignal i.state sig }⟩) ∨
    ∃ pid, p = .remove pid ∧ m' = ⟨m.processes.erase pid⟩ := by
  cases p with
  | apply h sig =>
    simp only [exec] at hx
    split at hx
    · cases hx; exact .inl rfl
    · split at hx
      · cases hx; exact .inl rfl
      · rename_i pid hpid
        split at hx
        · cases hx; exact .inl rfl
        · rename_i i hi
          cases hx; exact .inr (.inl ⟨h, sig, pid, i, rfl, hpid, hi, rfl⟩)
  | remove pid => cases hx; exact .inr (.inr ⟨pid, rfl, rfl⟩)
  | status h =>
    simp only [exec] at hx
    split at hx
    · cases hx; exact .inl rfl
    · split at hx
      · cases hx; exact .inl rfl
      · split at hx <;> cases hx <;> exact .inl rfl

/-- Only a Stop takes a process out of its terminal state. -/
theorem gone_exec (hg : Gone m pid) (hx : exec m p = (m', q))
    (hs : ∀ h, p = .apply h .stop → h.process = some pid → m.processes.lookup pid = none) :
    Gone m' pid := by
  rcases exec_cases hx with rfl | ⟨h, sig, pid', i, rfl, hpid, hi, rfl⟩ | ⟨pid', rfl, rfl⟩
  · exact hg
  · intro p hp
    by_cases he : pid = pid'
    · subst he
      rw [Finmap.lookup_insert] at hp
      cases hp
      refine terminated_applySignal (hg i hi) ?_
      rintro rfl
      rw [hs h rfl hpid] at hi; cases hi
    · rw [Finmap.lookup_insert_of_ne _ he] at hp; exact hg p hp
  · intro p hp
    by_cases he : pid = pid'
    · subst he; rw [Finmap.lookup_erase] at hp; cases hp
    · rw [Finmap.lookup_erase_ne he] at hp; exact hg p hp

theorem status_of_gone {h : DaemonHandle} {s : DaemonStatus} (hg : Gone m pid)
    (hh : h.process = some pid) (hx : (exec m (.status h)).2 = .inr (.status (.ok s))) :
    s.isTerminal = true := by
  simp only [exec, hh] at hx
  split at hx
  · cases hx
  · cases hl : m.processes.lookup pid with
    | none => rw [hl] at hx; cases hx; rfl
    | some i => rw [hl] at hx; cases hx; exact isTerminal_stateToStatus (hg i hl)

section Runs

variable {ι : Type*} [DecidableEq ι] {c c' : WConf ι} {as : List (WAct ι)} {a : WAct ι}

/-- No Stop is applied to the process while it is ended and its entry still there. -/
def Spares (pid : UInt32) (c : WConf ι) (a : WAct ι) : Prop :=
  ∀ i h, a = .step i () → c.pc i = some (.apply h .stop) → h.process = some pid →
    ¬ Ended c.shared pid

/-- Once a Kill or Term was applied to the process, it stays ended to the end of the run,
and no call of `status` that ends later finds it in another than a terminal state. -/
def KillFinal (pid : UInt32) (c : WConf ι) (as : List (WAct ι)) : Prop :=
  ∀ pre mid post c1 c2, as = pre ++ (mid ++ post) → run wosObj.act c pre = some c1 →
    run wosObj.act c1 mid = some c2 → Ended c1.shared pid →
    Gone c2.shared pid ∧ ∀ i h s, c2.pc i = some (.status h) → h.process = some pid →
      wosObj.result c2 (.step i ()) = some (.status (.ok s)) → s.isTerminal = true

theorem gone_act (hg : Gone c.shared pid) (hs : Spares pid c a) (h : wosObj.act c a = some c') :
    Gone c'.shared pid := by
  rcases Obj.shared_cases h with hsame | ⟨i, k, p, q, rfl, hp, hx⟩
  · rw [hsame]
    exact hg
  · refine gone_exec hg (Option.some.inj hx) fun h hph hpid => ?_
    subst hph
    cases hl : c.shared.processes.lookup pid with
    | none => rfl
    | some i' => exact absurd ⟨i', hl, hg i' hl⟩ (hs i h rfl hp hpid)

/-- **A kill is final** in a run, for every process and any number of callers, exactly when
no Stop is applied to the process between the kill and the removal of its entry. -/
theorem kill_final_iff : KillFinal pid c as ↔ Meets wosObj.act (Spares pid) c as := by
  constructor
  · intro hf
    refine meets_iff.2 fun pre a post c1 has hpre i h ha hp hpid hended => ?_
    subst ha
    obtain ⟨p, hl, ht⟩ := hended
    have hplat : h.platform = .wos := by
      by_contra hne
      simp [DaemonHandle.process, hne] at hpid
    have hx : exec c1.shared (.apply h .stop) =
        (⟨c1.shared.processes.insert pid { p with state := .blocked }⟩,
          .inr (.signal (.ok ()))) := by
      simp [exec, hplat, hpid, hl, applySignal, ProcessState.terminated]
    have hstep : wosObj.act c1 (.step i ()) = some _ :=
      Obj.act_step.2 ⟨_, _, _, hp, congrArg some hx, rfl⟩
    have hgone := (hf pre [.step i ()] post c1 _ has hpre (run_cons_some.2 ⟨_, hstep, rfl⟩)
      ⟨p, hl, ht⟩).1
    exact absurd (hgone _ (Finmap.lookup_insert _)) (by simp [ProcessState.terminated])
  · rintro hm pre mid post c1 c2 rfl hpre hmid ⟨p, hl, ht⟩
    have hg1 : Gone c1.shared pid := fun p' hl' => by cases hl.symm.trans hl'; exact ht
    have hg2 : Gone c2.shared pid :=
      Meets.run_inv (P := fun c : WConf ι => Gone c.shared pid)
        (fun _ _ _ hg hs h => gone_act hg hs h)
        (Meets.append ((Meets.append hm).2 c1 hpre)).1 hg1 hmid
    refine ⟨hg2, fun i h s hp hpid hr => ?_⟩
    simp only [Obj.result, hp, wosObj, Option.bind_some] at hr
    refine status_of_gone hg2 hpid ?_
    cases hx : (exec c2.shared (.status h)).2 with
    | inl p' => simp [hx] at hr
    | inr r => simp [hx] at hr; rw [hr]

def two : DaemonHandle := ⟨.wos, ['2'], none⟩

def runningTwo : WosAdapter :=
  ⟨(∅ : Finmap _).insert 2 ⟨2, "daemon", .running, .normal, .normal, 1, 0⟩⟩

/-- One call kills the process; before it removes the entry, another call stops it. -/
def killThenStop : List (WAct Bool) :=
  [.call false (.signal two .kill), .call true (.signal two .stop), .step false (),
    .step true (), .call true (.status two)]

/-- The stop returns `Ok`, and `status` then reports the process as running. -/
theorem stop_in_gap : ¬ KillFinal 2 (Obj.init runningTwo) killThenStop ∧
    ∃ c : WConf Bool, run wosObj.act (Obj.init runningTwo) killThenStop = some c ∧
      wosObj.result c (.step true ()) = some (.status (.ok .running)) := by
  refine ⟨fun hf => ?_, _, rfl, rfl⟩
  have hgone := (hf (killThenStop.take 3) [.step true ()] [.call true (.status two)] _ _ rfl rfl rfl
    ⟨_, rfl, rfl⟩).1
  exact absurd (hgone _ rfl) (by decide)

end Runs

end Duende.Platforms
