import Duende.Platform.Services

/-!
# Raw pids of the native adapter

`signal`, `status` and `attach_tracer` cast the `u32` of the handle to the `i32` of `kill(2)`,
for which only a positive number is a process. `one_process_iff` says for which handles every
call reaches the process of the handle and no other.
-/

namespace Duende.Platforms.Native

/-- What `kill(2)` reaches. -/
inductive Target where
  | process (pid : Nat)
  | callersGroup
  | everyProcess
  | group (pgid : Nat)
  deriving DecidableEq, Repr

def target (raw : Int32) : Target :=
  if 0 < raw then .process raw.toInt.toNat
  else if raw = 0 then .callersGroup
  else if raw = -1 then .everyProcess
  else .group raw.toInt.natAbs

/-- A `kill` whose raw pid is positive and the pid of the handle. -/
def KillsOwn (h : DaemonHandle) : Question → Prop
  | .kill raw _ => ∃ pid, h.pid = some pid ∧ 0 < raw ∧ raw.toInt = pid.toNat
  | _ => False

/-- A `kill` that reaches the process of the handle and no other. -/
def ReachesOwn (h : DaemonHandle) : Question → Prop
  | .kill raw _ => ∃ pid, h.pid = some pid ∧ target raw = .process pid.toNat
  | _ => False

/-- Whatever the system answers, the operation is about the process of the handle alone; without
a `kill`, it fails. -/
structure OneProcess {α : Type} (h : DaemonHandle) (x : Attempt NativeAdapter α) : Prop where
  raw : x.All (KillsOwn h) fun _ => True
  reach : x.All (ReachesOwn h) fun _ => True
  fails : ∀ r, x = .done r → ∃ e, r.2 = .error e

/-- The pid of the handle, if it has one, is positive and fits in an `i32`. -/
def InRange (h : DaemonHandle) : Prop :=
  ∀ pid, h.pid = some pid → 0 < pid.toNat ∧ pid.toNat < 2 ^ 31

variable {α : Type} {h : DaemonHandle} {pid : UInt32} {raw : Int32} {n : Nat}

theorem target_eq_process : target raw = .process n ↔ 0 < raw ∧ raw.toInt = n := by
  have hint : 0 < raw ↔ 0 < raw.toInt := Int32.lt_iff_toInt_lt
  unfold target
  split
  · rename_i hpos
    have hpos' := hint.1 hpos
    rw [Target.process.injEq, and_iff_right hpos]
    omega
  · rename_i hpos
    refine iff_of_false (fun ht => ?_) fun hr => hpos hr.1
    split at ht
    · cases ht
    · split at ht <;> cases ht

/-- **The cast keeps the pid**, as a positive number, exactly within the range. -/
theorem cast_iff : (0 < pid.toInt32 ∧ pid.toInt32.toInt = pid.toNat) ↔
    0 < pid.toNat ∧ pid.toNat < 2 ^ 31 := by
  have hpos : 0 < pid.toInt32 ↔ 0 < pid.toInt32.toInt := Int32.lt_iff_toInt_lt
  have hlt := pid.toNat_lt
  rw [hpos, toInt_toInt32]
  split <;> omega

/-- An operation that fails without a pid, and else gives it to one `kill`. -/
structure KillsOnce (h : DaemonHandle) (x : Attempt NativeAdapter α) : Prop where
  none : h.pid = none → ∃ s e, x = .done (s, .error e)
  some : ∀ pid, h.pid = some pid → ∃ sig k, x = .kill pid.toInt32 sig k ∧ ∀ r, ∃ s, k r = .done s

theorem KillsOnce.oneProcess_iff {x : Attempt NativeAdapter α} (hx : KillsOnce h x) :
    OneProcess h x ↔ InRange h := by
  cases hp : h.pid with
  | none =>
    obtain ⟨s, e, rfl⟩ := hx.none hp
    refine iff_of_true ⟨trivial, trivial, fun r hr => ?_⟩ fun pid hpid => ?_
    · cases hr
      exact ⟨e, rfl⟩
    · rw [hp] at hpid; cases hpid
  | some pid =>
    obtain ⟨sig, k, rfl, hk⟩ := hx.some pid hp
    constructor
    · intro ho pid' hpid
      obtain ⟨pid1, hpid1, hcast⟩ := ho.raw.1
      cases hp.symm.trans hpid1
      cases hp.symm.trans hpid
      exact cast_iff.1 hcast
    · intro hr
      have hcast := cast_iff.2 (hr pid hp)
      have hdone : ∀ (φ : Question → Prop) r, (k r).All φ fun _ => True := by
        intro φ r
        obtain ⟨s, hs⟩ := hk r
        rw [hs]
        trivial
      refine ⟨⟨⟨pid, hp, hcast⟩, hdone _⟩, ⟨⟨pid, hp, target_eq_process.2 hcast⟩, hdone _⟩, ?_⟩
      intro r hr
      cases hr

theorem killsOnce_signal (a : NativeAdapter) (h : DaemonHandle) (sig : Signal) :
    KillsOnce h (signal a h sig) where
  none hp := by
    simp only [signal, hp]
    exact ⟨_, _, rfl⟩
  some pid hp := by
    simp only [signal, hp]
    refine ⟨_, _, rfl, fun r => ?_⟩
    rcases r with e | u <;> exact ⟨_, rfl⟩

theorem killsOnce_status (a : NativeAdapter) (h : DaemonHandle) : KillsOnce h (status a h) where
  none hp := by
    simp only [status, hp]
    exact ⟨_, _, rfl⟩
  some pid hp := by
    simp only [status, hp]
    refine ⟨_, _, rfl, fun r => ?_⟩
    rcases r with (_ | e) | u <;> exact ⟨_, rfl⟩

theorem killsOnce_attachTracer (a : NativeAdapter) (h : DaemonHandle) :
    KillsOnce h (attachTracer a h) where
  none hp := by
    simp only [attachTracer, hp]
    exact ⟨_, _, rfl⟩
  some pid hp := by
    simp only [attachTracer, hp]
    refine ⟨_, _, rfl, fun r => ?_⟩
    rcases r with (_ | e) | u <;> exact ⟨_, rfl⟩

/-- **One process only**: `signal`, `status` and `attach_tracer` give `kill` the pid of the
handle and reach its process alone exactly when the pid is positive and below `2 ^ 31`. -/
theorem one_process_iff (a : NativeAdapter) (h : DaemonHandle) (sig : Signal) :
    (OneProcess h (signal a h sig) ↔ InRange h) ∧ (OneProcess h (status a h) ↔ InRange h) ∧
    (OneProcess h (attachTracer a h) ↔ InRange h) :=
  ⟨(killsOnce_signal a h sig).oneProcess_iff, (killsOnce_status a h).oneProcess_iff,
    (killsOnce_attachTracer a h).oneProcess_iff⟩

/-- The handle of process 0: `kill` is for the group of the caller. -/
theorem zero_is_callers_group :
    ¬ ∀ (a : NativeAdapter) (h : DaemonHandle) (sig : Signal), OneProcess h (signal a h sig) ∧
      OneProcess h (status a h) ∧ OneProcess h (attachTracer a h) := by
  intro hall
  have ho := (hall ⟨⟩ ⟨.native, "0".toList, some 0⟩ .term).1.reach
  obtain ⟨pid, -, ht⟩ := ho.1
  have hgroup : target (UInt32.toInt32 0) = .callersGroup := by decide
  rw [hgroup] at ht
  cases ht

end Duende.Platforms.Native
