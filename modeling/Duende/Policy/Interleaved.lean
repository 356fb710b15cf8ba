import Duende.Policy.CircuitBreaker
import Duende.Trans.Interleave

/-!
# The circuit breaker, one atomic step at a time

Every lock-held section and every atomic operation of the source is one step: `exec`
runs the step at a program point on the breaker and the clock. A section that tests
`state` under the read lock and updates a counter before it drops the lock is one step.
`exec_solo` says that a call whose steps run without interruption is the sequential call
of `Duende.Policy.CircuitBreaker`.
-/

namespace Duende.Policy

open Trans

/-- The two calls that run `maybe_transition` and then read `state`. -/
inductive Query where
  | state
  | allow
  deriving DecidableEq, Repr

/-- Program points: the lock-held section or atomic operation a caller is about to run. -/
inductive Pc where
  /-- `maybe_transition`: test `state` under the read lock. -/
  | readState (q : Query)
  /-- `maybe_transition`: test `opened_at` under the read lock. -/
  | readOpenedAt (q : Query)
  /-- `maybe_transition`: `Open` to `HalfOpen` under the write lock. -/
  | writeHalfOpen (q : Query)
  /-- `maybe_transition`: clear `success_count`. -/
  | clearSuccesses (q : Query)
  /-- The last read of `state`. -/
  | answer (q : Query)
  | recordSuccess
  | recordFailure
  | loadFailures
  | openState
  | openOpenedAt
  | openSuccesses
  | closeState
  | closeFailures
  | closeSuccesses
  | closeOpenedAt
  deriving DecidableEq, Repr

/-- What the callers share: the breaker's fields and the monotonic clock. -/
structure Shared where
  breaker : CircuitBreaker
  now : Nat
  deriving DecidableEq, Repr

def Query.result : Query → CircuitState → Res
  | .state, s => .state s
  | .allow, s => .allowed (CircuitBreaker.allows s)

def exec (m : Shared) : Pc → Shared × (Pc ⊕ Res)
  | .readState q =>
    if m.breaker.state ≠ .open then (m, .inl (.answer q)) else (m, .inl (.readOpenedAt q))
  | .readOpenedAt q =>
    if m.breaker.shouldTransition m.now then (m, .inl (.writeHalfOpen q))
    else (m, .inl (.answer q))
  | .writeHalfOpen q =>
    -- tested again under the write lock: another caller may have left `Open`
    if m.breaker.state = .open then
      ({ m with breaker.state := .halfOpen }, .inl (.clearSuccesses q))
    else (m, .inl (.answer q))
  | .clearSuccesses q => ({ m with breaker.successCount := 0 }, .inl (.answer q))
  | .answer q => (m, .inr (q.result m.breaker.state))
  | .recordSuccess =>
    match m.breaker.state with
    | .closed => ({ m with breaker.failureCount := 0 }, .inr .unit)
    | .halfOpen =>
      let count := u64Add m.breaker.successCount 1
      ({ m with breaker.successCount := count },
        if 3 ≤ count then .inl .closeState else .inr .unit)
    | .open => (m, .inr .unit)
  | .recordFailure =>
    match m.breaker.state with
    | .closed =>
      let count := u64Add m.breaker.failureCount 1
      ({ m with breaker.failureCount := count },
        if m.breaker.failureThreshold.toNat ≤ count then .inl .openState else .inr .unit)
    | .halfOpen => (m, .inl .openState)
    | .open => (m, .inr .unit)
  | .loadFailures => (m, .inr (.count m.breaker.failureCount))
  | .openState => ({ m with breaker.state := .open }, .inl .openOpenedAt)
  | .openOpenedAt => ({ m with breaker.openedAt := some m.now }, .inl .openSuccesses)
  | .openSuccesses => ({ m with breaker.successCount := 0 }, .inr .unit)
  | .closeState => ({ m with breaker.state := .closed }, .inl .closeFailures)
  | .closeFailures => ({ m with breaker.failureCount := 0 }, .inl .closeSuccesses)
  | .closeSuccesses => ({ m with breaker.successCount := 0 }, .inl .closeOpenedAt)
  | .closeOpenedAt => ({ m with breaker.openedAt := none }, .inr .unit)

/-- Where a call starts. -/
def entry : Op → Pc
  | .state => .readState .state
  | .allow => .readState .allow
  | .recordSuccess => .recordSuccess
  | .recordFailure => .recordFailure
  | .failureCount => .loadFailures
  | .reset => .closeState

/-- The breaker as an object: no step blocks, and the environment lets time pass. -/
def breakerObj : Obj Shared Pc Op Res Unit Nat where
  start := entry
  exec m p _ := some (exec m p)
  env m d := some { m with now := m.now + d }

abbrev BConf (ι : Type*) := Conf ι Shared Pc

abbrev BAct (ι : Type*) := Act ι Op Unit Nat

/-- Caller `i` runs its next `n` steps. -/
abbrev steps {ι : Type*} (i : ι) (n : Nat) : List (BAct ι) := List.replicate n (.step i ())

/-- Caller `i` calls `o` and runs its `n` steps. -/
abbrev alone {ι : Type*} (i : ι) (o : Op) (n : Nat) : List (BAct ι) := .call i o :: steps i n

/-- A fresh breaker, every caller idle. -/
def fresh (ι : Type*) (failureThreshold : UInt32) (recoveryTimeout now : Nat) : BConf ι :=
  Obj.init ⟨.new failureThreshold recoveryTimeout, now⟩

/-! ## What a step changes -/

/-- The steps that may write `state`. -/
def Pc.writesState : Pc → Bool
  | .openState | .closeState | .writeHalfOpen _ => true
  | _ => false

/-- The steps that write `opened_at`. -/
def Pc.writesOpenedAt : Pc → Bool
  | .openOpenedAt | .closeOpenedAt => true
  | _ => false

variable {m : Shared} {p : Pc}

theorem exec_state (h : p.writesState = false) :
    (exec m p).1.breaker.state = m.breaker.state := by
  cases p <;> simp only [Pc.writesState, Bool.true_eq_false] at h <;> simp only [exec] <;>
    split <;> rfl

theorem exec_openedAt (h : p.writesOpenedAt = false) :
    (exec m p).1.breaker.openedAt = m.breaker.openedAt := by
  cases p <;> simp only [Pc.writesOpenedAt, Bool.true_eq_false] at h <;> simp only [exec] <;>
    split <;> rfl

@[simp] theorem exec_now : (exec m p).1.now = m.now := by
  cases p <;> simp only [exec] <;> split <;> rfl

@[simp] theorem exec_recoveryTimeout :
    (exec m p).1.breaker.recoveryTimeout = m.breaker.recoveryTimeout := by
  cases p <;> simp only [exec] <;> split <;> rfl

@[simp] theorem exec_failureThreshold :
    (exec m p).1.breaker.failureThreshold = m.breaker.failureThreshold := by
  cases p <;> simp only [exec] <;> split <;> rfl

theorem open_of_exec (h : (exec m p).1.breaker.state = .open) :
    p = .openState ∨ m.breaker.state = .open := by
  cases hw : p.writesState with
  | false => exact .inr (by rw [← exec_state hw]; exact h)
  | true =>
    cases p with
    | openState => exact .inl rfl
    | closeState => cases h
    | writeHalfOpen q =>
      simp only [exec] at h
      split at h
      · cases h
      · exact .inr h
    | _ => cases hw

/-! ## Where a step leads -/

theorem eq_openState_of_next (h : (exec m p).2.getLeft? = some .openOpenedAt) :
    p = .openState := by
  cases p <;> simp only [exec] at h <;> (try split at h) <;> (try split at h) <;> simp_all

theorem shouldTransition_of_next {q : Query}
    (h : (exec m p).2.getLeft? = some (.writeHalfOpen q)) :
    p = .readOpenedAt q ∧ m.breaker.shouldTransition m.now = true := by
  cases p <;> simp only [exec] at h <;> (try split at h) <;> (try split at h) <;> simp_all

/-! ## A call that runs alone -/

section Solo

variable {b : CircuitBreaker} {now : Nat}

abbrev soloRun (b : CircuitBreaker) (now : Nat) (p : Pc) (n : Nat) : Option (Shared × Res) :=
  breakerObj.solo ⟨b, now⟩ p (List.replicate n ())

theorem solo_step {p p' : Pc} {m' : Shared} {n : Nat} (h : exec ⟨b, now⟩ p = (m', .inl p')) :
    soloRun b now p (n + 1) = soloRun m'.breaker m'.now p' n := by
  simp only [soloRun, List.replicate_succ, Obj.solo, breakerObj, h]

theorem solo_last {p : Pc} {m' : Shared} {r : Res} (h : exec ⟨b, now⟩ p = (m', .inr r)) :
    soloRun b now p 1 = some (m', r) := by
  simp only [soloRun, List.replicate_succ, Obj.solo, breakerObj, h, List.replicate_zero,
    List.isEmpty_nil, ite_true]

theorem solo_open : soloRun b now .openState 3 = some (⟨b.open now, now⟩, .unit) := rfl

theorem solo_close : soloRun b now .closeState 4 = some (⟨b.close, now⟩, .unit) := rfl

theorem solo_query (q : Query) : ∃ n, soloRun b now (.readState q) n =
    some (⟨b.maybeTransition now, now⟩, q.result (b.maybeTransition now).state) := by
  by_cases ho : b.state = .open
  · cases hs : b.shouldTransition now with
    | true =>
      refine ⟨5, ?_⟩
      rw [solo_step (by simp only [exec, ho]; rfl), solo_step (by simp only [exec, hs]; rfl),
        solo_step (by simp only [exec, ho]; rfl), solo_step rfl, solo_last rfl]
      simp [CircuitBreaker.maybeTransition, ho, hs]
    | false =>
      refine ⟨3, ?_⟩
      rw [solo_step (by simp only [exec, ho]; rfl), solo_step (by simp only [exec, hs]; rfl),
        solo_last rfl]
      simp [CircuitBreaker.maybeTransition, ho, hs]
  · refine ⟨2, ?_⟩
    rw [solo_step (by simp only [exec, if_pos ho]; rfl), solo_last rfl]
    simp [CircuitBreaker.maybeTransition, ho]

/-- **The sequential calls are the uninterrupted ones**: the steps of a call, with no
other step between them, do what the sequential call does. -/
theorem exec_solo (o : Op) : ∃ n, soloRun b now (entry o) n =
    some (⟨(b.call now o).1, now⟩, (b.call now o).2) := by
  cases o with
  | state => exact solo_query .state
  | allow => exact solo_query .allow
  | failureCount => exact ⟨1, rfl⟩
  | reset => exact ⟨4, solo_close⟩
  | recordSuccess =>
    cases hst : b.state with
    | closed => exact ⟨1, by rw [entry, solo_last (by simp only [exec, hst]; rfl)]
                             simp [CircuitBreaker.call, CircuitBreaker.recordSuccess, hst]⟩
    | «open» => exact ⟨1, by rw [entry, solo_last (by simp only [exec, hst]; rfl)]
                             simp [CircuitBreaker.call, CircuitBreaker.recordSuccess, hst]⟩
    | halfOpen =>
      by_cases hc : 3 ≤ u64Add b.successCount 1
      · refine ⟨5, ?_⟩
        rw [entry, solo_step (by simp only [exec, hst, if_pos hc]; rfl), solo_close]
        simp [CircuitBreaker.call, CircuitBreaker.recordSuccess, hst, hc]
      · refine ⟨1, ?_⟩
        rw [entry, solo_last (by simp only [exec, hst, if_neg hc]; rfl)]
        simp [CircuitBreaker.call, CircuitBreaker.recordSuccess, hst, hc]
  | recordFailure =>
    cases hst : b.state with
    | closed =>
      by_cases hc : b.failureThreshold.toNat ≤ u64Add b.failureCount 1
      · refine ⟨4, ?_⟩
        rw [entry, solo_step (by simp only [exec, hst, if_pos hc]; rfl), solo_open]
        simp [CircuitBreaker.call, CircuitBreaker.recordFailure, hst, hc]
      · refine ⟨1, ?_⟩
        rw [entry, solo_last (by simp only [exec, hst, if_neg hc]; rfl)]
        simp [CircuitBreaker.call, CircuitBreaker.recordFailure, hst, hc]
    | halfOpen =>
      refine ⟨4, ?_⟩
      rw [entry, solo_step (by simp only [exec, hst]; rfl), solo_open]
      simp [CircuitBreaker.call, CircuitBreaker.recordFailure, hst]
    | «open» => exact ⟨1, by rw [entry, solo_last (by simp only [exec, hst]; rfl)]
                             simp [CircuitBreaker.call, CircuitBreaker.recordFailure, hst]⟩

end Solo

section Callers

variable {ι : Type*} [DecidableEq ι] {c c' : BConf ι}

theorem run_alone {i : ι} (o : Op) (hi : c.pc i = none) : ∃ n,
    run breakerObj.act c (alone i o n) =
      some ⟨⟨(c.shared.breaker.call c.shared.now o).1, c.shared.now⟩, c.pc⟩ := by
  obtain ⟨n, h⟩ := @exec_solo c.shared.breaker c.shared.now o
  refine ⟨n, ?_⟩
  have := Obj.run_alone hi h
  simpa [Obj.alone] using this

/-- **What an action can do**: start a call, run the step a caller is at, or let time
pass. -/
theorem bact_cases {a : BAct ι} (h : breakerObj.act c a = some c') :
    (∃ i o, a = .call i o ∧ c.pc i = none ∧
      c' = ⟨c.shared, Function.update c.pc i (some (entry o))⟩) ∨
    (∃ i p, a = .step i () ∧ c.pc i = some p ∧
      c' = ⟨(exec c.shared p).1, Function.update c.pc i (exec c.shared p).2.getLeft?⟩) ∨
    (∃ d, a = .env d ∧ c' = ⟨{ c.shared with now := c.shared.now + d }, c.pc⟩) := by
  rcases Obj.act_cases h with ⟨i, o, ha, hi, hc⟩ | ⟨i, k, p, s', q, ha, hp, hx, hc⟩ |
    ⟨d, s', ha, hx, hc⟩
  · exact .inl ⟨i, o, ha, hi, hc⟩
  · have he : exec c.shared p = (s', q) := Option.some.inj hx
    exact .inr (.inl ⟨i, p, ha, hp, by rw [he]; exact hc⟩)
  · cases hx; exact .inr (.inr ⟨d, ha, hc⟩)

theorem bact_params {a : BAct ι} (h : breakerObj.act c a = some c') :
    c'.shared.breaker.recoveryTimeout = c.shared.breaker.recoveryTimeout ∧
      c'.shared.breaker.failureThreshold = c.shared.breaker.failureThreshold := by
  rcases bact_cases h with ⟨i, o, rfl, hi, rfl⟩ | ⟨i, p, rfl, hp, rfl⟩ | ⟨d, rfl, rfl⟩
  · exact ⟨rfl, rfl⟩
  · exact ⟨exec_recoveryTimeout, exec_failureThreshold⟩
  · exact ⟨rfl, rfl⟩

theorem run_params {as : List (BAct ι)} (h : run breakerObj.act c as = some c') :
    c'.shared.breaker.recoveryTimeout = c.shared.breaker.recoveryTimeout ∧
      c'.shared.breaker.failureThreshold = c.shared.breaker.failureThreshold :=
  run_inv (P := fun c' => c'.shared.breaker.recoveryTimeout = c.shared.breaker.recoveryTimeout ∧
      c'.shared.breaker.failureThreshold = c.shared.breaker.failureThreshold)
    (fun _ _ _ hp ha => ⟨(bact_params ha).1.trans hp.1, (bact_params ha).2.trans hp.2⟩)
    ⟨rfl, rfl⟩ h

theorem bact_now {a : BAct ι} (h : breakerObj.act c a = some c') :
    c.shared.now ≤ c'.shared.now := by
  rcases bact_cases h with ⟨i, o, rfl, hi, rfl⟩ | ⟨i, p, rfl, hp, rfl⟩ | ⟨d, rfl, rfl⟩
  · exact Nat.le_refl _
  · exact Nat.le_of_eq exec_now.symm
  · exact Nat.le_add_right _ _

theorem run_now {as : List (BAct ι)} (h : run breakerObj.act c as = some c') :
    c.shared.now ≤ c'.shared.now :=
  run_inv (P := fun c' => c.shared.now ≤ c'.shared.now)
    (fun _ _ _ hp ha => Nat.le_trans hp (bact_now ha)) (Nat.le_refl _) h

end Callers

end Duende.Policy
