import Duende.Policy.CircuitBreaker
import Mathlib.Data.Fin.Basic
import Mathlib.Data.List.Sort

/-!
# What the circuit breaker is for

`Phase m` is the abstract breaker: closed with fewer than `m` failures, open since some
instant, or half-open since an opening with fewer than three successes. No value of it is
ill-formed. `toBreaker` gives the fields that represent a phase, and `call_toBreaker`
says that the breaker's calls simulate the phase's. Every breaker a sequential run
reaches represents a phase (`reached`).
-/

namespace Duende.Policy

inductive Phase (m : Nat) where
  | closed (failures : Fin m)
  | open (since : Nat)
  | halfOpen (since : Nat) (successes : Fin 3)

namespace Phase

variable {m : Nat}

def state : Phase m → CircuitState
  | closed _ => .closed
  | .open _ => .open
  | halfOpen _ _ => .halfOpen

/-- The phase's instants are possible at `now`: an opening is not in the future, and a
half-open phase is at least `timeout` past it. -/
def At (timeout now : Nat) : Phase m → Prop
  | closed _ => True
  | .open t => t ≤ now
  | halfOpen t _ => t + timeout ≤ now

/-- Let time pass up to `now`: an open phase lapses after `timeout`. -/
def lapse (timeout now : Nat) : Phase m → Phase m
  | .open t => if t + timeout ≤ now then .halfOpen t 0 else .open t
  | ph => ph

variable [NeZero m]

def recordSuccess : Phase m → Phase m
  | closed _ => .closed 0
  | .open t => .open t
  | halfOpen t s => if h : s.val + 1 < 3 then .halfOpen t ⟨s + 1, h⟩ else .closed 0

omit [NeZero m] in
def recordFailure (now : Nat) : Phase m → Phase m
  | closed f => if h : f.val + 1 < m then .closed ⟨f + 1, h⟩ else .open now
  | .open t => .open t
  | halfOpen _ _ => .open now

def failures : Phase m → Nat
  | closed f => f
  | _ => m

def call (timeout now : Nat) (ph : Phase m) : Op → Phase m × Res
  | .state => (ph.lapse timeout now, .state (ph.lapse timeout now).state)
  | .allow => (ph.lapse timeout now, .allowed (CircuitBreaker.allows (ph.lapse timeout now).state))
  | .recordSuccess => (ph.recordSuccess, .unit)
  | .recordFailure => (ph.recordFailure now, .unit)
  | .failureCount => (ph, .count ph.failures)
  | .reset => (.closed 0, .unit)

end Phase

/-! ## The representation -/

def Phase.start (th : UInt32) : Phase (limit th) := .closed 0

/-- The fields that represent a phase. -/
def Phase.toBreaker {th : UInt32} (rt : Nat) : Phase (limit th) → CircuitBreaker
  | closed f => ⟨.closed, th, f, 0, rt, none⟩
  | .open t => ⟨.open, th, limit th, 0, rt, some t⟩
  | halfOpen t s => ⟨.halfOpen, th, limit th, s, rt, some t⟩

namespace Phase

variable {th : UInt32} {rt now : Nat} {ph : Phase (limit th)}

@[simp] theorem toBreaker_state : (ph.toBreaker rt).state = ph.state := by cases ph <;> rfl

@[simp] theorem toBreaker_failureCount : (ph.toBreaker rt).failureCount = ph.failures := by
  cases ph <;> rfl

theorem maybeTransition_toBreaker (h : ph.At rt now) :
    (ph.toBreaker rt).maybeTransition now = (ph.lapse rt now).toBreaker rt := by
  cases ph with
  | closed f => rfl
  | halfOpen t s => rfl
  | «open» t =>
    have ht : t ≤ now := h
    by_cases hs : t + rt ≤ now
    · have : rt ≤ now - t := by omega
      simp [CircuitBreaker.maybeTransition, CircuitBreaker.shouldTransition, elapsed, toBreaker,
        lapse, hs, this]
    · have : ¬ rt ≤ now - t := by omega
      simp [CircuitBreaker.maybeTransition, CircuitBreaker.shouldTransition, elapsed, toBreaker,
        lapse, hs, this]

theorem recordSuccess_toBreaker :
    (ph.toBreaker rt).recordSuccess = ph.recordSuccess.toBreaker rt := by
  cases ph with
  | closed f => simp [CircuitBreaker.recordSuccess, toBreaker, recordSuccess]
  | «open» t => rfl
  | halfOpen t s =>
    have hs := s.isLt
    have hadd : u64Add s 1 = s + 1 := u64Add_of_lt (by omega)
    by_cases h : s.val + 1 < 3
    · have h3 : ¬ 3 ≤ s.val + 1 := by omega
      simp [CircuitBreaker.recordSuccess, toBreaker, recordSuccess, hadd, h, h3]
    · have h3 : 3 ≤ s.val + 1 := by omega
      simp [CircuitBreaker.recordSuccess, CircuitBreaker.close, toBreaker, recordSuccess, hadd, h,
        h3]

theorem recordFailure_toBreaker :
    (ph.toBreaker rt).recordFailure now = (ph.recordFailure now).toBreaker rt := by
  cases ph with
  | «open» t => rfl
  | halfOpen t s => rfl
  | closed f =>
    have hf := f.isLt
    have hl := limit_lt th
    have hadd : u64Add f 1 = f + 1 := u64Add_of_lt (by omega)
    by_cases h : f.val + 1 < limit th
    · have hth : ¬ th.toNat ≤ f.val + 1 := by
        rw [toNat_le_iff_limit_le (Nat.succ_pos _)]; omega
      simp [CircuitBreaker.recordFailure, toBreaker, recordFailure, hadd, h, hth]
    · have hth : th.toNat ≤ limit th := (toNat_le_iff_limit_le (limit_pos th)).2 (Nat.le_refl _)
      have he : f.val + 1 = limit th := by omega
      simp [CircuitBreaker.recordFailure, CircuitBreaker.open, toBreaker, recordFailure, hadd, he,
        hth]

/-- **The breaker simulates its phase**: a call on the representation is the
representation of the call, with the same result. -/
theorem call_toBreaker (o : Op) (h : ph.At rt now) :
    (ph.toBreaker rt).call now o =
      ((ph.call rt now o).1.toBreaker rt, (ph.call rt now o).2) := by
  cases o with
  | state =>
    simp only [CircuitBreaker.call, CircuitBreaker.currentState, call,
      maybeTransition_toBreaker h, toBreaker_state]
  | allow =>
    simp only [CircuitBreaker.call, CircuitBreaker.allow, call, maybeTransition_toBreaker h,
      toBreaker_state]
  | recordSuccess => simp only [CircuitBreaker.call, call, recordSuccess_toBreaker]
  | recordFailure => simp only [CircuitBreaker.call, call, recordFailure_toBreaker]
  | failureCount => simp only [CircuitBreaker.call, call, toBreaker_failureCount]
  | reset =>
    have : ((0 : Fin (limit th)) : Nat) = 0 := rfl
    cases ph <;> simp [CircuitBreaker.call, call, CircuitBreaker.reset, CircuitBreaker.close,
      toBreaker]

theorem At.mono {now' : Nat} (h : ph.At rt now) (hn : now ≤ now') : ph.At rt now' := by
  cases ph with
  | closed f => trivial
  | «open» t => exact Nat.le_trans h hn
  | halfOpen t s => exact Nat.le_trans h hn

theorem At.lapse (h : ph.At rt now) : (ph.lapse rt now).At rt now := by
  cases ph with
  | closed f => trivial
  | halfOpen t s => exact h
  | «open» t =>
    simp only [Phase.lapse]
    split
    · rename_i hle; exact hle
    · exact h

theorem At.call (o : Op) (h : ph.At rt now) : (ph.call rt now o).1.At rt now := by
  cases o with
  | state => exact h.lapse
  | allow => exact h.lapse
  | failureCount => exact h
  | reset => trivial
  | recordSuccess =>
    cases ph with
    | closed f => trivial
    | «open» t => exact h
    | halfOpen t s => simp only [Phase.call, recordSuccess]; split <;> first | exact h | trivial
  | recordFailure =>
    cases ph with
    | closed f =>
      simp only [Phase.call, recordFailure]; split <;> first | trivial | exact Nat.le_refl _
    | «open» t => exact h
    | halfOpen t s => exact Nat.le_refl now

end Phase

/-! ## Sequential runs -/

/-- A call and the clock reading it is made at. -/
abbrev Call := Nat × Op

/-- The clock readings, starting at `t`, do not decrease and do not pass `now`. -/
def Timed (now : Nat) : Nat → List Call → Prop
  | t, [] => t ≤ now
  | t, c :: cs => t ≤ c.1 ∧ Timed now c.1 cs

instance decidableTimed (now : Nat) : ∀ t cs, Decidable (Timed now t cs)
  | t, [] => inferInstanceAs (Decidable (t ≤ now))
  | t, c :: cs =>
    haveI := decidableTimed now c.1 cs
    inferInstanceAs (Decidable (t ≤ c.1 ∧ Timed now c.1 cs))

theorem Timed.le {now : Nat} : ∀ {cs : List Call} {t : Nat}, Timed now t cs → t ≤ now
  | [], _, h => h
  | _ :: _, _, h => Nat.le_trans h.1 h.2.le

theorem Timed.append {now : Nat} : ∀ {cs ds : List Call} {t : Nat}, Timed now t (cs ++ ds) →
    ∃ t', Timed t' t cs ∧ Timed now t' ds
  | [], _, t, h => ⟨t, Nat.le_refl t, h⟩
  | c :: cs, _, _, h => by
    obtain ⟨t', h1, h2⟩ := @Timed.append now cs _ _ h.2
    exact ⟨t', ⟨h.1, h1⟩, h2⟩

def CircuitBreaker.after (b : CircuitBreaker) : List Call → CircuitBreaker
  | [] => b
  | c :: cs => (b.call c.1 c.2).1.after cs

def Phase.after {m : Nat} [NeZero m] (timeout : Nat) (ph : Phase m) : List Call → Phase m
  | [] => ph
  | c :: cs => (ph.call timeout c.1 c.2).1.after timeout cs

theorem Phase.after_toBreaker {th : UInt32} {rt now : Nat} :
    ∀ {cs : List Call} {t : Nat} {ph : Phase (limit th)}, ph.At rt t → Timed now t cs →
      (ph.toBreaker rt).after cs = (ph.after rt cs).toBreaker rt ∧ (ph.after rt cs).At rt now
  | [], _, _, h, ht => ⟨rfl, h.mono ht⟩
  | c :: cs, _, _, h, ht => by
    have h1 := h.mono ht.1
    simp only [CircuitBreaker.after, Phase.after, Phase.call_toBreaker c.2 h1]
    exact Phase.after_toBreaker (h1.call c.2) ht.2

/-- **Every breaker a sequential run reaches represents a phase.** -/
theorem reached (th : UInt32) (rt : Nat) {now : Nat} {cs : List Call} (h : Timed now 0 cs) :
    (CircuitBreaker.new th rt).after cs = ((Phase.start th).after rt cs).toBreaker rt ∧
      ((Phase.start th).after rt cs).At rt now := by
  have h0 : (Phase.start th).At rt 0 := trivial
  exact Phase.after_toBreaker h0 h

/-- What holds of the fields in every state a sequential run reaches. -/
structure RepInv (th : UInt32) (rt now : Nat) (b : CircuitBreaker) : Prop where
  ifClosed : b.state = .closed →
    b.failureCount < max 1 th.toNat ∧ b.successCount = 0 ∧ b.openedAt = none
  ifOpen : b.state = .open →
    b.failureCount = max 1 th.toNat ∧ b.successCount = 0 ∧ ∃ t, b.openedAt = some t ∧ t ≤ now
  ifHalfOpen : b.state = .halfOpen →
    b.failureCount = max 1 th.toNat ∧ b.successCount < 3 ∧
      ∃ t, b.openedAt = some t ∧ t + rt ≤ now

theorem Phase.repInv {th : UInt32} {rt now : Nat} {ph : Phase (limit th)} (h : ph.At rt now) :
    RepInv th rt now (ph.toBreaker rt) := by
  cases ph with
  | closed f => exact ⟨fun _ => ⟨f.isLt, rfl, rfl⟩, nofun, nofun⟩
  | «open» t => exact ⟨nofun, fun _ => ⟨rfl, rfl, t, rfl, h⟩, nofun⟩
  | halfOpen t s => exact ⟨nofun, nofun, fun _ => ⟨rfl, s.isLt, t, rfl, h⟩⟩

/-- **The representation invariant**, for every threshold, timeout and sequential run. -/
theorem repInv_after (th : UInt32) (rt now : Nat) (cs : List Call) (h : Timed now 0 cs) :
    RepInv th rt now ((CircuitBreaker.new th rt).after cs) := by
  obtain ⟨he, hat⟩ := reached th rt h
  rw [he]
  exact Phase.repInv hat

/-- Two failures open a breaker of threshold two; ten later it is half-open. -/
theorem repInv_after_two : RepInv 2 10 12 ((CircuitBreaker.new 2 10).after
      [(0, .recordFailure), (1, .recordFailure), (11, .state)]) ∧
    ((CircuitBreaker.new 2 10).after
      [(0, .recordFailure), (1, .recordFailure), (11, .state)]).state = .halfOpen :=
  ⟨repInv_after 2 10 12 _ (by decide), by decide⟩

end Duende.Policy
