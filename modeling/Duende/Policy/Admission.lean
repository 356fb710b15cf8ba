import Duende.Policy.Phase
import Duende.Trans.Potential

/-!
# What the circuit breaker lets through

A client asks `allow` before each request, sends the request only when it is let through, and
records its outcome before it asks again. `failures_bounded` says how many failed requests any
such client can have sent in a stretch of time: the potential argument pays for each of them with
one `recovery_timeout` of time, or with what a success or a reset gave back.
`recovered_of_successes` says that a breaker left alone for one `recovery_timeout` lets every
request through until one fails, and that three successes close it, whatever happened before.
-/

namespace Duende.Policy

/-- A client of the breaker, with the last clock reading and whether a request is in flight. -/
structure Client where
  breaker : CircuitBreaker
  clock : Nat
  busy : Bool
  deriving DecidableEq, Repr

/-- Whether a request is in flight after a call that answered `r`. -/
def inFlight (busy : Bool) : Op → Res → Bool
  | .allow, .allowed ok => ok
  | .recordSuccess, _ => false
  | .recordFailure, _ => false
  | _, _ => busy

namespace Client

/-- What a client does not do: go back in time, ask with a request in flight, or record the
outcome of a request it has not sent. -/
abbrev Permits (s : Client) (c : Call) : Prop :=
  s.clock ≤ c.1 ∧ (c.2 = .allow → s.busy = false) ∧
    (c.2 = .recordSuccess ∨ c.2 = .recordFailure → s.busy = true)

def step (s : Client) (c : Call) : Option Client :=
  if s.Permits c then
    some ⟨(s.breaker.call c.1 c.2).1, c.1, inFlight s.busy c.2 (s.breaker.call c.1 c.2).2⟩
  else none

theorem step_some {s s' : Client} {c : Call} (h : s.step c = some s') :
    s.Permits c ∧ s' = ⟨(s.breaker.call c.1 c.2).1, c.1,
      inFlight s.busy c.2 (s.breaker.call c.1 c.2).2⟩ := by
  unfold step at h
  split at h
  · rename_i hp; exact ⟨hp, (Option.some.inj h).symm⟩
  · cases h

end Client

/-! ## The phase behind a client -/

variable {th : UInt32} {rt : Nat}

/-- The client's breaker represents the phase, and while a request is in flight it is not open. -/
structure Behind (rt : Nat) (ph : Phase (limit th)) (s : Client) : Prop where
  repr : s.breaker = ph.toBreaker rt
  at_ : ph.At rt s.clock
  busy : s.busy = true → ph.state ≠ .open

theorem Phase.lapse_state_ne_open {m now : Nat} {ph : Phase m} (h : ph.state ≠ .open) :
    (ph.lapse rt now).state ≠ .open := by
  cases ph with
  | closed f => exact h
  | halfOpen t s => exact h
  | «open» t => exact absurd rfl h

theorem allows_eq_true {st : CircuitState} : CircuitBreaker.allows st = true ↔ st ≠ .open := by
  cases st <;> simp [CircuitBreaker.allows]

/-- A call of the client moves the phase as the breaker's call does. -/
theorem Behind.step {ph : Phase (limit th)} {s s' : Client} {c : Call} (hb : Behind rt ph s)
    (h : s.step c = some s') : s.Permits c ∧ s'.clock = c.1 ∧
      s'.busy = inFlight s.busy c.2 (ph.call rt c.1 c.2).2 ∧
      Behind rt (ph.call rt c.1 c.2).1 s' := by
  obtain ⟨⟨hclock, hask, hrec⟩, rfl⟩ := Client.step_some h
  have hat := hb.at_.mono hclock
  have hcall := Phase.call_toBreaker c.2 hat
  rw [← hb.repr] at hcall
  refine ⟨⟨hclock, hask, hrec⟩, rfl, by simp only [hcall], ?_, hat.call c.2, ?_⟩
  · simp only [hcall]
  · simp only [hcall]
    obtain ⟨now, o⟩ := c
    cases o with
    | allow => exact allows_eq_true.1
    | state => exact fun hs => Phase.lapse_state_ne_open (hb.busy hs)
    | failureCount => exact hb.busy
    | recordSuccess => exact fun hs => absurd hs Bool.false_ne_true
    | recordFailure => exact fun hs => absurd hs Bool.false_ne_true
    | reset => exact fun _ h => by cases h

/-! ## Failed requests -/

/-- What the phase can pay at `now`: each failure that a closed breaker still takes, the trial of a
half-open one, and what an open one has waited. -/
def Phase.credit {m : Nat} (rt now : Nat) : Phase m → Nat
  | .closed f => (m - f) * rt
  | .halfOpen _ _ => rt
  | .open t => min (now - t) rt

theorem Phase.credit_lapse {m : Nat} (ph : Phase m) (rt now : Nat) :
    (ph.lapse rt now).credit rt now = ph.credit rt now := by
  cases ph with
  | closed f => rfl
  | halfOpen t s => rfl
  | «open» t =>
    simp only [Phase.lapse]
    split
    · simp only [Phase.credit]; omega
    · rfl

theorem Phase.credit_wait {m now now' : Nat} (ph : Phase m) (rt : Nat) (h : now ≤ now') :
    ph.credit rt now' + now ≤ ph.credit rt now + now' := by
  cases ph with
  | closed f => simp only [Phase.credit]; omega
  | halfOpen t s => simp only [Phase.credit]; omega
  | «open» t => simp only [Phase.credit]; omega

theorem Phase.credit_le {now : Nat} (ph : Phase (limit th)) :
    ph.credit rt now ≤ limit th * rt := by
  have h1 : 1 * rt ≤ limit th * rt := Nat.mul_le_mul_right rt (limit_pos th)
  cases ph with
  | closed f => exact Nat.mul_le_mul_right rt (Nat.sub_le _ _)
  | halfOpen t s => simp only [Phase.credit]; omega
  | «open» t => simp only [Phase.credit]; omega

/-- A failure of a request that was let through costs one `recovery_timeout`. -/
theorem Phase.credit_recordFailure {ph : Phase (limit th)} (h : ph.state ≠ .open) (rt now : Nat) :
    rt + (ph.recordFailure now).credit rt now = ph.credit rt now := by
  cases ph with
  | «open» t => exact absurd rfl h
  | halfOpen t s => simp [Phase.recordFailure, Phase.credit]
  | closed f =>
    have hf := f.isLt
    by_cases hn : f.val + 1 < limit th
    · have hm : limit th - f.val = limit th - (f.val + 1) + 1 := by omega
      simp only [Phase.recordFailure, hn, dif_pos, Phase.credit]
      rw [hm, Nat.add_mul]; omega
    · have hm : limit th - f.val = 1 := by omega
      simp [Phase.recordFailure, hn, Phase.credit, hm]

/-- A success gives back at most the failures that were counted. -/
theorem Phase.credit_recordSuccess (ph : Phase (limit th)) (rt now : Nat) :
    ph.recordSuccess.credit rt now ≤ ph.credit rt now + (limit th - 1) * rt := by
  have hpos := limit_pos th
  have hsplit : limit th * rt = (limit th - 1) * rt + rt := by
    have hm : limit th = limit th - 1 + 1 := by omega
    rw [← Nat.succ_mul, Nat.succ_eq_add_one, ← hm]
  cases ph with
  | «open» t => exact Nat.le_add_right _ _
  | closed f =>
    have hf := f.isLt
    have h1 : 1 * rt ≤ (limit th - f.val) * rt := Nat.mul_le_mul_right rt (by omega)
    have h0 : ((0 : Fin (limit th)) : Nat) = 0 := rfl
    simp only [Phase.recordSuccess, Phase.credit, h0, Nat.sub_zero]
    omega
  | halfOpen t s =>
    have h0 : ((0 : Fin (limit th)) : Nat) = 0 := rfl
    simp only [Phase.recordSuccess]
    split
    · exact Nat.le_add_right _ _
    · simp only [Phase.credit, h0, Nat.sub_zero]; omega

/-- What a call gives back. -/
def refund (th : UInt32) (rt : Nat) (c : Call) : Nat :=
  (if c.2 = .recordSuccess then (limit th - 1) * rt else 0) +
    if c.2 = .reset then limit th * rt else 0

/-- **The step lemma**: a call is paid for by the potential, the time that passed and what it
gives back. -/
theorem Behind.pay {ph : Phase (limit th)} {s s' : Client} {c : Call} (hb : Behind rt ph s)
    (h : s.step c = some s') :
    (if c.2 = .recordFailure then rt else 0) + (ph.call rt c.1 c.2).1.credit rt c.1 + s.clock ≤
      ph.credit rt s.clock + refund th rt c + c.1 := by
  obtain ⟨⟨hclock, -, hrec⟩, -⟩ := hb.step h
  have hwait := ph.credit_wait rt hclock
  obtain ⟨now, o⟩ := c
  cases o with
  | state =>
    have := ph.credit_lapse rt now
    simp only [Phase.call, refund, reduceCtorEq, if_false] at *
    omega
  | allow =>
    have := ph.credit_lapse rt now
    simp only [Phase.call, refund, reduceCtorEq, if_false] at *
    omega
  | failureCount => simp only [Phase.call, refund, reduceCtorEq, if_false] at *; omega
  | recordFailure =>
    have hne := hb.busy (hrec (.inr rfl))
    have := Phase.credit_recordFailure hne rt now
    simp only [Phase.call, refund, reduceCtorEq, if_false, if_true] at *
    omega
  | recordSuccess =>
    have := ph.credit_recordSuccess rt now
    simp only [Phase.call, refund, reduceCtorEq, if_false, if_true] at *
    omega
  | reset =>
    have h0 : ((0 : Fin (limit th)) : Nat) = 0 := rfl
    have : (Phase.closed (0 : Fin (limit th))).credit rt now = limit th * rt := by
      simp only [Phase.credit, h0, Nat.sub_zero]
    simp only [Phase.call, refund, reduceCtorEq, if_false, if_true] at *
    omega

theorem behind_reached (th : UInt32) (rt : Nat) {t0 : Nat} {pre : List Call}
    (h : Timed t0 0 pre) : Behind rt ((Phase.start th).after rt pre)
      ⟨(CircuitBreaker.new th rt).after pre, t0, false⟩ := by
  obtain ⟨hrepr, hat⟩ := reached th rt h
  exact ⟨hrepr, hat, nofun⟩

/-- What the client's breaker can pay. -/
def CircuitBreaker.credit (b : CircuitBreaker) (now : Nat) : Nat :=
  match b.state with
  | .closed => (limit b.failureThreshold - b.failureCount) * b.recoveryTimeout
  | .halfOpen => b.recoveryTimeout
  | .open => min (b.openedAt.elim 0 (elapsed now)) b.recoveryTimeout

theorem Phase.credit_toBreaker {now : Nat} (ph : Phase (limit th)) :
    (ph.toBreaker rt).credit now = ph.credit rt now := by
  cases ph <;> rfl

theorem sum_refund (th : UInt32) (rt : Nat) (cs : List Call) :
    (cs.map (refund th rt)).sum =
      cs.countP (fun c => c.2 = .recordSuccess) * ((limit th - 1) * rt) +
        cs.countP (fun c => c.2 = .reset) * (limit th * rt) := by
  rw [← Trans.sum_map_ite, ← Trans.sum_map_ite, ← List.sum_map_add]
  rfl

/-- **Failed requests are bounded.** After any calls whatever, a client that asks before each
request and records its outcome sends at most `failure_threshold` requests that fail, one more for
every `recovery_timeout` that passes, `failure_threshold - 1` more for every success and
`failure_threshold` more for every reset (a threshold of zero counting as one). -/
theorem failures_bounded (th : UInt32) (rt t0 : Nat) (pre cs : List Call) (s : Client)
    (hpre : Timed t0 0 pre)
    (hrun : Trans.run Client.step ⟨(CircuitBreaker.new th rt).after pre, t0, false⟩ cs = some s) :
    cs.countP (fun c => c.2 = .recordFailure) * rt ≤
      limit th * rt + cs.countP (fun c => c.2 = .recordSuccess) * ((limit th - 1) * rt) +
        cs.countP (fun c => c.2 = .reset) * (limit th * rt) + (s.clock - t0) := by
  have hstart := behind_reached th rt hpre
  have hstep : ∀ s c s', (∃ ph : Phase (limit th), Behind rt ph s) → Client.step s c = some s' →
      (∃ ph : Phase (limit th), Behind rt ph s') ∧
        (if c.2 = .recordFailure then rt else 0) + s'.breaker.credit s'.clock + s.clock ≤
          s.breaker.credit s.clock + refund th rt c + s'.clock := by
    rintro s c s' ⟨ph, hb⟩ hs
    obtain ⟨-, hc, -, hb'⟩ := hb.step hs
    refine ⟨⟨_, hb'⟩, ?_⟩
    rw [hb'.repr, hb.repr, Phase.credit_toBreaker, Phase.credit_toBreaker, hc]
    exact hb.pay hs
  have hpay := Trans.run_potential _ _ _ _ hstep ⟨_, hstart⟩ hrun
  have hle : ((CircuitBreaker.new th rt).after pre).credit t0 ≤ limit th * rt := by
    have hrepr : (CircuitBreaker.new th rt).after pre = _ := hstart.repr
    rw [hrepr, Phase.credit_toBreaker]
    exact Phase.credit_le _
  rw [Trans.sum_map_ite, sum_refund] at hpay
  simp only at hpay
  omega

/-- Two failures in a row, a wait of ten and a third failure: the bound is met. -/
theorem failures_bounded_ten : 3 * 10 ≤ limit 2 * 10 + 0 * ((limit 2 - 1) * 10) +
    0 * (limit 2 * 10) + (15 - 5) :=
  failures_bounded 2 10 5 []
    [(5, .allow), (5, .recordFailure), (5, .allow), (5, .recordFailure), (9, .allow), (15, .allow),
      (15, .recordFailure)] ⟨⟨.open, 2, 2, 0, 10, some 15⟩, 15, false⟩ (by decide) (by decide)

/-! ## Recovery -/

/-- The successes that a phase still needs before it is closed and has no failures counted. -/
def Phase.needs {m : Nat} : Phase m → Nat
  | .closed f => if f.val = 0 then 0 else 1
  | .open _ => 3
  | .halfOpen _ s => 3 - s

/-- The phase lets requests through from `t` on. -/
def Phase.Ready {m : Nat} (rt t : Nat) : Phase m → Prop
  | .open t0 => t0 + rt ≤ t
  | _ => True

theorem Phase.ready_of_at {m t : Nat} {ph : Phase m} (h : ph.At rt t) : ph.Ready rt (t + rt) := by
  cases ph with
  | closed f => trivial
  | halfOpen t s => trivial
  | «open» t0 => exact Nat.add_le_add_right h rt

theorem Phase.needs_le {m : Nat} (ph : Phase m) : ph.needs ≤ 3 := by
  cases ph with
  | closed f => simp only [Phase.needs]; split <;> omega
  | «open» t => exact Nat.le_refl 3
  | halfOpen t s => exact Nat.sub_le 3 s

/-- **The step lemma**: a call that is not a failure leaves a phase ready, is let through if it
asks, and a success brings it nearer to closed. -/
theorem Phase.call_ready {t : Nat} {ph : Phase (limit th)} {c : Call} (hr : ph.Ready rt t)
    (ht : t ≤ c.1) (hf : c.2 ≠ .recordFailure) (hb : c.2 = .recordSuccess → ph.state ≠ .open) :
    (ph.call rt c.1 c.2).1.Ready rt t ∧ (c.2 = .allow → (ph.call rt c.1 c.2).2 = .allowed true) ∧
      (ph.call rt c.1 c.2).1.needs ≤ ph.needs - if c.2 = .recordSuccess then 1 else 0 := by
  obtain ⟨now, o⟩ := c
  cases o with
  | recordFailure => exact absurd rfl hf
  | failureCount => exact ⟨hr, (fun h => by cases h), by simp [Phase.call]⟩
  | reset => exact ⟨trivial, (fun h => by cases h), by simp [Phase.call, Phase.needs]⟩
  | recordSuccess =>
    have hne := hb rfl
    cases ph with
    | «open» t0 => exact absurd rfl hne
    | closed f =>
      exact ⟨trivial, (fun h => by cases h),
        by simp [Phase.call, Phase.recordSuccess, Phase.needs]⟩
    | halfOpen t0 s =>
      refine ⟨?_, (fun h => by cases h), ?_⟩
      · simp only [Phase.call, Phase.recordSuccess]; split <;> trivial
      · simp only [Phase.call, Phase.recordSuccess]
        split
        · simp only [Phase.needs, if_true]; omega
        · simp [Phase.needs]
  | state =>
    cases ph with
    | closed f => exact ⟨trivial, (fun h => by cases h), by simp [Phase.call, Phase.lapse]⟩
    | halfOpen t0 s => exact ⟨trivial, (fun h => by cases h), by simp [Phase.call, Phase.lapse]⟩
    | «open» t0 =>
      have hl : t0 + rt ≤ now := Nat.le_trans hr ht
      refine ⟨?_, (fun h => by cases h), ?_⟩ <;>
        simp [Phase.call, Phase.lapse, hl, Phase.Ready, Phase.needs]
  | allow =>
    cases ph with
    | closed f => exact ⟨trivial, fun _ => rfl, by simp [Phase.call, Phase.lapse]⟩
    | halfOpen t0 s => exact ⟨trivial, fun _ => rfl, by simp [Phase.call, Phase.lapse]⟩
    | «open» t0 =>
      have hl : t0 + rt ≤ now := Nat.le_trans hr ht
      refine ⟨?_, fun _ => ?_, ?_⟩ <;>
        simp [Phase.call, Phase.lapse, hl, Phase.Ready, Phase.needs, Phase.state,
          CircuitBreaker.allows]

/-- The answers of a run of the client's calls. -/
def Client.answers (s : Client) : List Call → List (Op × Res)
  | [] => []
  | c :: cs =>
    (c.2, (s.breaker.call c.1 c.2).2) ::
      Client.answers ⟨(s.breaker.call c.1 c.2).1, c.1,
        inFlight s.busy c.2 (s.breaker.call c.1 c.2).2⟩ cs

/-- **The run lemma** for the calls of a client from `t` on, none of them a failure. -/
theorem Behind.recover {t : Nat} : ∀ {cs : List Call} {ph : Phase (limit th)} {s s' : Client},
    Behind rt ph s → ph.Ready rt t → (∀ c ∈ cs, t ≤ c.1 ∧ c.2 ≠ .recordFailure) →
      Trans.run Client.step s cs = some s' →
      (∀ a ∈ s.answers cs, a.1 = .allow → a.2 = .allowed true) ∧
        ∃ ph' : Phase (limit th), Behind rt ph' s' ∧
          ph'.needs ≤ ph.needs - cs.countP (fun c => c.2 = .recordSuccess)
  | [], ph, s, _, hb, _, _, hrun => by
    cases hrun
    exact ⟨nofun, ph, hb, Nat.le_refl _⟩
  | c :: cs, ph, s, s', hb, hr, hcs, hrun => by
    obtain ⟨s1, h1, h2⟩ := Trans.run_cons_some.1 hrun
    obtain ⟨⟨hclock, -, hrec⟩, -, -, hb1⟩ := hb.step h1
    obtain ⟨ht, hf⟩ := hcs c List.mem_cons_self
    obtain ⟨hr1, hallow, hneeds⟩ := ph.call_ready hr ht hf fun h => hb.busy (hrec (.inl h))
    obtain ⟨hans, ph', hb', hn'⟩ :=
      hb1.recover hr1 (fun d hd => hcs d (List.mem_cons_of_mem c hd)) h2
    have hcall := Phase.call_toBreaker c.2 (hb.at_.mono hclock)
    rw [← hb.repr] at hcall
    obtain ⟨-, rfl⟩ := Client.step_some h1
    refine ⟨?_, ph', hb', ?_⟩
    · intro a ha hop
      simp only [Client.answers, List.mem_cons] at ha
      rcases ha with rfl | ha
      · simp only [hcall]; exact hallow hop
      · exact hans a ha hop
    · rw [List.countP_cons]
      simp only [decide_eq_true_eq]
      omega

/-- **A breaker left alone recovers.** Whatever happened up to `t0`, from `t0 + recovery_timeout`
on every request of a client is let through until one fails, and once three of them have succeeded
the breaker is closed with no failure counted. -/
theorem recovered_of_successes (th : UInt32) (rt t0 : Nat) (pre cs : List Call) (s : Client)
    (hpre : Timed t0 0 pre) (hcs : ∀ c ∈ cs, t0 + rt ≤ c.1 ∧ c.2 ≠ .recordFailure)
    (hrun : Trans.run Client.step ⟨(CircuitBreaker.new th rt).after pre, t0, false⟩ cs = some s) :
    (∀ a ∈ Client.answers ⟨(CircuitBreaker.new th rt).after pre, t0, false⟩ cs,
        a.1 = .allow → a.2 = .allowed true) ∧
      (3 ≤ cs.countP (fun c => c.2 = .recordSuccess) →
        s.breaker.state = .closed ∧ s.breaker.failureCount = 0) := by
  have hstart := behind_reached th rt hpre
  obtain ⟨hans, ph, hb, hneeds⟩ :=
    hstart.recover (Phase.ready_of_at hstart.at_) hcs hrun
  refine ⟨hans, fun h3 => ?_⟩
  have hle := ((Phase.start th).after rt pre).needs_le
  have h0 : ph.needs = 0 := by omega
  rw [hb.repr, Phase.toBreaker_state, Phase.toBreaker_failureCount]
  cases ph with
  | «open» t => cases h0
  | halfOpen t k => have hk := k.isLt; simp only [Phase.needs] at h0; omega
  | closed f =>
    refine ⟨rfl, ?_⟩
    by_contra hf
    simp only [Phase.needs, Phase.failures] at h0 hf
    simp [hf] at h0

/-- One failure opens a breaker of threshold one; ten later three successes close it. -/
theorem recovered_of_successes_ten :
    (∀ a ∈ Client.answers ⟨(CircuitBreaker.new 1 10).after [(3, .recordFailure)], 4, false⟩
        [(14, .allow), (15, .recordSuccess), (15, .allow), (16, .recordSuccess), (17, .allow),
          (17, .recordSuccess)], a.1 = .allow → a.2 = .allowed true) ∧
      (CircuitBreaker.mk .closed 1 0 0 10 none).state = .closed :=
  have h := recovered_of_successes 1 10 4 [(3, .recordFailure)]
    [(14, .allow), (15, .recordSuccess), (15, .allow), (16, .recordSuccess), (17, .allow),
      (17, .recordSuccess)] ⟨⟨.closed, 1, 0, 0, 10, none⟩, 17, false⟩ (by decide) (by decide)
    (by decide)
  ⟨h.1, (h.2 (by decide)).1⟩

end Duende.Policy
