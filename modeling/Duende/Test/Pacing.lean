import Duende.Test.Accounting
import Duende.Trans.Spaced

/-!
# The load tester on a clock

`LoadTester::run` with the times of its steps: what `Instant::now` reads, and the sleeps of the
ramp-up and of the rate limiting, which may last longer but not shorter. `load_paced` says when
requests are sent in every run: those of one user at the interval of the rate limiting and not
before its turn in the ramp-up, so that no window of time gets more than its share.
-/

namespace Duende.Test

open Trans

namespace LoadTestConfig

variable {c : LoadTestConfig} {u : Nat}

/-- Milliseconds between the starts of two workers. -/
def rampDelay (c : LoadTestConfig) : Nat :=
  if 1 < c.concurrentUsers.toNat then
    c.rampUp / 10 ^ 6 % 2 ^ 64 / max (c.concurrentUsers.toNat - 1) 1
  else 0

def workerStartDelay (c : LoadTestConfig) (userId : Nat) : Nat :=
  c.rampDelay * userId % 2 ^ 64 * 10 ^ 6

/-- How long a worker sleeps after a request. -/
def delay (c : LoadTestConfig) : Nat := c.interval.join.getD 0

theorem rampDelay_mul_le (hu : u < c.concurrentUsers.toNat) :
    c.rampDelay * u ≤ c.rampUp / 10 ^ 6 % 2 ^ 64 := by
  unfold rampDelay
  split
  · rw [Nat.max_eq_left (by omega)]
    exact (Nat.mul_le_mul_left _ (Nat.le_pred_of_lt hu)).trans (Nat.div_mul_le_self _ _)
  · rw [Nat.zero_mul]
    exact Nat.zero_le _

/-- The product of the source does not overflow. -/
theorem workerStartDelay_eq (hu : u < c.concurrentUsers.toNat) :
    c.workerStartDelay u = c.rampDelay * u * 10 ^ 6 := by
  have hle := rampDelay_mul_le hu
  have hlt : c.rampUp / 10 ^ 6 % 2 ^ 64 < 2 ^ 64 := Nat.mod_lt _ (by decide)
  rw [workerStartDelay, Nat.mod_eq_of_lt (by omega)]

theorem workerStartDelay_le (hu : u < c.concurrentUsers.toNat) :
    c.workerStartDelay u ≤ c.rampUp := by
  rw [workerStartDelay_eq hu]
  have hle := (rampDelay_mul_le hu).trans (Nat.mod_le _ _)
  exact (Nat.mul_le_mul_right _ hle).trans (Nat.div_mul_le_self _ _)

end LoadTestConfig

namespace LoadTester

/-- A load test with the time since its start. `wake` is when the sleep of a worker is over,
`reqStart` when its request was sent; `begun` lists all requests sent, with their times. -/
structure Clocked (n : Nat) where
  load : Load n
  now : Nat
  wake : Fin n → Nat
  reqStart : Fin n → Nat
  begun : List (Fin n × Nat)

/-- An action at a time. -/
abbrev Event (n : Nat) := Nat × Action n

def begin (t : LoadTester) : Clocked t.users where
  load := t.start
  now := 0
  wake _ := 0
  reqStart _ := 0
  begun := []

/-- Whether an action can be taken at this time: the sleep before it is over, and the clocks it
reads show the time. -/
def Clocked.ready {n : Nat} (s : Clocked n) (now : Nat) : Action n → Bool
  | .spawn => true
  | .rampedUp u => decide (s.wake u ≤ now)
  | .check u at' => decide (s.wake u ≤ now ∧ at' = now)
  | .execute u _ latencyUs => decide (latencyUs = UInt64.ofNat ((now - s.reqStart u) / 1000))
  | .record _ => true
  | .finish elapsed => decide (elapsed = now)

/-- What an action that leads to `load` leaves. -/
def Clocked.after (t : LoadTester) (s : Clocked t.users) (load : Load t.users) (now : Nat) :
    Action t.users → Clocked t.users
  | .spawn =>
    { s with
      load := load, now := now
      wake := if h : s.load.spawned < t.users then
        Function.update s.wake ⟨s.load.spawned, h⟩
          (now + t.config.workerStartDelay s.load.spawned)
        else s.wake }
  | .check u _ =>
    if load.phase u = .executing then
      { s with
        load := load, now := now, reqStart := Function.update s.reqStart u now
        begun := s.begun ++ [(u, now)] }
    else { s with load := load, now := now }
  | .record u =>
    if load.phase u = .looping then
      { s with load := load, now := now, wake := Function.update s.wake u (now + t.config.delay) }
    else { s with load := load, now := now }
  | _ => { s with load := load, now := now }

def tick (t : LoadTester) (s : Clocked t.users) (e : Event t.users) : Option (Clocked t.users) :=
  if s.now ≤ e.1 ∧ s.ready e.1 e.2 then
    (t.step s.load e.2).map fun load => s.after t load e.1 e.2
  else none

variable {t : LoadTester} {s s' : Clocked t.users} {now : Nat} {u : Fin t.users}

/-- What a step can do at time `now`. -/
inductive Ticked (t : LoadTester) (s : Clocked t.users) (now : Nat) :
    Action t.users → Clocked t.users → Prop where
  | spawn (h : s.load.spawned < t.users) :
    Ticked t s now .spawn { s with
      load := { s.load.goTo ⟨s.load.spawned, h⟩ .rampUp with spawned := s.load.spawned + 1 }
      now := now
      wake := Function.update s.wake ⟨s.load.spawned, h⟩
        (now + t.config.workerStartDelay s.load.spawned) }
  | rampedUp (u : Fin t.users) (p : Phase) (hu : s.load.phase u = .rampUp)
    (hp : p = .looping ∨ p = .ended) :
    Ticked t s now (.rampedUp u) { s with load := s.load.goTo u p, now := now }
  | leave (u : Fin t.users) (hu : s.load.phase u = .looping) :
    Ticked t s now (.check u now) { s with load := s.load.goTo u .ended, now := now }
  | enter (u : Fin t.users) (hu : s.load.phase u = .looping) (hw : s.wake u ≤ now)
    (hend : now < t.config.testEnd) :
    Ticked t s now (.check u now) { s with
      load := s.load.goTo u .executing
      now := now
      reqStart := Function.update s.reqStart u now
      begun := s.begun ++ [(u, now)] }
  | execute (u : Fin t.users) (success : Bool) (latencyUs : UInt64) (o : Outcome)
    (conf : Conf (Fin t.users) LoadMetrics RecordPc) (hu : s.load.phase u = .executing)
    (hact : metricsObj.act s.load.conf (.call u o) = some conf)
    (ho : ∀ l, o = .success l → l = UInt64.ofNat ((now - s.reqStart u) / 1000)) :
    Ticked t s now (.execute u success latencyUs) { s with
      load := { s.load.goTo u .recording with
        conf := conf, executed := s.load.executed ++ [⟨u, s.load.requestId u, o⟩] }
      now := now }
  | record (u : Fin t.users) (conf : Conf (Fin t.users) LoadMetrics RecordPc)
    (hu : s.load.phase u = .recording)
    (hact : metricsObj.act s.load.conf (.step u ()) = some conf) (hpc : (conf.pc u).isSome) :
    Ticked t s now (.record u) { s with load := { s.load with conf := conf }, now := now }
  | recorded (u : Fin t.users) (conf : Conf (Fin t.users) LoadMetrics RecordPc)
    (hu : s.load.phase u = .recording)
    (hact : metricsObj.act s.load.conf (.step u ()) = some conf) (hpc : conf.pc u = none) :
    Ticked t s now (.record u) { s with
      load := { s.load.goTo u .looping with
        conf := conf
        requestId := Function.update s.load.requestId u (s.load.requestId u + 1) }
      now := now
      wake := Function.update s.wake u (now + t.config.delay) }
  | finish (r : LoadTestReport) (hu : ∀ u, s.load.phase u = .ended)
    (hnone : s.load.report = none) (hr : s.load.conf.shared.report now = some r) :
    Ticked t s now (.finish now) { s with load := { s.load with report := some r }, now := now }

theorem goTo_phase_self {n : Nat} {s : Load n} {u : Fin n} {p : Phase} :
    (s.goTo u p).phase u = p := Function.update_self ..

theorem latency_of_outcome {requestId latencyUs l : UInt64} {success : Bool}
    (h : t.outcome requestId success latencyUs = .success l) : l = latencyUs := by
  rcases ite_eq_iff.1 h with ⟨-, h⟩ | ⟨-, h⟩
  · exact (Outcome.success.inj h).symm
  · cases h

theorem tick_some {e : Event t.users} (h : t.tick s e = some s') :
    s.now ≤ e.1 ∧ s.ready e.1 e.2 ∧ ∃ load, t.step s.load e.2 = some load ∧
      s' = s.after t load e.1 e.2 := by
  unfold tick at h
  split at h
  · rename_i hready
    obtain ⟨load, hstep, rfl⟩ := Option.map_eq_some_iff.1 h
    exact ⟨hready.1, hready.2, load, hstep, rfl⟩
  · cases h

theorem tick_cases {a : Action t.users} (h : t.tick s (now, a) = some s') :
    s.now ≤ now ∧ Ticked t s now a s' := by
  obtain ⟨hnow, hready, load, hstep, rfl⟩ := tick_some h
  refine ⟨hnow, ?_⟩
  cases a with
  | spawn =>
    simp only [step] at hstep
    split at hstep
    · rename_i hlt
      cases hstep
      simp only [Clocked.after, dif_pos hlt]
      exact .spawn hlt
    · cases hstep
  | rampedUp u =>
    simp only [step, Option.ite_none_right_eq_some, Option.some.injEq] at hstep
    obtain ⟨hu, rfl⟩ := hstep
    refine .rampedUp u _ hu ?_
    split
    · exact .inl rfl
    · exact .inr rfl
  | check u at' =>
    simp only [step, Option.ite_none_right_eq_some, Option.some.injEq] at hstep
    obtain ⟨hu, rfl⟩ := hstep
    obtain ⟨hw, rfl⟩ : s.wake u ≤ now ∧ at' = now := of_decide_eq_true hready
    cases hends : t.ends (s.load.requestId u) at' with
    | true =>
      simp only [Clocked.after, if_true, goTo_phase_self]
      exact .leave u hu
    | false =>
      simp only [Clocked.after, goTo_phase_self, if_true, Bool.false_eq_true, if_false]
      rw [ends, Bool.or_eq_false_iff] at hends
      exact .enter u hu hw (Nat.not_le.1 (of_decide_eq_false hends.1))
  | execute u success latencyUs =>
    simp only [step, Option.ite_none_right_eq_some, Option.map_eq_some_iff] at hstep
    obtain ⟨hu, conf, hact, rfl⟩ := hstep
    refine .execute u success latencyUs _ conf hu hact fun l hl => ?_
    have hlat : latencyUs = UInt64.ofNat ((now - s.reqStart u) / 1000) := of_decide_eq_true hready
    exact (latency_of_outcome hl).trans hlat
  | record u =>
    simp only [step, Option.ite_none_right_eq_some, Option.map_eq_some_iff] at hstep
    obtain ⟨hu, conf, hact, rfl⟩ := hstep
    cases hpc : conf.pc u with
    | none =>
      simp only [Clocked.after, Option.isSome_none, Bool.false_eq_true, if_false, if_true,
        Function.update_self, Load.goTo]
      exact .recorded u conf hu hact hpc
    | some p =>
      have hne : s.load.phase u ≠ .looping := by rw [hu]; decide
      simp only [Clocked.after, Option.isSome_some, if_true, if_neg hne]
      exact .record u conf hu hact (by rw [hpc]; rfl)
  | finish elapsed =>
    simp only [step, Option.ite_none_right_eq_some, Option.map_eq_some_iff] at hstep
    obtain ⟨⟨-, hu, hnone⟩, r, hr, rfl⟩ := hstep
    obtain rfl : elapsed = now := of_decide_eq_true hready
    exact .finish r hu hnone hr

theorem tick_load {e : Event t.users} (h : t.tick s e = some s') :
    t.step s.load e.2 = some s'.load := by
  obtain ⟨-, -, load, hstep, rfl⟩ := tick_some h
  have hload : (s.after t load e.1 e.2).load = load := by
    unfold Clocked.after
    split <;> (try split) <;> rfl
  rw [hload, hstep]

/-! ## What holds of a worker -/

/-- When a worker can send its next request, after those at `times`. -/
def Turn (start delay : Nat) (times : List Nat) (wake now : Nat) : Phase → Prop
  | .unspawned => times = []
  | .rampUp | .looping => start ≤ wake ∧ ∀ τ ∈ times, τ + delay ≤ wake
  | .executing | .recording => start ≤ now ∧ ∀ τ ∈ times, τ ≤ now
  | .ended => True

/-- What holds of a worker that has sent requests at `times` and executed `served` of them. -/
structure Worker (t : LoadTester) (u : Fin t.users) (now : Nat) (p : Phase) (wake : Nat)
    (times : List Nat) (served : Nat) : Prop where
  turn : Turn (t.config.workerStartDelay u) t.config.delay times wake now p
  spaced : Spaced t.config.delay times
  within : ∀ τ ∈ times, t.config.workerStartDelay u ≤ τ ∧ τ < t.config.testEnd
  served_eq : times.length = served + if p = .executing then 1 else 0
  /-- It never sleeps for longer than this. -/
  rest : wake ≤ now + max t.config.rampUp t.config.delay

namespace Worker

variable {p : Phase} {wake now' served : Nat} {times : List Nat}

theorem start : Worker t u 0 .unspawned 0 [] 0 where
  turn := rfl
  spaced := .nil
  within _ h := nomatch h
  served_eq := rfl
  rest := Nat.zero_le _

theorem later (h : Worker t u now p wake times served) (hle : now ≤ now') :
    Worker t u now' p wake times served where
  turn := by
    have hturn := h.turn
    cases p with
    | executing | recording =>
      exact ⟨hturn.1.trans hle, fun τ hτ => (hturn.2 τ hτ).trans hle⟩
    | _ => exact hturn
  spaced := h.spaced
  within := h.within
  served_eq := h.served_eq
  rest := h.rest.trans (Nat.add_le_add_right hle _)

theorem spawn (h : Worker t u now .unspawned wake times served) :
    Worker t u now .rampUp (now + t.config.workerStartDelay u) times served where
  turn := by
    obtain rfl : times = [] := h.turn
    exact ⟨Nat.le_add_left _ _, fun τ hτ => nomatch hτ⟩
  spaced := h.spaced
  within := h.within
  served_eq := h.served_eq
  rest := Nat.add_le_add_left ((LoadTestConfig.workerStartDelay_le u.isLt).trans
    (Nat.le_max_left _ _)) now

theorem loop (h : Worker t u now .rampUp wake times served) :
    Worker t u now .looping wake times served where
  turn := h.turn
  spaced := h.spaced
  within := h.within
  served_eq := h.served_eq
  rest := h.rest

theorem finish (h : Worker t u now p wake times served) (hp : p ≠ .executing) :
    Worker t u now .ended wake times served where
  turn := trivial
  spaced := h.spaced
  within := h.within
  served_eq := by
    rw [h.served_eq, if_neg hp]
    rfl
  rest := h.rest

/-- A worker sends a request: its sleep is over, and the test is not. -/
theorem enter (h : Worker t u now .looping wake times served) (hw : wake ≤ now)
    (hend : now < t.config.testEnd) :
    Worker t u now .executing wake (times ++ [now]) served where
  turn := by
    obtain ⟨hstart, htimes⟩ := h.turn
    refine ⟨hstart.trans hw, fun τ hτ => ?_⟩
    rcases List.mem_append.1 hτ with hτ | hτ
    · exact (Nat.le_add_right _ _).trans ((htimes τ hτ).trans hw)
    · exact Nat.le_of_eq (List.mem_singleton.1 hτ)
  spaced := h.spaced.snoc fun τ hτ => (h.turn.2 τ hτ).trans hw
  within τ hτ := by
    rcases List.mem_append.1 hτ with hτ | hτ
    · exact h.within τ hτ
    · obtain rfl := List.mem_singleton.1 hτ
      exact ⟨h.turn.1.trans hw, hend⟩
  served_eq := by
    rw [List.length_append, h.served_eq]
    rfl
  rest := h.rest

theorem execute (h : Worker t u now .executing wake times served) :
    Worker t u now .recording wake times (served + 1) where
  turn := h.turn
  spaced := h.spaced
  within := h.within
  served_eq := h.served_eq
  rest := h.rest

theorem recorded (h : Worker t u now .recording wake times served) :
    Worker t u now .looping (now + t.config.delay) times served where
  turn := ⟨h.turn.1.trans (Nat.le_add_right _ _),
    fun τ hτ => Nat.add_le_add_right (h.turn.2 τ hτ) _⟩
  spaced := h.spaced
  within := h.within
  served_eq := h.served_eq
  rest := Nat.add_le_add_left (Nat.le_max_right _ _) now

end Worker

/-! ## Runs on a clock -/

/-- How many requests of a worker are executed. -/
def Load.served {n : Nat} (s : Load n) (u : Fin n) : Nat :=
  (onKey Request.userId u s.executed).length

/-- What holds of every worker between any two steps. -/
def Paced (t : LoadTester) (s : Clocked t.users) : Prop :=
  ∀ u, Worker t u s.now (s.load.phase u) (s.wake u) (timesOf u s.begun) (s.load.served u)

/-- One worker moves on, and the others stay as they are. -/
structure Others {n : Nat} (s s' : Clocked n) (u : Fin n) : Prop where
  phase : ∀ v ≠ u, s'.load.phase v = s.load.phase v
  wake : ∀ v ≠ u, s'.wake v = s.wake v
  begun : ∀ v ≠ u, timesOf v s'.begun = timesOf v s.begun
  served : ∀ v ≠ u, s'.load.served v = s.load.served v

theorem Paced.move (h : Paced t s) (hnow : s.now ≤ s'.now) (ho : Others s s' u)
    (hu : Worker t u s'.now (s'.load.phase u) (s'.wake u) (timesOf u s'.begun)
      (s'.load.served u)) : Paced t s' := by
  intro v
  by_cases hv : v = u
  · subst hv
    exact hu
  · rw [ho.phase v hv, ho.wake v hv, ho.begun v hv, ho.served v hv]
    exact (h v).later hnow

/-- **Step lemma.** -/
theorem Paced.tick {a : Action t.users} (h : Paced t s) (ha : Accounted t s.load)
    (hstep : t.tick s (now, a) = some s') : Paced t s' := by
  obtain ⟨hnow, hmove⟩ := tick_cases hstep
  have hgoTo : ∀ (u v : Fin t.users) (p : Phase), v ≠ u → (s.load.goTo u p).phase v =
    s.load.phase v := fun u v p hv => Function.update_of_ne hv _ _
  cases hmove with
  | spawn hlt =>
    have hw := (h ⟨s.load.spawned, hlt⟩).later hnow
    rw [ha.unspawned _ (Nat.le_refl _)] at hw
    refine h.move (u := ⟨s.load.spawned, hlt⟩) hnow
      ⟨fun v hv => hgoTo _ v _ hv, fun v hv => Function.update_of_ne hv _ _, fun v _ => rfl,
        fun v _ => rfl⟩ ?_
    simp only [goTo_phase_self, Function.update_self]
    exact hw.spawn
  | rampedUp u p hu hp =>
    have hw := (h u).later hnow
    rw [hu] at hw
    refine h.move (u := u) hnow ⟨fun v hv => hgoTo _ v _ hv, fun v _ => rfl, fun v _ => rfl,
      fun v _ => rfl⟩ ?_
    simp only [goTo_phase_self]
    rcases hp with rfl | rfl
    · exact hw.loop
    · exact hw.finish (by decide)
  | leave u hu =>
    have hw := (h u).later hnow
    rw [hu] at hw
    refine h.move (u := u) hnow ⟨fun v hv => hgoTo _ v _ hv, fun v _ => rfl, fun v _ => rfl,
      fun v _ => rfl⟩ ?_
    simp only [goTo_phase_self]
    exact hw.finish (by decide)
  | enter u hu hwake hend =>
    have hw := (h u).later hnow
    rw [hu] at hw
    refine h.move (u := u) hnow ⟨fun v hv => hgoTo _ v _ hv, fun v _ => rfl,
      fun v hv => timesOf_snoc_ne (Ne.symm hv), fun v _ => rfl⟩ ?_
    simp only [goTo_phase_self, timesOf_snoc_self]
    exact hw.enter hwake hend
  | execute u success latencyUs o conf hu hact ho =>
    have hw := (h u).later hnow
    rw [hu] at hw
    let r : Request t.users := ⟨u, s.load.requestId u, o⟩
    have hself : onKey Request.userId u (s.load.executed ++ [r]) =
        onKey Request.userId u s.load.executed ++ [r] := onKey_snoc_self (a := r)
    have hserved : (onKey Request.userId u (s.load.executed ++ [r])).length =
        s.load.served u + 1 := by
      rw [hself, List.length_append]
      rfl
    refine h.move (u := u) hnow ⟨fun v hv => hgoTo _ v _ hv, fun v _ => rfl, fun v _ => rfl,
      fun v hv => congrArg List.length (onKey_snoc_ne (a := r) (Ne.symm hv))⟩ ?_
    have hexec := hw.execute
    rw [← hserved] at hexec
    simp only [Load.goTo, Load.served, Function.update_self]
    exact hexec
  | record u conf hu hact hpc => exact fun v => (h v).later hnow
  | recorded u conf hu hact hpc =>
    have hw := (h u).later hnow
    rw [hu] at hw
    refine h.move (u := u) hnow ⟨fun v hv => hgoTo _ v _ hv,
      fun v hv => Function.update_of_ne hv _ _, fun v _ => rfl, fun v _ => rfl⟩ ?_
    simp only [goTo_phase_self, Function.update_self]
    exact hw.recorded
  | finish r hu hnone hr => exact fun v => (h v).later hnow

theorem paced_run {es : List (Event t.users)} (hr : run t.tick t.begin es = some s) :
    Paced t s ∧ Accounted t s.load := by
  refine run_inv (P := fun s => Paced t s ∧ Accounted t s.load) ?_ ⟨fun _ => .start, .start t⟩ hr
  rintro s ⟨now, a⟩ s' ⟨hp, ha⟩ hstep
  exact ⟨hp.tick ha hstep, ha.step (tick_load hstep)⟩

/-! ## The rate of requests -/

/-- How many requests were sent in the window of length `w` from `a` on. -/
def Clocked.sentIn {n : Nat} (s : Clocked n) (a w : Nat) : Nat :=
  s.begun.countP fun e => a ≤ e.2 ∧ e.2 ≤ a + w

namespace Paced

theorem executed_le (h : Paced t s) : s.load.executed.length ≤ s.begun.length := by
  have hexec : s.load.executed.length =
      ∑ u, (onKey Request.userId u s.load.executed).length := length_eq_sum_onKey
  have hbegun : s.begun.length = ∑ u, (onKey Prod.fst u s.begun).length := length_eq_sum_onKey
  rw [hexec, hbegun]
  refine Finset.sum_le_sum fun u _ => ?_
  have hserved := (h u).served_eq
  rw [timesOf, List.length_map, Load.served] at hserved
  omega

theorem window (h : Paced t s) (hd : 0 < t.config.delay) (a w : Nat) :
    s.sentIn a w ≤ t.users * (w / t.config.delay + 1) := by
  have hle := window_le (fun u => (h u).spaced) hd a w
  rwa [Fintype.card_fin] at hle

theorem begun_le (h : Paced t s) (hd : 0 < t.config.delay) :
    s.begun.length ≤ t.users * (t.config.testEnd / t.config.delay + 1) := by
  refine le_trans (le_of_eq ?_) (h.window hd 0 t.config.testEnd)
  refine (List.countP_eq_length.2 fun e he => ?_).symm
  have hlt := ((h e.1).within e.2 (mem_timesOf.2 he)).2
  simp only [Nat.zero_le, Nat.zero_add, true_and, decide_eq_true_eq]
  exact Nat.le_of_lt hlt

end Paced

end LoadTester

theorem LoadTestConfig.interval_lower {c : LoadTestConfig} {q : ℚ} {d : Nat}
    (hrps : c.targetRps = some (.finite q)) (hq : 0 < q) (hd : c.interval = some (some d)) :
    c.concurrentUsers.toNat * 10 ^ 9 / q - 1 ≤ d := by
  simp only [interval, hrps, F64.recip, if_neg hq.ne', F64.times, Option.map_eq_some_iff,
    Option.some.injEq, exists_eq_right, Core.fromSecsF64, Option.ite_none_left_eq_some] at hd
  obtain ⟨-, rfl⟩ := hd
  have hx : 1 / q * c.concurrentUsers.toNat * 10 ^ 9 = c.concurrentUsers.toNat * 10 ^ 9 / q := by
    ring
  rw [hx]
  generalize (c.concurrentUsers.toNat * 10 ^ 9 / q : ℚ) = x
  have hfloor : ⌊x⌋ ≤ F64.roundHalfEven x := by
    have hmono := F64.roundHalfEven_mono (Int.floor_le x)
    rwa [F64.roundHalfEven_of_integer] at hmono
  have hcast : (F64.roundHalfEven x : ℚ) ≤ (F64.roundHalfEven x).toNat := by
    exact_mod_cast Int.self_le_toNat _
  have hlt := Int.lt_floor_add_one x
  have hfloor' : (⌊x⌋ : ℚ) ≤ F64.roundHalfEven x := by exact_mod_cast hfloor
  linarith

theorem rate_le {n k w d : Nat} {q : ℚ} (hn : 0 < n) (hq : 0 < q) (hd : n * 10 ^ 9 / q - 1 ≤ d)
    (hk : 0 < d → k ≤ n * (w / d + 1)) : k * (10 ^ 9 - q / n) ≤ n * 10 ^ 9 + q * w := by
  have hnq : (0 : ℚ) < n := by exact_mod_cast hn
  have hk0 : (0 : ℚ) ≤ k := Nat.cast_nonneg k
  have hright : (0 : ℚ) ≤ n * 10 ^ 9 + q * w := by positivity
  rcases le_or_gt (10 ^ 9 - q / n : ℚ) 0 with hc | hc
  · exact (mul_nonpos_of_nonneg_of_nonpos hk0 hc).trans hright
  -- the rate is not above one request of every user in a nanosecond: there is an interval
  have hslow : 10 ^ 9 - q / n ≤ q / n * d := by
    calc (10 ^ 9 - q / n : ℚ) = q / n * (n * 10 ^ 9 / q - 1) := by field_simp
      _ ≤ q / n * d := mul_le_mul_of_nonneg_left hd (by positivity)
  have hd0 : (0 : ℚ) < d := by
    by_contra hle
    have := mul_nonpos_of_nonneg_of_nonpos (show (0 : ℚ) ≤ q / n by positivity) (not_lt.1 hle)
    linarith
  have hshare : ((w / d : Nat) : ℚ) ≤ w / d := Nat.cast_div_le
  have hk' : (k : ℚ) ≤ n * (w / d + 1) := by
    have hle : (k : ℚ) ≤ n * ((w / d : Nat) + 1) := by exact_mod_cast hk (by exact_mod_cast hd0)
    exact hle.trans (mul_le_mul_of_nonneg_left (by linarith) hnq.le)
  have hfull : (n : ℚ) * (10 ^ 9 - q / n) ≤ n * 10 ^ 9 :=
    mul_le_mul_of_nonneg_left (by linarith [show (0 : ℚ) ≤ q / n by positivity]) hnq.le
  have hrest : (n * (w / d) : ℚ) * (10 ^ 9 - q / n) ≤ n * (w / d) * (q / n * d) :=
    mul_le_mul_of_nonneg_left hslow (by positivity)
  have hcancel : (n * (w / d) : ℚ) * (q / n * d) = q * w := by field_simp
  have hmul := mul_le_mul_of_nonneg_right hk' hc.le
  linarith

namespace LoadTester

variable {t : LoadTester} {s : Clocked t.users}

/-- One user, at a request each nanosecond. -/
def steadyUser : LoadTester where
  config := ⟨1, 0, 100, some 2, some (.finite (10 ^ 9))⟩
  handler := true

def steady : Fin steadyUser.users := ⟨0, Nat.one_pos⟩

/-- A request that is sent and answered at `now`. -/
def requestAt (now : Nat) : List (Event steadyUser.users) :=
  [(now, .check steady now), (now, .execute steady true 0), (now, .record steady),
    (now, .record steady), (now, .record steady)]

/-- Two requests, and the end of the user. -/
def twoRequests : List (Event steadyUser.users) :=
  [(0, .spawn), (0, .rampedUp steady)] ++ requestAt 0 ++ requestAt 1 ++ [(2, .check steady 2)]

theorem begun_twoRequests : (run steadyUser.tick steadyUser.begin twoRequests).map Clocked.begun =
    some [(steady, 0), (steady, 1)] := by decide +kernel

end LoadTester

end Duende.Test
