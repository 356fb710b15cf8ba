import Duende.Test.Pacing
import Duende.Trans.Potential

/-!
# The load tester returns

What every worker still has to do, once it sends no more requests, is bounded; so is, through the
requests sent, the length of every run on a clock. `load_returns` puts this together with the
sleeps: until the report is made a step is ahead, after one of them at most.
-/

namespace Duende.Test

open Trans

/-- How many steps are left of recording a request. -/
def RecordPc.left : RecordPc → Nat
  | .total (.success _) => 3
  | .total .failure | .successful _ => 2
  | .push _ | .failed => 1

theorem RecordPc.left_le (p : RecordPc) : p.left ≤ 3 := by
  cases p with
  | total o => cases o <;> exact Nat.le_of_ble_eq_true rfl
  | _ => exact Nat.le_of_ble_eq_true rfl

theorem recordStep_left {m m' : LoadMetrics} {p : RecordPc} {q : RecordPc ⊕ Unit}
    (h : recordStep m p = (m', q)) : 1 + (q.getLeft?).elim 0 RecordPc.left ≤ p.left := by
  cases p with
  | total o => cases o <;> cases h <;> exact Nat.le_refl _
  | _ => cases h; exact Nat.le_refl _

namespace LoadTester

variable {t : LoadTester} {s s' : Clocked t.users} {now : Nat} {u : Fin t.users}

/-- How many steps a worker takes until it ends, if it sends no more requests. -/
def toGo (p : Phase) (pc : Option RecordPc) : Nat :=
  match p with
  | .unspawned => 3
  | .rampUp => 2
  | .looping => 1
  | .executing => 5
  | .recording => 1 + pc.elim 0 RecordPc.left
  | .ended => 0

theorem toGo_le (p : Phase) (pc : Option RecordPc) : toGo p pc ≤ 5 := by
  cases p with
  | recording =>
    cases pc with
    | none => exact Nat.le_of_ble_eq_true rfl
    | some p =>
      have := p.left_le
      show 1 + p.left ≤ 5
      omega
  | _ => exact Nat.le_of_ble_eq_true rfl

/-- How many steps a load test takes if no more requests are sent. -/
def Load.credit {n : Nat} (s : Load n) : Nat :=
  ∑ u, toGo (s.phase u) (s.conf.pc u) + if s.report = none then 1 else 0

theorem credit_le (s : Load t.users) : s.credit ≤ 5 * t.users + 1 := by
  have hsum : ∑ u, toGo (s.phase u) (s.conf.pc u) ≤ ∑ _u : Fin t.users, 5 :=
    Finset.sum_le_sum fun u _ => toGo_le _ _
  rw [Finset.sum_const, Finset.card_univ, Fintype.card_fin, smul_eq_mul] at hsum
  unfold Load.credit
  split <;> omega

theorem credit_start (t : LoadTester) : t.start.credit = 3 * t.users + 1 := by
  have hsum : ∑ u, toGo (t.start.phase u) (t.start.conf.pc u) = ∑ _u : Fin t.users, 3 := rfl
  rw [Load.credit, hsum, Finset.sum_const, Finset.card_univ, Fintype.card_fin, smul_eq_mul,
    Nat.mul_comm]
  rfl

theorem credit_step {l l' : Load t.users} {m : Nat} (hr : l'.report = l.report)
    (ho : ∀ v ≠ u, l'.phase v = l.phase v ∧ l'.conf.pc v = l.conf.pc v)
    (hu : 1 + toGo (l'.phase u) (l'.conf.pc u) ≤ toGo (l.phase u) (l.conf.pc u) + m) :
    1 + l'.credit ≤ l.credit + m := by
  have hsum := add_sum_le_of_eq_off (f := fun v => toGo (l.phase v) (l.conf.pc v))
    (g := fun v => toGo (l'.phase v) (l'.conf.pc v)) (i := u)
    (fun v hv => by rw [(ho v hv).1, (ho v hv).2]) hu
  unfold Load.credit
  rw [hr]
  omega

/-- **Step lemma.** A step is paid out of the credit, or by a request that is sent. -/
theorem credit_tick {a : Action t.users} (ha : Accounted t s.load)
    (h : t.tick s (now, a) = some s') :
    1 + s'.load.credit + 5 * s.begun.length ≤ s.load.credit + 5 * s'.begun.length := by
  obtain ⟨-, hmove⟩ := tick_cases h
  have hgoTo : ∀ {u v : Fin t.users} {p : Phase}, v ≠ u → (s.load.goTo u p).phase v =
    s.load.phase v := fun hv => Function.update_of_ne hv _ _
  cases hmove with
  | spawn hlt =>
    refine Nat.add_le_add_right ?_ _
    refine credit_step (m := 0) (u := ⟨s.load.spawned, hlt⟩) rfl (fun v hv => ⟨hgoTo hv, rfl⟩) ?_
    have hnew := ha.unspawned ⟨s.load.spawned, hlt⟩ (Nat.le_refl _)
    simp only [goTo_phase_self, hnew]
    exact Nat.le_refl 3
  | rampedUp u p hu hp =>
    refine Nat.add_le_add_right ?_ _
    refine credit_step (m := 0) (u := u) rfl (fun v hv => ⟨hgoTo hv, rfl⟩) ?_
    simp only [goTo_phase_self, hu]
    rcases hp with rfl | rfl
    · exact Nat.le_refl 2
    · exact Nat.le_succ 1
  | leave u hu =>
    refine Nat.add_le_add_right ?_ _
    refine credit_step (m := 0) (u := u) rfl (fun v hv => ⟨hgoTo hv, rfl⟩) ?_
    simp only [goTo_phase_self, hu]
    exact Nat.le_refl 1
  | enter u hu hw hend =>
    have hpay : 1 + (s.load.goTo u .executing).credit ≤ s.load.credit + 5 :=
      credit_step rfl (u := u) (fun v hv => ⟨hgoTo hv, rfl⟩) (by
        simp only [goTo_phase_self, hu]
        exact Nat.le_refl 6)
    rw [List.length_append, List.length_singleton]
    show 1 + (s.load.goTo u .executing).credit + _ ≤ _
    omega
  | execute u success latencyUs o conf hu hact ho =>
    obtain ⟨-, rfl⟩ := Obj.act_call.1 hact
    refine Nat.add_le_add_right ?_ _
    refine credit_step (m := 0) (u := u) rfl
      (fun v hv => ⟨hgoTo hv, Function.update_of_ne hv _ _⟩) ?_
    simp only [Load.goTo, Function.update_self, hu]
    have hleft := (RecordPc.total o).left_le
    show 1 + (1 + (RecordPc.total o).left) ≤ 5
    omega
  | record u conf hu hact hpc =>
    obtain ⟨p, m, q, hp, hx, rfl⟩ := Obj.act_step.1 hact
    have hleft := recordStep_left (Option.some.inj hx)
    refine Nat.add_le_add_right ?_ _
    refine credit_step (m := 0) (u := u) rfl
      (fun v hv => ⟨rfl, Function.update_of_ne hv _ _⟩) ?_
    simp only [Function.update_self, hu, hp, toGo, Option.elim_some]
    omega
  | recorded u conf hu hact hpc =>
    obtain ⟨p, m, q, hp, hx, rfl⟩ := Obj.act_step.1 hact
    have hleft := recordStep_left (Option.some.inj hx)
    refine Nat.add_le_add_right ?_ _
    refine credit_step (m := 0) (u := u) rfl
      (fun v hv => ⟨hgoTo hv, Function.update_of_ne hv _ _⟩) ?_
    simp only [goTo_phase_self, hu, hp, toGo, Option.elim_some]
    omega
  | finish r hu hnone hr =>
    refine Nat.add_le_add_right ?_ _
    simp only [Load.credit, hnone, if_true, reduceCtorEq, if_false]
    omega

/-! ## A step is ahead -/

/-- The workers spawned have begun, and those that record a request have a step left. -/
structure Staffed {n : Nat} (s : Load n) : Prop where
  spawned_le : s.spawned ≤ n
  unspawned : ∀ u : Fin n, s.phase u = .unspawned → s.spawned ≤ u
  recording : ∀ u, s.phase u = .recording → (s.conf.pc u).isSome

namespace Staffed

theorem start (t : LoadTester) : Staffed t.start where
  spawned_le := Nat.zero_le _
  unspawned _ _ := Nat.zero_le _
  recording _ h := nomatch h

theorem move {n : Nat} {l l' : Load n} {u : Fin n} (h : Staffed l) (hs : l'.spawned = l.spawned)
    (ho : ∀ v ≠ u, l'.phase v = l.phase v ∧ l'.conf.pc v = l.conf.pc v)
    (hun : l'.phase u ≠ .unspawned)
    (hrec : l'.phase u = .recording → (l'.conf.pc u).isSome) : Staffed l' := by
  constructor
  case spawned_le => exact hs ▸ h.spawned_le
  case unspawned =>
    intro v hv
    have hvu : v ≠ u := fun e => hun (e ▸ hv)
    rw [(ho v hvu).1] at hv
    exact hs ▸ h.unspawned v hv
  case recording =>
    intro v hv
    by_cases hvu : v = u
    · subst hvu
      exact hrec hv
    · rw [(ho v hvu).1] at hv
      rw [(ho v hvu).2]
      exact h.recording v hv

theorem tick {a : Action t.users} (h : Staffed s.load) (hstep : t.tick s (now, a) = some s') :
    Staffed s'.load := by
  have hgoTo : ∀ {u v : Fin t.users} {p : Phase}, v ≠ u → (s.load.goTo u p).phase v =
    s.load.phase v := fun hv => Function.update_of_ne hv _ _
  obtain ⟨-, hmove⟩ := tick_cases hstep
  cases hmove with
  | spawn hlt =>
    have hnew : (s.load.goTo ⟨s.load.spawned, hlt⟩ .rampUp).phase ⟨s.load.spawned, hlt⟩ =
      .rampUp := goTo_phase_self
    have hgo : Staffed (s.load.goTo ⟨s.load.spawned, hlt⟩ .rampUp) := by
      refine h.move (u := ⟨s.load.spawned, hlt⟩) rfl (fun v hv => ⟨hgoTo hv, rfl⟩) ?_ ?_
      · rw [hnew]; decide
      · rw [hnew]; exact fun e => by cases e
    refine ⟨hlt, fun v hv => ?_, hgo.recording⟩
    refine Nat.lt_of_le_of_ne (hgo.unspawned v hv) fun heq => ?_
    obtain rfl : v = ⟨s.load.spawned, hlt⟩ := Fin.ext heq.symm
    exact absurd (hnew.symm.trans hv) (by decide)
  | rampedUp u p hu hp =>
    refine h.move (u := u) rfl (fun v hv => ⟨hgoTo hv, rfl⟩) ?_ ?_ <;>
      simp only [goTo_phase_self] <;> rcases hp with rfl | rfl
    · decide
    · decide
    · exact fun e => by cases e
    · exact fun e => by cases e
  | leave u hu =>
    refine h.move (u := u) rfl (fun v hv => ⟨hgoTo hv, rfl⟩) ?_ ?_ <;>
      simp only [goTo_phase_self]
    · decide
    · exact fun e => by cases e
  | enter u hu hw hend =>
    refine h.move (u := u) rfl (fun v hv => ⟨hgoTo hv, rfl⟩) ?_ ?_ <;>
      simp only [goTo_phase_self]
    · decide
    · exact fun e => by cases e
  | execute u success latencyUs o conf hu hact ho =>
    obtain ⟨-, rfl⟩ := Obj.act_call.1 hact
    refine h.move (u := u) rfl (fun v hv => ⟨hgoTo hv, Function.update_of_ne hv _ _⟩) ?_ ?_
    · simp only [goTo_phase_self]; decide
    · intro _
      simp only [Function.update_self, Option.isSome_some]
  | record u conf hu hact hpc =>
    obtain ⟨p, m, q, hp, hx, rfl⟩ := Obj.act_step.1 hact
    refine h.move (u := u) rfl (fun v hv => ⟨rfl, Function.update_of_ne hv _ _⟩) ?_ fun _ => hpc
    simp only [hu]; decide
  | recorded u conf hu hact hpc =>
    obtain ⟨p, m, q, hp, hx, rfl⟩ := Obj.act_step.1 hact
    refine h.move (u := u) rfl (fun v hv => ⟨hgoTo hv, Function.update_of_ne hv _ _⟩) ?_ ?_
    · simp only [goTo_phase_self]; decide
    · simp only [goTo_phase_self]; exact fun e => by cases e
  | finish r hu hnone hr => exact ⟨h.spawned_le, h.unspawned, h.recording⟩

end Staffed

theorem tick_isSome {a : Action t.users} (hnow : s.now ≤ now) (hready : s.ready now a = true)
    (hstep : (t.step s.load a).isSome) : (t.tick s (now, a)).isSome := by
  unfold tick
  rw [if_pos ⟨hnow, hready⟩, Option.isSome_map]
  exact hstep

/-- **Progress.** Until the report is made a step is ahead, at most one sleep away. -/
theorem exists_tick (hp : Paced t s) (ha : Accounted t s.load) (hs : Staffed s.load)
    (hnone : s.load.report = none) : ∃ e : Event t.users, s.now ≤ e.1 ∧
      e.1 ≤ s.now + max t.config.rampUp t.config.delay ∧ (t.tick s e).isSome := by
  have hself : s.now ≤ s.now + max t.config.rampUp t.config.delay := Nat.le_add_right _ _
  by_cases hlt : s.load.spawned < t.users
  · exact ⟨(s.now, .spawn), Nat.le_refl _, hself,
      tick_isSome (Nat.le_refl _) rfl (Option.isSome_of_eq_some (dif_pos hlt))⟩
  by_cases hall : ∀ u, s.load.phase u = .ended
  · have hspawned : s.load.spawned = t.users := Nat.le_antisymm hs.spawned_le (Nat.not_lt.1 hlt)
    obtain ⟨r, hstep⟩ := step_finish hspawned hall hnone s.now
    exact ⟨(s.now, .finish s.now), Nat.le_refl _, hself,
      tick_isSome (Nat.le_refl _) (decide_eq_true rfl) (Option.isSome_of_eq_some hstep)⟩
  obtain ⟨u, hu⟩ := not_forall.1 hall
  have hawake : s.wake u ≤ max s.now (s.wake u) := Nat.le_max_right _ _
  have hwait : max s.now (s.wake u) ≤ s.now + max t.config.rampUp t.config.delay :=
    Nat.max_le.2 ⟨hself, (hp u).rest⟩
  cases hphase : s.load.phase u with
  | unspawned => exact absurd (hs.unspawned u hphase) (by omega)
  | rampUp =>
    exact ⟨(max s.now (s.wake u), .rampedUp u), Nat.le_max_left _ _, hwait,
      tick_isSome (Nat.le_max_left _ _) (decide_eq_true hawake)
        (Option.isSome_of_eq_some (if_pos hphase))⟩
  | looping =>
    exact ⟨(max s.now (s.wake u), .check u (max s.now (s.wake u))), Nat.le_max_left _ _, hwait,
      tick_isSome (Nat.le_max_left _ _) (decide_eq_true ⟨hawake, rfl⟩)
        (Option.isSome_of_eq_some (if_pos hphase))⟩
  | executing =>
    refine ⟨(s.now, .execute u true (UInt64.ofNat ((s.now - s.reqStart u) / 1000))),
      Nat.le_refl _, hself, tick_isSome (Nat.le_refl _) (decide_eq_true rfl) ?_⟩
    · simp only [step, if_pos hphase, Option.isSome_map]
      rw [Obj.act_call.2 ⟨ha.idle u (by rw [hphase]; decide), rfl⟩]
      rfl
  | recording =>
    obtain ⟨p, hpc⟩ := Option.isSome_iff_exists.1 (hs.recording u hphase)
    refine ⟨(s.now, .record u), Nat.le_refl _, hself, tick_isSome (Nat.le_refl _) rfl ?_⟩
    · simp only [step, if_pos hphase, Option.isSome_map]
      rw [Obj.act_step.2 ⟨p, _, _, hpc, rfl, rfl⟩]
      rfl
  | ended => exact absurd hphase hu

end LoadTester

/-! ## Latencies -/

/-- The latency that is still to be recorded. -/
def RecordPc.latency : RecordPc → Option UInt64
  | .total (.success latencyUs) | .successful latencyUs | .push latencyUs => some latencyUs
  | _ => none

/-- A step of recording adds no latency but that of its request. -/
theorem recordStep_latency {m m' : LoadMetrics} {p : RecordPc} {q : RecordPc ⊕ Unit}
    (h : recordStep m p = (m', q)) :
    (∀ x ∈ m'.latenciesUs, x ∈ m.latenciesUs ∨ x ∈ p.latency) ∧
      ∀ p', q = .inl p' → ∀ x ∈ p'.latency, x ∈ p.latency := by
  cases p with
  | total o =>
    cases o with
    | success l =>
      cases h
      exact ⟨fun x hx => .inl hx, fun p' hp x hx => by cases hp; exact hx⟩
    | failure =>
      cases h
      exact ⟨fun x hx => .inl hx, fun p' hp x hx => by cases hp; cases hx⟩
  | successful l =>
    cases h
    exact ⟨fun x hx => .inl hx, fun p' hp x hx => by cases hp; exact hx⟩
  | push l =>
    cases h
    refine ⟨fun x hx => ?_, fun p' hp => by cases hp⟩
    rcases List.mem_append.1 hx with hx | hx
    · exact .inl hx
    · exact .inr (congrArg some (List.mem_singleton.1 hx).symm)
  | failed =>
    cases h
    exact ⟨fun x hx => .inl hx, fun p' hp => by cases hp⟩

theorem mem_of_percentile {sorted : List UInt64} {p : Nat} {x : UInt64} (hne : sorted ≠ [])
    (h : percentile sorted p = some x) : x ∈ sorted := by
  rw [percentile, if_neg (by rw [List.isEmpty_eq_false_iff.2 hne]; decide)] at h
  exact List.mem_of_getElem? h

theorem report_mem {m : LoadMetrics} {elapsed : Nat} {r : LoadTestReport}
    (h : m.report elapsed = some r) :
    ∀ x ∈ [r.latencyP50Us, r.latencyP95Us, r.latencyP99Us], x = 0 ∨ x ∈ m.latenciesUs := by
  intro x hx
  by_cases hne : m.latenciesUs.mergeSort = []
  · obtain ⟨r', hr', h50, h95, h99⟩ := report_nil hne elapsed
    cases h.symm.trans hr'
    rw [h50, h95, h99] at hx
    left
    simpa using hx
  · obtain ⟨x50, hx50⟩ := exists_percentile (p := 50) hne
    obtain ⟨x95, hx95⟩ := exists_percentile (p := 95) hne
    obtain ⟨x99, hx99⟩ := exists_percentile (p := 99) hne
    obtain ⟨r', hr', rfl, rfl, rfl⟩ := report_eq hne hx50 hx95 hx99 elapsed
    cases h.symm.trans hr'
    have hmem : x ∈ m.latenciesUs.mergeSort := by
      simp only [List.mem_cons, List.not_mem_nil, or_false] at hx
      rcases hx with rfl | rfl | rfl
      · exact mem_of_percentile hne hx50
      · exact mem_of_percentile hne hx95
      · exact mem_of_percentile hne hx99
    exact .inr (List.mem_mergeSort.1 hmem)

namespace LoadTester

variable {t : LoadTester} {s s' : Clocked t.users} {now : Nat} {u : Fin t.users}

/-- No latency is longer than the test has taken so far. -/
structure Timely {n : Nat} (s : Clocked n) : Prop where
  recorded : ∀ x ∈ s.load.conf.shared.latenciesUs, x.toNat * 1000 ≤ s.now
  recording : ∀ u p, s.load.conf.pc u = some p → ∀ x ∈ p.latency, x.toNat * 1000 ≤ s.now
  report : ∀ r, s.load.report = some r →
    ∀ x ∈ [r.latencyP50Us, r.latencyP95Us, r.latencyP99Us], x.toNat * 1000 ≤ s.now

namespace Timely

theorem start (t : LoadTester) : Timely t.begin where
  recorded _ h := nomatch h
  recording _ _ h := nomatch h
  report _ h := nomatch h

theorem later {n : Nat} {s s' : Clocked n} (h : Timely s) (hnow : s.now ≤ s'.now)
    (hconf : s'.load.conf = s.load.conf) (hrep : s'.load.report = s.load.report) :
    Timely s' where
  recorded x hx := (h.recorded x (hconf ▸ hx)).trans hnow
  recording u p hp x hx := (h.recording u p (hconf ▸ hp) x hx).trans hnow
  report r hr x hx := (h.report r (hrep ▸ hr) x hx).trans hnow

/-- A measured latency fits in the time so far, also when it wraps around. -/
theorem measured_le (now since : Nat) :
    (UInt64.ofNat ((now - since) / 1000)).toNat * 1000 ≤ now := by
  rw [UInt64.toNat_ofNat']
  exact (Nat.mul_le_mul_right 1000 (Nat.mod_le _ _)).trans
    ((Nat.div_mul_le_self _ _).trans (Nat.sub_le _ _))

theorem record {conf : Conf (Fin t.users) LoadMetrics RecordPc} (h : Timely s)
    (hnow : s.now ≤ s'.now) (hact : metricsObj.act s.load.conf (.step u ()) = some conf)
    (hconf : s'.load.conf = conf) (hrep : s'.load.report = s.load.report) : Timely s' := by
  obtain ⟨p, m, q, hp, hx, rfl⟩ := Obj.act_step.1 hact
  obtain ⟨hshared, hpc⟩ := recordStep_latency (Option.some.inj hx)
  constructor
  case recorded =>
    intro x hmem
    rw [hconf] at hmem
    rcases hshared x hmem with hold | hnew
    · exact (h.recorded x hold).trans hnow
    · exact (h.recording u p hp x hnew).trans hnow
  case recording =>
    intro v p' hp' x hmem
    rw [hconf] at hp'
    rcases Conf.pc_update_cases hp' with ⟨-, hq⟩ | ⟨-, hv⟩
    · cases q with
      | inl p'' =>
        cases hq
        exact (h.recording u p hp x (hpc _ rfl x hmem)).trans hnow
      | inr r => cases hq
    · exact (h.recording v p' hv x hmem).trans hnow
  case report => exact fun r hr x hmem => (h.report r (hrep ▸ hr) x hmem).trans hnow

theorem tick {a : Action t.users} (h : Timely s) (hstep : t.tick s (now, a) = some s') :
    Timely s' := by
  obtain ⟨hnow, hmove⟩ := tick_cases hstep
  cases hmove with
  | spawn hlt => exact h.later hnow rfl rfl
  | rampedUp u p hu hp => exact h.later hnow rfl rfl
  | leave u hu => exact h.later hnow rfl rfl
  | enter u hu hw hend => exact h.later hnow rfl rfl
  | execute u success latencyUs o conf hu hact ho =>
    obtain ⟨-, rfl⟩ := Obj.act_call.1 hact
    refine ⟨fun x hx => (h.recorded x hx).trans hnow, fun v p hp x hx => ?_,
      fun r hr x hx => (h.report r hr x hx).trans hnow⟩
    rcases Conf.pc_update_cases hp with ⟨-, hq⟩ | ⟨-, hv⟩
    · cases hq
      cases o with
      | success l =>
        obtain rfl : l = x := Option.some.inj hx
        rw [ho l rfl]
        exact measured_le _ _
      | failure => cases hx
    · exact (h.recording v p hv x hx).trans hnow
  | record u conf hu hact hpc => exact h.record hnow hact rfl rfl
  | recorded u conf hu hact hpc => exact h.record hnow hact rfl rfl
  | finish r hu hnone hr =>
    refine ⟨fun x hx => (h.recorded x hx).trans hnow,
      fun v p hp x hx => (h.recording v p hp x hx).trans hnow, fun r' hr' x hx => ?_⟩
    cases hr'
    rcases report_mem hr x hx with rfl | hmem
    · exact Nat.zero_le _
    · exact (h.recorded x hmem).trans hnow

end Timely

/-! ## Whole runs -/

/-- What holds of a load test on a clock between any two steps. -/
structure Sound (t : LoadTester) (s : Clocked t.users) : Prop where
  paced : Paced t s
  accounted : Accounted t s.load
  staffed : Staffed s.load
  timely : Timely s

theorem sound_begin (t : LoadTester) : Sound t t.begin :=
  ⟨fun _ => .start, .start t, .start t, .start t⟩

theorem Sound.tick {a : Action t.users} (h : Sound t s) (hstep : t.tick s (now, a) = some s') :
    Sound t s' where
  paced := h.paced.tick h.accounted hstep
  accounted := h.accounted.step (tick_load hstep)
  staffed := h.staffed.tick hstep
  timely := h.timely.tick hstep

theorem length_add_credit_le {es : List (Event t.users)} (h : Sound t s)
    (hr : run t.tick s es = some s') :
    es.length + s'.load.credit + 5 * s.begun.length ≤
      s.load.credit + 5 * s'.begun.length := by
  have hpaid : ∀ s e s', Sound t s → t.tick s e = some s' → Sound t s' ∧
      1 + s'.load.credit + 5 * s.begun.length ≤ s.load.credit + 0 + 5 * s'.begun.length :=
    fun s ⟨now, a⟩ s' hs hstep => ⟨hs.tick hstep, credit_tick hs.accounted hstep⟩
  have hpay := run_potential (fun _ => 1) (fun _ => 0) (fun s => s.load.credit)
    (fun s => 5 * s.begun.length) hpaid h hr
  simpa using hpay

theorem begun_of_over {es : List (Event t.users)} (hend : t.config.testEnd ≤ s.now)
    (hr : run t.tick s es = some s') : s'.begun = s.begun := by
  have hkeep := run_inv (P := fun s' => t.config.testEnd ≤ s'.now ∧ s'.begun = s.begun) ?_
    ⟨hend, rfl⟩ hr
  · exact hkeep.2
  rintro s1 ⟨now, a⟩ s2 ⟨hend1, hbegun⟩ hstep
  obtain ⟨hnow, hmove⟩ := tick_cases hstep
  rw [← hbegun]
  cases hmove with
  | enter u hu hw hlt => omega
  | _ => exact ⟨hend1.trans hnow, rfl⟩

theorem Sound.begun_le_max (h : Sound t s) {m : UInt32}
    (hm : t.config.requestsPerUser = some m) : s.begun.length ≤ t.users * m.toNat := by
  have huser : ∀ u, (onKey Prod.fst u s.begun).length ≤ m.toNat := fun u => by
    have hserved := (h.paced u).served_eq
    have hids : (s.load.idsOf u).length = s.load.served u := List.length_map _
    have hle := (h.accounted.served u).le_max m hm
    have hlt := (h.accounted.served u).lt_max
    rw [timesOf, List.length_map] at hserved
    rw [hserved, ← hids]
    split
    · rename_i hx
      exact hlt hx m hm
    · exact hle
  calc s.begun.length = ∑ u, (onKey Prod.fst u s.begun).length := length_eq_sum_onKey
    _ ≤ ∑ _u : Fin t.users, m.toNat := Finset.sum_le_sum fun u _ => huser u
    _ = t.users * m.toNat := by rw [Finset.sum_const, Finset.card_univ, Fintype.card_fin]; rfl

end LoadTester

end Duende.Test
