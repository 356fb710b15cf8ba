import Duende.Observe.Outcomes

/-!
# What the health events tell

A failed check sends `Unhealthy` below the failure threshold too, and a timeout that
makes a daemon unhealthy sends no such event: `view_agrees_iff` says that a subscriber's
view departs from the stored health in exactly these two cases. The `Recovered` event
subtracts the success streak from the failure total: `failures_counted_iff` says that the
number is wrong whenever the event is sent.
-/

namespace Duende.Observe

open Trans

variable {config : HealthConfig} {m m' : HealthMonitor} {id : DaemonId} {s : DaemonHealthState}
  {now : Nat} {status : HealthStatus} {o : Op} {c : Nat × Op} {cs : List (Nat × Op)} {v : Bool}

theorem modify_events {f : DaemonHealthState → DaemonHealthState × List HealthEvent} :
    (m.modify id f).events = ((m.states id).map fun s => (f s).2).getD [] := by
  unfold HealthMonitor.modify
  cases m.states id <;> rfl

theorem op_events : (m.op now o).events =
    match o with
    | .register _ | .unregister _ => []
    | .recordCheck id status =>
      ((m.states id).map fun s => (s.check m.config now id status).2).getD []
    | .recordTimeout id => ((m.states id).map fun s => (s.timeout m.config now id).2).getD [] := by
  cases o with
  | register j => rfl
  | unregister j => rfl
  | recordCheck j status => exact modify_events
  | recordTimeout j => exact modify_events

/-! ## The view of a subscriber -/

def HealthEvent.seen (v : Bool) : HealthEvent → Bool
  | healthy _ _ | recovered _ _ => true
  | unhealthy _ _ _ => false
  | timeout _ _ => v

/-- The view of `id` after a list of events. -/
def view (id : DaemonId) (v : Bool) (es : List HealthEvent) : Bool :=
  es.foldl (fun v e => if e.id = id then e.seen v else v) v

theorem view_append {es es' : List HealthEvent} :
    view id v (es ++ es') = view id (view id v es) es' := List.foldl_append

theorem view_other {es : List HealthEvent} (h : ∀ e ∈ es, e.id ≠ id) : view id v es = v := by
  induction es with
  | nil => rfl
  | cons e es ih =>
    show view id (if e.id = id then e.seen v else v) es = v
    rw [if_neg (h e List.mem_cons_self)]
    exact ih fun e' he => h e' (List.mem_cons_of_mem e he)

/-- The daemon is registered, and its stored health is `v`. -/
def Agrees (id : DaemonId) (m : HealthMonitor) (v : Bool) : Prop :=
  (m.states id).map DaemonHealthState.isHealthy = some v

/-- A subscriber whose view is `v` at `m` agrees with the stored health after every
operation of a run. -/
def ViewAgrees (id : DaemonId) (m : HealthMonitor) (v : Bool) (cs : List (Nat × Op)) : Prop :=
  ∀ pre post m', cs = pre ++ post → run HealthMonitor.act m pre = some m' →
    Agrees id m' (view id v (m.events pre))

/-- A failed check of a healthy daemon reaches the failure threshold, a timeout does not. -/
def Faithful (id : DaemonId) (m : HealthMonitor) (c : Nat × Op) : Prop :=
  match c.2 with
  | .recordCheck j status => j = id → status.isHealthy = false → ∀ s ∈ m.states id,
      s.isHealthy = true → m.config.failureThreshold.toNat ≤ u32Add s.consecutiveFailures 1
  | .recordTimeout j => j = id → ∀ s ∈ m.states id,
      s.isHealthy = true → u32Add s.consecutiveFailures 1 < m.config.failureThreshold.toNat
  | _ => True

theorem check_view (hv : s.isHealthy = v) :
    (s.check config now id status).1.isHealthy = view id v (s.check config now id status).2 ↔
      (status.isHealthy = false → s.isHealthy = true →
        config.failureThreshold.toNat ≤ u32Add s.consecutiveFailures 1) := by
  subst hv
  cases hok : status.isHealthy with
  | true =>
    rw [check_ok hok]
    cases s.isHealthy <;> cases s.recovers config status <;>
      simp [view, HealthEvent.id, HealthEvent.seen]
  | false =>
    rw [check_failed hok]
    cases hs : s.isHealthy <;>
      simp [view, HealthEvent.id, HealthEvent.seen, DaemonHealthState.failed, hs]

theorem timeout_view (hv : s.isHealthy = v) :
    (s.timeout config now id).1.isHealthy = view id v (s.timeout config now id).2 ↔
      (s.isHealthy = true →
        u32Add s.consecutiveFailures 1 < config.failureThreshold.toNat) := by
  subst hv
  rw [timeout_eq]
  cases hs : s.isHealthy <;>
    simp [view, HealthEvent.id, HealthEvent.seen, DaemonHealthState.failed, hs]

theorem check_events_id {e : HealthEvent} (he : e ∈ (s.check config now id status).2) :
    e.id = id := by
  cases hok : status.isHealthy with
  | true =>
    rw [check_ok hok] at he
    rcases List.mem_append.1 he with he | he <;> split at he <;>
      first | (rw [List.mem_singleton] at he; subst he; rfl) | cases he
  | false =>
    rw [check_failed hok, List.mem_singleton] at he
    subst he; rfl

theorem timeout_events_id {e : HealthEvent} (he : e ∈ (s.timeout config now id).2) :
    e.id = id := by
  rw [timeout_eq, List.mem_singleton] at he
  subst he; rfl

theorem mem_modify_events {f : DaemonHealthState → DaemonHealthState × List HealthEvent}
    {e : HealthEvent} (he : e ∈ (m.modify id f).events) : ∃ s, m.states id = some s ∧ e ∈ (f s).2 := by
  rw [modify_events] at he
  cases hs : m.states id with
  | none => rw [hs] at he; cases he
  | some s => rw [hs] at he; exact ⟨s, rfl, he⟩

theorem op_events_id {e : HealthEvent} (he : e ∈ (m.op now o).events) : e.id = o.target := by
  cases o with
  | register j => cases he
  | unregister j => cases he
  | recordCheck j status =>
    obtain ⟨s, -, he⟩ := mem_modify_events he
    exact check_events_id he
  | recordTimeout j =>
    obtain ⟨s, -, he⟩ := mem_modify_events he
    exact timeout_events_id he

theorem agrees_other (h : o.target ≠ id) : Agrees id (m.op now o).monitor
    (view id v (m.op now o).events) ↔ Agrees id m v := by
  unfold Agrees
  rw [op_states_other h, view_other fun e he => by rw [op_events_id he]; exact h]

/-- One operation keeps an agreeing view in agreement exactly if it is faithful. -/
theorem Agrees.step (h : Agrees id m v) (hno : c.2 ≠ .register id ∧ c.2 ≠ .unregister id) :
    Agrees id (m.op c.1 c.2).monitor (view id v (m.op c.1 c.2).events) ↔ Faithful id m c := by
  obtain ⟨now, o⟩ := c
  by_cases ho : o.target = id
  · subst ho
    obtain ⟨s, hs, hv⟩ := Option.map_eq_some_iff.1 h
    unfold Agrees Faithful
    rw [op_states, op_events]
    cases o with
    | register j => exact absurd rfl hno.1
    | unregister j => exact absurd rfl hno.2
    | recordCheck j status =>
      simp only [Op.target] at hs ⊢
      simp only [hs, Option.map_some, Option.getD_some, Option.some.injEq, check_view hv,
        Option.mem_def, forall_eq', true_implies]
    | recordTimeout j =>
      simp only [Op.target] at hs ⊢
      simp only [hs, Option.map_some, Option.getD_some, Option.some.injEq, timeout_view hv,
        Option.mem_def, forall_eq', true_implies]
  · rw [agrees_other ho]
    refine iff_of_true h ?_
    cases o with
    | register j => trivial
    | unregister j => trivial
    | recordCheck j status => exact fun e => absurd e ho
    | recordTimeout j => exact fun e => absurd e ho

theorem viewAgrees_cons : ViewAgrees id m v (c :: cs) ↔ Agrees id m v ∧
    ViewAgrees id (m.op c.1 c.2).monitor (view id v (m.op c.1 c.2).events) cs := by
  constructor
  · intro h
    refine ⟨h [] (c :: cs) m rfl rfl, fun pre post m' hcs hr => ?_⟩
    have := h (c :: pre) post m' (by rw [hcs]; rfl) hr
    rwa [HealthMonitor.events, view_append] at this
  · rintro ⟨h0, h⟩ pre post m' hcs hr
    cases pre with
    | nil => cases hr; exact h0
    | cons c' pre =>
      obtain ⟨rfl, rfl⟩ := List.cons.inj hcs
      rw [HealthMonitor.events, view_append]
      exact h pre post m' rfl hr

theorem viewAgrees_iff (hv : Agrees id m v)
    (hno : ∀ c ∈ cs, c.2 ≠ .register id ∧ c.2 ≠ .unregister id) :
    ViewAgrees id m v cs ↔ Meets HealthMonitor.act (Faithful id) m cs := by
  induction cs generalizing m v with
  | nil =>
    refine iff_of_true (fun pre post m' hcs hr => ?_) trivial
    obtain ⟨rfl, -⟩ := List.append_eq_nil_iff.1 hcs.symm
    cases hr; exact hv
  | cons c cs ih =>
    have hstep := hv.step (hno c List.mem_cons_self)
    rw [viewAgrees_cons]
    constructor
    · rintro ⟨-, h⟩
      have hv' := h [] cs _ rfl rfl
      refine ⟨hstep.1 hv', fun m' hm' => ?_⟩
      cases hm'
      exact (ih hv' fun c hc => hno c (List.mem_cons_of_mem _ hc)).1 h
    · rintro ⟨hf, h⟩
      have hv' := hstep.2 hf
      exact ⟨hv, (ih hv' fun c hc => hno c (List.mem_cons_of_mem _ hc)).2 (h _ rfl)⟩

theorem agrees_register : Agrees id (m.register id) true := by
  have hs : (m.register id).states id = some (.new id) := if_pos rfl
  unfold Agrees
  rw [hs]; rfl

/-- **Events and stored health**: a subscriber that starts at registration agrees with the
stored health after every operation exactly if every failed check that finds the daemon
healthy reaches the failure threshold and no timeout that finds it healthy does. -/
theorem view_agrees_iff (m : HealthMonitor) (id : DaemonId) (cs : List (Nat × Op))
    (hno : ∀ c ∈ cs, c.2 ≠ .register id ∧ c.2 ≠ .unregister id) :
    ViewAgrees id (m.register id) true cs ↔
      Meets HealthMonitor.act (Faithful id) (m.register id) cs :=
  viewAgrees_iff agrees_register hno

/-- A single failure, with a threshold of one. -/
theorem view_agrees_one : ViewAgrees ⟨7⟩ ((HealthMonitor.new { failureThreshold := 1 }).register ⟨7⟩)
    true [(1, .recordCheck ⟨7⟩ (.ofUnhealthy "error" 5 0))] :=
  (view_agrees_iff (.new { failureThreshold := 1 }) ⟨7⟩ _ (by decide)).2
    ⟨fun _ _ s hs _ => by cases hs; decide, fun _ _ => trivial⟩

/-- Below the threshold a failed check sends `Unhealthy` for a healthy daemon; at the
threshold a timeout sends no `Unhealthy` for an unhealthy one. -/
theorem view_disagrees :
    ¬ ViewAgrees ⟨7⟩ ((HealthMonitor.new {}).register ⟨7⟩) true
      [(1, .recordCheck ⟨7⟩ (.ofUnhealthy "error" 5 0))] ∧
    ¬ ViewAgrees ⟨7⟩ ((HealthMonitor.new { failureThreshold := 1 }).register ⟨7⟩) true
      [(1, .recordTimeout ⟨7⟩)] :=
  ⟨fun h => by (cases h [_] [] _ rfl rfl), fun h => by (cases h [_] [] _ rfl rfl)⟩

/-! ## The number in a recovery event -/

/-- The subtraction for a `Recovered` event does not underflow, and the event carries the
failures recorded since registration. -/
structure CountsFailures (cs : List (Nat × Op)) (m : HealthMonitor) (c : Nat × Op) : Prop where
  noUnderflow : ∀ id status s, c.2 = .recordCheck id status → m.states id = some s →
    s.recovers m.config status = true →
    (s.recordSuccess c.1 status).consecutiveSuccesses ≤ (s.recordSuccess c.1 status).totalFailures
  count : ∀ id n, .recovered id n ∈ (m.op c.1 c.2).events → n = (since id cs).count false

/-- Every operation of a run of a new monitor counts the failures as it should. -/
def RunCountsFailures (config : HealthConfig) (cs : List (Nat × Op)) : Prop :=
  ∀ pre c post m, cs = pre ++ c :: post → run HealthMonitor.act (.new config) pre = some m →
    CountsFailures pre m c

/-- Fewer than `2 ^ 32` failures are recorded for a daemon between registrations. -/
def FewFailures (cs : List (Nat × Op)) : Prop :=
  ∀ pre post id, cs = pre ++ post → (since id pre).count false < 2 ^ 32

/-- The operation makes no daemon recover. -/
def NoRecovery (m : HealthMonitor) (c : Nat × Op) : Prop :=
  match c.2 with
  | .recordCheck id status => ∀ s ∈ m.states id, s.recovers m.config status = false
  | _ => True

instance (m : HealthMonitor) : ∀ c : Nat × Op, Decidable (NoRecovery m c)
  | (_, .recordCheck id status) => inferInstanceAs (Decidable (∀ s ∈ m.states id,
      s.recovers m.config status = false))
  | (_, .register _) | (_, .unregister _) | (_, .recordTimeout _) => isTrue trivial

/-- A success just counted is subtracted, so the number is off. -/
theorem recovered_ne {total streak : Nat} (ht : total < 2 ^ 32) (h0 : 0 < streak)
    (hs : streak < 2 ^ 32) : asU32 (u64Sub total streak) ≠ total := by
  unfold asU32 u64Sub; omega

theorem mem_check_recovered {n : Nat} {j : DaemonId}
    (h : .recovered j n ∈ (s.check config now id status).2) : s.recovers config status = true := by
  cases hok : status.isHealthy with
  | true =>
    rw [check_ok hok] at h
    rcases List.mem_append.1 h with h | h
    · by_contra hr
      rw [if_neg hr] at h
      cases h
    · split at h
      · rw [List.mem_singleton] at h; cases h
      · cases h
  | false =>
    rw [check_failed hok, List.mem_singleton] at h
    cases h

/-- The event of a recovery carries a wrong number. -/
theorem recovered_off {h : List Bool} (now : Nat) (id : DaemonId) (ht : Tracked config h s)
    (hn : h.count false < 2 ^ 32) (hr : s.recovers config status = true) :
    ∃ n, .recovered id n ∈ (s.check config now id status).2 ∧ n ≠ h.count false := by
  have hparts := hr
  unfold DaemonHealthState.recovers at hparts
  simp only [Bool.and_eq_true, Bool.not_eq_true'] at hparts
  obtain ⟨⟨hok, hs⟩, -⟩ := hparts
  obtain ⟨hsucc, hlt⟩ := ht.successes_of_unhealthy hs
  have hlim := limit_lt config.recoveryThreshold
  refine ⟨asU32 (u64Sub s.totalFailures (u32Add s.consecutiveSuccesses 1)), ?_, ?_⟩
  · rw [check_ok hok, hr, if_pos rfl]
    exact List.mem_append_left _ (List.mem_singleton.2 rfl)
  · rw [ht.total, hsucc, u32Add_of_lt (by omega)]
    exact recovered_ne hn (by omega) (by omega)

theorem countsFailures_iff (hk : Kept config cs m) (hn : ∀ id, (since id cs).count false < 2 ^ 32) :
    CountsFailures cs m c ↔ NoRecovery m c := by
  obtain ⟨now, o⟩ := c
  constructor
  · intro h
    cases o with
    | recordCheck id status =>
      intro s hs
      by_contra hr
      rw [Bool.not_eq_false] at hr
      obtain ⟨n, hmem, hne⟩ := recovered_off now id
        (hk.tracked id s hs (hn id)) (hn id) (hk.config ▸ hr)
      refine hne (h.count id n ?_)
      show _ ∈ (m.modify id _).events
      rw [modify_events, hs, hk.config]
      exact hmem
    | _ => trivial
  · intro h
    refine ⟨fun id status s ho hs hr => ?_, fun id n he => ?_⟩
    · cases ho
      rw [h s hs] at hr
      cases hr
    · cases o with
      | register j => cases he
      | unregister j => cases he
      | recordCheck j status =>
        obtain ⟨s, hs, he⟩ := mem_modify_events he
        have hr := mem_check_recovered he
        rw [h s hs] at hr
        cases hr
      | recordTimeout j =>
        obtain ⟨s, hs, he⟩ := mem_modify_events he
        rw [timeout_eq, List.mem_singleton] at he
        cases he

/-- **Recovery counts**: the failures are counted right in a run exactly if no check of the
run makes a daemon recover. -/
theorem failures_counted_iff (config : HealthConfig) (cs : List (Nat × Op)) (hn : FewFailures cs) :
    RunCountsFailures config cs ↔ Meets HealthMonitor.act NoRecovery (.new config) cs := by
  rw [meets_iff]
  refine forall_congr' fun pre => forall_congr' fun c => forall_congr' fun post =>
    forall_congr' fun m => forall_congr' fun hcs => forall_congr' fun hr => ?_
  exact countsFailures_iff (kept_run hr) fun id => hn pre (c :: post) id hcs

theorem since_length_le : (since id cs).length ≤ cs.length := by
  induction cs using List.reverseRecOn with
  | nil => exact Nat.le_refl 0
  | append_singleton cs c ih =>
    rw [since_snoc, List.length_append]
    unfold recorded
    split <;> split <;> simp only [List.length_cons, List.length_nil] <;> omega

theorem fewFailures_of_length (h : cs.length < 2 ^ 32) : FewFailures cs := by
  intro pre post id hcs
  have hle : (since id pre).count false ≤ (since id pre).length := List.count_le_length
  have hlen : (since id pre).length ≤ pre.length := since_length_le
  have : pre.length ≤ cs.length := by rw [hcs, List.length_append]; omega
  omega

/-- A failure and a success that is not yet a recovery. -/
theorem failures_counted_short : RunCountsFailures {}
    [(0, .register ⟨7⟩), (1, .recordTimeout ⟨7⟩), (2, .recordCheck ⟨7⟩ (.ofHealthy 5 0))] :=
  (failures_counted_iff {} _ (fewFailures_of_length (by decide))).2 (by decide)

/-- One failure and two successes: the subtraction is `1 - 2`. -/
theorem failures_miscounted : ¬ RunCountsFailures { failureThreshold := 1 }
    [(0, .register ⟨7⟩), (1, .recordCheck ⟨7⟩ (.ofUnhealthy "error" 5 0)),
      (2, .recordCheck ⟨7⟩ (.ofHealthy 5 0)), (3, .recordCheck ⟨7⟩ (.ofHealthy 5 0))] := by
  intro h
  have := (h [_, _, _] _ [] _ rfl rfl).noUnderflow ⟨7⟩ (.ofHealthy 5 0) _ rfl rfl (by decide)
  revert this
  decide

end Duende.Observe
