import Duende.Num
import Duende.Test.Percentiles
import Duende.Trans.Keyed
import Duende.Trans.Ledger

/-!
# What the load tester accounts for

The request ids of a worker count its requests, and the metrics are accounts on which every
executed request is charged. `load_accounted` says so of every run in which a `u64` can count
the requests; where it cannot, an id is used again (`request_id_reused`).
-/

namespace Duende.Test

open Trans

/-! ## The metrics as accounts -/

/-- An account on which a request is charged what recording it owes at first. -/
def metricsAccount {M : Type*} [AddCommMonoid M] (paid : LoadMetrics → M) (owes : RecordPc → M)
    (exec : ∀ m p, paid (recordStep m p).1 + ((recordStep m p).2.getLeft?).elim 0 owes =
      paid m + owes p) : Account metricsObj M where
  charge o := owes (.total o)
  paid := paid
  owes := owes
  start _ := rfl
  exec m p k m' q h := by
    have hpay := exec m p
    rwa [Option.some.inj h] at hpay
  env _ e := nomatch e

/-- What the total is still owed. -/
def RecordPc.owesTotal : RecordPc → UInt64
  | .total _ => 1
  | _ => 0

def RecordPc.owesSuccessful : RecordPc → UInt64
  | .total (.success _) | .successful _ => 1
  | _ => 0

def RecordPc.owesFailed : RecordPc → UInt64
  | .total .failure | .failed => 1
  | _ => 0

def RecordPc.owesLatency : RecordPc → Nat
  | .total (.success _) | .successful _ | .push _ => 1
  | _ => 0

def totalAccount : Account metricsObj UInt64 :=
  metricsAccount LoadMetrics.totalRequests RecordPc.owesTotal fun m p => by
    cases p with
    | total o => cases o <;> exact add_zero _
    | successful us => rfl
    | push us => rfl
    | failed => rfl

def successfulAccount : Account metricsObj UInt64 :=
  metricsAccount LoadMetrics.successful RecordPc.owesSuccessful fun m p => by
    cases p with
    | total o => cases o <;> rfl
    | successful us => exact add_zero _
    | push us => rfl
    | failed => rfl

def failedAccount : Account metricsObj UInt64 :=
  metricsAccount LoadMetrics.failed RecordPc.owesFailed fun m p => by
    cases p with
    | total o => cases o <;> rfl
    | successful us => rfl
    | push us => rfl
    | failed => exact add_zero _

def latencyAccount : Account metricsObj Nat :=
  metricsAccount (fun m => m.latenciesUs.length) RecordPc.owesLatency fun m p => by
    cases p with
    | total o => cases o <;> rfl
    | successful us => rfl
    | push us => exact List.length_append
    | failed => rfl

theorem sum_indicator (f : Outcome → Nat) (p : Outcome → Bool)
    (hf : ∀ o, f o = if p o then 1 else 0) (os : List Outcome) :
    (os.map f).sum = os.countP p := by
  induction os with
  | nil => rfl
  | cons o os ih => rw [List.map_cons, List.sum_cons, ih, hf, List.countP_cons, Nat.add_comm]

/-- A counter of the requests of some kind, when a `u64` can count them. -/
theorem toNat_sum_indicator (f : Outcome → UInt64) (p : Outcome → Bool)
    (hf : ∀ o, (f o).toNat = if p o then 1 else 0) {os : List Outcome}
    (hfew : os.length < 2 ^ 64) : (os.map f).sum.toNat = os.countP p := by
  have hle : os.countP p ≤ os.length := List.countP_le_length
  rw [toNat_sum, List.map_map, sum_indicator (UInt64.toNat ∘ f) p hf]
  exact Nat.mod_eq_of_lt (by omega)

/-- **The metrics account for the outcomes** of the requests, once all are recorded. -/
theorem metrics_settled {ι : Type*} [DecidableEq ι] {acts : List (Act ι Outcome Unit Empty)}
    {c : Conf ι LoadMetrics RecordPc} (hr : run metricsObj.act (Obj.init {}) acts = some c)
    (hq : c.Quiet) (hfew : (called acts).length < 2 ^ 64) :
    c.shared.totalRequests.toNat = (called acts).length ∧
      c.shared.successful.toNat = (called acts).countP Outcome.isSuccess ∧
      c.shared.failed.toNat = (called acts).countP (fun o => !o.isSuccess) ∧
      c.shared.latenciesUs.length = (called acts).countP Outcome.isSuccess := by
  have h0 : (Obj.init {} : Conf ι LoadMetrics RecordPc).Quiet := fun _ => rfl
  have htotal := totalAccount.settled h0 hr hq
  have hsuccessful := successfulAccount.settled h0 hr hq
  have hfailed := failedAccount.settled h0 hr hq
  have hlatency := latencyAccount.settled h0 hr hq
  refine ⟨?_, ?_, ?_, ?_⟩
  · have hone := toNat_sum_indicator totalAccount.charge (fun _ => true) (fun _ => rfl) hfew
    rw [List.countP_true] at hone
    exact (congrArg UInt64.toNat (htotal.trans (zero_add _))).trans hone
  · refine (congrArg UInt64.toNat (hsuccessful.trans (zero_add _))).trans ?_
    exact toNat_sum_indicator _ _ (fun o => by cases o <;> rfl) hfew
  · refine (congrArg UInt64.toNat (hfailed.trans (zero_add _))).trans ?_
    exact toNat_sum_indicator _ _ (fun o => by cases o <;> rfl) hfew
  · refine (hlatency.trans (zero_add _)).trans ?_
    exact sum_indicator _ _ (fun o => by cases o <;> rfl) _

namespace LoadTester

variable {t : LoadTester}

/-! ## One worker -/

/-- The request ids of a worker so far, and what it does next, with id `next`, when it may send at
most `max` requests. -/
structure Served (max : Option UInt32) (ids : List UInt64) (next : UInt64) (p : Phase) :
    Prop where
  ids_eq : ids = (List.range ids.length).map UInt64.ofNat
  /-- The id is counted up once the request is recorded. -/
  next_eq : (next + if p = .recording then 1 else 0) = UInt64.ofNat ids.length
  le_max : ∀ m ∈ max, ids.length ≤ m.toNat
  lt_max : p = .executing → ∀ m ∈ max, ids.length < m.toNat

namespace Served

variable {max : Option UInt32} {ids : List UInt64} {next : UInt64} {p q : Phase}

theorem start (max : Option UInt32) : Served max [] 0 .unspawned where
  ids_eq := rfl
  next_eq := rfl
  le_max _ _ := Nat.zero_le _
  lt_max h := nomatch h

theorem goOn (h : Served max ids next p) (hp : p ≠ .recording) (hq : q ≠ .recording)
    (hx : q ≠ .executing) : Served max ids next q where
  ids_eq := h.ids_eq
  next_eq := by
    rw [if_neg hq, ← h.next_eq, if_neg hp]
  le_max := h.le_max
  lt_max e := absurd e hx

/-- A worker goes on only below the maximum. -/
theorem enter (h : Served max ids next p) (hp : p ≠ .recording)
    (hmax : ∀ m ∈ max, next < m.toUInt64) : Served max ids next .executing where
  ids_eq := h.ids_eq
  next_eq := by rw [if_neg (by decide), ← h.next_eq, if_neg hp]
  le_max := h.le_max
  lt_max _ m hm := by
    have hnext := h.next_eq
    rw [if_neg hp, UInt64.add_zero] at hnext
    have hlt : next.toNat < m.toNat := hmax m hm
    have hle := h.le_max m hm
    have hm32 := m.toNat_lt
    rw [hnext, UInt64.toNat_ofNat', Nat.mod_eq_of_lt (by omega)] at hlt
    exact hlt

theorem execute (h : Served max ids next .executing) :
    Served max (ids ++ [next]) next .recording := by
  have hnext := h.next_eq
  rw [if_neg (by decide), UInt64.add_zero] at hnext
  have hlen : (ids ++ [next]).length = ids.length + 1 := List.length_append
  refine ⟨?_, ?_, fun m hm => ?_, nofun⟩
  · rw [hlen, List.range_succ, List.map_append, ← h.ids_eq, List.map_singleton, ← hnext]
  · rw [if_pos rfl, hlen, UInt64.ofNat_add, ← hnext]
    rfl
  · rw [hlen]
    exact h.lt_max rfl m hm

theorem recorded (h : Served max ids next .recording) : Served max ids (next + 1) .looping where
  ids_eq := h.ids_eq
  next_eq := by
    rw [← h.next_eq, if_pos rfl, if_neg (by decide), UInt64.add_zero]
  le_max := h.le_max
  lt_max e := nomatch e

end Served

/-! ## Runs of a load test -/

namespace Load

variable {n : Nat}

/-- The ids of the requests of a worker, in the order of their execution. -/
def idsOf (s : Load n) (u : Fin n) : List UInt64 :=
  (onKey Request.userId u s.executed).map Request.requestId

end Load

/-- What a step can do. -/
inductive Move (t : LoadTester) (s : Load t.users) : Load t.users → Prop where
  | spawn (h : s.spawned < t.users) :
    Move t s { s.goTo ⟨s.spawned, h⟩ .rampUp with spawned := s.spawned + 1 }
  | goOn (u : Fin t.users) (p : Phase) (hu : s.phase u = .rampUp ∨ s.phase u = .looping)
    (hp : p = .looping ∨ p = .ended) : Move t s (s.goTo u p)
  | enter (u : Fin t.users) (hu : s.phase u = .looping)
    (hmax : ∀ m ∈ t.config.requestsPerUser, s.requestId u < m.toUInt64) :
    Move t s (s.goTo u .executing)
  | execute (u : Fin t.users) (o : Outcome) (conf : Conf (Fin t.users) LoadMetrics RecordPc)
    (hu : s.phase u = .executing) (hact : metricsObj.act s.conf (.call u o) = some conf) :
    Move t s { s.goTo u .recording with
      conf := conf, executed := s.executed ++ [⟨u, s.requestId u, o⟩] }
  | record (u : Fin t.users) (conf : Conf (Fin t.users) LoadMetrics RecordPc)
    (hu : s.phase u = .recording) (hact : metricsObj.act s.conf (.step u ()) = some conf) :
    Move t s { s with conf := conf }
  | recorded (u : Fin t.users) (conf : Conf (Fin t.users) LoadMetrics RecordPc)
    (hu : s.phase u = .recording) (hact : metricsObj.act s.conf (.step u ()) = some conf)
    (hpc : conf.pc u = none) :
    Move t s { s.goTo u .looping with
      conf := conf, requestId := Function.update s.requestId u (s.requestId u + 1) }
  | finish (elapsed : Nat) (r : LoadTestReport) (hs : s.spawned = t.users)
    (hu : ∀ u, s.phase u = .ended) (hr : s.conf.shared.report elapsed = some r) :
    Move t s { s with report := some r }

theorem step_cases {s s' : Load t.users} {a : Action t.users} (h : t.step s a = some s') :
    Move t s s' := by
  cases a with
  | spawn =>
    simp only [step] at h
    split at h
    · cases h
      exact .spawn _
    · cases h
  | rampedUp u =>
    simp only [step, Option.ite_none_right_eq_some, Option.some.injEq] at h
    obtain ⟨hu, rfl⟩ := h
    refine .goOn u _ (.inl hu) ?_
    split
    · exact .inl rfl
    · exact .inr rfl
  | check u now =>
    simp only [step, Option.ite_none_right_eq_some, Option.some.injEq] at h
    obtain ⟨hu, rfl⟩ := h
    cases hends : t.ends (s.requestId u) now with
    | true => exact .goOn u _ (.inr hu) (.inr rfl)
    | false =>
      refine .enter u hu fun m hm => ?_
      rw [ends, Bool.or_eq_false_iff, Option.mem_def.1 hm, Option.any_some] at hends
      exact UInt64.not_le.1 (of_decide_eq_false hends.2)
  | execute u success latencyUs =>
    simp only [step, Option.ite_none_right_eq_some, Option.map_eq_some_iff] at h
    obtain ⟨hu, conf, hact, rfl⟩ := h
    exact .execute u _ conf hu hact
  | record u =>
    simp only [step, Option.ite_none_right_eq_some, Option.map_eq_some_iff] at h
    obtain ⟨hu, conf, hact, rfl⟩ := h
    cases hpc : conf.pc u with
    | none => exact .recorded u conf hu hact hpc
    | some p => exact .record u conf hu hact
  | finish elapsed =>
    simp only [step, Option.ite_none_right_eq_some, Option.map_eq_some_iff] at h
    obtain ⟨⟨hs, hu, -⟩, r, hr, rfl⟩ := h
    exact .finish elapsed r hs hu hr

/-- What holds of a load test between any two steps. -/
structure Accounted (t : LoadTester) (s : Load t.users) : Prop where
  unspawned : ∀ u : Fin t.users, s.spawned ≤ u → s.phase u = .unspawned
  /-- Only a worker that records its request works on the metrics. -/
  idle : ∀ u, s.phase u ≠ .recording → s.conf.pc u = none
  metrics : ∃ acts, run metricsObj.act (Obj.init {}) acts = some s.conf ∧
    called acts = s.executed.map Request.outcome
  served : ∀ u,
    Served t.config.requestsPerUser (s.idsOf u) (s.requestId u) (s.phase u)
  report : ∀ r, s.report = some r → s.spawned = t.users ∧ (∀ u, s.phase u = .ended) ∧
    ∃ elapsed, s.conf.shared.report elapsed = some r

namespace Accounted

variable {s s' : Load t.users} {u : Fin t.users} {p : Phase}

theorem start (t : LoadTester) : Accounted t t.start where
  unspawned _ _ := rfl
  idle _ _ := rfl
  metrics := ⟨[], rfl, rfl⟩
  served _ := .start _
  report _ h := nomatch h

theorem not_reported (h : Accounted t s) (hu : s.phase u ≠ .ended) (r : LoadTestReport) :
    s.report ≠ some r := fun hr => hu ((h.report r hr).2.1 u)

theorem unspawned_goTo (h : Accounted t s) (hu : s.phase u ≠ .unspawned) (v : Fin t.users) :
    s.spawned ≤ v → (s.goTo u p).phase v = .unspawned :=
  (Function.forall_update_iff s.phase fun v p => s.spawned ≤ v → p = .unspawned).2
    ⟨fun hv => absurd (h.unspawned u hv) hu, fun v _ => h.unspawned v⟩ v

theorem goTo (h : Accounted t s) (hu : s.phase u = .rampUp ∨ s.phase u = .looping)
    (hserved : Served t.config.requestsPerUser (s.idsOf u) (s.requestId u) p) :
    Accounted t (s.goTo u p) where
  unspawned := h.unspawned_goTo (by rcases hu with hu | hu <;> rw [hu] <;> decide)
  idle := (Function.forall_update_iff s.phase fun v p => p ≠ .recording → s.conf.pc v = none).2
    ⟨fun _ => h.idle u (by rcases hu with hu | hu <;> rw [hu] <;> decide), fun v _ => h.idle v⟩
  metrics := h.metrics
  served := (Function.forall_update_iff s.phase fun v p =>
    Served t.config.requestsPerUser (s.idsOf v) (s.requestId v) p).2
      ⟨hserved, fun v _ => h.served v⟩
  report r hr :=
    absurd hr (h.not_reported (by rcases hu with hu | hu <;> rw [hu] <;> decide) r)

theorem spawn (h : Accounted t s) (hlt : s.spawned < t.users) :
    Accounted t { s.goTo ⟨s.spawned, hlt⟩ .rampUp with spawned := s.spawned + 1 } := by
  have hnew : s.phase ⟨s.spawned, hlt⟩ = .unspawned := h.unspawned _ (Nat.le_refl _)
  constructor
  case unspawned =>
    exact (Function.forall_update_iff s.phase fun v p => s.spawned + 1 ≤ v → p = .unspawned).2
      ⟨fun hv => absurd hv (Nat.not_succ_le_self _),
        fun v _ hv => h.unspawned v (Nat.le_of_succ_le hv)⟩
  case idle =>
    exact (Function.forall_update_iff s.phase fun v p => p ≠ .recording → s.conf.pc v = none).2
      ⟨fun _ => h.idle _ (by rw [hnew]; decide), fun v _ => h.idle v⟩
  case metrics => exact h.metrics
  case served =>
    exact (Function.forall_update_iff s.phase fun v p =>
      Served t.config.requestsPerUser (s.idsOf v) (s.requestId v) p).2
        ⟨(h.served _).goOn (by rw [hnew]; decide) (by decide) (by decide),
          fun v _ => h.served v⟩
  case report => exact fun r hr => absurd (h.report r hr).1 (Nat.ne_of_lt hlt)

theorem execute (h : Accounted t s) {o : Outcome}
    {conf : Conf (Fin t.users) LoadMetrics RecordPc} (hu : s.phase u = .executing)
    (hact : metricsObj.act s.conf (.call u o) = some conf) :
    Accounted t { s.goTo u .recording with
      conf := conf, executed := s.executed ++ [⟨u, s.requestId u, o⟩] } := by
  constructor
  case unspawned => exact h.unspawned_goTo (by rw [hu]; decide)
  case idle =>
    obtain ⟨-, rfl⟩ := Obj.act_call.1 hact
    refine (Function.forall_update_iff s.phase fun v p => p ≠ .recording → _ = none).2
      ⟨fun hne => absurd rfl hne, fun v hvu hv => ?_⟩
    exact (Function.update_of_ne hvu _ _).trans (h.idle v hv)
  case metrics =>
    obtain ⟨acts, hr, hcalled⟩ := h.metrics
    refine ⟨acts ++ [.call u o], run_append_some.2 ⟨_, hr, run_cons_some.2 ⟨_, hact, rfl⟩⟩, ?_⟩
    rw [called_append, hcalled, List.map_append]
    rfl
  case served =>
    let r : Request t.users := ⟨u, s.requestId u, o⟩
    have hself : onKey Request.userId u (s.executed ++ [r]) =
        onKey Request.userId u s.executed ++ [r] := onKey_snoc_self (a := r)
    refine (Function.forall_update_iff s.phase fun v p => Served t.config.requestsPerUser
      ((onKey Request.userId v (s.executed ++ [r])).map Request.requestId)
      (s.requestId v) p).2 ⟨?_, fun v hvu => ?_⟩
    · have hserved := h.served u
      rw [hu] at hserved
      rw [hself, List.map_append]
      exact hserved.execute
    · have hne : r.userId ≠ v := Ne.symm hvu
      rw [onKey_snoc_ne hne]
      exact h.served v
  case report => exact fun r hr => absurd hr (h.not_reported (u := u) (by rw [hu]; decide) r)

theorem record (h : Accounted t s) {conf : Conf (Fin t.users) LoadMetrics RecordPc}
    (hu : s.phase u = .recording) (hact : metricsObj.act s.conf (.step u ()) = some conf) :
    Accounted t { s with conf := conf } := by
  constructor
  case unspawned => exact h.unspawned
  case idle =>
    intro v hv
    obtain ⟨p, m, q, -, -, rfl⟩ := Obj.act_step.1 hact
    have hvu : v ≠ u := by
      rintro rfl
      exact hv hu
    exact (Function.update_of_ne hvu _ _).trans (h.idle v hv)
  case metrics =>
    obtain ⟨acts, hr, hcalled⟩ := h.metrics
    refine ⟨acts ++ [.step u ()], run_append_some.2 ⟨_, hr, run_cons_some.2 ⟨_, hact, rfl⟩⟩, ?_⟩
    rw [called_append, hcalled]
    exact List.append_nil _
  case served => exact h.served
  case report => exact fun r hr => absurd hr (h.not_reported (u := u) (by rw [hu]; decide) r)

theorem recorded (h : Accounted t s) (hu : s.phase u = .recording)
    (hpc : s.conf.pc u = none) : Accounted t { s.goTo u .looping with
      requestId := Function.update s.requestId u (s.requestId u + 1) } := by
  constructor
  case unspawned => exact h.unspawned_goTo (by rw [hu]; decide)
  case idle =>
    exact (Function.forall_update_iff s.phase fun v p => p ≠ .recording → s.conf.pc v = none).2
      ⟨fun _ => hpc, fun v _ => h.idle v⟩
  case metrics => exact h.metrics
  case served =>
    refine (Function.forall_update_iff s.phase fun v p => Served t.config.requestsPerUser
      (s.idsOf v) (Function.update s.requestId u (s.requestId u + 1) v) p).2
        ⟨?_, fun v hvu => ?_⟩
    · have hserved := h.served u
      rw [hu] at hserved
      rw [Function.update_self]
      exact hserved.recorded
    · rw [Function.update_of_ne hvu]
      exact h.served v
  case report => exact fun r hr => absurd hr (h.not_reported (u := u) (by rw [hu]; decide) r)

/-- **What one step preserves.** -/
theorem step {a : Action t.users} (h : Accounted t s) (hstep : t.step s a = some s') :
    Accounted t s' := by
  cases step_cases hstep with
  | spawn hlt => exact h.spawn hlt
  | goOn u p hu hp =>
    refine h.goTo hu ((h.served u).goOn ?_ ?_ ?_)
    · rcases hu with hu | hu <;> rw [hu] <;> decide
    · rcases hp with rfl | rfl <;> decide
    · rcases hp with rfl | rfl <;> decide
  | enter u hu hmax =>
    exact h.goTo (.inr hu) ((h.served u).enter (by rw [hu]; decide) hmax)
  | execute u o conf hu hact => exact h.execute hu hact
  | record u conf hu hact => exact h.record hu hact
  | recorded u conf hu hact hpc => exact (h.record hu hact).recorded hu hpc
  | finish elapsed r hs hu hr =>
    exact { h with report := fun r' hr' => ⟨hs, hu, elapsed, by cases hr'; exact hr⟩ }

theorem run {acts : List (Action t.users)} (hr : Trans.run t.step t.start acts = some s) :
    Accounted t s := run_inv (fun _ _ _ => step) (start t) hr

theorem length_idsOf_le (h : Accounted t s) {max : UInt32}
    (hmax : t.config.requestsPerUser = some max) (u : Fin t.users) :
    (s.idsOf u).length ≤ max.toNat := (h.served u).le_max max hmax

theorem length_executed_lt (h : Accounted t s) {max : UInt32}
    (hmax : t.config.requestsPerUser = some max) : s.executed.length < 2 ^ 64 := by
  have hcount : ∀ u, (onKey Request.userId u s.executed).length ≤ max.toNat := fun u => by
    have hle := h.length_idsOf_le hmax u
    rwa [Load.idsOf, List.length_map] at hle
  have husers : t.users ≤ 2 ^ 32 - 1 := Nat.le_pred_of_lt t.config.concurrentUsers.toNat_lt
  have hm : max.toNat ≤ 2 ^ 32 - 1 := Nat.le_pred_of_lt max.toNat_lt
  calc s.executed.length = ∑ u, (onKey Request.userId u s.executed).length := length_eq_sum_onKey
    _ ≤ ∑ _u : Fin t.users, max.toNat := Finset.sum_le_sum fun u _ => hcount u
    _ = t.users * max.toNat := by rw [Finset.sum_const, Finset.card_univ, Fintype.card_fin]; rfl
    _ ≤ (2 ^ 32 - 1) * (2 ^ 32 - 1) := Nat.mul_le_mul husers hm
    _ < 2 ^ 64 := by decide

theorem toNat_idsOf (h : Accounted t s) (hfew : s.executed.length < 2 ^ 64) (u : Fin t.users) :
    (s.idsOf u).map UInt64.toNat = List.range (s.idsOf u).length := by
  have hlen : (s.idsOf u).length ≤ s.executed.length := by
    rw [Load.idsOf, List.length_map]
    exact List.length_filter_le _ _
  conv_lhs => rw [(h.served u).ids_eq]
  rw [List.map_map, List.map_congr_left (g := id), List.map_id]
  intro k hk
  have hk' := List.mem_range.1 hk
  rw [Function.comp_apply, UInt64.toNat_ofNat']
  exact Nat.mod_eq_of_lt (by omega)

theorem nodup_idsOf (h : Accounted t s) (hfew : s.executed.length < 2 ^ 64) (u : Fin t.users) :
    (s.idsOf u).Nodup := by
  have hnodup : ((s.idsOf u).map UInt64.toNat).Nodup := by
    rw [h.toNat_idsOf hfew u]
    exact List.nodup_range
  exact hnodup.of_map _

theorem reported (h : Accounted t s) (hfew : s.executed.length < 2 ^ 64) {r : LoadTestReport}
    (hr : s.report = some r) :
    r.totalRequests.toNat = s.executed.length ∧
      r.totalRequests.toNat = r.successful.toNat + r.failed.toNat ∧
      r.successful.toNat = s.executed.countP (fun q => q.outcome.isSuccess) ∧
      s.conf.shared.latenciesUs.length = r.successful.toNat := by
  obtain ⟨-, hended, elapsed, hreport⟩ := h.report r hr
  obtain ⟨acts, hrun, hcalled⟩ := h.metrics
  have hquiet : s.conf.Quiet := fun u => h.idle u (by rw [hended u]; decide)
  have hlen : (called acts).length = s.executed.length := by rw [hcalled, List.length_map]
  obtain ⟨htotal, hsucc, hfail, hlat⟩ := metrics_settled hrun hquiet (hlen ▸ hfew)
  obtain ⟨percentiles, -, rfl⟩ := Option.map_eq_some_iff.1 hreport
  have hsplit := List.length_eq_countP_add_countP Outcome.isSuccess (l := called acts)
  have hcount : (called acts).countP Outcome.isSuccess =
      s.executed.countP (fun q => q.outcome.isSuccess) := by
    rw [hcalled, List.countP_map]
    rfl
  refine ⟨htotal.trans hlen, ?_, hsucc.trans hcount, hlat.trans hsucc.symm⟩
  show s.conf.shared.totalRequests.toNat =
    s.conf.shared.successful.toNat + s.conf.shared.failed.toNat
  rw [htotal, hsucc, hfail, hsplit]
  simp

end Accounted

theorem step_finish {t : LoadTester} {s : Load t.users} (hs : s.spawned = t.users)
    (hu : ∀ u, s.phase u = .ended) (hr : s.report = none) (elapsed : Nat) :
    ∃ r, t.step s (.finish elapsed) = some { s with report := some r } := by
  obtain ⟨r, hreport⟩ := report_isSome s.conf.shared elapsed
  exact ⟨r, by rw [step, if_pos ⟨hs, hu, hr⟩, hreport]; rfl⟩

/-- **A load test accounts for its requests**, in every run in which a `u64` can count them; with a
maximum for every user that is every run. -/
theorem load_accounted {acts : List (Action t.users)} {s : Load t.users}
    (hr : run t.step t.start acts = some s)
    (hfew : t.config.requestsPerUser = none → s.executed.length < 2 ^ 64) :
    (s.executed.map fun r => (r.userId, r.requestId)).Nodup ∧
      (∀ u, (s.idsOf u).map UInt64.toNat = List.range (s.idsOf u).length ∧
        ∀ max, t.config.requestsPerUser = some max → (s.idsOf u).length ≤ max.toNat) ∧
      ∀ r, s.report = some r →
        r.totalRequests.toNat = s.executed.length ∧
        r.totalRequests.toNat = r.successful.toNat + r.failed.toNat ∧
        r.successful.toNat = s.executed.countP (fun q => q.outcome.isSuccess) ∧
        s.conf.shared.latenciesUs.length = r.successful.toNat := by
  have h := Accounted.run hr
  have hlt : s.executed.length < 2 ^ 64 := by
    cases hmax : t.config.requestsPerUser with
    | none => exact hfew hmax
    | some max => exact h.length_executed_lt hmax
  exact ⟨nodup_of_onKey fun u => h.nodup_idsOf hlt u,
    fun u => ⟨h.toNat_idsOf hlt u, fun max hmax => h.length_idsOf_le hmax u⟩,
    fun r hr => h.reported hlt hr⟩

/-- A load test with two users and a handler, each of whom may send two requests. -/
def twoUsers : LoadTester where
  config := ⟨2, 0, 2 ^ 65, some 2, none⟩
  handler := true

/-- Both record at the same time; the first request of one user fails, and the second one of the
other. -/
def fourRequests : List (Action twoUsers.users) :=
  let u : Fin twoUsers.users := ⟨0, by decide⟩
  let v : Fin twoUsers.users := ⟨1, by decide⟩
  [.spawn, .spawn, .rampedUp u, .rampedUp v, .check u 0, .check v 0, .execute u true 5,
    .execute v false 0, .record u, .record v, .record u, .record v, .check v 1, .record u,
    .execute v true 7, .check u 1, .record v, .execute u false 0, .record v, .record u, .record v,
    .record u, .check u 2, .check v 2]

theorem run_fourRequests : ∃ s r, run twoUsers.step twoUsers.start
      (fourRequests ++ [.finish 2]) = some s ∧ s.report = some r ∧ s.executed.length = 4 := by
  have hended : ∃ s, run twoUsers.step twoUsers.start fourRequests = some s ∧
      s.spawned = 2 ∧ (∀ u, s.phase u = .ended) ∧ s.report = none ∧ s.executed.length = 4 :=
    ⟨_, rfl, rfl, by decide, rfl, rfl⟩
  obtain ⟨s, hr, hs, hu, hnone, hlen⟩ := hended
  obtain ⟨r, hstep⟩ := step_finish hs hu hnone 2
  exact ⟨{ s with report := some r }, r,
    run_append_some.2 ⟨s, hr, run_cons_some.2 ⟨_, hstep, rfl⟩⟩, rfl, hlen⟩

theorem four_requests_accounted : ∃ s r, run twoUsers.step twoUsers.start
      (fourRequests ++ [.finish 2]) = some s ∧ s.report = some r ∧
    s.executed.length = 4 ∧ r.totalRequests.toNat = 4 ∧
    r.totalRequests.toNat = r.successful.toNat + r.failed.toNat := by
  obtain ⟨s, r, hr, hreport, hlen⟩ := run_fourRequests
  have h := load_accounted hr (fun hnone => nomatch hnone)
  exact ⟨s, r, hr, hreport, hlen, (h.2.2 r hreport).1.trans hlen, (h.2.2 r hreport).2.1⟩

/-- A load test with one user and a handler, for about a thousand years. -/
def soleUser (requestsPerUser : Option UInt32) : LoadTester where
  config := ⟨1, 0, 2 ^ 65, requestsPerUser, none⟩
  handler := true

def sole {m : Option UInt32} : Fin (soleUser m).users := ⟨0, Nat.one_pos⟩

/-! ## An id that is used again -/

/-- The loop of the user, at `now`, for a request that fails. -/
def failedLoop (now : Nat) : List (Action (soleUser none).users) :=
  [.check sole now, .execute sole false 0, .record sole, .record sole]

theorem run_failedLoop {s : Load (soleUser none).users} {now : Nat} (hnow : now < 2 ^ 65)
    (hphase : s.phase sole = .looping) (hpc : s.conf.pc sole = none) :
    ∃ s', run (soleUser none).step s (failedLoop now) = some s' ∧ s'.phase sole = .looping ∧
      s'.conf.pc sole = none ∧ s'.requestId sole = s.requestId sole + 1 ∧
      s'.executed = s.executed ++ [⟨sole, s.requestId sole, .failure⟩] := by
  have hends : (soleUser none).ends (s.requestId sole) now = false := by
    simpa [ends, soleUser, LoadTestConfig.testEnd] using hnow
  have hout : (soleUser none).outcome (s.requestId sole) false 0 = .failure := rfl
  simp [failedLoop, run, step, hphase, hpc, hends, hout, Load.goTo, Obj.act, metricsObj, recordStep]

theorem run_failedLoops {n : Nat} (hn : n ≤ 2 ^ 65) :
    ∃ s, run (soleUser none).step (soleUser none).start
        ([.spawn, .rampedUp sole] ++ (List.range n).flatMap failedLoop) = some s ∧
      s.phase sole = .looping ∧ s.conf.pc sole = none ∧ s.requestId sole = UInt64.ofNat n ∧
      s.executed = (List.range n).map fun i => ⟨sole, UInt64.ofNat i, .failure⟩ := by
  induction n with
  | zero => exact ⟨_, rfl, rfl, rfl, rfl, rfl⟩
  | succ n ih =>
    obtain ⟨s, hr, hphase, hpc, hid, hexec⟩ := ih (Nat.le_of_succ_le hn)
    obtain ⟨s', hr', hphase', hpc', hid', hexec'⟩ := run_failedLoop hn hphase hpc
    refine ⟨s', ?_, hphase', hpc', ?_, ?_⟩
    · rw [List.range_succ, List.flatMap_append, List.flatMap_singleton, ← List.append_assoc]
      exact run_append_some.2 ⟨s, hr, hr'⟩
    · rw [hid', hid, UInt64.ofNat_add]
      rfl
    · rw [hexec', hexec, hid, List.range_succ, List.map_append, List.map_singleton]

/-- After `2 ^ 64` requests the next one has the id of the first. -/
theorem request_id_reused : ∃ acts s,
    run (soleUser none).step (soleUser none).start acts = some s ∧
      ¬ (s.executed.map fun r => (r.userId, r.requestId)).Nodup := by
  obtain ⟨s, hr, -, -, -, hexec⟩ := run_failedLoops (n := 2 ^ 64 + 1) (by decide)
  refine ⟨_, s, hr, fun hnodup => ?_⟩
  rw [hexec, List.map_map] at hnodup
  have hfirst : 0 ∈ List.range (2 ^ 64 + 1) := List.mem_range.2 (by decide)
  have hlast : 2 ^ 64 ∈ List.range (2 ^ 64 + 1) := List.mem_range.2 (Nat.lt_succ_self _)
  exact absurd (List.inj_on_of_nodup_map hnodup hfirst hlast rfl) (by decide)

end LoadTester

end Duende.Test
