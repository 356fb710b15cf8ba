import Duende.Policy.Interleaved
import Duende.Policy.Phase
import Mathlib.Data.Fintype.Prod

/-!
# No failure is lost on the way to opening

Callers increment `failure_count` under the shared read lock and open after dropping it,
so several may pass the threshold test and open one after the other. `Counting` relates
the failures recorded so far to the fields: below the limit they are what the counter
shows, and from the limit on the breaker is open or somebody is about to open it. Until
the recovery timeout of the first opening has passed nobody leaves the open state.
-/

namespace Duende.Policy

open Trans

variable {ι : Type*} [DecidableEq ι] {c c' : BConf ι} {a : BAct ι} {rt m n : Nat} {ts : List Nat}

/-! ## What a run does -/

/-- The clock reading of an action that writes `Open`. -/
def opened (c : BConf ι) : BAct ι → List Nat
  | .step i _ => if c.pc i = some .openState then [c.shared.now] else []
  | .call _ _ | .env _ => []

/-- The clock readings at which a run sets `state` to `Open`, in order. -/
def openingTimes (c : BConf ι) (as : List (BAct ι)) : List Nat :=
  (trace breakerObj.act c as).flatMap fun x => opened x.1 x.2

def isFailure : BAct ι → Bool
  | .call _ .recordFailure => true
  | _ => false

/-- How many `record_failure` calls a run makes. -/
def failureCalls (as : List (BAct ι)) : Nat := as.countP isFailure

/-- No success is recorded, and nobody resets. -/
def NoRecovery : BAct ι → Bool
  | .call _ .recordSuccess | .call _ .reset => false
  | _ => true

theorem openingTimes_append {as bs : List (BAct ι)} (hr : run breakerObj.act c as = some c') :
    openingTimes c (as ++ bs) = openingTimes c as ++ openingTimes c' bs := by
  unfold openingTimes; rw [trace_append hr, List.flatMap_append]

theorem openingTimes_snoc {as : List (BAct ι)} (hr : run breakerObj.act c as = some c') :
    openingTimes c (as ++ [a]) = openingTimes c as ++ opened c' a := by
  unfold openingTimes; rw [trace_snoc hr, List.flatMap_append, List.flatMap_singleton]

/-! ## The instant of an opening -/

/-- The instants written stand for openings of the run. -/
structure Stamped (ts : List Nat) (c : BConf ι) : Prop where
  past : ∀ t ∈ ts, t ≤ c.shared.now
  written : ∀ t', c.shared.breaker.openedAt = some t' → ∃ t ∈ ts, t ≤ t'
  opener : c.At .openOpenedAt → ts ≠ []

omit [DecidableEq ι] in
theorem stamped_fresh (th : UInt32) (rt now : Nat) : Stamped [] (fresh ι th rt now) where
  past := nofun
  written := nofun
  opener := fun ⟨_, h⟩ => by cases h

theorem Stamped.step (h : Stamped ts c) (ha : breakerObj.act c a = some c') :
    Stamped (ts ++ opened c a) c' := by
  rcases bact_cases ha with ⟨i, o, rfl, hi, rfl⟩ | ⟨i, p, rfl, hp, rfl⟩ | ⟨d, rfl, rfl⟩
  · show Stamped (ts ++ []) _
    rw [List.append_nil]
    exact ⟨h.past, h.written, fun hat => h.opener (hat.of_update (by cases o <;> nofun))⟩
  · have hmem : ∀ t ∈ opened c (.step i ()), t = c.shared.now := by
      intro t ht; unfold opened at ht; split at ht <;> simp_all
    refine ⟨fun t ht => ?_, fun t' ht' => ?_, fun hat => ?_⟩
    · show t ≤ (exec c.shared p).1.now
      rw [exec_now]
      rcases List.mem_append.1 ht with ht | ht
      · exact h.past t ht
      · exact Nat.le_of_eq (hmem t ht)
    · have hold : c.shared.breaker.openedAt = some t' →
          ∃ t ∈ ts ++ opened c (.step i ()), t ≤ t' := by
        intro ho
        obtain ⟨t, ht, hle⟩ := h.written t' ho
        exact ⟨t, List.mem_append_left _ ht, hle⟩
      cases hw : p.writesOpenedAt with
      | false => exact hold (by rw [← exec_openedAt hw]; exact ht')
      | true =>
        cases p with
        | openOpenedAt =>
          cases ht'
          obtain ⟨t, ht⟩ := List.exists_mem_of_ne_nil _ (h.opener ⟨i, hp⟩)
          exact ⟨t, List.mem_append_left _ ht, h.past t ht⟩
        | closeOpenedAt => cases ht'
        | _ => cases hw
    · by_cases hnext : (exec c.shared p).2.getLeft? = some .openOpenedAt
      · obtain rfl := eq_openState_of_next hnext
        simp [opened, hp]
      · simp [h.opener (hat.of_update hnext)]
  · show Stamped (ts ++ []) _
    rw [List.append_nil]
    exact ⟨fun t ht => Nat.le_add_right_of_le (h.past t ht), h.written, h.opener⟩

/-- The recovery timeout of no opening has passed. -/
def Early (rt : Nat) (ts : List Nat) (c : BConf ι) : Prop := ∀ t ∈ ts, c.shared.now < t + rt

omit [DecidableEq ι] in
theorem Stamped.not_shouldTransition (h : Stamped ts c)
    (hearly : Early c.shared.breaker.recoveryTimeout ts c) :
    c.shared.breaker.shouldTransition c.shared.now = false := by
  unfold CircuitBreaker.shouldTransition
  cases ho : c.shared.breaker.openedAt with
  | none => rfl
  | some t' =>
    obtain ⟨t, ht, hle⟩ := h.written t' ho
    have hpast := h.past t ht
    have hlt := hearly t ht
    show decide (c.shared.breaker.recoveryTimeout ≤ c.shared.now - t') = false
    rw [decide_eq_false_iff_not]
    omega

/-! ## The failures recorded so far -/

/-- The steps that lead out of `Open`, or reset the failures. -/
def Pc.recovers : Pc → Bool
  | .writeHalfOpen _ | .recordSuccess | .closeState | .closeFailures | .closeSuccesses
  | .closeOpenedAt => true
  | _ => false

/-- Where the breaker is after `e` failures were recorded, with limit `m` and openings at
`ts`. -/
inductive Stage (m e : Nat) (ts : List Nat) (c : BConf ι) : Prop where
  | below (unopened : ts = []) (closed : c.shared.breaker.state = .closed) (lt : e < m)
      (count : c.shared.breaker.failureCount = e) (nobody : ¬ c.At .openState)
  | opening (unopened : ts = []) (closed : c.shared.breaker.state = .closed) (ge : m ≤ e)
      (opener : c.At .openState)
  | opened (once : ts ≠ []) («open» : c.shared.breaker.state = .open) (ge : m ≤ e)

/-- After `n` calls of `record_failure`: those that have not run their first step yet are
the ones the stage does not count. -/
structure Counting (m n : Nat) (ts : List Nat) (c : BConf ι) : Prop where
  callers : ∀ i p, c.pc i = some p → p.recovers = false
  counted : ∃ e k, n = e + k ∧ c.Count .recordFailure k ∧ Stage m e ts c

omit [DecidableEq ι] in
theorem counting_fresh (th : UInt32) (rt now : Nat) :
    Counting (limit th) 0 [] (fresh ι th rt now) where
  callers := nofun
  counted := ⟨0, 0, rfl, .of_empty (fun ⟨_, h⟩ => by cases h),
    .below rfl rfl (by unfold limit; omega) rfl (fun ⟨_, h⟩ => by cases h)⟩

theorem exec_failureCount {s : Shared} {p : Pc} (hr : p.recovers = false)
    (hp : p ≠ .recordFailure) : (exec s p).1.breaker.failureCount = s.breaker.failureCount := by
  cases p <;> simp only [Pc.recovers, Bool.true_eq_false] at hr <;> simp only [exec] <;>
    first | (split <;> rfl) | rfl | exact absurd rfl hp

theorem writesState_of_recovers {p : Pc} (hr : p.recovers = false) (hp : p ≠ .openState) :
    p.writesState = false := by
  cases p <;> first | rfl | exact absurd rfl hp | cases hr

theorem next_recovers {s : Shared} {p q : Pc} (hr : p.recovers = false)
    (hs : s.breaker.shouldTransition s.now = false) (h : (exec s p).2.getLeft? = some q) :
    q.recovers = false := by
  cases p <;> simp only [Pc.recovers, Bool.true_eq_false] at hr <;> simp only [exec, hs] at h <;>
    (try split at h) <;> (try split at h) <;> simp_all <;> subst h <;> rfl

theorem eq_recordFailure_of_next {s : Shared} {p : Pc}
    (h : (exec s p).2.getLeft? = some .openState) : p = .recordFailure := by
  cases p <;> simp only [exec] at h <;> (try split at h) <;> (try split at h) <;> simp_all

theorem next_ne_recordFailure {s : Shared} {p : Pc} :
    (exec s p).2.getLeft? ≠ some .recordFailure := by
  intro h
  cases p <;> simp only [exec] at h <;> (try split at h) <;> (try split at h) <;> simp_all

omit [DecidableEq ι] in
theorem Stage.frame {e : Nat} (h : Stage m e ts c)
    (hs : c'.shared.breaker.state = c.shared.breaker.state)
    (hf : c'.shared.breaker.failureCount = c.shared.breaker.failureCount)
    (hat : c'.At .openState ↔ c.At .openState) : Stage m e ts c' := by
  cases h with
  | below unopened closed lt count nobody =>
    exact .below unopened (hs.trans closed) lt (hf.trans count) (fun h => nobody (hat.1 h))
  | opening unopened closed ge opener => exact .opening unopened (hs.trans closed) ge (hat.2 opener)
  | opened once «open» ge => exact .opened once (hs.trans «open») ge

/-- The first step of `record_failure` counts one more failure. -/
theorem Stage.recordFailure {e : Nat} {i : ι} (h : Stage m e ts c)
    (hm : m = limit c.shared.breaker.failureThreshold) (hi : c.pc i = some .recordFailure) :
    Stage m (e + 1) ts ⟨(exec c.shared .recordFailure).1,
      Function.update c.pc i (exec c.shared .recordFailure).2.getLeft?⟩ := by
  have hne : c.pc i ≠ some .openState := by rw [hi]; simp
  cases h with
  | below unopened closed lt count nobody =>
    have hadd : u64Add c.shared.breaker.failureCount 1 = e + 1 := by
      have := limit_lt c.shared.breaker.failureThreshold
      rw [u64Add_of_lt (by omega), count]
    have hnext : (exec c.shared .recordFailure).2.getLeft? =
        if m ≤ e + 1 then some .openState else none := by
      simp only [exec, closed, hadd, toNat_le_iff_limit_le (Nat.succ_pos e), ← hm]
      split <;> rfl
    have hstate : (exec c.shared .recordFailure).1.breaker.state = .closed := by
      rw [exec_state rfl]; exact closed
    by_cases hge : m ≤ e + 1
    · exact .opening unopened hstate hge (Conf.at_update_self (by rw [hnext, if_pos hge]))
    · refine .below unopened hstate (by omega) ?_ fun hat => nobody (hat.of_update ?_)
      · simp only [exec, closed, hadd]
      · rw [hnext, if_neg hge]; simp
  | opening unopened closed ge opener =>
    exact .opening unopened ((exec_state rfl).trans closed) (by omega) (opener.update hne)
  | opened once «open» ge =>
    exact .opened once ((exec_state rfl).trans «open») (by omega)

omit [DecidableEq ι] in
/-- Once somebody is about to open, enough failures were recorded. -/
theorem Stage.opens {e : Nat} {i : ι} (h : Stage m e ts c) (hi : c.pc i = some .openState) :
    m ≤ e := by
  cases h with
  | below _ _ _ _ nobody => exact absurd ⟨i, hi⟩ nobody
  | opening _ _ ge _ => exact ge
  | opened _ _ ge => exact ge

/-- What one step of a caller does to the stage, and to the failures still to be
counted. -/
theorem stage_step {e k : Nat} {i : ι} {p : Pc} (h : Stage m e ts c)
    (hm : m = limit c.shared.breaker.failureThreshold) (hp : c.pc i = some p)
    (hr : p.recovers = false) (hk : c.Count .recordFailure k) :
    ∃ e' k', e + k = e' + k' ∧
      Conf.Count ⟨(exec c.shared p).1, Function.update c.pc i (exec c.shared p).2.getLeft?⟩
        .recordFailure k' ∧
      Stage m e' (ts ++ opened c (.step i ()))
        ⟨(exec c.shared p).1, Function.update c.pc i (exec c.shared p).2.getLeft?⟩ := by
  have hpne : ∀ q, p ≠ q → c.pc i ≠ some q := fun q hne he => hne (Option.some.inj (hp.symm.trans he))
  by_cases hrf : p = .recordFailure
  · subst hrf
    obtain ⟨k', rfl, hk'⟩ := hk.leave hp next_ne_recordFailure
    refine ⟨e + 1, k', by omega, hk', ?_⟩
    simpa [opened, hp] using h.recordFailure hm hp
  · refine ⟨e, k, rfl, hk.other (hpne _ hrf) next_ne_recordFailure, ?_⟩
    by_cases hos : p = .openState
    · subst hos
      exact .opened (by simp [opened, hp]) rfl (h.opens hp)
    · have hnil : opened c (.step i ()) = [] := by simp [opened, hpne _ hos]
      rw [hnil, List.append_nil]
      exact h.frame (exec_state (writesState_of_recovers hr hos)) (exec_failureCount hr hrf)
        (Conf.at_update_iff (hpne _ hos) fun he => hrf (eq_recordFailure_of_next he))

theorem Counting.step (h : Counting m n ts c) (hst : Stamped ts c)
    (hearly : Early c.shared.breaker.recoveryTimeout ts c)
    (hm : m = limit c.shared.breaker.failureThreshold) (hno : NoRecovery a = true)
    (ha : breakerObj.act c a = some c') :
    Counting m (n + [a].countP isFailure) (ts ++ opened c a) c' := by
  obtain ⟨e, k, hn, hk, hstage⟩ := h.counted
  rcases bact_cases ha with ⟨i, o, rfl, hi, rfl⟩ | ⟨i, p, rfl, hp, rfl⟩ | ⟨d, rfl, rfl⟩
  · have hframe : Stage m e (ts ++ []) ⟨c.shared, Function.update c.pc i (some (entry o))⟩ := by
      rw [List.append_nil]
      exact hstage.frame rfl rfl (Conf.at_update_iff (by rw [hi]; nofun) (by cases o <;> nofun))
    refine ⟨fun j q hq => ?_, ?_⟩
    · by_cases hj : j = i
      · subst hj
        simp only [Function.update_self, Option.some.injEq] at hq
        subst hq
        cases o <;> first | rfl | cases hno
      · exact h.callers j q (by simpa [hj] using hq)
    · cases o with
      | recordFailure =>
        exact ⟨e, k + 1, by rw [hn]; rfl, hk.enter (by rw [hi]; nofun), hframe⟩
      | _ => exact ⟨e, k, hn, hk.other (by rw [hi]; nofun) nofun, hframe⟩
  · have hs := hst.not_shouldTransition hearly
    refine ⟨fun j q hq => ?_, ?_⟩
    · by_cases hj : j = i
      · subst hj
        exact next_recovers (h.callers j p hp) hs (by simpa using hq)
      · exact h.callers j q (by simpa [hj] using hq)
    · obtain ⟨e', k', he, hk', hstage'⟩ := stage_step hstage hm hp (h.callers i p hp) hk
      exact ⟨e', k', hn.trans he, hk', hstage'⟩
  · refine ⟨h.callers, e, k, hn, hk, ?_⟩
    show Stage m e (ts ++ []) _
    rw [List.append_nil]
    exact hstage.frame rfl rfl Iff.rfl

/-! ## Whole runs -/

/-- No `record_success` and no `reset` is called. -/
def OnlyFailures (as : List (BAct ι)) : Prop := ∀ a ∈ as, NoRecovery a = true

instance (as : List (BAct ι)) : Decidable (OnlyFailures as) :=
  inferInstanceAs (Decidable (∀ a ∈ as, NoRecovery a = true))

omit [DecidableEq ι] in
theorem Early.mono {ts' : List Nat} (h : Early rt (ts ++ ts') c')
    (hle : c.shared.now ≤ c'.shared.now) : Early rt ts c :=
  fun t ht => Nat.lt_of_le_of_lt hle (h t (List.mem_append_left _ ht))

theorem stamped_run {th : UInt32} {rt now : Nat} {as : List (BAct ι)}
    (hr : run breakerObj.act (fresh ι th rt now) as = some c) :
    Stamped (openingTimes (fresh ι th rt now) as) c :=
  (run_hist (P := fun h c => run breakerObj.act (fresh ι th rt now) h = some c ∧
      Stamped (openingTimes (fresh ι th rt now) h) c)
    (fun h c a c' hp ha => ⟨run_append_some.2 ⟨c, hp.1, run_cons_some.2 ⟨c', ha, rfl⟩⟩,
      by rw [openingTimes_snoc hp.1]; exact hp.2.step ha⟩)
    (h := []) ⟨rfl, stamped_fresh th rt now⟩ hr).2

theorem counting_run {th : UInt32} {rt now : Nat} {as : List (BAct ι)}
    (hr : run breakerObj.act (fresh ι th rt now) as = some c) (hno : OnlyFailures as)
    (hearly : Early rt (openingTimes (fresh ι th rt now) as) c) :
    Counting (limit th) (failureCalls as) (openingTimes (fresh ι th rt now) as) c := by
  refine (run_hist (P := fun h c => run breakerObj.act (fresh ι th rt now) h = some c ∧
      (OnlyFailures h → Early rt (openingTimes (fresh ι th rt now) h) c →
        Counting (limit th) (failureCalls h) (openingTimes (fresh ι th rt now) h) c))
    (fun h c a c' hp ha => ?_) (h := []) ⟨rfl, fun _ _ => counting_fresh th rt now⟩ hr).2 hno hearly
  refine ⟨run_append_some.2 ⟨c, hp.1, run_cons_some.2 ⟨c', ha, rfl⟩⟩, fun hno hearly => ?_⟩
  rw [openingTimes_snoc hp.1] at hearly ⊢
  have hbefore : Early rt (openingTimes (fresh ι th rt now) h) c := hearly.mono (bact_now ha)
  have hcount := hp.2 (fun x hx => hno x (List.mem_append_left _ hx)) hbefore
  have hpar := run_params hp.1
  have := hcount.step (stamped_run hp.1) (by rw [hpar.1]; exact hbefore) (by rw [hpar.2]; rfl)
    (hno a (by simp)) ha
  rw [failureCalls, List.countP_append]
  exact this

omit [DecidableEq ι] in
theorem answer_of_result {i : ι} (h : breakerObj.result c (.step i ()) = some (.allowed true)) :
    CircuitBreaker.allows c.shared.breaker.state = true := by
  unfold Obj.result at h
  obtain ⟨p, hp, h⟩ := Option.bind_eq_some_iff.1 h
  obtain ⟨r, hr, h⟩ := Option.bind_eq_some_iff.1 h
  cases hr
  replace h : (exec c.shared p).2.getRight? = some (.allowed true) := h
  cases p with
  | answer q =>
    cases q with
    | state => cases h
    | allow => exact Res.allowed.inj (Option.some.inj h)
  | _ => simp only [exec] at h; (try split at h) <;> (try split at h) <;> cases h

/-- **No failure is lost**: for every threshold and every interleaving of failures and
queries on a fresh breaker, up to the recovery timeout of its first opening. -/
theorem failures_counted (th : UInt32) (rt now : Nat) (as : List (BAct ι)) (c : BConf ι)
    (hr : run breakerObj.act (fresh ι th rt now) as = some c) (hno : OnlyFailures as)
    (hearly : ∀ t ∈ openingTimes (fresh ι th rt now) as, c.shared.now < t + rt) :
    (c.Quiet →
      if limit th ≤ failureCalls as then c.shared.breaker.state = .open
      else c.shared.breaker.state = .closed ∧ c.shared.breaker.failureCount = failureCalls as) ∧
    ∀ pre i mid post c₁, as = pre ++ .call i .allow :: (mid ++ .step i () :: post) →
      openingTimes (fresh ι th rt now) pre ≠ [] →
      run breakerObj.act (fresh ι th rt now) (pre ++ .call i .allow :: mid) = some c₁ →
      breakerObj.result c₁ (.step i ()) ≠ some (.allowed true) := by
  refine ⟨fun hq => ?_, fun pre i mid post c₁ has hopen hr₁ hres => ?_⟩
  · obtain ⟨e, k, hn, hk, hstage⟩ := (counting_run hr hno hearly).counted
    have hk0 := hq.count_eq_zero hk
    cases hstage with
    | below _ closed lt count _ =>
      rw [if_neg (by omega)]
      exact ⟨closed, by omega⟩
    | opening _ _ _ opener => exact absurd opener (hq.not_at _)
    | opened _ «open» ge => rw [if_pos (by omega)]; exact «open»
  · have hsplit : as = (pre ++ .call i .allow :: mid) ++ .step i () :: post := by simp [has]
    rw [hsplit] at hr hno hearly
    obtain ⟨c₁', hr₁', hrest⟩ := run_append_some.1 hr
    cases hr₁.symm.trans hr₁'
    rw [openingTimes_append hr₁] at hearly
    have hcount := counting_run hr₁ (fun x hx => hno x (List.mem_append_left _ hx))
      (Early.mono hearly (run_now hrest))
    obtain ⟨c₀, hr₀, -⟩ := run_append_some.1 hr₁
    have hnot := answer_of_result hres
    obtain ⟨e, k, -, -, hstage⟩ := hcount.counted
    have hne : openingTimes (fresh ι th rt now) (pre ++ .call i .allow :: mid) ≠ [] := by
      rw [openingTimes_append hr₀]
      simp [hopen]
    cases hstage with
    | below unopened _ _ _ _ => exact hne unopened
    | opening unopened _ _ _ => exact hne unopened
    | opened _ «open» _ => rw [«open»] at hnot; cases hnot

/-- Two callers pass each other on the way to a limit of two, and one of them then asks. -/
def twoFailures : List (BAct Bool) :=
  [.call false .recordFailure, .call true .recordFailure] ++ steps false 1 ++ steps true 4 ++
  alone false .allow 3

theorem failures_counted_two : ∃ c c₁,
    run breakerObj.act (fresh (Bool) 2 10 0) twoFailures = some c ∧
    run breakerObj.act (fresh (Bool) 2 10 0) (twoFailures.take 10) = some c₁ ∧
    c.shared.breaker.state = .open ∧
    breakerObj.result c₁ (.step false ()) ≠ some (.allowed true) :=
  have h := @failures_counted (Bool) _ 2 10 0 twoFailures _ rfl
  ⟨_, _, rfl, rfl, (h (by decide) (by decide)).1 (by decide),
    (h (by decide) (by decide)).2 (twoFailures.take 7) false ((twoFailures.drop 8).take 2) [] _ rfl
      (by decide) rfl⟩

end Duende.Policy
