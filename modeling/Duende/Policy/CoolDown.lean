import Duende.Policy.Interleaved
import Mathlib.Data.Fintype.Prod
import Mathlib.Data.Fin.Basic

/-!
# The cool-down of the circuit breaker

`maybe_transition` tests `state` and `opened_at` under different locks and writes
`HalfOpen` under a third, and `open` writes `opened_at` after `state`. A transition may so
be decided on the instant of an earlier opening, or before an opening and written after
it; either cuts the cool-down short (`short_cool_down`). Where neither happens every
opening is cooled down in full (`coolDown_run`).
-/

namespace Duende.Policy

open Trans

variable {ι : Type*} [DecidableEq ι] {c c' : BConf ι} {a : BAct ι} {rt t u : Nat}

/-- In the run `as`, `state` is set to `Open` at `t` and becomes `HalfOpen` at `u`, and is
not `Closed` in between. -/
inductive HalfOpens (c : BConf ι) (as : List (BAct ι)) (t u : Nat) : Prop where
  | intro (pre mid post : List (BAct ι)) (i j : ι) (c₁ c₂ c₃ c₄ : BConf ι)
    (split : as = pre ++ .step i () :: (mid ++ .step j () :: post))
    (before : run breakerObj.act c pre = some c₁)
    (opens : c₁.pc i = some .openState)
    (opened : breakerObj.act c₁ (.step i ()) = some c₂)
    (between : run breakerObj.act c₂ mid = some c₃)
    (notClosed : Meets breakerObj.act (fun c _ => c.shared.breaker.state ≠ .closed) c₂ mid)
    (halfOpens : breakerObj.act c₃ (.step j ()) = some c₄)
    (was : c₃.shared.breaker.state ≠ .halfOpen)
    (is : c₄.shared.breaker.state = .halfOpen)
    (start : c₁.shared.now = t)
    (finish : c₃.shared.now = u)

/-- No transition is decided while an open breaker waits for its instant to be written,
and none that was decided before an opening is left to be written after it. -/
def CoolSafe (c : BConf ι) : BAct ι → Prop
  | .step i _ =>
    (c.pc i = some .openState → ∀ q, ¬ c.At (.writeHalfOpen q)) ∧
    ∀ q, c.pc i = some (.readOpenedAt q) → c.shared.breaker.state = .open →
      c.shared.breaker.shouldTransition c.shared.now = true → ¬ c.At .openOpenedAt
  | _ => True

instance : Fintype Query := ⟨{.state, .allow}, fun q => by cases q <;> decide⟩

instance [Fintype ι] (c : BConf ι) : ∀ a, Decidable (CoolSafe c a)
  | .step i _ => inferInstanceAs (Decidable (
      (c.pc i = some .openState → ∀ q, ¬ c.At (.writeHalfOpen q)) ∧
      ∀ q, c.pc i = some (.readOpenedAt q) → c.shared.breaker.state = .open →
        c.shared.breaker.shouldTransition c.shared.now = true → ¬ c.At .openOpenedAt))
  | .call _ _ => isTrue trivial
  | .env _ => isTrue trivial

/-- After an opening at `t`: an instant that is written is no older, and a transition is
decided only when the cool-down is over. -/
structure Cooling (rt t : Nat) (c : BConf ι) : Prop where
  timeout : c.shared.breaker.recoveryTimeout = rt
  past : t ≤ c.shared.now
  dated : (∀ t', c.shared.breaker.openedAt = some t' → t ≤ t') ∨ c.At .openOpenedAt
  decided : ∀ q, c.At (.writeHalfOpen q) → c.shared.breaker.state = .open →
    t + rt ≤ c.shared.now

theorem due_of_shouldTransition {b : CircuitBreaker} {now : Nat} (hp : t ≤ now)
    (hd : ∀ t', b.openedAt = some t' → t ≤ t') (h : b.shouldTransition now = true) :
    t + b.recoveryTimeout ≤ now := by
  unfold CircuitBreaker.shouldTransition at h
  cases ho : b.openedAt with
  | none => rw [ho] at h; cases h
  | some t' =>
    have hle : b.recoveryTimeout ≤ now - t' := by rw [ho] at h; exact of_decide_eq_true h
    have := hd t' ho
    omega

theorem Cooling.opening {i : ι} (hs : CoolSafe c (.step i ())) (hi : c.pc i = some .openState)
    (ha : breakerObj.act c (.step i ()) = some c') :
    Cooling c.shared.breaker.recoveryTimeout c.shared.now c' := by
  rcases bact_cases ha with ⟨_, _, h, -⟩ | ⟨_, p, h, hp, rfl⟩ | ⟨_, h, -⟩
  · cases h
  · cases h
    obtain rfl : p = .openState := Option.some.inj (hp.symm.trans hi)
    refine ⟨rfl, Nat.le_refl _, .inr (Conf.at_update_self rfl), fun q hq _ => ?_⟩
    exact absurd (hq.of_update nofun) (hs.1 hi q)
  · cases h

theorem Cooling.step (h : Cooling rt t c) (hs : CoolSafe c a)
    (ha : breakerObj.act c a = some c') : Cooling rt t c' := by
  rcases bact_cases ha with ⟨i, o, rfl, hi, rfl⟩ | ⟨i, p, rfl, hp, rfl⟩ | ⟨d, rfl, rfl⟩
  · refine ⟨h.timeout, h.past, h.dated.imp id fun hat => hat.update (by rw [hi]; nofun), ?_⟩
    exact fun q hq => h.decided q (hq.of_update (by cases o <;> nofun))
  · have hpast : t ≤ (exec c.shared p).1.now := by rw [exec_now]; exact h.past
    refine ⟨by rw [exec_recoveryTimeout]; exact h.timeout, hpast, ?_, fun q hq ho => ?_⟩
    · -- `dated`: only the two writers of `opened_at` matter
      cases hw : p.writesOpenedAt with
      | true =>
        cases p with
        | openOpenedAt => exact .inl fun t' ht => by cases ht; exact h.past
        | closeOpenedAt => exact .inl nofun
        | _ => cases hw
      | false =>
        rw [exec_openedAt hw]
        exact h.dated.imp id fun hat => hat.update (by rw [hp]; rintro ⟨⟩; cases hw)
    · -- `decided`: either this step decides, or somebody had decided before
      show t + rt ≤ (exec c.shared p).1.now
      rw [exec_now]
      have hold : c.At (.writeHalfOpen q) → t + rt ≤ c.shared.now := by
        intro hat
        rcases open_of_exec ho with rfl | ho
        · exact absurd hat (hs.1 hp q)
        · exact h.decided q hat ho
      by_cases hnext : (exec c.shared p).2.getLeft? = some (.writeHalfOpen q)
      · obtain ⟨rfl, hshould⟩ := shouldTransition_of_next hnext
        have hopen : c.shared.breaker.state = .open := by
          rw [exec_state rfl] at ho; exact ho
        have hd := h.dated.resolve_right (hs.2 q hp hopen hshould)
        rw [← h.timeout]
        exact due_of_shouldTransition h.past hd hshould
      · exact hold (hq.of_update hnext)
  · refine ⟨h.timeout, Nat.le_add_right_of_le h.past, h.dated, fun q hq ho => ?_⟩
    exact Nat.le_add_right_of_le (h.decided q hq ho)

/-- A step that moves the breaker to half-open was decided before. -/
theorem Cooling.halfOpens {j : ι} (h : Cooling rt t c)
    (ha : breakerObj.act c (.step j ()) = some c') (was : c.shared.breaker.state ≠ .halfOpen)
    (is : c'.shared.breaker.state = .halfOpen) : t + rt ≤ c.shared.now := by
  rcases bact_cases ha with ⟨_, _, hc, -⟩ | ⟨_, p, hc, hp, rfl⟩ | ⟨_, hc, -⟩
  · cases hc
  · cases hc
    cases hw : p.writesState with
    | false => rw [exec_state hw] at is; exact absurd is was
    | true =>
      cases p with
      | writeHalfOpen q =>
        refine h.decided q ⟨j, hp⟩ ?_
        by_contra hne
        simp only [exec, if_neg hne] at is
        exact was is
      | openState => cases is
      | closeState => cases is
      | _ => cases hw
  · cases hc

/-- **No other race cuts the cool-down short**, for any number of callers, any schedule
and any clock. -/
theorem coolDown_run (th : UInt32) (rt now : Nat) (as : List (BAct ι)) (t u : Nat)
    (hm : Meets breakerObj.act CoolSafe (fresh ι th rt now) as)
    (h : HalfOpens (fresh ι th rt now) as t u) : t + rt ≤ u := by
  obtain ⟨pre, mid, post, i, j, c₁, c₂, c₃, c₄, rfl, before, opens, opened, between, -, half,
    was, is, rfl, rfl⟩ := h
  have hrt : c₁.shared.breaker.recoveryTimeout = rt := (run_params before).1
  have hm₁ := hm.append.2 c₁ before
  have hm₂ := (hm₁.2 c₂ opened).append.1
  have hstart : Cooling rt c₁.shared.now c₂ := hrt ▸ Cooling.opening hm₁.1 opens opened
  have hend : Cooling rt c₁.shared.now c₃ :=
    hm₂.run_inv (fun _ _ _ => Cooling.step) hstart between
  exact hend.halfOpens half was is

/-- Caller `false` fails at zero, and caller `true` asks before `opened_at` is written, and again at
ten; before it writes `HalfOpen`, there is another failure. -/
def patientRun : List (BAct Bool) :=
  .call false .recordFailure :: steps false 2 ++ .call true .state :: steps true 3 ++
  steps false 2 ++ [.env 10] ++ .call true .allow :: steps true 2 ++
  alone false .recordFailure 1 ++ steps true 3

theorem patientRun_halfOpens : HalfOpens (fresh Bool 1 10 0) patientRun 0 10 := by
  refine .intro (patientRun.take 2) ((patientRun.drop 3).take 12) (patientRun.drop 16) false true
    ?c₁ ?c₂ ?c₃ ?c₄ ?split ?before ?opens ?opened ?between ?notClosed ?halfOpens ?was ?is
    ?start ?finish
  case split | before | opened | between | halfOpens => rfl
  all_goals decide

theorem coolDown_run_patient :
    HalfOpens (fresh Bool 1 10 0) patientRun 0 10 ∧ 0 + 10 ≤ 10 :=
  ⟨patientRun_halfOpens, coolDown_run 1 10 0 patientRun 0 10 (by decide) patientRun_halfOpens⟩

/-- The breaker opened at zero is half-open at ten and a failure reopens it; before the new
`opened_at` is written, caller `true` reads the old one. -/
def staleRun : List (BAct (Bool)) :=
  alone false .recordFailure 4 ++ [.env 10] ++ alone false .state 5 ++
  .call false .recordFailure :: steps false 2 ++ .call true .allow :: steps true 3

theorem staleRun_halfOpens : HalfOpens (fresh (Bool) 1 10 0) staleRun 10 10 := by
  refine .intro (staleRun.take 14) ((staleRun.drop 15).take 3) [] false true
    ?c₁ ?c₂ ?c₃ ?c₄ ?split ?before ?opens ?opened ?between ?notClosed ?halfOpens ?was ?is
    ?start ?finish
  case split | before | opened | between | halfOpens => rfl
  all_goals decide

/-- **The cool-down can be cut to nothing.** -/
theorem short_cool_down : ¬ ∀ (as : List (BAct (Bool))) (t u : Nat),
    HalfOpens (fresh (Bool) 1 10 0) as t u → t + 10 ≤ u :=
  fun h => absurd (h _ _ _ staleRun_halfOpens) (by decide)

end Duende.Policy
