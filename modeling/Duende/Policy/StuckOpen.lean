import Duende.Policy.Interleaved
import Mathlib.Data.Fintype.Prod
import Mathlib.Data.Fin.Basic

/-!
# A circuit breaker stuck open

`open` writes `state` first and `opened_at` second; `close` writes `state` first and
`opened_at` last. A `close` that clears `opened_at` after an `open` has written both
fields leaves the breaker open with no opening instant (`stuck_run`), and it stays so
until somebody resets it (`Stuck.step`). No other race does (`dated_run`).
-/

namespace Duende.Policy

open Trans

variable {ι : Type*} [DecidableEq ι] {c c' : BConf ι} {a : BAct ι}

/-- A `close` does not clear `opened_at` while the breaker is open, unless an `open` has
still to write it. -/
def CloseSafe (c : BConf ι) : BAct ι → Prop
  | .step i _ => c.pc i = some .closeOpenedAt → c.shared.breaker.state = .open →
      c.At .openOpenedAt
  | _ => True

instance [Fintype ι] (c : BConf ι) : ∀ a, Decidable (CloseSafe c a)
  | .step i _ => inferInstanceAs (Decidable (c.pc i = some .closeOpenedAt →
      c.shared.breaker.state = .open → c.At .openOpenedAt))
  | .call _ _ => isTrue trivial
  | .env _ => isTrue trivial

/-- An open breaker has an opening instant, or an `open` is about to write one. -/
def Dated (c : BConf ι) : Prop :=
  c.shared.breaker.state = .open → c.shared.breaker.openedAt ≠ none ∨ c.At .openOpenedAt

omit [DecidableEq ι] in
theorem dated_fresh (th : UInt32) (rt now : Nat) : Dated (fresh ι th rt now) := nofun

theorem Dated.step (h : Dated c) (hs : CloseSafe c a) (ha : breakerObj.act c a = some c') :
    Dated c' := by
  intro ho
  rcases bact_cases ha with ⟨i, o, rfl, hi, rfl⟩ | ⟨i, p, rfl, hp, rfl⟩ | ⟨d, rfl, rfl⟩
  · exact (h ho).imp id fun hat => hat.update (by rw [hi]; nofun)
  · cases hw : p.writesOpenedAt with
    | true =>
      cases p with
      | openOpenedAt => exact .inl nofun
      | closeOpenedAt => exact .inr ((hs hp ho).update (by rw [hp]; nofun))
      | _ => cases hw
    | false =>
      have hne : c.pc i ≠ some .openOpenedAt := by rw [hp]; rintro ⟨⟩; cases hw
      rcases open_of_exec ho with rfl | ho
      · exact .inr (Conf.at_update_self rfl)
      · rw [exec_openedAt hw]
        exact (h ho).imp id fun hat => hat.update hne
  · exact h ho

theorem Dated.step_iff (h : Dated c) (ha : breakerObj.act c a = some c') :
    Dated c' ↔ CloseSafe c a := by
  refine ⟨fun hd => ?_, fun hs => h.step hs ha⟩
  rcases bact_cases ha with ⟨i, o, rfl, hi, rfl⟩ | ⟨i, p, rfl, hp, rfl⟩ | ⟨d, rfl, rfl⟩
  · trivial
  · intro hclose ho
    obtain rfl : p = .closeOpenedAt := Option.some.inj (hp.symm.trans hclose)
    exact ((hd ho).resolve_left fun hn => hn rfl).of_update nofun
  · trivial

/-- Between calls, an open breaker has an opening instant, and a query `rt` after it moves
the breaker to half-open. -/
def Reopens (rt : Nat) (c : BConf ι) : Prop :=
  c.Quiet → c.shared.breaker.state = .open → ∃ t, c.shared.breaker.openedAt = some t ∧
    ∀ d i o, o = .state ∨ o = .allow → t + rt ≤ c.shared.now + d → ∃ n c',
      run breakerObj.act c (.env d :: alone i o n) = some c' ∧
        c'.shared.breaker.state = .halfOpen

theorem maybeTransition_due {b : CircuitBreaker} {t now : Nat} (ho : b.state = .open)
    (ht : b.openedAt = some t) (hd : t + b.recoveryTimeout ≤ now) :
    (b.maybeTransition now).state = .halfOpen := by
  have : b.shouldTransition now = true := by
    unfold CircuitBreaker.shouldTransition
    rw [ht]
    show decide (b.recoveryTimeout ≤ now - t) = true
    rw [decide_eq_true_eq]
    omega
  simp [CircuitBreaker.maybeTransition, ho, this]

/-- **No other race leaves the breaker stuck open**: a run in which every `close` is safe
keeps the breaker able to leave the open state, whatever the callers and the clock. -/
theorem dated_run (th : UInt32) (rt now : Nat) (as : List (BAct ι)) (c : BConf ι)
    (hm : Meets breakerObj.act CloseSafe (fresh ι th rt now) as)
    (hr : run breakerObj.act (fresh ι th rt now) as = some c) : Reopens rt c := by
  intro hq ho
  have hd : Dated c := hm.run_inv (fun _ _ _ => Dated.step) (dated_fresh th rt now) hr
  obtain ⟨t, ht⟩ := Option.ne_none_iff_exists'.1 ((hd ho).resolve_right (hq.not_at _))
  have hrt : c.shared.breaker.recoveryTimeout = rt := (run_params hr).1
  refine ⟨t, ht, fun d i o hoq hdue => ?_⟩
  obtain ⟨n, hn⟩ := run_alone (c := ⟨{ c.shared with now := c.shared.now + d }, c.pc⟩) o (hq i)
  refine ⟨n, _, run_cons_some.2 ⟨_, rfl, hn⟩, ?_⟩
  have := maybeTransition_due ho ht (hrt.symm ▸ hdue)
  rcases hoq with rfl | rfl <;> exact this

/-- Caller `false` closes a half-open breaker while caller `true` opens it again; `opened_at` is
cleared before `open` writes it. -/
def closeRun : List (BAct Bool) :=
  alone false .recordFailure 4 ++ [.env 10] ++ alone false .state 5 ++
  alone false .recordSuccess 1 ++ alone false .recordSuccess 1 ++
  .call false .recordSuccess :: steps false 2 ++ .call true .recordFailure :: steps true 1 ++
  steps false 2 ++ steps true 1 ++ steps false 1 ++ steps true 2

theorem dated_run_close : ∃ c, run breakerObj.act (fresh Bool 1 10 0) closeRun = some c ∧
    c.shared.breaker.state = .open ∧ Reopens 10 c :=
  ⟨_, rfl, rfl, dated_run 1 10 0 closeRun _ (by decide) rfl⟩

/-- Nobody is between the test of `state` and a write of it, nor inside `open` or `close`. -/
def Pc.harmless : Pc → Bool
  | .readState _ | .readOpenedAt _ | .answer _ | .recordSuccess | .recordFailure
  | .loadFailures => true
  | _ => false

/-- Open, no opening instant, and no caller about to change that. -/
structure Stuck (c : BConf ι) : Prop where
  state : c.shared.breaker.state = .open
  openedAt : c.shared.breaker.openedAt = none
  callers : ∀ i p, c.pc i = some p → p.harmless = true

theorem exec_harmless {m : Shared} {p : Pc} (ho : m.breaker.state = .open)
    (hn : m.breaker.openedAt = none) (hp : p.harmless = true) :
    (exec m p).1 = m ∧ ∀ q, (exec m p).2.getLeft? = some q → q.harmless = true := by
  cases p <;> simp only [Pc.harmless, Bool.false_eq_true] at hp <;>
    simp [exec, ho, CircuitBreaker.shouldTransition, hn, Pc.harmless]

/-- **A stuck breaker stays stuck**, however long, until a reset is called. -/
theorem Stuck.step (h : Stuck c) (hr : ∀ i, a ≠ .call i .reset)
    (ha : breakerObj.act c a = some c') : Stuck c' := by
  rcases bact_cases ha with ⟨i, o, rfl, hi, rfl⟩ | ⟨i, p, rfl, hp, rfl⟩ | ⟨d, rfl, rfl⟩
  · refine ⟨h.state, h.openedAt, fun j q hq => ?_⟩
    rcases Conf.pc_update_cases hq with ⟨rfl, hs⟩ | ⟨-, hq⟩
    · cases hs
      cases o with
      | reset => exact absurd rfl (hr j)
      | _ => rfl
    · exact h.callers j q hq
  · obtain ⟨he, hnext⟩ := exec_harmless h.state h.openedAt (h.callers i p hp)
    refine ⟨by rw [he]; exact h.state, by rw [he]; exact h.openedAt, fun j q hq => ?_⟩
    rcases Conf.pc_update_cases hq with ⟨-, hs⟩ | ⟨-, hq⟩
    · exact hnext q hs
    · exact h.callers j q hq
  · exact ⟨h.state, h.openedAt, h.callers⟩

/-- Caller `false` opens a breaker of threshold one, lets it become half-open and records
three successes; caller `true` records a failure after the third. `close` writes `state`,
`open` runs through, and `close` clears the instant `open` wrote. -/
def stuckRun : List (BAct Bool) :=
  alone false .recordFailure 4 ++ alone false .state 5 ++
  alone false .recordSuccess 1 ++ alone false .recordSuccess 1 ++
  .call false .recordSuccess :: steps false 1 ++ .call true .recordFailure :: steps true 1 ++
  steps false 1 ++ steps true 3 ++ steps false 3

/-- **A breaker can be stuck open.** -/
theorem stuck_run : ¬ ∀ (as : List (BAct Bool)) (c : BConf Bool),
    run breakerObj.act (fresh Bool 1 0 0) as = some c → Reopens 0 c := by
  intro h
  obtain ⟨t, ht, -⟩ := h stuckRun _ rfl (by decide) rfl
  cases ht

end Duende.Policy
