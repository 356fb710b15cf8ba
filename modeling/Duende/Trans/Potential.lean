import Duende.Trans.Run
import Mathlib

/-!
# Amortised bounds over runs

A step pays a cost out of a potential of the state, out of an income of the action and out of
the progress of a clock. `run_potential` adds the steps of a run up: the potentials in between
cancel, and what is left is a bound on the whole cost.
-/

namespace Trans

universe u v

variable {σ : Type u} {α : Type v} {step : σ → α → Option σ}

/-- **Potential rule.** When every step is paid for, so is the whole run. -/
theorem run_potential {I : σ → Prop} (cost income : α → Nat) (credit clock : σ → Nat)
    (hstep : ∀ s a s', I s → step s a = some s' →
      I s' ∧ cost a + credit s' + clock s ≤ credit s + income a + clock s') :
    ∀ {as : List α} {s s' : σ}, I s → run step s as = some s' →
      (as.map cost).sum + credit s' + clock s ≤ credit s + (as.map income).sum + clock s'
  | [], _, _, _, hr => by cases hr; simp
  | a :: as, s, s', hi, hr => by
    obtain ⟨s1, h1, h2⟩ := run_cons_some.1 hr
    obtain ⟨hi1, hpay⟩ := hstep s a s1 hi h1
    have hrest := run_potential cost income credit clock hstep hi1 h2
    simp only [List.map_cons, List.sum_cons]
    omega

theorem sum_map_ite {p : α → Prop} [DecidablePred p] (k : Nat) :
    ∀ as : List α, (as.map fun a => if p a then k else 0).sum = as.countP p * k
  | [] => by simp
  | a :: as => by
    rw [List.map_cons, List.sum_cons, sum_map_ite k as, List.countP_cons]
    by_cases h : p a <;> simp [h, Nat.add_mul, Nat.add_comm]

theorem add_sum_le_of_eq_off {κ : Type*} [Fintype κ] [DecidableEq κ] {f g : κ → Nat} {i : κ}
    {k m : Nat} (ho : ∀ j ≠ i, g j = f j) (hi : k + g i ≤ f i + m) :
    k + ∑ j, g j ≤ ∑ j, f j + m := by
  have hrest : ∑ j ∈ Finset.univ.erase i, g j = ∑ j ∈ Finset.univ.erase i, f j :=
    Finset.sum_congr rfl fun j hj => ho j (Finset.ne_of_mem_erase hj)
  have hf := Finset.add_sum_erase Finset.univ f (Finset.mem_univ i)
  have hg := Finset.add_sum_erase Finset.univ g (Finset.mem_univ i)
  omega

end Trans
