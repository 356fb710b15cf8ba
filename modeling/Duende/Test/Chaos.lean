import Mathlib
import Duende.Core.Config

/-!
# Chaos injection

The nanoseconds of the clock reading are below `10 ^ 9`, and `rand_probability` divides them by
`u32::MAX`. `honoured_iff` says for which probabilities the injector still injects for that
fraction of the readings.
-/

namespace Duende.Test

/-- Chaos injection configuration, with the probabilities that the injector reads. -/
structure ChaosConfig where
  latencyInjection : Option (F64 × Nat)
  errorInjection : Option F64

/-- Chaos injector for testing daemon resilience. -/
structure ChaosInjector where
  config : ChaosConfig
  active : Bool

/-- Simple probability check, at this time since the epoch (`none`: the clock is before it). -/
def randProbability (sinceEpoch : Option Nat) (p : F64) : Bool :=
  let nanos : Nat := sinceEpoch.getD 0 % 10 ^ 9
  ((F64.finite nanos).div u32Max).lt p

namespace ChaosInjector

def start (c : ChaosInjector) : ChaosInjector := { c with active := true }

/-- Injects latency if configured and active: the delay slept. -/
def maybeInjectLatency (c : ChaosInjector) (sinceEpoch : Option Nat) : Option Nat :=
  if !c.active then none
  else
    match c.config.latencyInjection with
    | some (probability, delay) =>
      if randProbability sinceEpoch probability then some delay else none
    | none => none

/-- Returns true if an error should be injected. -/
def shouldInjectError (c : ChaosInjector) (sinceEpoch : Option Nat) : Bool :=
  if !c.active then false
  else
    match c.config.errorInjection with
    | some probability => randProbability sinceEpoch probability
    | none => false

end ChaosInjector

/-- The check holds for the fraction `p` of the readings of a second, up to rounding by one. -/
def Fraction (p : ℚ) (check : Nat → Bool) : Prop :=
  |(((Finset.range (10 ^ 9)).filter fun n => check n = true).card : ℚ) - p * 10 ^ 9| ≤ 1

/-- In every second the probability is honoured: by the check itself, and by an active injector
that has it for errors or for latency. -/
structure Honoured (p : ℚ) : Prop where
  rand : ∀ secs, Fraction p fun n => randProbability (some (secs * 10 ^ 9 + n)) (.finite p)
  errors : ∀ secs (c : ChaosInjector), c.config.errorInjection = some (.finite p) →
    Fraction p fun n => c.start.shouldInjectError (some (secs * 10 ^ 9 + n))
  latency : ∀ secs (c : ChaosInjector) delay,
    c.config.latencyInjection = some (.finite p, delay) →
    Fraction p fun n => (c.start.maybeInjectLatency (some (secs * 10 ^ 9 + n))).isSome

variable {p : ℚ} {secs n : Nat}

/-! ## Counting readings -/

theorem randProbability_iff (hn : n < 10 ^ 9) :
    randProbability (some (secs * 10 ^ 9 + n)) (.finite p) = true ↔ n < ⌈p * u32Max⌉₊ := by
  have hmod : (secs * 10 ^ 9 + n) % 10 ^ 9 = n := by omega
  have hmax : (0 : ℚ) < u32Max := by norm_num [u32Max]
  unfold randProbability
  simp only [Option.getD_some, hmod, F64.div, F64.lt, decide_eq_true_eq]
  rw [div_lt_iff₀ hmax, Nat.lt_ceil]

theorem card_rand {check : Nat → Bool} (hcheck : ∀ n < 10 ^ 9, check n = true ↔ n < ⌈p * u32Max⌉₊) :
    ((Finset.range (10 ^ 9)).filter fun n => check n = true).card =
      min (10 ^ 9) ⌈p * u32Max⌉₊ := by
  have hrange : ((Finset.range (10 ^ 9)).filter fun n => check n = true) =
      Finset.range (min (10 ^ 9) ⌈p * u32Max⌉₊) := by
    ext n
    rw [Finset.mem_filter, Finset.mem_range, Finset.mem_range, lt_min_iff]
    exact and_congr_right fun hn => hcheck n hn
  rw [hrange, Finset.card_range]

/-- **The fraction of the readings** is right only at the ends: where at most one reading is
taken, or nearly all of them should be. -/
theorem fraction_iff (h0 : 0 ≤ p) (h1 : p ≤ 1) {check : Nat → Bool}
    (hcheck : ∀ n < 10 ^ 9, check n = true ↔ n < ⌈p * u32Max⌉₊) :
    Fraction p check ↔ p ≤ 1 / u32Max ∨ 1 - 1 / 10 ^ 9 ≤ p := by
  have hmax : (u32Max : ℚ) = 4294967295 := by norm_num [u32Max]
  unfold Fraction
  rw [card_rand hcheck, hmax]
  have hle : p * 4294967295 ≤ (⌈p * 4294967295⌉₊ : ℚ) := Nat.le_ceil _
  have hlt : (⌈p * 4294967295⌉₊ : ℚ) < p * 4294967295 + 1 := Nat.ceil_lt_add_one (by positivity)
  set k := ⌈p * 4294967295⌉₊ with hk
  rw [abs_le]
  rcases le_or_gt (10 ^ 9) k with hall | hsome
  · -- every reading is taken
    have hall' : (10 : ℚ) ^ 9 ≤ k := by exact_mod_cast hall
    rw [min_eq_left hall]
    push_cast
    constructor
    · rintro ⟨-, hup⟩
      right
      linarith
    · rintro (hsmall | hlarge)
      · exfalso
        linarith
      · constructor <;> linarith
  · have hsome' : (k : ℚ) < 10 ^ 9 := by exact_mod_cast hsome
    rw [min_eq_right hsome.le]
    constructor
    · rintro ⟨-, hup⟩
      left
      -- with two readings or more, far too many are taken
      have hk1 : k ≤ 1 := by
        by_contra hk2
        have hk2' : (2 : ℚ) ≤ k := by exact_mod_cast (by omega : 2 ≤ k)
        linarith
      have hk1' : (k : ℚ) ≤ 1 := by exact_mod_cast hk1
      linarith
    · rintro (hsmall | hlarge)
      · have hk1 : k ≤ 1 := Nat.ceil_le.2 (by push_cast; linarith)
        have hk1' : (k : ℚ) ≤ 1 := by exact_mod_cast hk1
        constructor <;> linarith
      · exfalso
        linarith

theorem shouldInjectError_start {c : ChaosInjector} {t : Option Nat} {q : F64}
    (hc : c.config.errorInjection = some q) :
    c.start.shouldInjectError t = randProbability t q := by
  simp only [ChaosInjector.shouldInjectError, ChaosInjector.start, hc]
  rfl

theorem maybeInjectLatency_start {c : ChaosInjector} {t : Option Nat} {q : F64} {delay : Nat}
    (hc : c.config.latencyInjection = some (q, delay)) :
    (c.start.maybeInjectLatency t).isSome = randProbability t q := by
  simp only [ChaosInjector.maybeInjectLatency, ChaosInjector.start, hc]
  cases randProbability t q <;> rfl

/-- **A probability is honoured** exactly when it is at most `1 / u32::MAX`, or less than one
reading below 1. -/
theorem honoured_iff (h0 : 0 ≤ p) (h1 : p ≤ 1) :
    Honoured p ↔ p ≤ 1 / u32Max ∨ 1 - 1 / 10 ^ 9 ≤ p := by
  constructor
  · intro h
    exact (fraction_iff h0 h1 fun n hn => randProbability_iff hn).1 (h.rand 0)
  · intro hp
    refine ⟨fun secs => ?_, fun secs c hc => ?_, fun secs c delay hc => ?_⟩
    · exact (fraction_iff h0 h1 fun n hn => randProbability_iff hn).2 hp
    · refine (fraction_iff h0 h1 fun n hn => ?_).2 hp
      rw [shouldInjectError_start hc, randProbability_iff hn]
    · refine (fraction_iff h0 h1 fun n hn => ?_).2 hp
      rw [maybeInjectLatency_start hc, randProbability_iff hn]

theorem honoured_one : Honoured 1 :=
  (honoured_iff zero_le_one le_rfl).2 (.inr (by norm_num))

/-- With probability one half, every reading is taken. -/
theorem half_not_honoured : ¬ ∀ p : ℚ, 0 ≤ p → p ≤ 1 → Honoured p := by
  intro hall
  have h := (hall (1 / 2) (by norm_num) (by norm_num)).rand 0
  rw [fraction_iff (by norm_num) (by norm_num) fun n hn => randProbability_iff hn] at h
  norm_num [u32Max] at h

end Duende.Test
