import Mathlib
import Duende.Core.Config
import Duende.Core.Manager

/-!
# Restart backoff

`BackoffConfig::delay_for`, with floating-point numbers as exact rationals and durations in
nanoseconds; a panic is `none`. The restart count becomes the exponent through a cast to `i32`,
which is negative from `2 ^ 31` on. `backoff_holds_iff` says for which configurations the delays
still grow within their bounds, and which of them panic.
-/

namespace Duende

namespace F64

/-- `f64::min`, which prefers the number to a NaN. -/
def min : F64 → F64 → F64
  | nan, b => b
  | a, nan => a
  | a, b => if b.lt a then b else a

def powi (a : ℚ) (n : Int) : F64 := if a = 0 ∧ n < 0 then infinite false else finite (a ^ n)

theorem roundHalfEven_of_integer (n : Int) : roundHalfEven n = n := by
  unfold roundHalfEven
  rw [Int.floor_intCast]
  exact if_pos (.inl (by norm_num))

theorem roundHalfEven_mono {a b : ℚ} (h : a ≤ b) : roundHalfEven a ≤ roundHalfEven b := by
  have hfloor : ⌊a⌋ ≤ ⌊b⌋ := Int.floor_le_floor h
  unfold roundHalfEven
  rcases hfloor.eq_or_lt with heq | hlt
  · simp only [heq]
    split
    · split <;> omega
    · rename_i ha
      -- `a` is rounded up, and `b` is no nearer to the floor
      rw [if_neg]
      rw [not_or, not_lt] at ha
      rintro (hb | ⟨hb, heven⟩)
      · linarith [ha.1]
      · exact ha.2 ⟨le_antisymm (by linarith) ha.1, heven⟩
  · simp only
    split <;> split <;> omega

end F64

namespace Core

/-- What the seconds of a `Duration` are below, in nanoseconds. -/
def durationLimit : Nat := 2 ^ 64 * 10 ^ 9

def asSecsF64 (d : Nat) : F64 := .finite (d / 10 ^ 9)

/-- `Duration::from_secs_f64`, which panics on what is no duration. -/
def fromSecsF64 (secs : F64) : Option Nat :=
  match secs with
  | .finite q =>
    let nanos := F64.roundHalfEven (q * 10 ^ 9)
    if q < 0 ∨ (durationLimit : Int) ≤ nanos then none else some nanos.toNat
  | _ => none

namespace BackoffConfig

def default : BackoffConfig where
  initialDelay := 10 ^ 9
  maxDelay := 300 * 10 ^ 9
  multiplier := 2
  maxRetries := 10

def new : BackoffConfig := default

def withMultiplier (c : BackoffConfig) (multiplier : ℚ) : BackoffConfig :=
  { c with multiplier := multiplier }

def exponent (restartCount : UInt32) : Int := restartCount.toInt32.toInt

/-- Calculates delay for given restart count (exponential backoff). -/
def delayFor (c : BackoffConfig) (restartCount : UInt32) : Option Nat :=
  let baseSecs := asSecsF64 c.initialDelay
  let expSecs := baseSecs.times (.powi c.multiplier (exponent restartCount))
  let clampedSecs := expSecs.min (asSecsF64 c.maxDelay)
  fromSecsF64 clampedSecs

/-! ## The exponent -/

theorem exponent_eq (n : UInt32) :
    exponent n = if n.toNat < 2 ^ 31 then (n.toNat : Int) else n.toNat - 2 ^ 32 :=
  toInt_toInt32 n

theorem exponent_range (n : UInt32) : -2 ^ 31 ≤ exponent n ∧ exponent n ≤ 2 ^ 31 - 1 := by
  have := n.toNat_lt
  rw [exponent_eq]
  split <;> omega

theorem even_exponent (n : UInt32) : Even (exponent n) ↔ n.toNat % 2 = 0 := by
  rw [exponent_eq, Int.even_iff]
  split <;> omega

/-! ## The delays -/

variable {c : BackoffConfig}

/-- The delay in nanoseconds at an exponent, before it is rounded. -/
def capped (c : BackoffConfig) (e : Int) : ℚ := min (c.initialDelay * c.multiplier ^ e) c.maxDelay

theorem capped_le (c : BackoffConfig) (e : Int) : c.capped e ≤ c.maxDelay := min_le_right _ _

theorem round_capped_le (c : BackoffConfig) (e : Int) :
    F64.roundHalfEven (c.capped e) ≤ c.maxDelay := by
  have h := F64.roundHalfEven_mono (capped_le c e)
  rwa [show ((c.maxDelay : Nat) : ℚ) = ((c.maxDelay : Int) : ℚ) by push_cast; rfl,
    F64.roundHalfEven_of_integer] at h

theorem fromSecsF64_div {x : ℚ} (h : F64.roundHalfEven x < durationLimit) :
    fromSecsF64 (.finite (x / 10 ^ 9)) =
      if x < 0 then none else some (F64.roundHalfEven x).toNat := by
  have hnanos : x / 10 ^ 9 * 10 ^ 9 = x := div_mul_cancel₀ _ (by norm_num)
  have hsign : x / 10 ^ 9 < 0 ↔ x < 0 := by rw [div_lt_iff₀ (by norm_num), zero_mul]
  unfold fromSecsF64
  simp only [hnanos, hsign, not_le.2 h, or_false]

theorem min_finite (a b : ℚ) : (F64.finite a).min (.finite b) = .finite (min a b) := by
  unfold F64.min F64.lt
  simp only [decide_eq_true_eq]
  split
  · rename_i h
    rw [min_eq_right h.le]
  · rename_i h
    rw [min_eq_left (not_lt.1 h)]

theorem delayFor_eq {n : UInt32} (hmax : c.maxDelay < durationLimit)
    (hpow : ¬ (c.multiplier = 0 ∧ exponent n < 0)) : c.delayFor n =
      if c.capped (exponent n) < 0 then none
      else some (F64.roundHalfEven (c.capped (exponent n))).toNat := by
  have hpowi : F64.powi c.multiplier (exponent n) = .finite (c.multiplier ^ exponent n) :=
    if_neg hpow
  have hsecs : min ((c.initialDelay : ℚ) / 10 ^ 9 * c.multiplier ^ exponent n)
      ((c.maxDelay : ℚ) / 10 ^ 9) = c.capped (exponent n) / 10 ^ 9 := by
    unfold capped
    rw [← min_div_div_right (by norm_num), div_mul_eq_mul_div]
  have hlt : F64.roundHalfEven (c.capped (exponent n)) < durationLimit :=
    lt_of_le_of_lt (round_capped_le c _) (by exact_mod_cast hmax)
  have hclamped : ((asSecsF64 c.initialDelay).times (.finite (c.multiplier ^ exponent n))).min
      (asSecsF64 c.maxDelay) = .finite (c.capped (exponent n) / 10 ^ 9) := by
    rw [← hsecs, ← min_finite]
    rfl
  unfold delayFor
  simp only [hpowi, hclamped, fromSecsF64_div hlt]

/-- A power of zero with a negative exponent is no number, and the maximum is taken. -/
theorem delayFor_zero {n : UInt32} (hmax : c.maxDelay < durationLimit)
    (hpow : c.multiplier = 0 ∧ exponent n < 0) : c.delayFor n = some c.maxDelay := by
  have hpowi : F64.powi c.multiplier (exponent n) = .infinite false := if_pos hpow
  have hmul : ((asSecsF64 c.initialDelay).times (.infinite false)).min (asSecsF64 c.maxDelay) =
      asSecsF64 c.maxDelay := by
    unfold asSecsF64 F64.times
    simp only
    split
    · rfl
    · rename_i hne
      have hpos : ¬ ((c.initialDelay : ℚ) / 10 ^ 9 < 0) := not_lt.2 (by positivity)
      simp only [hpos, decide_false, bne_self_eq_false]
      rfl
  have hround : F64.roundHalfEven (c.maxDelay : ℚ) = c.maxDelay := by
    exact_mod_cast F64.roundHalfEven_of_integer c.maxDelay
  have hlt : F64.roundHalfEven (c.maxDelay : ℚ) < durationLimit := by
    rw [hround]
    exact_mod_cast hmax
  unfold delayFor
  simp only [hpowi, hmul]
  rw [asSecsF64, fromSecsF64_div hlt, hround, if_neg (not_lt.2 (Nat.cast_nonneg _))]
  rfl

/-- **Which delays are negative**, and panic. -/
theorem delayFor_isSome {n : UInt32} (hmax : c.maxDelay < durationLimit) :
    (c.delayFor n).isSome ↔
      c.initialDelay = 0 ∨ 0 ≤ c.multiplier ∨ n.toNat % 2 = 0 := by
  by_cases hpow : c.multiplier = 0 ∧ exponent n < 0
  · rw [delayFor_zero hmax hpow]
    exact iff_of_true rfl (.inr (.inl hpow.1.ge))
  rw [delayFor_eq hmax hpow, ← even_exponent]
  have hsign : c.capped (exponent n) < 0 ↔
      ¬ (c.initialDelay = 0 ∨ 0 ≤ c.multiplier ∨ Even (exponent n)) := by
    have hM : ¬ ((c.maxDelay : ℚ) < 0) := not_lt.2 (Nat.cast_nonneg _)
    rw [capped, min_lt_iff, or_iff_left hM]
    constructor
    · rintro h (h0 | h0 | h0)
      · rw [h0, Nat.cast_zero, zero_mul] at h
        exact lt_irrefl _ h
      · exact absurd h (not_lt.2 (mul_nonneg (Nat.cast_nonneg _) (zpow_nonneg h0 _)))
      · exact absurd h (not_lt.2 (mul_nonneg (Nat.cast_nonneg _) (h0.zpow_nonneg _)))
    · intro h
      rw [not_or, not_or, not_le, Int.not_even_iff_odd] at h
      have hpos : (0 : ℚ) < c.initialDelay := Nat.cast_pos.2 (Nat.pos_of_ne_zero h.1)
      exact mul_neg_of_pos_of_neg hpos (h.2.2.zpow_neg h.2.1)
  by_cases h : c.capped (exponent n) < 0
  · rw [if_pos h]
    exact iff_of_false (by simp) (hsign.1 h)
  · rw [if_neg h]
    exact iff_of_true rfl (not_not.1 fun hn => h (hsign.2 hn))

/-! ## Growing delays -/

/-- The delays of two restart counts grow, and lie between the bounds. -/
def Ordered (c : BackoffConfig) (m n : UInt32) : Prop :=
  ∃ d e, c.delayFor m = some d ∧ c.delayFor n = some e ∧
    d ≤ e ∧ e ≤ c.maxDelay ∧ min c.initialDelay c.maxDelay ≤ e

/-- The largest and the smallest power of the multiplier give the same delay, in nanoseconds. -/
def Flat (c : BackoffConfig) : Prop :=
  F64.roundHalfEven (min (c.initialDelay * c.multiplier ^ (2 ^ 31 - 1 : Int)) c.maxDelay) =
    F64.roundHalfEven (min (c.initialDelay * c.multiplier ^ (-2 ^ 31 : Int)) c.maxDelay)

def delayAt (c : BackoffConfig) (e : Int) : Int := F64.roundHalfEven (c.capped e)

theorem delayAt_mono (hq : 1 ≤ c.multiplier) {a b : Int} (h : a ≤ b) :
    c.delayAt a ≤ c.delayAt b := by
  refine F64.roundHalfEven_mono (min_le_min_right _ ?_)
  exact mul_le_mul_of_nonneg_left (zpow_le_zpow_right₀ hq h) (Nat.cast_nonneg _)

theorem delayAt_zero (c : BackoffConfig) : c.delayAt 0 = min c.initialDelay c.maxDelay := by
  have hcap : c.capped 0 = ((min c.initialDelay c.maxDelay : Nat) : Int) := by
    rw [capped, zpow_zero, mul_one]
    push_cast
    rfl
  rw [delayAt, hcap, F64.roundHalfEven_of_integer]

theorem delayAt_nonneg (hq : 1 ≤ c.multiplier) (e : Int) : 0 ≤ c.delayAt e := by
  have hcap : (0 : ℚ) ≤ c.capped e :=
    le_min (mul_nonneg (Nat.cast_nonneg _) (zpow_nonneg (by linarith) _)) (Nat.cast_nonneg _)
  have h := F64.roundHalfEven_mono hcap
  rwa [show (0 : ℚ) = ((0 : Int) : ℚ) by norm_num, F64.roundHalfEven_of_integer] at h

theorem delayFor_eq_delayAt (hmax : c.maxDelay < durationLimit) (hq : 1 ≤ c.multiplier)
    (n : UInt32) : c.delayFor n = some (c.delayAt (exponent n)).toNat := by
  have hcap : (0 : ℚ) ≤ c.capped (exponent n) :=
    le_min (mul_nonneg (Nat.cast_nonneg _) (zpow_nonneg (by linarith) _)) (Nat.cast_nonneg _)
  rw [delayFor_eq hmax fun h => by linarith [h.1], if_neg (not_lt.2 hcap)]
  rfl

theorem ordered_iff (hmax : c.maxDelay < durationLimit) (hq : 1 ≤ c.multiplier) {m n : UInt32} :
    Ordered c m n ↔ c.delayAt (exponent m) ≤ c.delayAt (exponent n) ∧
      c.delayAt 0 ≤ c.delayAt (exponent n) := by
  have hm := delayAt_nonneg hq (exponent m)
  have hn := delayAt_nonneg hq (exponent n)
  have hle : c.delayAt (exponent n) ≤ c.maxDelay := round_capped_le c _
  have h0 := delayAt_zero c
  unfold Ordered
  rw [delayFor_eq_delayAt hmax hq, delayFor_eq_delayAt hmax hq]
  constructor
  · rintro ⟨d, e, hd, he, h⟩
    cases hd
    cases he
    omega
  · rintro ⟨h1, h2⟩
    exact ⟨_, _, rfl, rfl, by omega, by omega, by omega⟩

theorem ordered_of_lt (hmax : c.maxDelay < durationLimit) (hq : 1 ≤ c.multiplier) {m n : UInt32}
    (h : m ≤ n) (hn : n.toNat < 2 ^ 31) : Ordered c m n := by
  have hmn : m.toNat ≤ n.toNat := UInt32.le_iff_toNat_le.1 h
  rw [ordered_iff hmax hq, exponent_eq, exponent_eq, if_pos hn, if_pos (by omega)]
  exact ⟨delayAt_mono hq (by omega), delayAt_mono hq (by omega)⟩

theorem ordered_forall_iff (hmax : c.maxDelay < durationLimit) (hq : 1 ≤ c.multiplier) :
    (∀ m n : UInt32, m ≤ n → Ordered c m n) ↔ Flat c := by
  have hflat : Flat c ↔ c.delayAt (2 ^ 31 - 1) = c.delayAt (-2 ^ 31) := Iff.rfl
  rw [hflat]
  constructor
  · intro h
    -- the count after `i32::MAX` has the smallest exponent
    have hstep := ((ordered_iff hmax hq).1 (h 2147483647 2147483648 (by decide))).1
    have hlast : exponent 2147483647 = 2 ^ 31 - 1 := by decide
    have hnext : exponent 2147483648 = -2 ^ 31 := by decide
    rw [hlast, hnext] at hstep
    exact le_antisymm hstep (delayAt_mono hq (by norm_num))
  · intro h m n _
    have hconst : ∀ e : Int, -2 ^ 31 ≤ e → e ≤ 2 ^ 31 - 1 → c.delayAt e = c.delayAt (-2 ^ 31) :=
      fun e hlo hhi => le_antisymm (h ▸ delayAt_mono hq hhi) (delayAt_mono hq hlo)
    have hm := exponent_range m
    have hn := exponent_range n
    rw [ordered_iff hmax hq, hconst _ hm.1 hm.2, hconst _ hn.1 hn.2,
      hconst 0 (by norm_num) (by norm_num)]
    exact ⟨le_refl _, le_refl _⟩

/-- **When the backoff holds**: the delays grow within their bounds over all restart counts
exactly when the powers of the multiplier come to one delay, and over the counts below `2 ^ 31`
always; a restart panics exactly for a negative multiplier, an odd count and a delay. -/
theorem backoff_holds_iff (c : BackoffConfig) (hmax : c.maxDelay < durationLimit) :
    (((1 ≤ c.multiplier → ∀ m n : UInt32, m ≤ n → Ordered c m n) ∧
        ∀ n, (c.delayFor n).isSome) ↔
      (1 ≤ c.multiplier → Flat c) ∧ (c.initialDelay = 0 ∨ 0 ≤ c.multiplier)) ∧
    (1 ≤ c.multiplier → ∀ m n : UInt32, m ≤ n → n.toNat < 2 ^ 31 → Ordered c m n) ∧
    ∀ n, (c.delayFor n).isSome ↔ c.initialDelay = 0 ∨ 0 ≤ c.multiplier ∨ n.toNat % 2 = 0 := by
  have hpanic : (∀ n, (c.delayFor n).isSome) ↔ c.initialDelay = 0 ∨ 0 ≤ c.multiplier := by
    constructor
    · intro h
      rcases (delayFor_isSome hmax).1 (h 1) with h0 | h0 | h0
      · exact .inl h0
      · exact .inr h0
      · exact absurd h0 (by decide)
    · exact fun h n => (delayFor_isSome hmax).2 (h.imp_right .inl)
  refine ⟨and_congr (forall_congr' fun hq => ordered_forall_iff hmax hq) hpanic,
    fun hq m n h hn => ordered_of_lt hmax hq h hn, fun n => delayFor_isSome hmax⟩

theorem backoff_default : Ordered default 3 40 ∧ (default.delayFor 4294967295).isSome :=
  ⟨(backoff_holds_iff default (by decide)).2.1 (by decide +kernel) 3 40 (by decide) (by decide),
    ((backoff_holds_iff default (by decide)).2.2 4294967295).2 (.inr (.inl (by decide +kernel)))⟩

/-- A restart count from `2 ^ 31` on shortens the delay, and a negative multiplier panics. -/
theorem backoff_wraps : ¬ Ordered default 0 4294967295 ∧
    (new.withMultiplier (-1)).delayFor 1 = none := by
  have h0 : default.delayFor 0 = some 1000000000 := by decide +kernel
  have h1 : default.delayFor 4294967295 = some 500000000 := by decide +kernel
  refine ⟨?_, by decide +kernel⟩
  rintro ⟨d, e, hd, he, hle, -⟩
  rw [h0] at hd
  rw [h1] at he
  cases hd
  cases he
  exact absurd hle (by decide)

end BackoffConfig

end Core

end Duende
