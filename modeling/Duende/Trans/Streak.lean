import Mathlib.Data.List.Count

/-!
# Streaks and hysteresis

A history is a list of outcomes, newest first. `streak a h` is how often `a` occurred in
a row up to now; `hysteresis down up h` is a switch that starts on, goes off when the
streak of failures reaches `down` and on again when the streak of successes reaches `up`.
-/

namespace Trans

section Streak

variable {α : Type*} [DecidableEq α] {a b : α} {h : List α}

/-- The number of times `a` occurred in a row, counted from the newest outcome. -/
def streak (a : α) : List α → Nat
  | [] => 0
  | b :: h => if b = a then streak a h + 1 else 0

@[simp] theorem streak_nil : streak a [] = 0 := rfl

@[simp] theorem streak_cons_self : streak a (a :: h) = streak a h + 1 := if_pos rfl

theorem streak_cons_ne (hb : b ≠ a) : streak a (b :: h) = 0 := if_neg hb

theorem streak_cons_le : streak a (b :: h) ≤ streak a h + 1 := by
  show (if b = a then streak a h + 1 else 0) ≤ _
  split <;> omega

theorem streak_le_count : streak a h ≤ h.count a := by
  induction h with
  | nil => exact Nat.le_refl 0
  | cons b h ih =>
    by_cases hb : b = a
    · subst hb
      rw [streak_cons_self, List.count_cons_self]; omega
    · rw [streak_cons_ne hb]; exact Nat.zero_le _

theorem streak_eq_zero_or (hab : a ≠ b) : streak a h = 0 ∨ streak b h = 0 := by
  cases h with
  | nil => exact .inl rfl
  | cons c h =>
    by_cases hc : c = a
    · exact .inr (streak_cons_ne (hc ▸ hab))
    · exact .inl (streak_cons_ne hc)

end Streak

/-- On until failures reach `down` in a row, then off until successes reach `up` in a
row. -/
def hysteresis (down up : Nat) : List Bool → Bool
  | [] => true
  | o :: h =>
    if hysteresis down up h then !decide (streak false (o :: h) = down)
    else decide (streak true (o :: h) = up)

variable {down up : Nat} {h : List Bool}

/-- While the switch is on the failures in a row are below `down`, and while it is off
the successes in a row are below `up`. -/
theorem hysteresis_lt (hd : 0 < down) (hu : 0 < up) :
    (hysteresis down up h = true → streak false h < down) ∧
    (hysteresis down up h = false → streak true h < up) := by
  induction h with
  | nil => exact ⟨fun _ => hd, fun he => nomatch he⟩
  | cons o h ih =>
    unfold hysteresis
    cases hh : hysteresis down up h with
    | true =>
      have hlt := ih.1 hh
      have hle : streak false (o :: h) ≤ streak false h + 1 := streak_cons_le
      simp only [if_true, Bool.not_eq_true', decide_eq_false_iff_not, Bool.not_eq_false',
        decide_eq_true_eq]
      refine ⟨fun hne => by omega, fun he => ?_⟩
      rcases streak_eq_zero_or (h := o :: h) Bool.false_ne_true with hz | hz <;> omega
    | false =>
      have hlt := ih.2 hh
      have hle : streak true (o :: h) ≤ streak true h + 1 := streak_cons_le
      simp only [Bool.false_eq_true, if_false, decide_eq_true_eq, decide_eq_false_iff_not]
      refine ⟨fun he => ?_, fun hne => by omega⟩
      rcases streak_eq_zero_or (h := o :: h) Bool.false_ne_true with hz | hz <;> omega

/-- One more success: an off switch goes on when `up` is reached. -/
theorem hysteresis_success (hd : 0 < down) (hu : 0 < up) :
    hysteresis down up (true :: h) =
      (hysteresis down up h || decide (up ≤ streak true h + 1)) := by
  rw [hysteresis, streak_cons_self, streak_cons_ne (Bool.false_ne_true).symm]
  cases hh : hysteresis down up h with
  | true => simp; omega
  | false =>
    have := (hysteresis_lt hd hu).2 hh
    simp only [Bool.false_eq_true, if_false, Bool.false_or, decide_eq_decide]
    omega

/-- One more failure: an on switch goes off when `down` is reached. -/
theorem hysteresis_failure (hd : 0 < down) (hu : 0 < up) :
    hysteresis down up (false :: h) =
      (hysteresis down up h && !decide (down ≤ streak false h + 1)) := by
  rw [hysteresis, streak_cons_self, streak_cons_ne Bool.false_ne_true]
  cases hh : hysteresis down up h with
  | true =>
    have := (hysteresis_lt hd hu).1 hh
    simp only [if_true, Bool.true_and]
    congr 1
    rw [decide_eq_decide]
    omega
  | false => simp; omega

end Trans
