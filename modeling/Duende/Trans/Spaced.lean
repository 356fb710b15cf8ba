import Duende.Trans.Keyed
import Mathlib

/-!
# Times that lie apart

`Spaced d ts`: the times `ts`, in order, lie at least `d` apart. `Spaced.window_le` bounds how
many of them fall in a window of length `w`, and `window_le` does so for a list of timed actions
in which those on each key are spaced.
-/

namespace Trans

/-- Times that lie at least `d` apart. -/
def Spaced (d : Nat) (ts : List Nat) : Prop := ts.Pairwise fun a b => a + d ≤ b

variable {d x b : Nat} {ts : List Nat}

theorem Spaced.filter (h : Spaced d ts) (p : Nat → Bool) : Spaced d (ts.filter p) :=
  List.Pairwise.filter p h

theorem Spaced.snoc (h : Spaced d ts) (hx : ∀ t ∈ ts, t + d ≤ x) : Spaced d (ts ++ [x]) :=
  List.pairwise_append.2
    ⟨h, List.pairwise_singleton _ _, fun t ht _ hy => List.mem_singleton.1 hy ▸ hx t ht⟩

theorem Spaced.first_le (h : Spaced d (x :: ts)) (hb : ∀ t ∈ x :: ts, t ≤ b) :
    x + ts.length * d ≤ b := by
  induction ts generalizing x with
  | nil =>
    rw [List.length_nil, Nat.zero_mul]
    exact hb x List.mem_cons_self
  | cons y ts ih =>
    obtain ⟨hx, hrest⟩ := List.pairwise_cons.1 h
    have hxy : x + d ≤ y := hx y List.mem_cons_self
    have hy := ih hrest fun t ht => hb t (List.mem_cons_of_mem x ht)
    rw [List.length_cons, Nat.succ_mul]
    omega

/-- **Window bound.** -/
theorem Spaced.window_le (h : Spaced d ts) (hd : 0 < d) (a w : Nat) :
    ts.countP (fun t => a ≤ t ∧ t ≤ a + w) ≤ w / d + 1 := by
  rw [List.countP_eq_length_filter]
  have hin : ∀ t ∈ ts.filter (fun t => a ≤ t ∧ t ≤ a + w), a ≤ t ∧ t ≤ a + w := fun t ht => by
    simpa using (List.mem_filter.1 ht).2
  have hs := h.filter fun t => a ≤ t ∧ t ≤ a + w
  generalize ts.filter (fun t => a ≤ t ∧ t ≤ a + w) = us at hin hs
  cases us with
  | nil => exact Nat.zero_le _
  | cons x us =>
    have hx := (hin x List.mem_cons_self).1
    have hle := hs.first_le fun t ht => (hin t ht).2
    have hdiv : us.length ≤ w / d := (Nat.le_div_iff_mul_le hd).2 (by omega)
    exact Nat.succ_le_succ hdiv

section Keyed

variable {κ : Type*} [DecidableEq κ]

/-- The times of the actions on one key. -/
def timesOf (k : κ) (es : List (κ × Nat)) : List Nat := (onKey Prod.fst k es).map Prod.snd

variable {k : κ} {es : List (κ × Nat)}

theorem timesOf_snoc_self {t : Nat} : timesOf k (es ++ [(k, t)]) = timesOf k es ++ [t] := by
  have h : onKey Prod.fst k (es ++ [(k, t)]) = onKey Prod.fst k es ++ [(k, t)] :=
    onKey_snoc_self (a := (k, t))
  rw [timesOf, h, List.map_append]
  rfl

theorem timesOf_snoc_ne {j : κ} {t : Nat} (hj : j ≠ k) :
    timesOf k (es ++ [(j, t)]) = timesOf k es := by
  have h : onKey Prod.fst k (es ++ [(j, t)]) = onKey Prod.fst k es :=
    onKey_snoc_ne (a := (j, t)) hj
  rw [timesOf, h]
  rfl

theorem mem_timesOf {t : Nat} : t ∈ timesOf k es ↔ (k, t) ∈ es := by
  constructor
  · intro ht
    obtain ⟨⟨j, u⟩, he, rfl⟩ := List.mem_map.1 ht
    obtain ⟨hmem, hj⟩ := List.mem_filter.1 he
    obtain rfl : j = k := of_decide_eq_true hj
    exact hmem
  · exact fun he => List.mem_map.2 ⟨(k, t), List.mem_filter.2 ⟨he, by simp⟩, rfl⟩

/-- **Window bound over all keys.** -/
theorem window_le [Fintype κ] (h : ∀ k, Spaced d (timesOf k es)) (hd : 0 < d) (a w : Nat) :
    es.countP (fun e => a ≤ e.2 ∧ e.2 ≤ a + w) ≤ Fintype.card κ * (w / d + 1) := by
  have hkey : ∀ k, (onKey Prod.fst k (es.filter fun e => a ≤ e.2 ∧ e.2 ≤ a + w)).length ≤
      w / d + 1 := fun k => by
    refine le_trans (le_of_eq ?_) ((h k).window_le hd a w)
    rw [timesOf, List.countP_map, List.countP_eq_length_filter, onKey, onKey, List.filter_comm]
    rfl
  calc es.countP (fun e => a ≤ e.2 ∧ e.2 ≤ a + w)
      = ∑ k, (onKey Prod.fst k (es.filter fun e => a ≤ e.2 ∧ e.2 ≤ a + w)).length := by
        rw [List.countP_eq_length_filter]
        exact length_eq_sum_onKey
    _ ≤ ∑ _k : κ, (w / d + 1) := Finset.sum_le_sum fun k _ => hkey k
    _ = Fintype.card κ * (w / d + 1) := by rw [Finset.sum_const, Finset.card_univ, smul_eq_mul]

end Keyed

end Trans
