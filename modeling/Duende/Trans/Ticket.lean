import Duende.Trans.Run
import Mathlib

/-!
# Tickets from a wrapping counter

A 32-bit counter starts at `first` and hands out its value before each increment.
`reserved_iff` says that no value below `first` is handed out in a run exactly when the run
draws no more than the `2 ^ 32 - first` tickets above it.
-/

namespace Trans

/-- The ticket drawn after `n` others. -/
def ticket (first : UInt32) (n : Nat) : UInt32 := first + UInt32.ofNat n

theorem ticket_succ (first : UInt32) (n : Nat) : ticket first (n + 1) = ticket first n + 1 := by
  unfold ticket
  rw [UInt32.ofNat_add, ← UInt32.add_assoc]
  rfl

theorem toNat_ticket {first : UInt32} {n : Nat} (h : first.toNat + n < 2 ^ 32) :
    (ticket first n).toNat = first.toNat + n := by
  unfold ticket
  rw [UInt32.toNat_add, UInt32.toNat_ofNat']
  omega

theorem toNat_ticket_wrap {first : UInt32} {n : Nat} (h : first.toNat + n = 2 ^ 32) :
    (ticket first n).toNat = 0 := by
  unfold ticket
  rw [UInt32.toNat_add, UInt32.toNat_ofNat', Nat.add_mod_mod, h, Nat.mod_self]

section Draws

variable {σ α : Type*} {step : σ → α → Option σ}

/-- The counter of a state, how many tickets were drawn from it, and which actions draw. -/
structure Draws (step : σ → α → Option σ) where
  counter : σ → UInt32
  drawn : σ → Nat
  draws : σ → α → Prop
  draw : ∀ s a s', step s a = some s' → draws s a →
    counter s' = counter s + 1 ∧ drawn s' = drawn s + 1
  keep : ∀ s a s', step s a = some s' → ¬ draws s a →
    counter s' = counter s ∧ drawn s' = drawn s

namespace Draws

variable (D : Draws step) {first : UInt32} {s s' : σ} {a : α} {as : List α}

/-- Tickets drawn so far, none of them after the counter wrapped. -/
structure Unwrapped (first : UInt32) (s : σ) : Prop where
  counter : D.counter s = ticket first (D.drawn s)
  few : D.drawn s ≤ 2 ^ 32 - first.toNat

/-- The next ticket is not below the first one. -/
def Reserves (first : UInt32) (s : σ) (a : α) : Prop := D.draws s a → first ≤ D.counter s

/-- There are tickets left. -/
def Few (first : UInt32) (s : σ) (a : α) : Prop :=
  D.draws s a → D.drawn s < 2 ^ 32 - first.toNat

variable {D}

theorem Unwrapped.toNat (h : D.Unwrapped first s) (hlt : D.drawn s < 2 ^ 32 - first.toNat) :
    (D.counter s).toNat = first.toNat + D.drawn s := by
  rw [h.counter, toNat_ticket (by omega)]

theorem Unwrapped.reserves_iff (h : D.Unwrapped first s) (hpos : 0 < first.toNat) :
    first ≤ D.counter s ↔ D.drawn s < 2 ^ 32 - first.toNat := by
  have hfirst := first.toNat_lt
  rw [UInt32.le_iff_toNat_le]
  constructor
  · intro hle
    by_contra hn
    have heq : D.drawn s = 2 ^ 32 - first.toNat := by have := h.few; omega
    rw [h.counter, heq, toNat_ticket_wrap (by omega)] at hle
    omega
  · intro hlt
    rw [h.toNat hlt]; omega

theorem Unwrapped.after (h : D.Unwrapped first s) (hc : D.Few first s a)
    (ha : step s a = some s') : D.Unwrapped first s' := by
  by_cases hd : D.draws s a
  · obtain ⟨h1, h2⟩ := D.draw s a s' ha hd
    have hlt := hc hd
    exact ⟨by rw [h1, h2, h.counter, ticket_succ], by rw [h2]; omega⟩
  · obtain ⟨h1, h2⟩ := D.keep s a s' ha hd
    exact ⟨by rw [h1, h2, h.counter], by rw [h2]; exact h.few⟩

theorem Unwrapped.start (hs : D.counter s = first) (hn : D.drawn s = 0) :
    D.Unwrapped first s := by
  refine ⟨?_, by rw [hn]; exact Nat.zero_le _⟩
  rw [hs, hn]
  exact (UInt32.add_zero first).symm

/-- **No reserved ticket** is handed out in a run exactly when there are tickets left at
every draw. -/
theorem reserved_iff (hpos : 0 < first.toNat) (hs : D.counter s = first) (hn : D.drawn s = 0) :
    Meets step (D.Reserves first) s as ↔ Meets step (D.Few first) s as := by
  have hstart : D.Unwrapped first s := .start hs hn
  constructor
  · refine Meets.imp_inv (P := D.Unwrapped first) (fun s a s' h hc ha => ?_)
      (fun s a h (hc : D.Reserves first s a) hd => (h.reserves_iff hpos).1 (hc hd)) hstart
    have hc : D.Reserves first s a := hc
    exact h.after (fun hd => (h.reserves_iff hpos).1 (hc hd)) ha
  · exact Meets.imp_inv (P := D.Unwrapped first) (fun s a s' h hc ha => h.after hc ha)
      (fun s a h (hc : D.Few first s a) hd => (h.reserves_iff hpos).2 (hc hd)) hstart

end Draws

end Draws

end Trans
