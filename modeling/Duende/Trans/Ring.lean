import Mathlib.Data.List.Basic
import Mathlib.Data.List.Induction
import Mathlib.Tactic.Common

/-!
# Bounded histories

A history that is kept within a capacity: an entry is put at the end, and the first one is
taken out before that when the history is full.
-/

namespace Trans.Ring

universe u

variable {α : Type u} {c : Nat}

def push (c : Nat) (h : List α) (x : α) : List α := (if c ≤ h.length then h.tail else h) ++ [x]

/-- The last entries, as many as fit. -/
def lastOf (c : Nat) (xs : List α) : List α := xs.drop (xs.length - c)

theorem length_lastOf (xs : List α) : (lastOf c xs).length = min xs.length c := by
  rw [lastOf, List.length_drop]
  omega

theorem push_lastOf (hc : 0 < c) (xs : List α) (x : α) :
    push c (lastOf c xs) x = lastOf c (xs ++ [x]) := by
  have hlen := length_lastOf (c := c) xs
  unfold push
  split
  · rename_i hfull
    have hn : xs.length - c + 1 = (xs ++ [x]).length - c := by simp; omega
    rw [lastOf, List.tail_drop, hn, lastOf, List.drop_append_of_le_length (by simp; omega)]
  · rename_i hroom
    have hall : xs.length - c = 0 := by omega
    have hall' : (xs ++ [x]).length - c = 0 := by simp; omega
    rw [lastOf, lastOf, hall, hall', List.drop_zero, List.drop_zero]

/-- **A bounded history** has the last entries, as many as fit. -/
theorem foldl_push (hc : 0 < c) (xs : List α) : xs.foldl (push c) [] = lastOf c xs := by
  induction xs using List.reverseRecOn with
  | nil => simp [lastOf]
  | append_singleton xs x ih => rw [List.foldl_append, ih, List.foldl_cons, push_lastOf hc]; rfl

/-- With no capacity, a history still has its last entry. -/
theorem foldl_push_zero (xs : List α) (x : α) : (xs ++ [x]).foldl (push 0) [] = [x] := by
  have hlen : ∀ xs : List α, (xs.foldl (push 0) []).length ≤ 1 := by
    intro xs
    induction xs using List.reverseRecOn with
    | nil => exact Nat.zero_le _
    | append_singleton xs x ih =>
      rw [List.foldl_append, List.foldl_cons, List.foldl_nil, push, if_pos (Nat.zero_le _)]
      simp only [List.length_append, List.length_tail, List.length_singleton]
      omega
  have htail : (xs.foldl (push 0) []).tail = [] := by
    rw [← List.length_eq_zero_iff, List.length_tail]
    have := hlen xs
    omega
  rw [List.foldl_append, List.foldl_cons, List.foldl_nil, push, if_pos (Nat.zero_le _), htail]
  rfl

theorem filter_suffix {p : α → Bool} : ∀ {xs : List α}, xs.Pairwise (fun a b => p a → p b) →
    xs.filter p <:+ xs
  | [], _ => List.suffix_rfl
  | x :: xs, h => by
    obtain ⟨hx, hxs⟩ := List.pairwise_cons.1 h
    by_cases hp : p x = true
    · have hall : (x :: xs).filter p = x :: xs := List.filter_eq_self.2 fun y hy =>
        (List.mem_cons.1 hy).elim (fun e => e ▸ hp) fun hy => hx y hy hp
      exact ⟨[], hall⟩
    · rw [List.filter_cons_of_neg hp]
      exact (filter_suffix hxs).trans (List.suffix_cons x xs)

end Trans.Ring
