import Mathlib

/-!
# Machine arithmetic

The counters of the source are `u32` and `u64`. They are natural numbers here, and the
operations wrap explicitly.
-/

namespace Duende

def u32Add (a b : Nat) : Nat := (a + b) % 2 ^ 32

def u64Add (a b : Nat) : Nat := (a + b) % 2 ^ 64

/-- Subtraction as the machine does it: modulo `2 ^ 64` when it underflows. -/
def u64Sub (a b : Nat) : Nat := (a + 2 ^ 64 - b) % 2 ^ 64

def asU32 (a : Nat) : Nat := a % 2 ^ 32

theorem u32Add_of_lt {a b : Nat} (h : a + b < 2 ^ 32) : u32Add a b = a + b := Nat.mod_eq_of_lt h

theorem u64Add_of_lt {a b : Nat} (h : a + b < 2 ^ 64) : u64Add a b = a + b := Nat.mod_eq_of_lt h

theorem toInt_toInt32 (n : UInt32) : n.toInt32.toInt =
    if n.toNat < 2 ^ 31 then (n.toNat : Int) else n.toNat - 2 ^ 32 := by
  have hint : n.toInt32.toInt = n.toBitVec.toInt := rfl
  have hnat : n.toBitVec.toNat = n.toNat := rfl
  rw [hint, BitVec.toInt_eq_toNat_cond, hnat]
  split <;> split <;> omega

/-- A sum of machine numbers is the sum of their values, modulo `2 ^ 64`. -/
theorem toNat_sum (us : List UInt64) : us.sum.toNat = (us.map UInt64.toNat).sum % 2 ^ 64 := by
  induction us with
  | nil => rfl
  | cons u us ih =>
    rw [List.sum_cons, UInt64.toNat_add, ih, List.map_cons, List.sum_cons, Nat.add_mod_mod]

/-- How many events reach a threshold: zero counts as one. -/
def limit (threshold : UInt32) : Nat := max 1 threshold.toNat

instance (th : UInt32) : NeZero (limit th) := ⟨by unfold limit; omega⟩

theorem limit_pos (th : UInt32) : 0 < limit th := by unfold limit; omega

theorem limit_lt (th : UInt32) : limit th < 2 ^ 32 := by
  have := th.toNat_lt
  unfold limit; omega

/-- A count that is at least one reaches the threshold as it reaches the limit. -/
theorem toNat_le_iff_limit_le {th : UInt32} {n : Nat} (h : 0 < n) :
    th.toNat ≤ n ↔ limit th ≤ n := by
  unfold limit; omega

end Duende
