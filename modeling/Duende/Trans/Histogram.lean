import Mathlib
import Duende.Trans.Keyed

/-!
# Histograms

A map from keys to natural numbers that counts a list (`CountsOf`): what its entries sum to, the
entries with the largest counts (`top`), and how far one value can lie from the mean of all of
them (`length_mul_sq_le`).
-/

namespace Trans

variable {κ : Type*} [DecidableEq κ] {m : Finmap fun _ : κ => Nat} {names : List κ} {k k' : κ}

/-- The map has the number of occurrences of everything that occurs, and nothing else. -/
def CountsOf (m : Finmap fun _ : κ => Nat) (names : List κ) : Prop :=
  ∀ k, m.lookup k = if k ∈ names then some (names.count k) else none

theorem CountsOf.nil : CountsOf (∅ : Finmap fun _ : κ => Nat) [] := fun k => by
  rw [if_neg List.not_mem_nil]
  exact Finmap.lookup_empty k

theorem CountsOf.getD (h : CountsOf m names) (k : κ) : (m.lookup k).getD 0 = names.count k := by
  rw [h k]
  split
  · rfl
  · exact (List.count_eq_zero.2 ‹_›).symm

theorem CountsOf.getD_le (h : CountsOf m names) (k : κ) : (m.lookup k).getD 0 ≤ names.length := by
  rw [h.getD]
  exact List.count_le_length

theorem CountsOf.pos {n : Nat} (h : CountsOf m names) (hk : m.lookup k = some n) : 0 < n := by
  rw [h k] at hk
  split at hk
  · cases hk
    exact List.count_pos_iff.2 ‹_›
  · cases hk

theorem CountsOf.bump (h : CountsOf m names) (k : κ) :
    CountsOf (m.insert k ((m.lookup k).getD 0 + 1)) (names ++ [k]) := by
  intro k'
  rw [h.getD, List.count_append]
  by_cases hk : k' = k
  · subst hk
    rw [Finmap.lookup_insert, if_pos (by simp), List.count_singleton_self]
  · rw [Finmap.lookup_insert_of_ne _ hk, h k', List.count_singleton]
    simp [hk, Ne.symm hk]

/-- **The counts sum to the length of what was counted.** -/
theorem CountsOf.sum (h : CountsOf m names) (it : Iteration fun k => m.lookup k) :
    it.values.sum = names.length := by
  have hcount : it.values = (it.entries.map Prod.fst).map names.count := by
    rw [Iteration.values, List.map_map]
    refine List.map_congr_left fun e he => ?_
    have hget := (it.mem_iff e.1 e.2).1 he
    rw [Function.comp_apply, ← h.getD, hget, Option.getD_some]
  have hkeys : (it.entries.map Prod.fst).Perm names.dedup := by
    refine (List.perm_ext_iff_of_nodup it.nodup names.nodup_dedup).2 fun k => ?_
    rw [List.mem_dedup, List.mem_map]
    constructor
    · rintro ⟨e, he, rfl⟩
      have hget := (it.mem_iff e.1 e.2).1 he
      rw [h e.1] at hget
      by_contra hne
      rw [if_neg hne] at hget
      cases hget
    · intro hk
      exact ⟨(k, names.count k), (it.mem_iff _ _).2 (by rw [h k, if_pos hk]), rfl⟩
  rw [hcount, (hkeys.map _).sum_eq, List.sum_map_count_dedup_eq_length]

/-- Every finite map has an iteration. -/
noncomputable def Iteration.ofFinmap {ν : Type*} (m : Finmap fun _ : κ => ν) :
    Iteration fun k => m.lookup k where
  entries := m.entries.toList.map fun e => (e.1, e.2)
  nodup := by
    have hkeys : (m.entries.toList.map Sigma.fst).Nodup := by
      have h := m.nodupKeys
      rwa [← Multiset.coe_toList m.entries, Multiset.coe_nodupKeys] at h
    simpa [List.map_map, Function.comp_def] using hkeys
  mem_iff k v := by
    rw [Finmap.lookup_eq_some_iff, List.mem_map]
    constructor
    · rintro ⟨e, he, h⟩
      cases h
      exact Multiset.mem_toList.1 he
    · exact fun h => ⟨⟨k, v⟩, Multiset.mem_toList.2 h, rfl⟩

/-! ## The largest entries -/

section Top

variable {α : Type*} {size : α → Nat} {l : List α}

/-- The `n` elements of the largest size; the sort is stable. -/
def top (n : Nat) (size : α → Nat) (l : List α) : List α :=
  (l.mergeSort fun a b => size b ≤ size a).take n

theorem sorted_by_size (size : α → Nat) (l : List α) :
    (l.mergeSort fun a b => size b ≤ size a).Pairwise fun a b => size b ≤ size a := by
  have hsorted : (l.mergeSort fun a b => decide (size b ≤ size a)).Pairwise fun a b =>
      decide (size b ≤ size a) = true :=
    List.pairwise_mergeSort (fun a b c hab hbc => by simp only [decide_eq_true_eq] at *; omega)
      (fun a b => by simp only [Bool.or_eq_true, decide_eq_true_eq]; omega) l
  simpa using hsorted

theorem top_length (n : Nat) : (top n size l).length = min n l.length := by
  rw [top, List.length_take, List.length_mergeSort]

theorem top_pairwise (n : Nat) : (top n size l).Pairwise fun a b => size b ≤ size a :=
  (sorted_by_size size l).sublist (List.take_sublist _ _)

theorem top_subperm (n : Nat) : (top n size l).Subperm l :=
  (List.take_sublist _ _).subperm.trans (List.mergeSort_perm _ _).subperm

/-- **Nothing that is left out is larger.** -/
theorem size_le_of_not_mem_top {n : Nat} {a b : α} (ha : a ∈ l) (hout : a ∉ top n size l)
    (hb : b ∈ top n size l) : size a ≤ size b := by
  have hsorted := sorted_by_size size l
  have hmem : a ∈ l.mergeSort fun a b => size b ≤ size a := (List.mergeSort_perm _ _).mem_iff.2 ha
  rw [← List.take_append_drop n (l.mergeSort fun a b => size b ≤ size a)] at hsorted hmem
  exact (List.pairwise_append.1 hsorted).2.2 b hb a ((List.mem_append.1 hmem).resolve_left hout)

end Top

/-! ## The deviation of one value -/

section Deviation

variable {F : Type*} [Field F] [LinearOrder F] [IsStrictOrderedRing F]

/-- Values that sum to zero: the square of one of them is at most the mean of the others'
squares, times their number. -/
theorem card_mul_sq_le {ι : Type*} {s : Finset ι} {f : ι → F} {i : ι} (hi : i ∈ s)
    (h : ∑ j ∈ s, f j = 0) : s.card * f i ^ 2 ≤ (s.card - 1) * ∑ j ∈ s, f j ^ 2 := by
  classical
  have hcard : ((s.erase i).card : F) = s.card - 1 := by
    rw [Finset.card_erase_of_mem hi, Nat.cast_sub (Finset.card_pos.2 ⟨i, hi⟩), Nat.cast_one]
  have hrest : ∑ j ∈ s.erase i, f j = -f i := by
    rw [← Finset.add_sum_erase s f hi] at h
    exact eq_neg_of_add_eq_zero_right h
  -- the mean of the others is what balances the one
  have hcauchy := sq_sum_le_card_mul_sum_sq (s := s.erase i) (f := f)
  rw [hrest, neg_sq, hcard] at hcauchy
  rw [← Finset.add_sum_erase s (fun j => f j ^ 2) hi]
  linarith

/-- The same for the values of a list about their mean. -/
theorem length_mul_sq_le {α : Type*} [DecidableEq α] {l : List α} (hn : l.Nodup) {f : α → F}
    {a : α} (ha : a ∈ l) :
    l.length * (f a - (l.map f).sum / l.length) ^ 2 ≤
      (l.length - 1) * (l.map fun b => (f b - (l.map f).sum / l.length) ^ 2).sum := by
  have hlen : (l.length : F) ≠ 0 := Nat.cast_ne_zero.2 (List.length_pos_of_mem ha).ne'
  have hzero : ∑ b ∈ l.toFinset, (f b - (l.map f).sum / l.length) = 0 := by
    rw [Finset.sum_sub_distrib, Finset.sum_const, List.toFinset_card_of_nodup hn,
      List.sum_toFinset f hn, nsmul_eq_mul, mul_div_cancel₀ _ hlen, sub_self]
  have h := card_mul_sq_le (List.mem_toFinset.2 ha) hzero
  rwa [List.toFinset_card_of_nodup hn, List.sum_toFinset _ hn] at h

end Deviation

end Trans
