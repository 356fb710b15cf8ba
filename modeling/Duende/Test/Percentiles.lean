import Duende.Test.Load

/-!
# Percentiles

The index of a percentile is a truncated quotient, clamped at the last element. It covers at
least that part of the samples, and grows with the percentage (`percentiles_ordered`).
-/

namespace Duende.Test

variable {sorted : List UInt64} {n p q i : Nat}

def rank (n p : Nat) : Nat := min (n * p / 100) (n - 1)

theorem rank_lt (hn : 0 < n) : rank n p < n := by unfold rank; omega

theorem rank_mono (hpq : p ≤ q) : rank n p ≤ rank n q := by
  have hmul : n * p / 100 ≤ n * q / 100 := Nat.div_le_div_right (Nat.mul_le_mul_left n hpq)
  unfold rank
  omega

/-- The samples up to the index are the `p`-th part of all of them, or more. -/
theorem rank_covers (hp : p ≤ 100) : p * n ≤ 100 * (rank n p + 1) := by
  have hmul : n * p ≤ n * 100 := Nat.mul_le_mul_left n hp
  unfold rank
  rw [Nat.mul_comm p n]
  omega

theorem percentile_eq (hne : sorted ≠ []) (hfit : sorted.length * 100 < 2 ^ 64) (hp : p ≤ 100) :
    percentile sorted p = sorted[rank sorted.length p]? := by
  have hmul : sorted.length * p ≤ sorted.length * 100 := Nat.mul_le_mul_left _ hp
  have hempty : sorted.isEmpty = false := List.isEmpty_eq_false_iff.2 hne
  unfold percentile rank
  rw [if_neg (by rw [hempty]; decide), Nat.mod_eq_of_lt (by omega)]

/-- The index is clamped, whatever the product wraps to. -/
theorem exists_percentile (hne : sorted ≠ []) : ∃ x, percentile sorted p = some x := by
  have hpos : 0 < sorted.length := List.length_pos_iff.2 hne
  have hempty : sorted.isEmpty = false := List.isEmpty_eq_false_iff.2 hne
  unfold percentile
  rw [if_neg (by rw [hempty]; decide)]
  exact ⟨_, List.getElem?_eq_getElem (by omega)⟩

theorem lt_countP (hs : sorted.Pairwise (· ≤ ·)) (hi : i < sorted.length) :
    i < sorted.countP (· ≤ sorted[i]) := by
  have hle : ∀ x ∈ sorted.take (i + 1), decide (x ≤ sorted[i]) = true := by
    intro x hx
    obtain ⟨j, hj, rfl⟩ := List.mem_take_iff_getElem.1 hx
    rw [decide_eq_true_eq]
    rcases Nat.lt_or_ge j i with hlt | hge
    · exact List.pairwise_iff_getElem.1 hs j i _ hi hlt
    · obtain rfl : j = i := by omega
      exact UInt64.le_refl _
  calc i < i + 1 := Nat.lt_succ_self i
    _ = (sorted.take (i + 1)).length := by rw [List.length_take]; omega
    _ = (sorted.take (i + 1)).countP (· ≤ sorted[i]) := (List.countP_eq_length.2 hle).symm
    _ ≤ sorted.countP (· ≤ sorted[i]) := (List.take_sublist _ _).countP_le

theorem getElem_le {j : Nat} (hs : sorted.Pairwise (· ≤ ·)) (hij : i ≤ j) (hi : i < sorted.length)
    (hj : j < sorted.length) : sorted[i] ≤ sorted[j] := by
  rcases Nat.lt_or_ge i j with hlt | hge
  · exact List.pairwise_iff_getElem.1 hs i j hi hj hlt
  · obtain rfl : i = j := by omega
    exact UInt64.le_refl _

/-- **A percentile** is a sample, covers its part of the samples, and grows with the
percentage. -/
theorem percentile_spec (hne : sorted ≠ []) (hs : sorted.Pairwise (· ≤ ·))
    (hfit : sorted.length * 100 < 2 ^ 64) (hpq : p ≤ q) (hq : q ≤ 100) :
    ∃ x y, percentile sorted p = some x ∧ percentile sorted q = some y ∧ x ∈ sorted ∧
      p * sorted.length ≤ 100 * sorted.countP (· ≤ x) ∧ x ≤ y := by
  have hn : 0 < sorted.length := List.length_pos_iff.2 hne
  have hi : rank sorted.length p < sorted.length := rank_lt hn
  have hj : rank sorted.length q < sorted.length := rank_lt hn
  refine ⟨sorted[rank sorted.length p], sorted[rank sorted.length q], ?_, ?_, ?_, ?_, ?_⟩
  · rw [percentile_eq hne hfit (hpq.trans hq), List.getElem?_eq_getElem hi]
  · rw [percentile_eq hne hfit hq, List.getElem?_eq_getElem hj]
  · exact List.getElem_mem hi
  · have hcover := rank_covers (n := sorted.length) (hpq.trans hq)
    have hcount := lt_countP hs hi
    omega
  · exact getElem_le hs (rank_mono hpq) hi hj

/-- The latencies are sorted before the percentiles are taken. -/
theorem pairwise_mergeSort (latencies : List UInt64) :
    latencies.mergeSort.Pairwise (· ≤ ·) := by
  have h : latencies.mergeSort.Pairwise fun a b => decide (a ≤ b) = true :=
    List.pairwise_mergeSort
      (fun a b c hab hbc => by
        rw [decide_eq_true_eq] at hab hbc ⊢
        exact UInt64.le_trans hab hbc)
      (fun a b => by simpa using UInt64.le_total a b) latencies
  exact h.imp fun hab => of_decide_eq_true hab

theorem report_nil {m : LoadMetrics} (h : m.latenciesUs.mergeSort = []) (elapsed : Nat) :
    ∃ r, m.report elapsed = some r ∧ r.latencyP50Us = 0 ∧ r.latencyP95Us = 0 ∧
      r.latencyP99Us = 0 := by
  unfold LoadMetrics.report
  rw [h]
  exact ⟨_, rfl, rfl, rfl, rfl⟩

theorem report_eq {m : LoadMetrics} {x y z : UInt64} (hne : m.latenciesUs.mergeSort ≠ [])
    (h50 : percentile m.latenciesUs.mergeSort 50 = some x)
    (h95 : percentile m.latenciesUs.mergeSort 95 = some y)
    (h99 : percentile m.latenciesUs.mergeSort 99 = some z) (elapsed : Nat) :
    ∃ r, m.report elapsed = some r ∧ r.latencyP50Us = x ∧ r.latencyP95Us = y ∧
      r.latencyP99Us = z := by
  have hempty : m.latenciesUs.mergeSort.isEmpty = false := List.isEmpty_eq_false_iff.2 hne
  simp only [LoadMetrics.report, hempty, h50, h95, h99]
  exact ⟨_, rfl, rfl, rfl, rfl⟩

theorem report_isSome (m : LoadMetrics) (elapsed : Nat) : ∃ r, m.report elapsed = some r := by
  by_cases hne : m.latenciesUs.mergeSort = []
  · obtain ⟨r, hr, -⟩ := report_nil hne elapsed
    exact ⟨r, hr⟩
  · obtain ⟨x, hx⟩ := exists_percentile (p := 50) hne
    obtain ⟨y, hy⟩ := exists_percentile (p := 95) hne
    obtain ⟨z, hz⟩ := exists_percentile (p := 99) hne
    obtain ⟨r, hr, -⟩ := report_eq hne hx hy hz elapsed
    exact ⟨r, hr⟩

theorem report_ordered (m : LoadMetrics) (elapsed : Nat)
    (hfit : m.latenciesUs.length * 100 < 2 ^ 64) :
    ∃ r, m.report elapsed = some r ∧ r.latencyP50Us ≤ r.latencyP95Us ∧
      r.latencyP95Us ≤ r.latencyP99Us := by
  have hs := pairwise_mergeSort m.latenciesUs
  have hlen : m.latenciesUs.mergeSort.length = m.latenciesUs.length := List.length_mergeSort _
  rw [← hlen] at hfit
  by_cases hne : m.latenciesUs.mergeSort = []
  · obtain ⟨r, hr, h50, h95, h99⟩ := report_nil hne elapsed
    rw [← h95] at h50 h99
    exact ⟨r, hr, UInt64.le_of_eq h50, UInt64.le_of_eq h99.symm⟩
  · obtain ⟨x, y, h50, h95, -, -, hxy⟩ :=
      percentile_spec hne hs hfit (p := 50) (q := 95) (by decide) (by decide)
    obtain ⟨y', z, h95', h99, -, -, hyz⟩ :=
      percentile_spec hne hs hfit (p := 95) (q := 99) (by decide) (by decide)
    cases h95.symm.trans h95'
    obtain ⟨r, hr, rfl, rfl, rfl⟩ := report_eq hne h50 h95 h99 elapsed
    exact ⟨r, hr, hxy, hyz⟩

/-- **Percentiles are correct**: of every sorted list of samples, and in every report. -/
theorem percentiles_ordered :
    (∀ (sorted : List UInt64) (p q : Nat), sorted ≠ [] → sorted.Pairwise (· ≤ ·) →
      sorted.length * 100 < 2 ^ 64 → p ≤ q → q ≤ 100 →
      ∃ x y, percentile sorted p = some x ∧ percentile sorted q = some y ∧ x ∈ sorted ∧
        p * sorted.length ≤ 100 * sorted.countP (· ≤ x) ∧ x ≤ y) ∧
    ∀ (m : LoadMetrics) (elapsed : Nat), m.latenciesUs.length * 100 < 2 ^ 64 →
      ∃ r, m.report elapsed = some r ∧ r.latencyP50Us ≤ r.latencyP95Us ∧
        r.latencyP95Us ≤ r.latencyP99Us :=
  ⟨fun _ _ _ hne hs hfit hpq hq => percentile_spec hne hs hfit hpq hq, report_ordered⟩

theorem percentiles_of_three : ∃ x y, percentile [1, 2, 9] 50 = some x ∧
    percentile [1, 2, 9] 100 = some y ∧ x ∈ ([1, 2, 9] : List UInt64) ∧
    50 * 3 ≤ 100 * ([1, 2, 9] : List UInt64).countP (· ≤ x) ∧ x ≤ y :=
  percentiles_ordered.1 [1, 2, 9] 50 100 (by decide) (by decide) (by decide) (by decide) (by decide)

end Duende.Test
