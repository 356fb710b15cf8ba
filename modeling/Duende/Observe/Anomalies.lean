import Duende.Observe.Tracer

/-!
# What the tracer reports

`critical_path_top` says which syscalls the critical path lists. `blind_zone` bounds the z-score
by the number of distinct syscalls, in exact arithmetic: with few of them no count is anomalous.
-/

namespace Duende.Observe

open Trans (Iteration)

namespace DaemonTracer

variable {counts : SyscallCounts}

theorem entries_length (it : Iteration fun name => counts.lookup name) :
    it.entries.length = counts.keys.card := by
  have hkeys : (it.entries.map Prod.fst).toFinset = counts.keys := by
    ext name
    rw [List.mem_toFinset, Finmap.mem_keys, Finmap.mem_iff, List.mem_map]
    constructor
    · rintro ⟨e, he, rfl⟩
      exact ⟨e.2, (it.mem_iff e.1 e.2).1 he⟩
    · rintro ⟨n, hn⟩
      exact ⟨(name, n), (it.mem_iff name n).2 hn, rfl⟩
  rw [← hkeys, List.toFinset_card_of_nodup it.nodup, List.length_map]

/-! ## The critical path -/

/-- An entry determines its syscall and its count: the count has no parenthesis. -/
theorem pathEntry_injective : Function.Injective pathEntry := by
  rintro ⟨name, n⟩ ⟨name', n'⟩ h
  have hsplit : ∀ (name : Text) (n : Nat),
      splitAtFirst '(' (pathEntry (name, n)).reverse =
        (')' :: (decimal n).reverse, ' ' :: name.reverse) := fun name n => by
    have hnot : '(' ∉ ')' :: (decimal n).reverse := fun hmem => by
      rcases List.mem_cons.1 hmem with hmem | hmem
      · exact absurd hmem (by decide)
      · exact absurd (isDigit_of_mem_decimal (List.mem_reverse.1 hmem)) (by decide)
    rw [← splitAtFirst_append hnot]
    simp [pathEntry]
  have heq := congrArg (fun s => splitAtFirst '(' s.reverse) h
  simp only [hsplit, Prod.mk.injEq, List.cons.injEq, true_and, List.reverse_inj] at heq
  rw [heq.2, decimal_injective heq.1]

/-- **The critical path is a top five**: entries of distinct syscalls with their counts, the
larger ones first, and no syscall that is left out has a larger count than one listed. -/
theorem critical_path_top (counts : SyscallCounts)
    (it : Iteration fun name => counts.lookup name) :
    ∃ listed : List (Text × Nat),
      buildCriticalPath it =
        (listed.map fun e => e.1 ++ " (".toList ++ decimal e.2 ++ ")".toList) ∧
      (buildCriticalPath it).Nodup ∧
      listed.length = min 5 counts.keys.card ∧
      (listed.map Prod.fst).Nodup ∧
      (∀ e ∈ listed, counts.lookup e.1 = some e.2) ∧
      listed.Pairwise (fun a b => b.2 ≤ a.2) ∧
      ∀ name n, counts.lookup name = some n → name ∉ listed.map Prod.fst →
        ∀ e ∈ listed, n ≤ e.2 := by
  have hsub : (Trans.top 5 Prod.snd it.entries).Subperm it.entries := Trans.top_subperm 5
  have hdistinct : ((Trans.top 5 Prod.snd it.entries).map Prod.fst).Nodup := by
    obtain ⟨listed, hperm, hlisted⟩ := hsub
    exact (hperm.map Prod.fst).nodup_iff.1 (it.nodup.sublist (hlisted.map Prod.fst))
  refine ⟨Trans.top 5 Prod.snd it.entries, rfl,
    hdistinct.of_map.map pathEntry_injective, ?_, hdistinct, fun e he => ?_,
    Trans.top_pairwise 5, fun name n hn hout e he => ?_⟩
  · rw [Trans.top_length, entries_length]
  · exact (it.mem_iff e.1 e.2).1 (hsub.subset he)
  · have hmem : (name, n) ∈ it.entries := (it.mem_iff name n).2 hn
    refine Trans.size_le_of_not_mem_top (a := (name, n)) hmem (fun h => hout ?_) he
    exact List.mem_map.2 ⟨(name, n), h, rfl⟩

/-- One syscall a thousand times, another once. -/
def skewed : SyscallCounts :=
  ((∅ : SyscallCounts).insert "read".toList 1000).insert "futex".toList 1

/-- The map iterates over the rare one first. -/
def skewedOrder : Iteration fun name => skewed.lookup name where
  entries := [("futex".toList, 1), ("read".toList, 1000)]
  nodup := by decide
  mem_iff name n := by
    unfold skewed
    by_cases hf : name = "futex".toList
    · subst hf
      rw [Finmap.lookup_insert]
      simp [eq_comm]
    · rw [Finmap.lookup_insert_of_ne _ hf]
      by_cases hr : name = "read".toList
      · subst hr
        rw [Finmap.lookup_insert]
        simp [eq_comm]
      · rw [Finmap.lookup_insert_of_ne _ hr, Finmap.lookup_empty]
        simp at hf hr
        simp [hf, hr]

theorem critical_path_top_skewed :
    buildCriticalPath skewedOrder = ["read (1000)".toList, "futex (1)".toList] ∧
      ∃ listed : List (Text × Nat),
        buildCriticalPath skewedOrder =
          (listed.map fun e => e.1 ++ " (".toList ++ decimal e.2 ++ ")".toList) ∧
        (buildCriticalPath skewedOrder).Nodup ∧ listed.length = 2 := by
  obtain ⟨listed, htext, hnodup, hlen, -⟩ := critical_path_top skewed skewedOrder
  have hsorted : (skewedOrder.entries.mergeSort fun a b => b.2 ≤ a.2) =
      [("read".toList, 1000), ("futex".toList, 1)] := by
    simp [skewedOrder, List.mergeSort, List.MergeSort.Internal.splitInTwo]
  refine ⟨?_, listed, htext, hnodup, by rw [hlen]; decide +kernel⟩
  rw [buildCriticalPath, hsorted]
  decide +kernel

/-! ## The blind zone -/

theorem expectedFreq_eq (it : Iteration fun name => counts.lookup name) :
    (expectedFreq it : ℝ) = (it.entries.map fun e => (e.2 : ℝ)).sum / it.entries.length := by
  unfold expectedFreq Iteration.values
  rw [Nat.cast_list_sum, List.map_map, List.length_map]
  rfl

theorem variance_eq (it : Iteration fun name => counts.lookup name) :
    (variance it : ℝ) =
      (it.entries.map fun e => ((e.2 : ℝ) - expectedFreq it) ^ 2).sum / it.entries.length := by
  have hzero : (0.0 : ℝ) = 0 := by norm_num
  unfold variance
  rw [hzero, ← List.sum_eq_foldl, Iteration.values, List.map_map, List.length_map]
  simp only [squaredDiff, Function.comp_def, sq]

theorem variance_nonneg (it : Iteration fun name => counts.lookup name) :
    0 ≤ (variance it : ℝ) := by
  rw [variance_eq]
  refine div_nonneg (List.sum_nonneg fun x hx => ?_) (Nat.cast_nonneg _)
  obtain ⟨e, -, rfl⟩ := List.mem_map.1 hx
  exact sq_nonneg _

theorem zScore_sq_le (fixed2 : ℝ → Text) (it : Iteration fun name => counts.lookup name)
    {syscall : Text} (h : syscall ∈ counts) :
    zScore (exact fixed2) it syscall ^ 2 ≤ (counts.keys.card : ℝ) - 1 := by
  obtain ⟨n, hn⟩ := Finmap.mem_iff.1 h
  have hmem : (syscall, n) ∈ it.entries := (it.mem_iff syscall n).2 hn
  have hlen : 0 < it.entries.length := List.length_pos_of_mem hmem
  have hlen' : (0 : ℝ) < it.entries.length := Nat.cast_pos.2 hlen
  have hone : (1 : ℝ) ≤ it.entries.length := Nat.one_le_cast.2 hlen
  have hdev := Trans.length_mul_sq_le it.entries_nodup (f := fun e => (e.2 : ℝ)) hmem
  rw [← expectedFreq_eq it] at hdev
  have hz : zScore (exact fixed2) it syscall =
      ((n : ℝ) - expectedFreq it) / Real.sqrt (variance it) := by
    unfold zScore
    rw [hn]
    rfl
  rw [hz, ← entries_length it, div_pow, Real.sq_sqrt (variance_nonneg it)]
  rcases (variance_nonneg it).eq_or_lt with h0 | hpos
  · rw [← h0, div_zero]
    linarith
  · rw [div_le_iff₀ hpos, variance_eq, mul_div_assoc', le_div_iff₀ hlen']
    linarith

variable {t : DaemonTracer ℝ}

theorem detect_none (fixed2 : ℝ → Text) (ht : t.anomalyThreshold = 2.0)
    (hfew : t.syscallCounts.keys.card ≤ 5) (it : Iteration fun name => t.syscallCounts.lookup name)
    {syscall : Text} (h : syscall ∈ t.syscallCounts) :
    detectFrequencyAnomaly (exact fixed2) t it syscall = none := by
  have hz := zScore_sq_le fixed2 it h
  have hfew' : (t.syscallCounts.keys.card : ℝ) ≤ 5 := by exact_mod_cast hfew
  have hbelow : ¬ t.anomalyThreshold < |zScore (exact fixed2) it syscall| := by
    rw [ht]
    intro hlt
    have hsq : |zScore (exact fixed2) it syscall| ^ 2 ≤ 4 := by
      rw [sq_abs]
      linarith
    have hfour : (4 : ℝ) < |zScore (exact fixed2) it syscall| ^ 2 := by
      have htwo : (2 : ℝ) < |zScore (exact fixed2) it syscall| := by norm_num at hlt ⊢; exact hlt
      calc (4 : ℝ) = 2 ^ 2 := by norm_num
        _ < |zScore (exact fixed2) it syscall| ^ 2 :=
          pow_lt_pow_left₀ htwo (by norm_num) two_ne_zero
    linarith
  unfold detectFrequencyAnomaly
  split
  · rfl
  split
  · rfl
  split
  · rfl
  exact if_neg hbelow

theorem mem_sampled {F : Type*} {t : DaemonTracer F} {src : Sources} {info : SyscallInfo}
    (h : readCurrentSyscall src.syscall = .ok info) :
    info.name ∈ (t.sampled src).syscallCounts := by
  unfold sampled
  rw [h]
  exact Finmap.mem_insert.2 (.inl rfl)

/-- **The blind zone** of the anomaly detector: a z-score is at most the square root of the
number of the other syscalls, so with five or less nothing exceeds the default threshold. -/
theorem blind_zone (fixed2 : ℝ → Text) :
    (∀ (counts : SyscallCounts) (it : Iteration fun name => counts.lookup name) (syscall : Text),
      syscall ∈ counts →
        zScore (exact fixed2) it syscall ^ 2 ≤ (counts.keys.card : ℝ) - 1) ∧
    (∀ t : DaemonTracer ℝ, t.anomalyThreshold = 2.0 → t.syscallCounts.keys.card ≤ 5 →
      ∀ (it : Iteration fun name => t.syscallCounts.lookup name) (syscall : Text),
        syscall ∈ t.syscallCounts → detectFrequencyAnomaly (exact fixed2) t it syscall = none) ∧
    ∀ (t : DaemonTracer ℝ) (pid : UInt32) (src : Sources), t.anomalyThreshold = 2.0 →
      (collectLinux (exact fixed2) t pid src).2.syscallCounts.keys.card ≤ 5 →
        (collectLinux (exact fixed2) t pid src).1.anomalies = [] := by
  refine ⟨fun counts it syscall h => zScore_sq_le fixed2 it h,
    fun t ht hfew it syscall h => detect_none fixed2 ht hfew it h, fun t pid src ht hfew => ?_⟩
  have hthreshold : (t.sampled src).anomalyThreshold = 2.0 := by
    rw [← ht]
    unfold sampled
    cases readCurrentSyscall src.syscall <;> rfl
  unfold collectLinux at *
  rcases hread : readCurrentSyscall src.syscall with e | info
  · rfl
  · have hnone := detect_none fixed2 hthreshold hfew (src.order _) (mem_sampled (t := t) hread)
    simp only [hnone, Option.toList_none]

theorem blind_zone_skewed :
    zScore (exact fun _ => []) (.ofFinmap skewed) "read".toList ^ 2 ≤ ((2 : Nat) : ℝ) - 1 ∧
      detectFrequencyAnomaly (exact fun _ => []) ⟨some 1, skewed, 1001, some 0, 2.0⟩
        (.ofFinmap skewed) "read".toList = none :=
  ⟨(blind_zone fun _ => []).1 skewed (.ofFinmap skewed) "read".toList (by decide +kernel),
    (blind_zone fun _ => []).2.1 ⟨some 1, skewed, 1001, some 0, 2.0⟩ rfl (by decide +kernel) _ _
      (by decide +kernel)⟩

end DaemonTracer

end Duende.Observe
