import Mathlib

/-!
# Adjacent repeats

Leaving out what repeats its predecessor (`destutter`) against leaving out what occurred before
(`eraseDups`): the two agree exactly on lists where equal elements stand next to each other.
A list of texts that are joined can be taken apart again.
-/

namespace Repeats

variable {α : Type*} [DecidableEq α] {a b : α} {l : List α}

/-- Equal elements stand next to each other. -/
def Contiguous (l : List α) : Prop := ∀ a b, [a, b, a].Sublist l → b = a

/-- What follows the first run. -/
def afterRun (a : α) (l : List α) : List α := l.dropWhile (· = a)

theorem afterRun_length (a : α) (l : List α) : (afterRun a l).length ≤ l.length :=
  (List.dropWhile_sublist _).length_le

theorem destutter'_eq (a : α) (l : List α) :
    l.destutter' (· ≠ ·) a = a :: (afterRun a l).destutter (· ≠ ·) := by
  unfold afterRun
  induction l with
  | nil => rfl
  | cons b l ih =>
    by_cases h : b = a
    · subst h
      rw [List.destutter'_cons_neg _ (by simp), ih, List.dropWhile_cons_of_pos (by simp)]
    · rw [List.destutter'_cons_pos _ (Ne.symm h), List.dropWhile_cons_of_neg (by simpa using h)]
      rfl

theorem destutter_cons (a : α) (l : List α) :
    (a :: l).destutter (· ≠ ·) = a :: (afterRun a l).destutter (· ≠ ·) := destutter'_eq a l

/-- A run hides nothing but itself. -/
theorem filter_eq_afterRun (h : a ∉ afterRun a l) :
    l.filter (fun b => !b == a) = afterRun a l := by
  unfold afterRun at *
  induction l with
  | nil => rfl
  | cons b l ih =>
    by_cases hb : b = a
    · subst hb
      rw [List.dropWhile_cons_of_pos (by simp)] at h ⊢
      rw [List.filter_cons_of_neg (by simp), ih h]
    · rw [List.dropWhile_cons_of_neg (by simpa using hb)] at h ⊢
      refine List.filter_eq_self.2 fun c hc => ?_
      simp only [Bool.not_eq_true', beq_eq_false_iff_ne]
      rintro rfl
      exact h hc

theorem mem_destutter' (b : α) : a ∈ l.destutter' (· ≠ ·) b ↔ a = b ∨ a ∈ l := by
  induction l generalizing b with
  | nil => simp
  | cons c l ih =>
    by_cases h : b = c
    · subst h
      rw [List.destutter'_cons_neg _ (by simp), ih, List.mem_cons, or_self_left]
    · rw [List.destutter'_cons_pos _ h, List.mem_cons, ih, List.mem_cons]

theorem mem_destutter : a ∈ l.destutter (· ≠ ·) ↔ a ∈ l := by
  cases l with
  | nil => exact Iff.rfl
  | cons b l => rw [List.destutter_cons', mem_destutter', List.mem_cons]

theorem mem_of_mem_eraseDups : ∀ {l : List α}, a ∈ l.eraseDups → a ∈ l
  | [], h => by simp at h
  | b :: l, h => by
    have hlt : (l.filter fun c => !c == b).length < l.length + 1 :=
      Nat.lt_succ_of_le (List.length_filter_le _ _)
    rw [List.eraseDups_cons] at h
    rcases List.mem_cons.1 h with rfl | h
    · exact List.mem_cons_self
    · exact List.mem_cons_of_mem _ (List.mem_filter.1 (mem_of_mem_eraseDups h)).1
termination_by l => l.length
decreasing_by exact hlt

/-- The first run ends all its occurrences, and the rest is contiguous. -/
theorem contiguous_cons : Contiguous (a :: l) ↔ a ∉ afterRun a l ∧ Contiguous (afterRun a l) := by
  have hsplit : l = l.takeWhile (· = a) ++ afterRun a l :=
    (List.takeWhile_append_dropWhile).symm
  have hrun : ∀ b ∈ l.takeWhile (· = a), b = a := fun b hb => by
    simpa using List.mem_takeWhile_imp hb
  have hsub : (afterRun a l).Sublist l := List.dropWhile_sublist _
  constructor
  · intro h
    refine ⟨fun hmem => ?_, fun b c hbc => h b c ((hbc.trans hsub).trans (List.sublist_cons_self a l))⟩
    -- the run ends with another element, and `a` comes again after it
    cases hrest : afterRun a l with
    | nil => rw [hrest] at hmem; cases hmem
    | cons b m =>
      have hb : b ≠ a := by
        have := List.head?_dropWhile_not (fun c => decide (c = a)) l
        unfold afterRun at hrest
        rw [hrest] at this
        simpa using this
      rw [hrest] at hmem hsub
      have ha : a ∈ m := (List.mem_cons.1 hmem).resolve_left (Ne.symm hb)
      have hba : [b, a].Sublist (b :: m) := (List.singleton_sublist.2 ha).cons_cons b
      exact hb (h a b ((hba.trans hsub).cons_cons a))
  · rintro ⟨hmem, h⟩ b c hbc
    rw [hsplit, ← List.cons_append] at hbc
    obtain ⟨s, t, hst, hs, ht⟩ := List.sublist_append_iff.1 hbc
    have hfirst : ∀ d ∈ s, d = a := fun d hd =>
      (List.mem_cons.1 (hs.subset hd)).elim id fun hd => hrun d hd
    rcases s with _ | ⟨d, _ | ⟨e, _ | ⟨f, s⟩⟩⟩
    · rw [List.nil_append] at hst
      exact h b c (hst ▸ ht)
    · obtain ⟨hd, rfl⟩ := List.cons.inj hst
      have hb : b = a := hd.trans (hfirst d List.mem_cons_self)
      exact absurd (ht.subset (hb ▸ by simp)) hmem
    · obtain ⟨hd, hst⟩ := List.cons.inj hst
      obtain ⟨-, rfl⟩ := List.cons.inj (show c :: [b] = e :: t from hst)
      have hb : b = a := hd.trans (hfirst d List.mem_cons_self)
      exact absurd (ht.subset (hb ▸ by simp)) hmem
    · have hc : c ∈ d :: e :: f :: s := by
        rw [(List.cons.inj (List.cons.inj hst).2).1]
        simp
      have hb : b ∈ d :: e :: f :: s := by
        rw [(List.cons.inj hst).1]
        exact List.mem_cons_self
      rw [hfirst c hc, hfirst b hb]

/-- **Adjacent repeats are all repeats** exactly on contiguous lists. -/
theorem destutter_eq_eraseDups_iff : ∀ {l : List α},
    l.destutter (· ≠ ·) = l.eraseDups ↔ Contiguous l
  | [] => iff_of_true rfl fun a b h => by cases h
  | a :: l => by
    have hlt : (afterRun a l).length < l.length + 1 := Nat.lt_succ_of_le (afterRun_length a l)
    rw [destutter_cons, List.eraseDups_cons, contiguous_cons, List.cons.injEq]
    by_cases hmem : a ∈ afterRun a l
    · refine iff_of_false (fun h => ?_) fun h => h.1 hmem
      have ha := mem_destutter.2 hmem
      rw [h.2] at ha
      simpa using (List.mem_filter.1 (mem_of_mem_eraseDups ha)).2
    · rw [filter_eq_afterRun hmem, destutter_eq_eraseDups_iff]
      simp only [true_and, hmem, not_false_eq_true]
termination_by l => l.length
decreasing_by exact hlt

/-! ## Joined texts -/

theorem append_cons_cancel {β : Type*} {c : β} : ∀ {s t x y : List β}, c ∉ s → c ∉ t →
    s ++ c :: x = t ++ c :: y → s = t ∧ x = y
  | [], [], _, _, _, _, h => ⟨rfl, (List.cons.inj h).2⟩
  | [], d :: t, _, _, _, ht, h => absurd ((List.cons.inj h).1 ▸ List.mem_cons_self) ht
  | d :: s, [], _, _, hs, _, h => absurd ((List.cons.inj h).1 ▸ List.mem_cons_self) hs
  | d :: s, e :: t, _, _, hs, ht, h => by
    obtain ⟨hd, hrest⟩ := List.cons.inj h
    obtain ⟨hst, hxy⟩ := append_cons_cancel (fun hc => hs (List.mem_cons_of_mem _ hc))
      (fun hc => ht (List.mem_cons_of_mem _ hc)) hrest
    exact ⟨by rw [hd, hst], hxy⟩

/-- Texts without the first character of what separates them can be taken apart. -/
theorem intercalate_injective {β : Type*} {c : β} {sep : List β} : ∀ {ts us : List (List β)},
    (∀ t ∈ ts, c ∉ t ∧ t ≠ []) → (∀ u ∈ us, c ∉ u ∧ u ≠ []) →
      (c :: sep).intercalate ts = (c :: sep).intercalate us → ts = us
  | [], [], _, _, _ => rfl
  | [], [u], _, hus, h => by
    rw [List.intercalate_singleton] at h
    exact absurd h.symm (hus u List.mem_cons_self).2
  | [t], [], hts, _, h => by
    rw [List.intercalate_singleton] at h
    exact absurd h (hts t List.mem_cons_self).2
  | [], u :: v :: us, _, _, h => by simp [List.intercalate_cons_cons] at h
  | t :: u :: ts, [], _, _, h => by simp [List.intercalate_cons_cons] at h
  | [t], [u], _, _, h => by
    rw [List.intercalate_singleton, List.intercalate_singleton] at h
    rw [h]
  | [t], u :: v :: us, hts, _, h => by
    rw [List.intercalate_singleton, List.intercalate_cons_cons, List.append_assoc,
      List.cons_append] at h
    exact absurd (h ▸ by simp) (hts t List.mem_cons_self).1
  | t :: v :: ts, [u], _, hus, h => by
    rw [List.intercalate_singleton, List.intercalate_cons_cons, List.append_assoc,
      List.cons_append] at h
    exact absurd (h.symm ▸ by simp) (hus u List.mem_cons_self).1
  | t :: t' :: ts, u :: u' :: us, hts, hus, h => by
    obtain ⟨ht, hts'⟩ := List.forall_mem_cons.1 hts
    obtain ⟨hu, hus'⟩ := List.forall_mem_cons.1 hus
    rw [List.intercalate_cons_cons, List.intercalate_cons_cons, List.append_assoc,
      List.append_assoc, List.cons_append, List.cons_append] at h
    obtain ⟨rfl, hrest⟩ := append_cons_cancel ht.1 hu.1 h
    rw [intercalate_injective hts' hus' (List.append_cancel_left hrest)]

end Repeats
