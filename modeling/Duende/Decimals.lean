import Duende.Text

/-!
# Decimal numbers

What the integer parser reads: the decimal form of a number, after any zeros and at most one
plus sign (`parseUnsigned_eq_some`).
-/

namespace Duende

def digitsValue (ds : Text) : Nat := ds.foldl (fun n c => 10 * n + (c.toNat - '0'.toNat)) 0

theorem digitsValue_append_singleton (ds : Text) (c : Char) :
    digitsValue (ds ++ [c]) = 10 * digitsValue ds + (c.toNat - '0'.toNat) := by
  unfold digitsValue
  rw [List.foldl_append]
  rfl

theorem digitsValue_decimal (n : Nat) : digitsValue (decimal n) = n := by
  have h := @Nat.ofDigitChars_toDigits 10 n (by decide) (by decide)
  rwa [Nat.ofDigitChars_eq_foldl] at h

theorem digitsValue_zeros (k : Nat) (ds : Text) :
    digitsValue (List.replicate k '0' ++ ds) = digitsValue ds := by
  induction k with
  | zero => rfl
  | succ k ih => rwa [List.replicate_succ]

theorem decimal_digit {c : Char} (h : c.isDigit = true) :
    c.toNat - '0'.toNat < 10 ∧ decimal (c.toNat - '0'.toNat) = [c] := by
  have hrange : 48 ≤ c.toNat ∧ c.toNat ≤ 57 := by
    simpa [Char.isDigit, UInt32.le_iff_toNat_le] using h
  have hlt : c.toNat - '0'.toNat < 10 := by
    have hzero : '0'.toNat = 48 := rfl
    omega
  refine ⟨hlt, ?_⟩
  unfold decimal
  rw [Nat.toDigits_of_lt_base hlt]
  have hchar : (c.toNat - '0'.toNat).digitChar = c := by
    apply Char.toNat_inj.1
    rw [Nat.toNat_digitChar_of_lt_ten hlt]
    have hzero : '0'.toNat = 48 := rfl
    omega
  rw [hchar]

theorem digits_eq {ds : Text} (hne : ds ≠ []) (h : ∀ c ∈ ds, c.isDigit = true) :
    ∃ k, ds = List.replicate k '0' ++ decimal (digitsValue ds) := by
  induction ds using List.reverseRecOn with
  | nil => exact absurd rfl hne
  | append_singleton ds c ih =>
    obtain ⟨hlt, hc⟩ := decimal_digit (h c (by simp))
    rw [digitsValue_append_singleton]
    by_cases hnil : ds = []
    · subst hnil
      refine ⟨0, ?_⟩
      simpa [digitsValue] using hc.symm
    obtain ⟨k, hk⟩ := ih hnil fun d hd => h d (by simp [hd])
    rcases Nat.eq_zero_or_pos (digitsValue ds) with h0 | hpos
    · -- all of `ds` is zeros
      refine ⟨k + 1, ?_⟩
      rw [h0] at hk ⊢
      rw [hk, Nat.mul_zero, Nat.zero_add, hc, List.replicate_succ']
      rfl
    · refine ⟨k, ?_⟩
      have happ : decimal (digitsValue ds) ++ decimal (c.toNat - '0'.toNat) =
          decimal (10 * digitsValue ds + (c.toNat - '0'.toNat)) :=
        Nat.toDigits_append_toDigits (by decide) hpos hlt
      rw [← happ, hc, ← List.append_assoc, ← hk]

/-- A text that stands for `n`: its decimal form, perhaps after zeros and a plus sign. -/
def Spells (n : Nat) (s : Text) : Prop :=
  ∃ k, s = List.replicate k '0' ++ decimal n ∨ s = '+' :: (List.replicate k '0' ++ decimal n)

theorem isDigit_of_mem_zeros {n k : Nat} {c : Char} (h : c ∈ List.replicate k '0' ++ decimal n) :
    c.isDigit = true := by
  rcases List.mem_append.1 h with h | h
  · rw [List.eq_of_mem_replicate h]
    rfl
  · exact isDigit_of_mem_decimal h

/-- What the parser takes off the front. -/
def unsigned : Text → Text
  | '+' :: ds => ds
  | ds => ds

theorem parseUnsigned_eq (max : Nat) (s : Text) : parseUnsigned max s =
    if (unsigned s).isEmpty || !(unsigned s).all Char.isDigit then none
    else if digitsValue (unsigned s) ≤ max then some (digitsValue (unsigned s)) else none := rfl

theorem unsigned_zeros (k n : Nat) :
    unsigned (List.replicate k '0' ++ decimal n) = List.replicate k '0' ++ decimal n := by
  have hplus : ∀ ds, List.replicate k '0' ++ decimal n ≠ '+' :: ds := fun ds h => by
    have hc := isDigit_of_mem_zeros (k := k) (n := n) (c := '+') (by rw [h]; simp)
    exact absurd hc (by decide)
  unfold unsigned
  split
  · exact absurd ‹_› (hplus _)
  · rfl

/-- **What the parser reads.** -/
theorem parseUnsigned_eq_some {max n : Nat} {s : Text} :
    parseUnsigned max s = some n ↔ Spells n s ∧ n ≤ max := by
  rw [parseUnsigned_eq]
  constructor
  · intro h
    split at h
    · cases h
    · rename_i hds
      simp only [Bool.or_eq_true, List.isEmpty_iff, Bool.not_eq_true', not_or,
        Bool.not_eq_false] at hds
      obtain ⟨k, hk⟩ := digits_eq hds.1 fun c hc => List.all_eq_true.1 hds.2 c hc
      split at h
      · cases h
        refine ⟨⟨k, ?_⟩, ‹_›⟩
        rw [← hk]
        unfold unsigned
        split
        · exact .inr rfl
        · exact .inl rfl
      · cases h
  · rintro ⟨⟨k, hs⟩, hn⟩
    have hu : unsigned s = List.replicate k '0' ++ decimal n := by
      rcases hs with rfl | rfl
      · exact unsigned_zeros k n
      · rfl
    have hall : (List.replicate k '0' ++ decimal n).all Char.isDigit = true :=
      List.all_eq_true.2 fun c hc => isDigit_of_mem_zeros hc
    have hne : (List.replicate k '0' ++ decimal n).isEmpty = false := by
      have : decimal n ≠ [] := Nat.toDigits_ne_nil
      simp [this]
    rw [hu, hall, hne, digitsValue_zeros, digitsValue_decimal, if_neg (by decide), if_pos hn]

end Duende
