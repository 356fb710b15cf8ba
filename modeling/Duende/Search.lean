import Duende.Text

/-!
# Searching in a text

How often a pattern occurs, what `str::find` finds when it occurs once, and the reading of
numbers that `decimalInt` writes.
-/

namespace Duende

variable {pat q s rest pre : Text}

/-! ## Occurrences -/

/-- The number of places where a pattern occurs. -/
def occurrences (pat s : Text) : Nat := s.tails.countP pat.isPrefixOf

theorem occurrences_cons {c : Char} : occurrences pat (c :: s) =
    occurrences pat s + if pat.isPrefixOf (c :: s) then 1 else 0 := by
  unfold occurrences
  rw [List.tails_cons, List.countP_cons]

theorem occurrences_pos (pre : Text) : 0 < occurrences pat (pre ++ (pat ++ rest)) := by
  unfold occurrences
  rw [List.countP_pos_iff]
  exact ⟨pat ++ rest, (List.mem_tails _ _).2 (List.suffix_append _ _),
    List.isPrefixOf_iff_prefix.2 (List.prefix_append _ _)⟩

theorem isPrefixOf_of_append (h : (pat ++ q).isPrefixOf s = true) : pat.isPrefixOf s = true :=
  List.isPrefixOf_iff_prefix.2 ((List.prefix_append _ _).trans (List.isPrefixOf_iff_prefix.1 h))

theorem after_eq_none (h : occurrences pat s = 0) : after (pat ++ q) s = none := by
  induction s with
  | nil =>
    have hpat : ¬ pat.isPrefixOf ([] : Text) = true := fun hp => by
      simp [occurrences, hp] at h
    cases pat with
    | nil => exact absurd rfl hpat
    | cons c pat => rfl
  | cons c s ih =>
    rw [occurrences_cons] at h
    have hno : ¬ pat.isPrefixOf (c :: s) = true := fun hp => by rw [if_pos hp] at h; omega
    rw [after, if_neg fun hp => hno (isPrefixOf_of_append hp)]
    exact ih (by omega)

theorem after_append (h : occurrences pat (pre ++ (pat ++ rest)) = 1) :
    after (pat ++ q) (pre ++ (pat ++ rest)) =
      if q.isPrefixOf rest then some (rest.drop q.length) else none := by
  induction pre with
  | nil =>
    have hfit : (pat ++ q).isPrefixOf (pat ++ rest) = q.isPrefixOf rest := by
      rw [Bool.eq_iff_iff, List.isPrefixOf_iff_prefix, List.isPrefixOf_iff_prefix,
        List.prefix_append_right_inj]
    rw [List.nil_append] at h ⊢
    cases hs : pat ++ rest with
    | nil =>
      obtain ⟨rfl, rfl⟩ := List.append_eq_nil_iff.1 hs
      cases q <;> rfl
    | cons c s =>
      rw [after, ← hs, hfit]
      split
      · rw [List.length_append, ← List.drop_drop, List.drop_left]
      · rw [hs, occurrences_cons, ← hs, if_pos
          (List.isPrefixOf_iff_prefix.2 (List.prefix_append _ _))] at h
        exact after_eq_none (by omega)
  | cons c pre ih =>
    rw [List.cons_append, occurrences_cons] at h
    have hpos := @occurrences_pos pat rest pre
    have hno : ¬ pat.isPrefixOf (c :: (pre ++ (pat ++ rest))) = true := fun hp => by
      rw [if_pos hp] at h; omega
    rw [List.cons_append, after, if_neg fun hp => hno (isPrefixOf_of_append hp)]
    exact ih (by omega)

/-! ## The first match -/

theorem contains_iff : contains pat s = true ↔ pat <:+: s := by
  induction s with
  | nil => rw [contains, List.isEmpty_iff, List.infix_nil]
  | cons c s ih =>
    rw [contains, Bool.or_eq_true, ih, List.isPrefixOf_iff_prefix, List.infix_cons_iff]

section Cut

variable {c : Char}

/-- A pattern without `c` does not reach over a `c`. -/
theorem isPrefixOf_append_cons (h : c ∉ pat) :
    pat.isPrefixOf (s ++ c :: rest) = pat.isPrefixOf s := by
  induction s generalizing pat with
  | nil =>
    cases pat with
    | nil => rfl
    | cons x pat =>
      have hx : x ≠ c := fun e => h (e ▸ List.mem_cons_self)
      show (x == c && _) = false
      rw [beq_false_of_ne hx, Bool.false_and]
  | cons y s ih =>
    cases pat with
    | nil => rfl
    | cons x pat =>
      show (x == y && pat.isPrefixOf (s ++ c :: rest)) = (x == y && pat.isPrefixOf s)
      rw [ih fun hc => h (List.mem_cons_of_mem x hc)]

theorem contains_append_cons (h : c ∉ pat) :
    contains pat (s ++ c :: rest) = (contains pat s || contains pat rest) := by
  induction s with
  | nil =>
    have hprefix := @isPrefixOf_append_cons pat [] rest c h
    rw [List.nil_append] at hprefix ⊢
    rw [contains.eq_2, hprefix, contains.eq_1]
    cases pat <;> rfl
  | cons x s ih =>
    rw [List.cons_append, contains, ih, contains, ← List.cons_append, isPrefixOf_append_cons h,
      Bool.or_assoc]

theorem contains_intercalate (h : c ∉ pat) :
    ∀ {ts : List Text}, ts ≠ [] → contains pat ([c].intercalate ts) = ts.any (contains pat)
  | [], hne => absurd rfl hne
  | [t], _ => by rw [List.intercalate_singleton, List.any_cons, List.any_nil, Bool.or_false]
  | t :: u :: ts, _ => by
    rw [List.intercalate_cons_cons, List.append_assoc, List.singleton_append,
      contains_append_cons h, contains_intercalate h (List.cons_ne_nil u ts)]
    rfl

theorem after_append_cons (h : c ∉ pat) (hne : pat ≠ []) : after pat (s ++ c :: rest) =
    ((after pat s).map (· ++ c :: rest)).or (after pat rest) := by
  induction s with
  | nil =>
    have hprefix := @isPrefixOf_append_cons pat [] rest c h
    obtain ⟨x, pat, rfl⟩ := List.exists_cons_of_ne_nil hne
    rw [List.nil_append] at hprefix ⊢
    rw [after.eq_2, hprefix]
    rfl
  | cons x s ih =>
    rw [List.cons_append, after, after, ← List.cons_append, isPrefixOf_append_cons h]
    split
    · rename_i hpre
      have hlen := (List.isPrefixOf_iff_prefix.1 hpre).length_le
      rw [List.drop_append_of_le_length hlen]
      rfl
    · exact ih

end Cut

theorem after_eq_some {r : Text} (h : after pat s = some r) : ∃ p, s = p ++ (pat ++ r) := by
  induction s with
  | nil =>
    rw [after] at h
    split at h
    · rename_i hpat
      cases h
      exact ⟨[], by rw [List.isEmpty_iff.1 hpat]; rfl⟩
    · cases h
  | cons x s ih =>
    rw [after] at h
    split at h
    · rename_i hpre
      cases h
      obtain ⟨t, ht⟩ := List.isPrefixOf_iff_prefix.1 hpre
      exact ⟨[], by rw [← ht, List.drop_left]; rfl⟩
    · obtain ⟨p, hp⟩ := ih h
      exact ⟨x :: p, by rw [hp]; rfl⟩

theorem after_isSome : (after pat s).isSome = contains pat s := by
  induction s with
  | nil =>
    rw [after, contains]
    cases pat <;> rfl
  | cons x s ih =>
    rw [after, contains]
    split
    · rename_i hpre
      rw [hpre]
      rfl
    · rename_i hpre
      rw [ih, Bool.eq_false_iff.2 hpre, Bool.false_or]

theorem findSome?_eq_bind {α β : Type*} {p : α → Bool} {f : α → Option β} {l : List α}
    (hno : ∀ a ∈ l, p a = false → f a = none) (hyes : ∀ a ∈ l, p a = true → (f a).isSome) :
    l.findSome? f = (l.find? p).bind f := by
  induction l with
  | nil => rfl
  | cons a l ih =>
    rw [List.findSome?_cons, List.find?_cons]
    cases ha : p a with
    | true =>
      obtain ⟨b, hb⟩ := Option.isSome_iff_exists.1 (hyes a List.mem_cons_self ha)
      rw [hb, Option.bind_some, hb]
    | false =>
      rw [hno a List.mem_cons_self ha]
      exact ih (fun b hb => hno b (List.mem_cons_of_mem a hb))
        fun b hb => hyes b (List.mem_cons_of_mem a hb)

theorem findSome?_ite {α β : Type*} {p : α → Bool} {f : α → β} : ∀ l : List α,
    (l.findSome? fun a => if p a then some (f a) else none) = (l.find? p).map f
  | [] => rfl
  | a :: l => by
    rw [List.findSome?_cons, List.find?_cons]
    cases p a with
    | true => rfl
    | false => exact findSome?_ite l

/-- An element is the first with its key when no other has that key. -/
theorem find?_key {α β : Type*} [DecidableEq β] {f : α → β} {l : List α} {a : α}
    (h : (l.map f).Nodup) (ha : a ∈ l) : (l.find? fun x => f x = f a) = some a := by
  have hsome : (l.find? fun x => f x = f a).isSome = true :=
    List.find?_isSome.2 ⟨a, ha, by simp⟩
  obtain ⟨x, hx⟩ := Option.isSome_iff_exists.1 hsome
  have hkey : f x = f a := by simpa using List.find?_some hx
  rw [hx, List.inj_on_of_nodup_map h (List.mem_of_find?_eq_some hx) ha hkey]

theorem takeWhile_append_cons {p : Char → Bool} {c : Char} (h : p c = false) :
    (s ++ c :: rest).takeWhile p = s.takeWhile p := by
  induction s with
  | nil => rw [List.nil_append, List.takeWhile_cons_of_neg (by simp [h]), List.takeWhile_nil]
  | cons x s ih =>
    rw [List.cons_append, List.takeWhile_cons, List.takeWhile_cons, ih]

/-! ## Lines and columns -/

theorem lines_singleton (h : '\n' ∉ s) (hne : s ≠ []) : lines s = [s] := by
  obtain ⟨c, t, rfl⟩ := List.exists_cons_of_ne_nil hne
  unfold lines
  rw [List.splitOn_eq_singleton h]
  rfl

theorem trim_eq_self (hfirst : ∀ c, s.head? = some c → isWhitespace c = false)
    (hlast : ∀ c, s.getLast? = some c → isWhitespace c = false) : trim s = s := by
  have hdrop : ∀ t : Text, (∀ c, t.head? = some c → isWhitespace c = false) →
      t.dropWhile isWhitespace = t := by
    intro t ht
    cases t with
    | nil => rfl
    | cons c t => exact List.dropWhile_cons_of_neg (by simp [ht c rfl])
  unfold trim
  rw [hdrop s hfirst, hdrop s.reverse fun c hc => hlast c (by rwa [List.head?_reverse] at hc),
    List.reverse_reverse]

theorem trim_of_forall (h : ∀ c ∈ s, isWhitespace c = false) : trim s = s :=
  trim_eq_self (fun c hc => h c (List.mem_of_head? hc)) fun c hc => h c (List.mem_of_getLast? hc)

theorem trim_spaces {sp : Text} (h : ∀ c ∈ sp, isWhitespace c = true) :
    trim (sp ++ s) = trim s := by
  unfold trim
  rw [List.dropWhile_append_of_pos h]

@[simp] theorem stripSuffix_append (s suf : Text) : stripSuffix suf (s ++ suf) = some s := by
  unfold stripSuffix
  rw [if_pos (List.isSuffixOf_iff_suffix.2 (List.suffix_append _ _)), List.length_append,
    Nat.add_sub_cancel, List.take_left]

@[simp] theorem stripPrefix_append (pre s : Text) : stripPrefix pre (pre ++ s) = some s := by
  unfold stripPrefix
  rw [if_pos (List.isPrefixOf_iff_prefix.2 (List.prefix_append _ _)), List.drop_left]

/-! ## Numbers -/

theorem decimal_ne_nil (n : Nat) : decimal n ≠ [] := Nat.toDigits_ne_nil

theorem decimal_eq_cons (n : Nat) : ∃ c s, decimal n = c :: s ∧ c.isDigit = true := by
  cases h : decimal n with
  | nil => exact absurd h (decimal_ne_nil n)
  | cons c s => exact ⟨c, s, rfl, isDigit_of_mem_decimal (h ▸ List.mem_cons_self)⟩

theorem mem_decimalInt {n : Int} {c : Char} (h : c ∈ decimalInt n) :
    c.isDigit = true ∨ c = '-' := by
  unfold decimalInt at h
  split at h
  · exact (List.mem_cons.1 h).symm.imp_left isDigit_of_mem_decimal
  · exact .inl (isDigit_of_mem_decimal h)

theorem isWhitespace_of_numeric {c : Char} (h : c.isDigit = true ∨ c = '-') :
    isWhitespace c = false := by
  rcases h with h | rfl
  · have hrange := Char.isDigit_iff_toNat.1 h
    simp only [show '0'.toNat = 48 from rfl, show '9'.toNat = 57 from rfl] at hrange
    simp only [isWhitespace, Bool.or_eq_false_iff, Bool.and_eq_false_iff,
      decide_eq_false_iff_not, beq_eq_false_iff_ne]
    omega
  · rfl

theorem decimalInt_ne_nil (n : Int) : decimalInt n ≠ [] := by
  unfold decimalInt
  split
  · exact List.cons_ne_nil _ _
  · exact decimal_ne_nil _

theorem parseI32_decimalInt (n : Int32) : parseI32 (decimalInt n.toInt) = some n := by
  have hlo := n.le_toInt
  have hhi := n.toInt_lt
  unfold decimalInt
  split
  · obtain ⟨c, s, hs, hc⟩ := decimal_eq_cons n.toInt.natAbs
    have hplus : c ≠ '+' := by rintro rfl; cases hc
    have hnum : parseUnsigned (2 ^ 31) (c :: s) = some n.toInt.natAbs := by
      rw [← hs]
      exact parseUnsigned_of_parseNat (parseNat_decimal _) (by omega)
    rw [hs]
    unfold parseI32
    split
    · rename_i heq
      cases heq
      exact absurd rfl hplus
    · rename_i heq
      cases heq
      rw [hnum]
      show some (Int32.ofInt (-(n.toInt.natAbs : Int))) = some n
      rw [show -(n.toInt.natAbs : Int) = n.toInt by omega, Int32.ofInt_toInt]
    · rename_i hneg
      exact absurd rfl (hneg _)
  · obtain ⟨c, s, hs, hc⟩ := decimal_eq_cons n.toInt.natAbs
    have hminus : c ≠ '-' := by rintro rfl; cases hc
    have hnum : parseUnsigned (2 ^ 31 - 1) (c :: s) = some n.toInt.natAbs := by
      rw [← hs]
      exact parseUnsigned_of_parseNat (parseNat_decimal _) (by omega)
    rw [hs]
    unfold parseI32
    split
    · rename_i heq
      cases heq
      exact absurd rfl hminus
    · rename_i heq
      cases heq
      exact absurd rfl hminus
    · rw [hnum, Option.map_some, ← Int32.ofInt_eq_ofNat,
        show (n.toInt.natAbs : Int) = n.toInt by omega, Int32.ofInt_toInt]

end Duende
