import Duende.Num

/-!
# Text

The string functions of the source's standard library, on lists of characters.
-/

namespace Duende

abbrev Text := List Char

/-- The Unicode property `White_Space`. -/
def isWhitespace (c : Char) : Bool :=
  (9 ≤ c.toNat && c.toNat ≤ 13) || c.toNat == 32 || c.toNat == 0x85 || c.toNat == 0xA0 ||
    c.toNat == 0x1680 || (0x2000 ≤ c.toNat && c.toNat ≤ 0x200A) || c.toNat == 0x2028 ||
    c.toNat == 0x2029 || c.toNat == 0x202F || c.toNat == 0x205F || c.toNat == 0x3000

def splitWhitespace (s : Text) : List Text := (s.splitOnP isWhitespace).filter (· ≠ [])

def trim (s : Text) : Text := ((s.dropWhile isWhitespace).reverse.dropWhile isWhitespace).reverse

/-- `str::lines`: a line ends with `\n` or `\r\n`, and the last one may end without. -/
def lines (s : Text) : List Text :=
  let ls := s.splitOn '\n'
  let ended := ls.dropLast.map fun l => if l.getLast? = some '\r' then l.dropLast else l
  match ls.getLast? with
  | some (c :: l) => ended ++ [c :: l]
  | _ => ended

def stripPrefix (pre s : Text) : Option Text :=
  if pre.isPrefixOf s then some (s.drop pre.length) else none

def stripSuffix (suf s : Text) : Option Text :=
  if suf.isSuffixOf s then some (s.take (s.length - suf.length)) else none

/-- `str::replace`, of a character by a character. -/
def replaceChar (a b : Char) (s : Text) : Text := s.map fun c => if c = a then b else c

def decimal (n : Nat) : Text := Nat.toDigits 10 n

/-- `str::parse` for an unsigned integer type with largest value `max`. -/
def parseUnsigned (max : Nat) (s : Text) : Option Nat :=
  let digits := match s with
    | '+' :: ds => ds
    | ds => ds
  if digits.isEmpty || !digits.all Char.isDigit then none
  else
    let n := digits.foldl (fun n c => 10 * n + (c.toNat - '0'.toNat)) 0
    if n ≤ max then some n else none

/-- `str::parse::<i32>`. -/
def parseI32 (s : Text) : Option Int32 :=
  match s with
  | '-' :: '+' :: _ => none
  | '-' :: ds => (parseUnsigned (2 ^ 31) ds).map fun n => Int32.ofInt (-n)
  | ds => (parseUnsigned (2 ^ 31 - 1) ds).map fun n => Int32.ofNat n

def decimalInt (n : Int) : Text := if n < 0 then '-' :: decimal n.natAbs else decimal n.natAbs

def contains (pat : Text) : Text → Bool
  | [] => pat.isEmpty
  | c :: s => pat.isPrefixOf (c :: s) || contains pat s

/-- What follows the place where `str::find` finds the pattern. -/
def after (pat : Text) : Text → Option Text
  | [] => if pat.isEmpty then some [] else none
  | c :: s => if pat.isPrefixOf (c :: s) then some ((c :: s).drop pat.length) else after pat s

def trimEndMatches (p : Char → Bool) (s : Text) : Text := (s.reverse.dropWhile p).reverse

def trimMatches (p : Char → Bool) (s : Text) : Text := trimEndMatches p (s.dropWhile p)

/-- `str::to_lowercase`: exact on ASCII; `table` answers for the other characters. -/
def toLowercase (table : Char → Text) (s : Text) : Text :=
  s.flatMap fun c => if c.toNat < 128 then [c.toLower] else table c

/-- `str::rfind`: the byte offset of the last `c`. -/
def rfind (c : Char) : Text → Option Nat
  | [] => none
  | x :: s =>
    match rfind c s with
    | some i => some (x.utf8Size + i)
    | none => if x = c then some 0 else none

/-- The slice from a byte offset on; `none` when it is out of range or inside a character. -/
def sliceFrom : Nat → Text → Option Text
  | 0, s => some s
  | _ + 1, [] => none
  | n + 1, x :: s => if x.utf8Size ≤ n + 1 then sliceFrom (n + 1 - x.utf8Size) s else none

/-- The characters before the first `c`, and those after it. -/
def splitAtFirst (c : Char) (s : Text) : Text × Text :=
  (s.takeWhile (· ≠ c), (s.dropWhile (· ≠ c)).drop 1)

theorem splitAtFirst_append {c : Char} {s t : Text} (h : c ∉ s) :
    splitAtFirst c (s ++ c :: t) = (s, t) := by
  have hall : ∀ x ∈ s, decide (x ≠ c) = true := fun x hx => by
    simpa using fun e : x = c => h (e ▸ hx)
  unfold splitAtFirst
  rw [List.takeWhile_append_of_pos hall, List.dropWhile_append_of_pos hall]
  simp

theorem splitAtFirst_of_not_mem {c : Char} {s : Text} (h : c ∉ s) : (splitAtFirst c s).1 = s :=
  List.takeWhile_eq_self_iff.2 fun x hx => by simpa using fun e : x = c => h (e ▸ hx)

theorem not_mem_splitAtFirst (c : Char) (s : Text) : c ∉ (splitAtFirst c s).1 := fun h => by
  simpa using List.mem_takeWhile_imp h

/-! ## Numbers -/

theorem isDigit_of_mem_decimal {n : Nat} {c : Char} (h : c ∈ decimal n) : c.isDigit = true :=
  Nat.isDigit_of_mem_toDigits (by decide) (by decide) h

/-- A number written with digits only. -/
def parseNat (s : Text) : Option Nat :=
  if s.isEmpty || !s.all Char.isDigit then none
  else some (s.foldl (fun n c => 10 * n + (c.toNat - '0'.toNat)) 0)

@[simp] theorem parseNat_decimal (n : Nat) : parseNat (decimal n) = some n := by
  have hval : (decimal n).foldl (fun n c => 10 * n + (c.toNat - '0'.toNat)) 0 = n := by
    have := @Nat.ofDigitChars_toDigits 10 n (by decide) (by decide)
    rwa [Nat.ofDigitChars_eq_foldl] at this
  have hall : (decimal n).all Char.isDigit = true :=
    List.all_eq_true.2 fun c hc => isDigit_of_mem_decimal hc
  have hne : (decimal n).isEmpty = false := by simp [decimal, Nat.toDigits_ne_nil]
  simp only [parseNat, hne, hall, Bool.not_true, Bool.or_self, Bool.false_eq_true, if_false, hval]

theorem decimal_injective : Function.Injective decimal := fun m n h => by
  have hread := congrArg parseNat h
  rwa [parseNat_decimal, parseNat_decimal, Option.some.injEq] at hread

theorem parseUnsigned_of_parseNat {max n : Nat} {s : Text} (h : parseNat s = some n)
    (hn : n ≤ max) : parseUnsigned max s = some n := by
  unfold parseNat at h
  split at h
  · cases h
  · rename_i hs
    rw [Option.some.injEq] at h
    have hplus : ∀ ds, s ≠ '+' :: ds := fun ds e => hs (by rw [e]; rfl)
    unfold parseUnsigned
    split
    · exact absurd rfl (hplus _)
    · simp only [if_neg hs, h, if_pos hn]

/-! ## Words -/

theorem not_mem_intercalate {c : Char} {ws : List Text} (hc : c ≠ ' ') (h : ∀ w ∈ ws, c ∉ w) :
    c ∉ [' '].intercalate ws := by
  intro hmem
  induction ws with
  | nil => cases hmem
  | cons w ws ih =>
    have hw : c ∉ w := h w List.mem_cons_self
    have hws : c ∉ [' '].intercalate ws := ih fun x hx => h x (List.mem_cons_of_mem w hx)
    cases ws with
    | nil => exact hw (by rwa [List.intercalate_singleton] at hmem)
    | cons x ws =>
      rw [List.intercalate_cons_cons, List.mem_append, List.mem_append, List.mem_singleton] at hmem
      rcases hmem with (hmem | hmem) | hmem
      · exact hw hmem
      · exact hc hmem
      · exact hws hmem

/-- Words joined by single spaces are split again. -/
theorem splitWhitespace_intercalate {ws : List Text}
    (h : ∀ w ∈ ws, w ≠ [] ∧ ∀ c ∈ w, isWhitespace c = false) :
    splitWhitespace ([' '].intercalate ws) = ws := by
  have hsplit : ∀ {w : Text} {ws : List Text}, (∀ x ∈ w :: ws, ∀ c ∈ x, isWhitespace c = false) →
      ([' '].intercalate (w :: ws)).splitOnP isWhitespace = w :: ws := by
    intro w ws
    induction ws generalizing w with
    | nil =>
      intro h
      rw [List.intercalate_singleton]
      exact List.splitOnP_eq_singleton (h w List.mem_cons_self)
    | cons x ws ih =>
      intro h
      rw [List.intercalate_cons_cons, List.append_assoc, List.singleton_append,
        List.splitOnP_append_cons_of_forall_mem (h w List.mem_cons_self) ' ' (by decide),
        ih fun y hy => h y (List.mem_cons_of_mem w hy)]
  cases ws with
  | nil => decide
  | cons w ws =>
    unfold splitWhitespace
    rw [hsplit fun x hx => (h x hx).2]
    exact List.filter_eq_self.2 fun x hx => by simpa using (h x hx).1

theorem splitWhitespace_append_cons {c : Char} (hc : isWhitespace c = true) (s t : Text) :
    splitWhitespace (s ++ c :: t) = splitWhitespace s ++ splitWhitespace t := by
  unfold splitWhitespace
  rw [List.splitOnP_append_cons s t hc, List.filter_append]

theorem splitWhitespace_spaces {sp t : Text} (h : ∀ c ∈ sp, isWhitespace c = true) :
    splitWhitespace (sp ++ t) = splitWhitespace t := by
  induction sp with
  | nil => rfl
  | cons c sp ih =>
    have hcons := splitWhitespace_append_cons (h c List.mem_cons_self) [] (sp ++ t)
    rw [ih fun d hd => h d (List.mem_cons_of_mem c hd)] at hcons
    exact hcons

theorem splitWhitespace_word {w : Text} (hne : w ≠ []) (h : ∀ c ∈ w, isWhitespace c = false) :
    splitWhitespace w = [w] := by
  unfold splitWhitespace
  rw [List.splitOnP_eq_singleton h]
  exact List.filter_eq_self.2 fun x hx => by simpa [List.mem_singleton.1 hx] using hne

/-! ## Byte offsets -/

/-- `str::len`: the number of bytes of the UTF-8 form. -/
def byteLen : Text → Nat
  | [] => 0
  | x :: s => x.utf8Size + byteLen s

theorem rfind_eq_none {c : Char} {s : Text} : rfind c s = none ↔ c ∉ s := by
  induction s with
  | nil => simp [rfind]
  | cons x s ih =>
    unfold rfind
    cases h : rfind c s with
    | some i =>
      have hmem : c ∈ s := by
        by_contra hc
        rw [ih.2 hc] at h; cases h
      simp [hmem]
    | none =>
      by_cases hx : x = c
      · simp [hx]
      · simp [hx, ih.1 h, Ne.symm hx]

theorem rfind_append {c : Char} {post : Text} (hpost : c ∉ post) :
    ∀ pre, rfind c (pre ++ c :: post) = some (byteLen pre)
  | [] => by simp [rfind, rfind_eq_none.2 hpost, byteLen]
  | x :: pre => by
    rw [List.cons_append, rfind, rfind_append hpost pre]
    rfl

theorem exists_last {c : Char} : ∀ {s : Text}, c ∈ s → ∃ pre post, s = pre ++ c :: post ∧ c ∉ post
  | x :: s, h => by
    by_cases hs : c ∈ s
    · obtain ⟨pre, post, rfl, hpost⟩ := exists_last hs
      exact ⟨x :: pre, post, rfl, hpost⟩
    · obtain rfl : c = x := (List.mem_cons.1 h).resolve_right hs
      exact ⟨[], s, rfl, hs⟩

theorem sliceFrom_append (n : Nat) (s : Text) :
    ∀ pre, sliceFrom (byteLen pre + n) (pre ++ s) = sliceFrom n s
  | [] => by rw [byteLen, Nat.zero_add, List.nil_append]
  | x :: pre => by
    obtain ⟨k, hk⟩ : ∃ k, x.utf8Size = k + 1 := Nat.exists_eq_succ_of_ne_zero x.utf8Size_pos.ne'
    rw [byteLen, show x.utf8Size + byteLen pre + n = (k + byteLen pre + n) + 1 by omega,
      List.cons_append, sliceFrom, if_pos (by omega), ← sliceFrom_append n s pre]
    congr 1
    omega

theorem sliceFrom_one {s : Text} :
    (sliceFrom 1 s).isSome ↔ ∃ c t, s = c :: t ∧ c.utf8Size = 1 := by
  cases s with
  | nil => simp [sliceFrom]
  | cons x s =>
    have hpos := x.utf8Size_pos
    unfold sliceFrom
    by_cases hx : x.utf8Size ≤ 0 + 1
    · have h1 : x.utf8Size = 1 := by omega
      simp [h1, sliceFrom]
    · have h1 : x.utf8Size ≠ 1 := by omega
      simp [hx, h1]

def u64Max : Nat := 2 ^ 64 - 1

def u32Max : Nat := 2 ^ 32 - 1

end Duende
