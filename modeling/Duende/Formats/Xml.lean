import Mathlib

/-!
# XML text

A document read into tokens: the characters of its text, with references and CDATA sections
set apart from plain characters, and its tags. An occurrence of one of the `marks` in a text
that is read is an occurrence in what it says, and one more for each reference, section,
comment and declaration (`scan_cost`): a text that says all the marks it has has none of these.
-/

namespace Xml

/-- The characters that a document may have. -/
def isChar (c : Char) : Bool :=
  c = '\t' || c = '\n' || c = '\r' || (32 ≤ c.toNat && c != '\uFFFE' && c != '\uFFFF')

def isSpace (c : Char) : Bool := c = ' ' || c = '\t' || c = '\n' || c = '\r'

/-- Every line end is read as `\n`. -/
def normalize : List Char → List Char
  | [] => []
  | c :: s =>
    if c = '\r' then if s.head? = some '\n' then normalize s else '\n' :: normalize s
    else c :: normalize s

/-- The characters before the first occurrence of `pat`. -/
def breakOn (pat : List Char) : List Char → Option (List Char)
  | [] => none
  | c :: s => if pat.isPrefixOf (c :: s) then some [] else (breakOn pat s).map (c :: ·)

inductive Token where
  | char (c : Char)
  | reference (c : Char)
  | cdata (t : List Char)
  | misc
  | doctype
  | start (name attributes : List Char)
  | stop (name : List Char)
  deriving DecidableEq

/-! ## References -/

def digit (c : Char) : Option Nat :=
  if c.isDigit then some (c.toNat - '0'.toNat)
  else if 'a' ≤ c ∧ c ≤ 'f' then some (c.toNat - 'a'.toNat + 10)
  else if 'A' ≤ c ∧ c ≤ 'F' then some (c.toNat - 'A'.toNat + 10)
  else none

def numeral (b : Nat) (s : List Char) : Option Nat :=
  if s = [] then none
  else s.foldlM (fun n c => (digit c).bind fun d => if d < b then some (b * n + d) else none) 0

def charOf (n : Nat) : Option Char :=
  if (n < 0xD800 ∨ 0xDFFF < n) ∧ n < 0x110000 ∧ isChar (Char.ofNat n) then some (Char.ofNat n)
  else none

/-- The entities that every document has. -/
def entities : List (List Char × Char) :=
  [("lt".toList, '<'), ("gt".toList, '>'), ("amp".toList, '&'), ("apos".toList, '\x27'),
    ("quot".toList, '"')]

/-- What a reference stands for. -/
def reference : List Char → Option Char
  | '#' :: 'x' :: s => (numeral 16 s).bind charOf
  | '#' :: s => (numeral 10 s).bind charOf
  | s => (entities.find? fun e => e.1 = s).map Prod.snd

/-! ## Markup -/

/-- The text of a tag, up to the `>` that is not in quotes. -/
def tagBody : Option Char → List Char → Option (List Char)
  | _, [] => none
  | none, c :: s =>
    if c = '>' then some []
    else if c = '<' then none
    else (tagBody (if c = '"' ∨ c = '\x27' then some c else none) s).map (c :: ·)
  | some q, c :: s =>
    if c = '<' then none else (tagBody (if c = q then none else some q) s).map (c :: ·)

/-- The name of a tag, and what follows it. -/
def nameOf (t : List Char) : List Char × List Char :=
  (t.takeWhile fun c => !isSpace c, t.dropWhile fun c => !isSpace c)

/-- A tag that closes itself starts and stops its element. -/
def tag (t : List Char) : Option (List Token) :=
  match t with
  | '/' :: t => if (nameOf t).2.all isSpace then some [.stop (nameOf t).1] else none
  | t =>
    if t.getLast? = some '/' then
      some [.start (nameOf t.dropLast).1 (nameOf t.dropLast).2, .stop (nameOf t.dropLast).1]
    else some [.start (nameOf t).1 (nameOf t).2]

/-- What follows a `<`, and how many characters it takes. A comment has no `--` inside, the
name `xml` is reserved, and a document type declaration has no subset of its own. -/
def markup (s : List Char) : Option (List Token × Nat) :=
  if "!--".toList.isPrefixOf s then
    (breakOn "--".toList (s.drop 3)).bind fun t =>
      if "-->".toList.isPrefixOf (s.drop (t.length + 3)) then some ([.misc], t.length + 6)
      else none
  else if "![CDATA[".toList.isPrefixOf s then
    (breakOn "]]>".toList (s.drop 8)).map fun t => ([.cdata t], t.length + 11)
  else if "?".toList.isPrefixOf s then
    (breakOn "?>".toList (s.drop 1)).bind fun t =>
      if (nameOf t).1 = [] ∨ (nameOf t).1.map Char.toLower = "xml".toList then none
      else some ([.misc], t.length + 3)
  else if "!DOCTYPE".toList.isPrefixOf s then
    (tagBody none s).map fun t => ([.doctype], t.length + 1)
  else
    (tagBody none s).bind fun t => (tag t).map fun ts => (ts, t.length + 1)

/-- The tokens of a text, of which `skip` characters have been read already. -/
def scan : Nat → List Char → Option (List Token)
  | 0, [] => some []
  | _ + 1, [] => none
  | skip + 1, _ :: s => scan skip s
  | 0, c :: s =>
    if c = '<' then (markup s).bind fun m => (scan m.2 s).map (m.1 ++ ·)
    else if c = '&' then
      (breakOn [';'] s).bind fun t => (reference t).bind fun x =>
        (scan (t.length + 1) s).map (.reference x :: ·)
    else (scan 0 s).map (.char c :: ·)

/-- What follows the declaration at the start of a document. -/
def afterDeclaration (s : List Char) : Option (List Char) :=
  if "<?xml ".toList.isPrefixOf s then
    (breakOn "?>".toList s).map fun t => s.drop (t.length + 2)
  else some s

def tokens (s : List Char) : Option (List Token) :=
  if s.all isChar then
    ((afterDeclaration (normalize s)).bind (scan 0)).bind fun ts =>
      if ("]]>".toList.map Token.char) <:+: ts then none else some ts
  else none

/-! ## Line ends -/

@[simp] theorem normalize_nil : normalize [] = [] := rfl

theorem normalize_cons {c : Char} (s : List Char) (h : c ≠ '\r') :
    normalize (c :: s) = c :: normalize s := if_neg h

theorem normalize_append {t : List Char} (s : List Char) (h : '\r' ∉ t) :
    normalize (t ++ s) = t ++ normalize s := by
  induction t with
  | nil => rfl
  | cons c t ih =>
    rw [List.cons_append, normalize_cons _ fun e => h (e ▸ List.mem_cons_self),
      ih fun hm => h (List.mem_cons_of_mem c hm)]
    rfl

theorem mem_normalize {c : Char} {s : List Char} (h : c ∈ normalize s) :
    c ≠ '\r' ∧ (c ∈ s ∨ c = '\n') := by
  induction s with
  | nil => cases h
  | cons x s ih =>
    unfold normalize at h
    split at h
    · split at h
      · exact ⟨(ih h).1, (ih h).2.imp_left (List.mem_cons_of_mem x)⟩
      · rcases List.mem_cons.1 h with rfl | h
        · exact ⟨by decide, .inr rfl⟩
        · exact ⟨(ih h).1, (ih h).2.imp_left (List.mem_cons_of_mem x)⟩
    · rename_i hx
      rcases List.mem_cons.1 h with rfl | h
      · exact ⟨hx, .inl List.mem_cons_self⟩
      · exact ⟨(ih h).1, (ih h).2.imp_left (List.mem_cons_of_mem x)⟩

/-! ## Marks -/

/-- The characters that references, sections, comments and declarations are written with. -/
def isMark (c : Char) : Bool := c = '&' || c = ';' || c = '[' || c = '!' || c = '?'

def marks (s : List Char) : Nat := s.countP isMark

@[simp] theorem marks_nil : marks [] = 0 := rfl

@[simp] theorem marks_cons (c : Char) (s : List Char) :
    marks (c :: s) = marks s + if isMark c then 1 else 0 := List.countP_cons

@[simp] theorem marks_append (s t : List Char) : marks (s ++ t) = marks s + marks t :=
  List.countP_append

theorem marks_of_prefix {s t : List Char} (h : s <+: t) : marks s ≤ marks t :=
  h.sublist.countP_le

theorem marks_take_add_drop (n : Nat) (s : List Char) :
    marks (s.take n) + marks (s.drop n) = marks s := by
  rw [← marks_append, List.take_append_drop]

@[simp] theorem marks_normalize (s : List Char) : marks (normalize s) = marks s := by
  have hr : isMark '\r' = false := by decide
  have hn : isMark '\n' = false := by decide
  induction s with
  | nil => rfl
  | cons c s ih =>
    unfold normalize
    split
    · rename_i hc
      split <;> simp [ih, hc, hr, hn]
    · simp [ih]

def Token.says : Token → List Char
  | char c | reference c => [c]
  | cdata t => t
  | _ => []

/-- A token that is written otherwise than what it says. -/
def Token.isSpecial : Token → Bool
  | reference _ | cdata _ | misc | doctype => true
  | _ => false

def Token.cost (t : Token) : Nat := marks t.says + if t.isSpecial then 1 else 0

/-! ## What is read -/

theorem breakOn_prefix {pat s t : List Char} (h : breakOn pat s = some t) : t ++ pat <+: s := by
  induction s generalizing t with
  | nil => cases h
  | cons c s ih =>
    unfold breakOn at h
    split at h
    · rename_i hp
      cases h
      exact List.isPrefixOf_iff_prefix.1 hp
    · obtain ⟨t', ht', rfl⟩ := Option.map_eq_some_iff.1 h
      exact List.cons_prefix_cons.2 ⟨rfl, ih ht'⟩

theorem marks_breakOn {pat s t : List Char} (h : breakOn pat s = some t) {n : Nat}
    (hn : n = t.length + pat.length) : marks t + marks pat ≤ marks (s.take n) := by
  rw [← marks_append]
  refine marks_of_prefix ?_
  obtain ⟨r, rfl⟩ := breakOn_prefix h
  rw [hn, ← List.length_append, List.take_left]

theorem marks_of_isPrefixOf {pre s : List Char} {n : Nat} (h : pre.isPrefixOf s = true)
    (hn : pre.length ≤ n) :
    marks (s.take n) = marks pre + marks ((s.drop pre.length).take (n - pre.length)) := by
  obtain ⟨r, rfl⟩ := List.isPrefixOf_iff_prefix.1 h
  rw [List.take_append, List.take_of_length_le hn, marks_append, List.drop_left]

theorem tag_cost {t : List Char} {ts : List Token} (h : tag t = some ts) :
    (ts.map Token.cost).sum = 0 := by
  unfold tag at h
  split at h
  · split at h <;> cases h
    rfl
  · split at h <;> cases h <;> rfl

theorem markup_cost {s : List Char} {ts : List Token} {n : Nat} (h : markup s = some (ts, n)) :
    (ts.map Token.cost).sum ≤ marks (s.take n) := by
  unfold markup at h
  split at h
  · rename_i hp
    obtain ⟨t, -, h⟩ := Option.bind_eq_some_iff.1 h
    split at h <;> cases h
    have hpre : 1 ≤ marks "!--".toList := by decide
    rw [marks_of_isPrefixOf hp (by simp)]
    exact Nat.le_add_right_of_le hpre
  · split at h
    · rename_i hp
      obtain ⟨t, ht, h⟩ := Option.map_eq_some_iff.1 h
      cases h
      have hm : marks t + marks "]]>".toList ≤ marks ((s.drop 8).take (t.length + 11 - 8)) :=
        marks_breakOn ht rfl
      have hpre : 1 ≤ marks "![CDATA[".toList := by decide
      rw [marks_of_isPrefixOf hp (by simp)]
      show marks t + 1 + 0 ≤ _ + marks ((s.drop 8).take (t.length + 11 - 8))
      omega
    · split at h
      · rename_i hp
        obtain ⟨t, -, h⟩ := Option.bind_eq_some_iff.1 h
        split at h <;> cases h
        have hpre : 1 ≤ marks "?".toList := by decide
        rw [marks_of_isPrefixOf hp (by simp)]
        exact Nat.le_add_right_of_le hpre
      · split at h
        · rename_i hp
          obtain ⟨t, ht, h⟩ := Option.map_eq_some_iff.1 h
          cases h
          obtain ⟨r, rfl⟩ : ∃ r, s = '!' :: r := by
            obtain ⟨r, hr⟩ := List.isPrefixOf_iff_prefix.1 hp
            exact ⟨"DOCTYPE".toList ++ r, hr.symm⟩
          have hbang : isMark '!' = true := by decide
          rw [List.take_succ_cons, marks_cons, hbang]
          exact Nat.le_add_left 1 _
        · obtain ⟨t, -, h⟩ := Option.bind_eq_some_iff.1 h
          obtain ⟨ts', hts, h⟩ := Option.map_eq_some_iff.1 h
          cases h
          rw [tag_cost hts]
          exact Nat.zero_le _

/-- **A text has the marks that it says**, and one for each special token. -/
theorem scan_cost {k : Nat} {s : List Char} {ts : List Token} (h : scan k s = some ts) :
    (ts.map Token.cost).sum ≤ marks (s.drop k) := by
  induction s generalizing k ts with
  | nil => cases k <;> cases h; rfl
  | cons c s ih =>
    cases k with
    | succ k => exact ih h
    | zero =>
      unfold scan at h
      rw [List.drop_zero, marks_cons]
      split at h
      · obtain ⟨⟨ms, n⟩, hm, h⟩ := Option.bind_eq_some_iff.1 h
        obtain ⟨ts', hts, rfl⟩ := Option.map_eq_some_iff.1 h
        have h1 := markup_cost hm
        have h2 : (ts'.map Token.cost).sum ≤ marks (s.drop n) := ih hts
        have h3 := marks_take_add_drop n s
        rw [List.map_append, List.sum_append]
        show (ms.map Token.cost).sum + _ ≤ _
        omega
      · split at h
        · rename_i hc
          obtain ⟨t, ht, h⟩ := Option.bind_eq_some_iff.1 h
          obtain ⟨x, -, h⟩ := Option.bind_eq_some_iff.1 h
          obtain ⟨ts', hts, rfl⟩ := Option.map_eq_some_iff.1 h
          -- The ampersand and the semicolon, for the one character that they say.
          have h1 : 1 ≤ marks (s.take (t.length + 1)) :=
            le_trans (Nat.le_add_left 1 _) (marks_breakOn ht rfl)
          have h2 := ih hts
          have h3 := marks_take_add_drop (t.length + 1) s
          have hx : marks [x] ≤ 1 := List.countP_le_length
          rw [hc, if_pos (by decide), List.map_cons, List.sum_cons]
          show marks [x] + 1 + _ ≤ _
          omega
        · obtain ⟨ts', hts, rfl⟩ := Option.map_eq_some_iff.1 h
          have h2 := ih hts
          rw [List.drop_zero] at h2
          rw [List.map_cons, List.sum_cons]
          show marks [c] + 0 + _ ≤ _
          rw [marks_cons, marks_nil]
          omega

theorem not_special_of_cost {ts : List Token}
    (h : (ts.map Token.cost).sum ≤ (ts.map fun tok => marks tok.says).sum) :
    ∀ tok ∈ ts, tok.isSpecial = false := by
  have hle : ∀ ts : List Token,
      (ts.map fun tok => marks tok.says).sum ≤ (ts.map Token.cost).sum :=
    fun ts => List.sum_le_sum fun tok _ => Nat.le_add_right _ _
  induction ts with
  | nil => intro tok htok; cases htok
  | cons t ts ih =>
    rw [List.map_cons, List.map_cons, List.sum_cons, List.sum_cons, Token.cost] at h
    have hts := hle ts
    intro tok htok
    rcases List.mem_cons.1 htok with rfl | htok
    · cases hs : tok.isSpecial with
      | false => rfl
      | true =>
        rw [hs, if_pos rfl] at h
        omega
    · exact ih (by omega) tok htok

theorem mem_of_scan {k : Nat} {s : List Char} {ts : List Token} (h : scan k s = some ts)
    {c : Char} (hc : Token.char c ∈ ts) : c ∈ s ∧ c ≠ '<' ∧ c ≠ '&' := by
  have htag : ∀ {t : List Char} {ts : List Token}, tag t = some ts → Token.char c ∉ ts := by
    intro t ts h hm
    unfold tag at h
    split at h <;> split at h <;> cases h <;> simp at hm
  have hmarkup : ∀ {s : List Char} {m : List Token × Nat}, markup s = some m →
      Token.char c ∉ m.1 := by
    intro s m h hm
    unfold markup at h
    split at h
    · obtain ⟨t, -, h⟩ := Option.bind_eq_some_iff.1 h
      split at h <;> cases h
      simp at hm
    · split at h
      · obtain ⟨t, -, rfl⟩ := Option.map_eq_some_iff.1 h
        simp at hm
      · split at h
        · obtain ⟨t, -, h⟩ := Option.bind_eq_some_iff.1 h
          split at h <;> cases h
          simp at hm
        · split at h
          · obtain ⟨t, -, rfl⟩ := Option.map_eq_some_iff.1 h
            simp at hm
          · obtain ⟨t, -, h⟩ := Option.bind_eq_some_iff.1 h
            obtain ⟨ts', hts, rfl⟩ := Option.map_eq_some_iff.1 h
            exact htag hts hm
  induction s generalizing k ts with
  | nil => cases k <;> cases h; cases hc
  | cons x s ih =>
    have hin : c ∈ s ∧ c ≠ '<' ∧ c ≠ '&' → c ∈ x :: s ∧ c ≠ '<' ∧ c ≠ '&' :=
      fun h => ⟨List.mem_cons_of_mem x h.1, h.2⟩
    cases k with
    | succ k => exact hin (ih h hc)
    | zero =>
      unfold scan at h
      split at h
      · obtain ⟨m, hm, h⟩ := Option.bind_eq_some_iff.1 h
        obtain ⟨ts', hts, rfl⟩ := Option.map_eq_some_iff.1 h
        exact hin (ih hts ((List.mem_append.1 hc).resolve_left (hmarkup hm)))
      · split at h
        · obtain ⟨t, -, h⟩ := Option.bind_eq_some_iff.1 h
          obtain ⟨y, -, h⟩ := Option.bind_eq_some_iff.1 h
          obtain ⟨ts', hts, rfl⟩ := Option.map_eq_some_iff.1 h
          exact hin (ih hts ((List.mem_cons.1 hc).resolve_left (by simp)))
        · rename_i hlt hamp
          obtain ⟨ts', hts, rfl⟩ := Option.map_eq_some_iff.1 h
          rcases List.mem_cons.1 hc with h | h
          · cases h
            exact ⟨List.mem_cons_self, hlt, hamp⟩
          · exact hin (ih hts h)

/-! ## What is written -/

/-- A text that says itself. -/
structure Literal (t : List Char) : Prop where
  chars : ∀ c ∈ t, isChar c = true ∧ c ≠ '<' ∧ c ≠ '&' ∧ c ≠ '\r'
  ends : ¬ "]]>".toList <:+: t

theorem scan_cons {c : Char} (s : List Char) (h : c ≠ '<' ∧ c ≠ '&') :
    scan 0 (c :: s) = (scan 0 s).map (.char c :: ·) := by
  rw [scan.eq_def]
  simp only [h.1, h.2, if_false]

theorem scan_text {t : List Char} (s : List Char) (h : ∀ c ∈ t, c ≠ '<' ∧ c ≠ '&') :
    scan 0 (t ++ s) = (scan 0 s).map (t.map Token.char ++ ·) := by
  induction t with
  | nil => simp
  | cons c t ih =>
    rw [List.cons_append, scan_cons _ (h c List.mem_cons_self),
      ih fun x hx => h x (List.mem_cons_of_mem c hx), Option.map_map]
    rfl

theorem scan_skip (m s : List Char) : scan m.length (m ++ s) = scan 0 s := by
  induction m with
  | nil => rfl
  | cons c m ih => rw [List.length_cons, List.cons_append, scan.eq_def]; exact ih

theorem scan_markup {m : List Char} {ts : List Token} (s : List Char)
    (h : markup (m ++ s) = some (ts, m.length)) :
    scan 0 ('<' :: (m ++ s)) = (scan 0 s).map (ts ++ ·) := by
  rw [scan.eq_def]
  simp only [if_true, h, Option.bind_some, scan_skip]

theorem infix_of_append_left {pat u t : List Char} (hne : pat ≠ []) (hu : ∀ c ∈ u, c ∉ pat)
    (h : pat <:+: u ++ t) : pat <:+: t := by
  induction u with
  | nil => exact h
  | cons c u ih =>
    rcases List.infix_cons_iff.1 h with hpre | hin
    · obtain ⟨p, pat, rfl⟩ := List.exists_cons_of_ne_nil hne
      obtain ⟨rfl, -⟩ := List.cons_prefix_cons.1 hpre
      exact absurd List.mem_cons_self (hu p List.mem_cons_self)
    · exact ih (fun x hx => hu x (List.mem_cons_of_mem c hx)) hin

theorem infix_of_append_right {pat t u : List Char} (hne : pat ≠ []) (hu : ∀ c ∈ u, c ∉ pat)
    (h : pat <:+: t ++ u) : pat <:+: t := by
  refine List.reverse_infix.1 (infix_of_append_left (u := u.reverse) (by simpa using hne) ?_ ?_)
  · exact fun c hc hp => hu c (List.mem_reverse.1 hc) (List.mem_reverse.1 hp)
  · rw [← List.reverse_append]
    exact List.reverse_infix.2 h

/-- A character that says itself and has no part in the end of a section. -/
def isTame (c : Char) : Bool :=
  isChar c && c != '<' && c != '&' && c != '\r' && c != ']' && c != '>'

theorem isTame_iff {c : Char} : isTame c = true ↔
    (isChar c = true ∧ c ≠ '<' ∧ c ≠ '&' ∧ c ≠ '\r') ∧ c ∉ "]]>".toList := by
  simp only [isTame, Bool.and_eq_true, bne_iff_ne, String.reduceToList, List.mem_cons,
    List.not_mem_nil, or_false, not_or]
  tauto

theorem literal_between {pre t post : List Char} (hpre : pre.all isTame = true)
    (hpost : post.all isTame = true) : Literal (pre ++ t ++ post) ↔ Literal t := by
  have htame : ∀ {s : List Char}, s.all isTame = true → ∀ c ∈ s, isTame c = true :=
    fun h c hc => List.all_eq_true.1 h c hc
  constructor
  · refine fun h => ⟨fun c hc => h.chars c ?_, fun hin => h.ends ?_⟩
    · exact List.mem_append_left _ (List.mem_append_right _ hc)
    · exact hin.trans (List.infix_append pre t post)
  · refine fun h => ⟨fun c hc => ?_, fun hin => h.ends ?_⟩
    · rcases List.mem_append.1 hc with hc | hc
      · rcases List.mem_append.1 hc with hc | hc
        · exact (isTame_iff.1 (htame hpre c hc)).1
        · exact h.chars c hc
      · exact (isTame_iff.1 (htame hpost c hc)).1
    · have hright := infix_of_append_right (by decide)
        (fun c hc => (isTame_iff.1 (htame hpost c hc)).2) hin
      exact infix_of_append_left (by decide) (fun c hc => (isTame_iff.1 (htame hpre c hc)).2) hright

theorem Literal.map {t : List Char} {f : Char → Char} (h : Literal t)
    (hf : ∀ c ∈ t, f c = c ∨ isTame (f c) = true) : Literal (t.map f) where
  chars := fun c hc => by
    obtain ⟨x, hx, rfl⟩ := List.mem_map.1 hc
    rcases hf x hx with he | he
    · rw [he]
      exact h.chars x hx
    · exact (isTame_iff.1 he).1
  ends := fun hin => by
    obtain ⟨l, hl, he⟩ := List.infix_map_iff.1 hin
    have hid : ∀ c ∈ l, f c = id c := fun c hc =>
      (hf c (hl.subset hc)).resolve_right fun ht =>
        (isTame_iff.1 ht).2 (he ▸ List.mem_map_of_mem hc)
    rw [List.map_congr_left hid, List.map_id] at he
    exact h.ends (he ▸ hl)

end Xml
