import Mathlib

/-!
# Words and specifiers of unit files

Values that are words: white space separates them, quotation marks hold them together, and
escapes stand for characters. In a command line a lone semicolon ends the command. In words and in
other values a percent sign starts a specifier. What is not in the grammar is not read. Quotation
marks, escapes and specifiers make a value shorter (`scan_size`, `pieces_length`): a text that is
read back in full has none.
-/

namespace UnitFile

variable {s t w : List Char} {ws ts : List (List Char)}

/-! ## Specifiers -/

/-- A character of a value, or a specifier that the manager resolves. -/
inductive Piece where
  | char (c : Char)
  | specifier (c : Char)
  deriving DecidableEq

section Specifiers

variable (specifier : Char → Bool)

/-- The pieces of a text, with whether a percent sign stands before it: `%%` stands for a percent
sign, and one that starts no specifier for itself. -/
def piecesAfter : Bool → List Char → List Piece
  | false, [] => []
  | true, [] => [.char '%']
  | true, c :: t =>
    (if c = '%' then [.char '%']
      else if specifier c then [.specifier c] else [.char '%', .char c]) ++ piecesAfter false t
  | false, c :: t => if c = '%' then piecesAfter true t else .char c :: piecesAfter false t

def pieces (t : List Char) : List Piece := piecesAfter specifier false t

/-- No percent sign has another one or the letter of a specifier after it. -/
def verbatimAfter : Bool → List Char → Bool
  | _, [] => true
  | true, c :: t => c ≠ '%' && !specifier c && verbatimAfter false t
  | false, c :: t => verbatimAfter (c = '%') t

def verbatim (t : List Char) : Bool := verbatimAfter specifier false t

variable {specifier}

/-- A percent sign that starts something is not read as itself. -/
theorem piecesAfter_verbatim (opened : Bool) (t : List Char) :
    (piecesAfter specifier opened t).length ≤ t.length + opened.toNat ∧
      (t.length + opened.toNat ≤ (piecesAfter specifier opened t).length ↔
        verbatimAfter specifier opened t = true) ∧
      (verbatimAfter specifier opened t = true →
        piecesAfter specifier opened t = ((if opened then ['%'] else []) ++ t).map .char) := by
  induction t generalizing opened with
  | nil => cases opened <;> simp [piecesAfter, verbatimAfter]
  | cons c t ih =>
    cases opened with
    | true =>
      obtain ⟨hle, hiff, heq⟩ := ih false
      rw [Bool.toNat_false, Nat.add_zero] at hle hiff
      simp only [piecesAfter, verbatimAfter, List.length_append, List.length_cons, Bool.toNat_true,
        Bool.and_eq_true, decide_eq_true_eq, Bool.not_eq_true', ← hiff]
      by_cases hc : c = '%'
      · rw [if_pos hc, List.length_singleton]
        exact ⟨by omega, ⟨fun h => by omega, fun h => absurd hc h.1.1⟩, fun h => absurd hc h.1.1⟩
      cases hs : specifier c with
      | true =>
        rw [if_neg hc, if_pos rfl, List.length_singleton]
        exact ⟨by omega, ⟨fun h => by omega, fun h => nomatch h.1.2⟩, fun h => nomatch h.1.2⟩
      | false =>
        rw [if_neg hc, if_neg Bool.false_ne_true]
        simp only [List.length_cons, List.length_nil]
        refine ⟨by omega, ⟨fun h => ⟨⟨hc, trivial⟩, by omega⟩, fun h => by omega⟩, fun h => ?_⟩
        rw [heq (hiff.1 h.2)]
        rfl
    | false =>
      rw [piecesAfter, verbatimAfter]
      by_cases hc : c = '%'
      · obtain ⟨hle, hiff, heq⟩ := ih true
        rw [Bool.toNat_true] at hle hiff
        rw [if_pos hc, decide_eq_true hc, List.length_cons, Bool.toNat_false]
        refine ⟨hle, hiff, fun h => ?_⟩
        rw [heq h, hc]
        rfl
      · obtain ⟨hle, hiff, heq⟩ := ih false
        rw [Bool.toNat_false, Nat.add_zero] at hle hiff
        rw [if_neg hc, decide_eq_false hc, List.length_cons, List.length_cons, Bool.toNat_false,
          Nat.add_zero]
        refine ⟨by omega, by rw [← hiff]; omega, fun h => ?_⟩
        rw [heq h]
        rfl

theorem pieces_length : (pieces specifier t).length ≤ t.length := (piecesAfter_verbatim false t).1

theorem char_injective : Function.Injective Piece.char := fun _ _ h => by cases h; rfl

theorem pieces_of_verbatim (h : verbatim specifier t = true) :
    pieces specifier t = t.map .char := (piecesAfter_verbatim false t).2.2 h

theorem pieces_eq_map (hlen : t.length ≤ s.length) :
    pieces specifier t = s.map .char ↔ verbatim specifier t = true ∧ t = s := by
  constructor
  · intro h
    have hmem : verbatim specifier t = true := by
      refine (piecesAfter_verbatim false t).2.1.1 ?_
      have hp : (piecesAfter specifier false t).length = s.length := by
        rw [show piecesAfter specifier false t = s.map .char from h, List.length_map]
      rw [hp]
      exact hlen
    rw [pieces_of_verbatim hmem] at h
    exact ⟨hmem, List.map_injective_iff.2 char_injective h⟩
  · rintro ⟨hmem, rfl⟩
    exact pieces_of_verbatim hmem

theorem verbatimAfter_of_not_mem (h : '%' ∉ t) : verbatimAfter specifier false t = true := by
  induction t with
  | nil => rfl
  | cons c t ih =>
    rw [List.mem_cons, not_or] at h
    rw [verbatimAfter, decide_eq_false (Ne.symm h.1)]
    exact ih h.2

/-- Before a text without percent signs nothing starts. -/
theorem verbatim_append (h : '%' ∉ s) : verbatim specifier (s ++ t) = verbatim specifier t := by
  induction s with
  | nil => rfl
  | cons c s ih =>
    rw [List.mem_cons, not_or] at h
    rw [verbatim, List.cons_append, verbatimAfter, decide_eq_false (Ne.symm h.1)]
    exact ih h.2

end Specifiers

/-! ## Escapes -/

def digit (c : Char) : Option Nat :=
  if c.isDigit then some (c.toNat - '0'.toNat)
  else if 'a' ≤ c ∧ c ≤ 'f' then some (c.toNat - 'a'.toNat + 10)
  else if 'A' ≤ c ∧ c ≤ 'F' then some (c.toNat - 'A'.toNat + 10)
  else none

/-- A number of `n` digits in base `b`. -/
def numeral (b n : Nat) (t : List Char) : Option Nat :=
  if t.length < n then none
  else (t.take n).foldlM
    (fun k c => (digit c).bind fun d => if d < b then some (b * k + d) else none) 0

def charOf (n : Nat) : Option Char :=
  if n ≠ 0 ∧ n.isValidChar then some (Char.ofNat n) else none

/-- An escape that ends with `n` digits in base `b`, and has `k` characters before them. -/
def numbered (b n k : Nat) (t : List Char) : Option (Char × Nat) :=
  ((numeral b n t).bind charOf).map (·, k + n)

/-- The escapes of one character. -/
def escapes : List (Char × Char) :=
  [('a', '\x07'), ('b', '\x08'), ('f', '\x0c'), ('n', '\n'), ('r', '\r'), ('t', '\t'),
    ('v', '\x0b'), ('\\', '\\'), ('"', '"'), ('\'', '\''), ('s', ' ')]

/-- What the characters after a backslash stand for, and their number. -/
def escape : List Char → Option (Char × Nat)
  | [] => none
  | c :: t =>
    match escapes.lookup c with
    | some d => some (d, 1)
    | none =>
      if c = 'x' then numbered 16 2 1 t
      else if c = 'u' then numbered 16 4 1 t
      else if c = 'U' then numbered 16 8 1 t
      else numbered 8 3 0 (c :: t)

theorem numbered_pos {b n k m : Nat} {c : Char} (h : numbered b n k t = some (c, m)) :
    m = k + n := by
  obtain ⟨d, -, hd⟩ := Option.map_eq_some_iff.1 h
  exact (Prod.mk.inj hd).2.symm

/-- An escape has a character after the backslash. -/
theorem escape_pos {c : Char} {n : Nat} (h : escape t = some (c, n)) : 0 < n ∧ 0 < t.length := by
  cases t with
  | nil => cases h
  | cons d t =>
    refine ⟨?_, Nat.succ_pos _⟩
    unfold escape at h
    cases hl : escapes.lookup d with
    | some d =>
      simp only [hl] at h
      cases h
      exact Nat.one_pos
    | none =>
      simp only [hl] at h
      split at h
      · rw [numbered_pos h]; omega
      · split at h
        · rw [numbered_pos h]; omega
        · split at h
          · rw [numbered_pos h]; omega
          · rw [numbered_pos h]; omega

/-! ## Words -/

def isSpace (c : Char) : Bool := c = ' ' || c = '\t' || c = '\n' || c = '\r'

def isQuote (c : Char) : Bool := c = '"' || c = '\''

/-- A list of words, or a command line: there a lone semicolon after the first word ends the
command, and only one command is read. -/
inductive Mode where
  | list
  | command
  | arguments
  deriving DecidableEq

/-- After a word. -/
def Mode.next : Mode → Mode
  | command => arguments
  | m => m

/-- The command ends at this character. -/
def ends (m : Mode) (cur : Option (List Char)) (c : Char) (t : List Char) : Bool :=
  m = .arguments && cur.isNone && c = ';' && t.head?.all isSpace

/-- The words of a text: after `k` characters that belong to an escape, with the quotation mark
that is open and the word that has begun. -/
def scan : Mode → Nat → Option Char → Option (List Char) → List Char → Option (List (List Char))
  | _, k, q, cur, [] => if k = 0 ∧ q = none then some cur.toList else none
  | m, k + 1, q, cur, _ :: t => scan m k q cur t
  | m, 0, none, cur, c :: t =>
    if isSpace c then
      (scan (if cur.isSome then m.next else m) 0 none none t).map (cur.toList ++ ·)
    else if ends m cur c t then none
    else if isQuote c then scan m 0 (some c) (some (cur.getD [])) t
    else if c = '\\' then
      (escape t).bind fun e => scan m e.2 none (some (cur.getD [] ++ [e.1])) t
    else scan m 0 none (some (cur.getD [] ++ [c])) t
  | m, 0, some q, cur, c :: t =>
    if c = q then scan m 0 none (some (cur.getD [])) t
    else if c = '\\' then
      (escape t).bind fun e => scan m e.2 (some q) (some (cur.getD [] ++ [e.1])) t
    else scan m 0 (some q) (some (cur.getD [] ++ [c])) t

def words (m : Mode) (t : List Char) : Option (List (List Char)) := scan m 0 none none t

/-- The characters of the words, and one for the end of each. -/
def size (ws : List (List Char)) : Nat := (ws.map fun w => w.length + 1).sum

theorem size_cons (w : List Char) (ws : List (List Char)) :
    size (w :: ws) = w.length + 1 + size ws := by simp [size]

theorem size_append (cur : Option (List Char)) (ws : List (List Char)) :
    size (cur.toList ++ ws) ≤ (cur.getD []).length + 1 + size ws := by
  cases cur with
  | none => simp only [Option.toList_none, List.nil_append]; omega
  | some w => exact (size_cons w ws).le

/-- A quotation mark that has to be closed. -/
def pending (q : Option Char) : Nat := if q.isSome then 1 else 0

theorem pending_none : pending none = 0 := rfl

theorem pending_some (q : Char) : pending (some q) = 1 := rfl

/-- What is read of a text that starts with `c`, in a word that has begun with `cur`, in the
quotation marks `q`. -/
inductive Reads (m : Mode) : Option Char → Option (List Char) → Char → List Char →
    List (List Char) → Prop where
  | space {cur c t ws} (hc : isSpace c = true)
      (h : scan (if cur.isSome then m.next else m) 0 none none t = some ws) :
      Reads m none cur c t (cur.toList ++ ws)
  | opens {cur c t ws} (hc : isQuote c = true)
      (h : scan m 0 (some c) (some (cur.getD [])) t = some ws) : Reads m none cur c t ws
  | closes {q cur t ws} (h : scan m 0 none (some (cur.getD [])) t = some ws) :
      Reads m (some q) cur q t ws
  | escape {q cur t d n ws} (hn : 0 < n) (ht : 0 < t.length)
      (h : scan m n q (some (cur.getD [] ++ [d])) t = some ws) : Reads m q cur '\\' t ws
  | char {q cur c t ws} (hslash : c ≠ '\\')
      (hnone : q = none → isSpace c = false ∧ ends m cur c t = false ∧ isQuote c = false)
      (hsome : ∀ x ∈ q, c ≠ x) (h : scan m 0 q (some (cur.getD [] ++ [c])) t = some ws) :
      Reads m q cur c t ws

theorem reads_of_scan {m : Mode} {q : Option Char} {cur : Option (List Char)} {c : Char}
    (h : scan m 0 q cur (c :: t) = some ws) : Reads m q cur c t ws := by
  have hescape : ∀ {q : Option Char}, ((escape t).bind fun e =>
      scan m e.2 q (some (cur.getD [] ++ [e.1])) t) = some ws → Reads m q cur '\\' t ws := by
    intro q h
    obtain ⟨⟨d, n⟩, he, h⟩ := Option.bind_eq_some_iff.1 h
    exact .escape (escape_pos he).1 (escape_pos he).2 h
  cases q with
  | none =>
    rw [scan] at h
    split at h
    · rename_i hspace
      obtain ⟨ws', hws, rfl⟩ := Option.map_eq_some_iff.1 h
      exact .space hspace hws
    rename_i hspace
    split at h
    · cases h
    rename_i hends
    split at h
    · exact .opens ‹_› h
    rename_i hquote
    split at h
    · rename_i hslash
      exact hslash ▸ hescape h
    · rename_i hslash
      refine .char hslash (fun _ => ?_) (fun _ hx => by cases hx) h
      exact ⟨Bool.eq_false_iff.2 hspace, Bool.eq_false_iff.2 hends, Bool.eq_false_iff.2 hquote⟩
  | some q =>
    rw [scan] at h
    split at h
    · rename_i hq
      exact hq ▸ .closes h
    rename_i hq
    split at h
    · rename_i hslash
      exact hslash ▸ hescape h
    · exact .char ‹_› (fun hnone => by cases hnone) (fun x hx => by cases hx; exact hq) h

/-- **The words are no longer than the text**, and shorter if a quotation mark is open. -/
theorem scan_size {m : Mode} {k : Nat} {q : Option Char} {cur : Option (List Char)}
    (h : scan m k q cur t = some ws) :
    size ws + pending q ≤ (cur.getD []).length + (t.length - k) + 1 := by
  induction t generalizing m k q cur ws with
  | nil =>
    rw [scan] at h
    split at h
    · rename_i hend
      obtain ⟨rfl, rfl⟩ := hend
      cases h
      have := size_append cur []
      rw [List.append_nil] at this
      simpa [pending, size] using this
    · cases h
  | cons c t ih =>
    rw [List.length_cons]
    rcases k with _ | k
    · cases reads_of_scan h with
      | @space _ _ _ ws' _ hws =>
        have hsize := size_append cur ws'
        have := ih hws
        rw [Option.getD_none, List.length_nil] at this
        omega
      | opens _ h =>
        have := ih h
        rw [Option.getD_some, pending_some] at this
        rw [pending_none]
        omega
      | closes h =>
        have := ih h
        rw [Option.getD_some, pending_none] at this
        rw [pending_some]
        omega
      | escape hn ht h | char _ _ _ h =>
        have := ih h
        rw [Option.getD_some, List.length_append, List.length_singleton] at this
        omega
    · have := ih (show scan m k q cur t = some ws from h)
      omega

/-- A character that is neither a quotation mark nor a backslash. -/
def Bare (c : Char) : Prop := isQuote c = false ∧ c ≠ '\\'

/-- A text that is as long as its words has only bare characters. -/
theorem bare_of_scan {m : Mode} {cur : Option (List Char)} (h : scan m 0 none cur t = some ws)
    (hge : (cur.getD []).length + t.length + 1 ≤ size ws) : ∀ c ∈ t, Bare c := by
  induction t generalizing m cur ws with
  | nil => exact fun c hc => nomatch hc
  | cons c t ih =>
    rw [List.length_cons] at hge
    cases reads_of_scan h with
    | @space _ _ _ ws' hspace hws =>
      have hsize := size_append cur ws'
      have hbare : Bare c := by
        unfold isSpace at hspace
        simp only [Bool.or_eq_true, decide_eq_true_eq] at hspace
        rcases hspace with ((rfl | rfl) | rfl) | rfl <;> exact ⟨rfl, by decide⟩
      refine List.forall_mem_cons.2 ⟨hbare, ih hws ?_⟩
      rw [Option.getD_none, List.length_nil]
      omega
    | opens _ h =>
      have := scan_size h
      rw [Option.getD_some, pending_some] at this
      omega
    | escape hn ht h =>
      have := scan_size h
      rw [Option.getD_some, List.length_append, List.length_singleton] at this
      omega
    | char hslash hquote _ h =>
      refine List.forall_mem_cons.2 ⟨⟨(hquote rfl).2.2, hslash⟩, ih h ?_⟩
      rw [Option.getD_some, List.length_append, List.length_singleton]
      omega

/-- A text in quotation marks that is as long as its words, but for the mark that ends it. -/
theorem quoted_of_scan {m : Mode} {q : Char} {cur : Option (List Char)}
    (h : scan m 0 (some q) cur t = some ws)
    (hge : (cur.getD []).length + t.length ≤ size ws) :
    ∃ body rest, t = body ++ q :: rest ∧ (∀ c ∈ body, c ≠ q ∧ c ≠ '\\') ∧ ∀ c ∈ rest, Bare c := by
  induction t generalizing m cur ws with
  | nil =>
    rw [scan, if_neg fun h => nomatch h.2] at h
    cases h
  | cons c t ih =>
    rw [List.length_cons] at hge
    cases reads_of_scan h with
    | closes h =>
      refine ⟨[], t, rfl, fun d hd => (List.not_mem_nil hd).elim, bare_of_scan h ?_⟩
      rw [Option.getD_some]
      omega
    | escape hn ht h =>
      have := scan_size h
      rw [Option.getD_some, List.length_append, List.length_singleton, pending_some] at this
      omega
    | char hslash _ hquote h =>
      obtain ⟨body, rest, rfl, hbody, hrest⟩ := ih h (by
        rw [Option.getD_some, List.length_append, List.length_singleton]; omega)
      exact ⟨c :: body, rest, rfl, List.forall_mem_cons.2 ⟨⟨hquote q rfl, hslash⟩, hbody⟩, hrest⟩

/-! ## What is read as it is -/

/-- A word that is written as it is. -/
structure Word (w : List Char) : Prop where
  ne_nil : w ≠ []
  bare : ∀ c ∈ w, Bare c
  noSpace : ∀ c ∈ w, isSpace c = false

section Bare

variable {m : Mode} {cur : Option (List Char)} {c : Char}

@[simp] theorem ends_some (u : List Char) : ends m (some u) c t = false := by simp [ends]

theorem scan_bare (hc : Bare c) (hs : isSpace c = false) (he : ends m cur c t = false) :
    scan m 0 none cur (c :: t) = scan m 0 none (some (cur.getD [] ++ [c])) t := by
  rw [scan, if_neg (by simp [hs]), if_neg (by simp [he]), if_neg (by simp [hc.1]), if_neg hc.2]

theorem scan_append (hw : ∀ c ∈ w, Bare c ∧ isSpace c = false) (u : List Char) :
    scan m 0 none (some u) (w ++ t) = scan m 0 none (some (u ++ w)) t := by
  induction w generalizing u with
  | nil => rw [List.nil_append, List.append_nil]
  | cons c w ih =>
    obtain ⟨⟨hc, hs⟩, hw⟩ := List.forall_mem_cons.1 hw
    rw [List.cons_append, scan_bare hc hs (ends_some u), Option.getD_some, ih hw,
      List.append_assoc]
    rfl

theorem scan_word (hw : Word w) (hlone : m = .arguments → w ≠ [';']) :
    scan m 0 none none (w ++ t) = scan m 0 none (some w) t := by
  cases w with
  | nil => exact absurd rfl hw.ne_nil
  | cons c w =>
    have hrest : ∀ d ∈ w, Bare d ∧ isSpace d = false := fun d hd =>
      ⟨hw.bare d (List.mem_cons_of_mem c hd), hw.noSpace d (List.mem_cons_of_mem c hd)⟩
    have hends : ends m none c (w ++ t) = false := by
      by_contra he
      simp only [ends, Bool.not_eq_false, Bool.and_eq_true, decide_eq_true_eq] at he
      obtain ⟨⟨⟨hm, -⟩, rfl⟩, hspace⟩ := he
      cases w with
      | nil => exact hlone hm rfl
      | cons d w =>
        rw [List.cons_append, List.head?_cons, Option.all_some] at hspace
        rw [(hrest d List.mem_cons_self).2] at hspace
        cases hspace
    rw [List.cons_append, scan_bare (hw.bare c List.mem_cons_self)
      (hw.noSpace c List.mem_cons_self) hends, scan_append hrest]
    rfl

theorem scan_intercalate {m : Mode} : ∀ {ws : List (List Char)}, (∀ w ∈ ws, Word w) →
    (m = .arguments → ∀ w ∈ ws.head?, w ≠ [';']) → (∀ w ∈ ws.tail, w ≠ [';']) →
    words m ([' '].intercalate ws) = some ws
  | [], _, _, _ => by cases m <;> rfl
  | [w], h, hhead, _ => by
    have hw := h w List.mem_cons_self
    rw [List.intercalate_singleton, words, ← List.append_nil w,
      scan_word hw fun hm => hhead hm w rfl, List.append_nil]
    rfl
  | w :: v :: ws, h, hhead, htail => by
    obtain ⟨hw, h⟩ := List.forall_mem_cons.1 h
    obtain ⟨hv, htail⟩ := List.forall_mem_cons.1 htail
    have ih : scan m.next 0 none none ([' '].intercalate (v :: ws)) = some (v :: ws) :=
      scan_intercalate h (fun _ u hu => by cases hu; exact hv) htail
    rw [List.intercalate_cons_cons, words, List.append_assoc,
      scan_word hw fun hm => hhead hm w rfl, List.singleton_append, scan, if_pos (by decide),
      Option.isSome_some, if_pos rfl, ih]
    rfl

theorem word_of_scan (ht : ∀ c ∈ t, Bare c) (hcur : ∀ w ∈ cur, Word w)
    (h : scan m 0 none cur t = some ws) : ∀ w ∈ ws, Word w := by
  induction t generalizing m cur ws with
  | nil =>
    rw [scan, if_pos ⟨rfl, rfl⟩, Option.some.injEq] at h
    subst h
    exact fun w hw => hcur w (Option.mem_toList.1 hw)
  | cons c t ih =>
    obtain ⟨hc, ht⟩ := List.forall_mem_cons.1 ht
    cases reads_of_scan h with
    | space _ hws =>
      intro w hw
      rcases List.mem_append.1 hw with hw | hw
      · exact hcur w (Option.mem_toList.1 hw)
      · exact ih ht (fun w hw => by cases hw) hws w hw
    | opens hquote _ => simp [hc.1] at hquote
    | escape _ _ _ => exact absurd rfl hc.2
    | char _ hnone _ h =>
      refine ih ht (fun w hw => ?_) h
      obtain rfl : cur.getD [] ++ [c] = w := Option.some.inj hw
      have hold : ∀ d ∈ cur.getD [], Bare d ∧ isSpace d = false := by
        cases cur with
        | none => exact fun d hd => nomatch hd
        | some u => exact fun d hd => ⟨(hcur u rfl).bare d hd, (hcur u rfl).noSpace d hd⟩
      refine ⟨by simp, fun d hd => ?_, fun d hd => ?_⟩
      · rcases List.mem_append.1 hd with hd | hd
        · exact (hold d hd).1
        · exact List.mem_singleton.1 hd ▸ hc
      · rcases List.mem_append.1 hd with hd | hd
        · exact (hold d hd).2
        · exact List.mem_singleton.1 hd ▸ (hnone rfl).1

/-- Of the words of bare text only the first is a lone semicolon. -/
theorem lone_of_scan (ht : ∀ c ∈ t, Bare c) (hcur : [] ∉ cur)
    (hgoes : m = .arguments → [';'] ∈ cur → ∃ d ∈ t.head?, isSpace d = false)
    (hm : m ≠ .list) (h : scan m 0 none cur t = some ws) :
    (m = .arguments → ∀ w ∈ ws, w ≠ [';']) ∧ ∀ w ∈ ws.tail, w ≠ [';'] := by
  induction t generalizing m cur ws with
  | nil =>
    rw [scan, if_pos ⟨rfl, rfl⟩, Option.some.injEq] at h
    subst h
    refine ⟨fun hm' w hw => ?_, fun w hw => ?_⟩
    · rintro rfl
      obtain ⟨d, hd, -⟩ := hgoes hm' (Option.mem_toList.1 hw)
      cases hd
    · cases cur <;> cases hw
  | cons c t ih =>
    obtain ⟨hc, ht⟩ := List.forall_mem_cons.1 ht
    cases reads_of_scan h with
    | space hs hws =>
      have hnot : m = .arguments → [';'] ∉ cur := fun hm' hmem => by
        obtain ⟨d, hd, hspace⟩ := hgoes hm' hmem
        cases hd
        rw [hs] at hspace
        cases hspace
      cases cur with
      | none =>
        exact ih ht (by simp) (fun _ hmem => by cases hmem) hm hws
      | some u =>
        have hnext : m.next = .arguments := by cases m <;> first | rfl | exact absurd rfl hm
        obtain ⟨hall, -⟩ := ih ht (by simp) (fun _ hmem => by cases hmem)
          (by rw [Option.isSome_some, if_pos rfl, hnext]; decide) hws
        have hall := hall (by rw [Option.isSome_some, if_pos rfl, hnext])
        refine ⟨fun hm' => List.forall_mem_cons.2 ⟨fun hu => ?_, hall⟩, hall⟩
        exact hnot hm' (by rw [hu]; rfl)
    | opens hquote _ => simp [hc.1] at hquote
    | escape _ _ _ => exact absurd rfl hc.2
    | char _ hnone _ h =>
      obtain ⟨-, he, -⟩ := hnone rfl
      refine ih ht (by simp) (fun hm' hmem => ?_) hm h
      have hword : cur.getD [] ++ [c] = [';'] := Option.some.inj hmem
      obtain rfl : cur = none := by
        cases cur with
        | none => rfl
        | some u =>
          have hu : u ≠ [] := fun hu => hcur (by rw [hu]; rfl)
          cases u with
          | nil => exact absurd rfl hu
          | cons d u => cases u <;> cases hword
      obtain rfl : c = ';' := (List.cons.inj hword).1
      cases t with
      | nil =>
        rw [ends, hm'] at he
        cases he
      | cons d t =>
        refine ⟨d, rfl, ?_⟩
        simpa [ends, hm'] using he

end Bare

theorem scan_quoted {m : Mode} {q : Char} (hw : ∀ c ∈ w, c ≠ q ∧ c ≠ '\\') (u : List Char) :
    scan m 0 (some q) (some u) (w ++ q :: t) = scan m 0 none (some (u ++ w)) t := by
  induction w generalizing u with
  | nil => rw [List.nil_append, scan, if_pos rfl, List.append_nil]; rfl
  | cons c w ih =>
    obtain ⟨⟨hc, hs⟩, hw⟩ := List.forall_mem_cons.1 hw
    rw [List.cons_append, scan, if_neg hc, if_neg hs, Option.getD_some, ih hw, List.append_assoc]
    rfl

/-- A word in double quotation marks is read back exactly when it has none and no backslash. -/
theorem words_quoted {v : List Char} (hlen : w.length ≤ v.length) :
    words .list ('"' :: (w ++ ['"'])) = some [v] ↔ (∀ c ∈ w, c ≠ '"' ∧ c ≠ '\\') ∧ v = w := by
  have hopen : words .list ('"' :: (w ++ ['"'])) =
      scan .list 0 (some '"') (some []) (w ++ ['"']) := by
    rw [words, scan, if_neg (by decide), if_neg (by simp [ends]), if_pos (by decide)]
    rfl
  rw [hopen]
  constructor
  · intro h
    obtain ⟨body, rest, hsplit, hbody, hrest⟩ := quoted_of_scan h (by
      rw [Option.getD_some, List.length_append, size_cons]
      simp only [List.length_nil, List.length_singleton, size, List.map_nil, List.sum_nil]
      omega)
    -- the text ends with a quotation mark, which no bare character is
    have hrest : rest = [] := by
      rcases List.eq_nil_or_concat rest with hnil | ⟨front, c, rfl⟩
      · exact hnil
      · rw [List.concat_eq_append, ← List.cons_append, ← List.append_assoc] at hsplit
        have hc : ['"'] = [c] := (List.append_inj' hsplit rfl).2
        have hbare : Bare c := hrest c (by simp)
        rw [← (List.cons.inj hc).1] at hbare
        exact absurd hbare.1 (by decide)
    subst hrest
    obtain ⟨rfl, -⟩ := List.append_inj' hsplit rfl
    rw [scan_quoted hbody, scan, if_pos ⟨rfl, rfl⟩, List.nil_append] at h
    exact ⟨hbody, (List.cons.inj (Option.some.inj h)).1.symm⟩
  · rintro ⟨hw, rfl⟩
    rw [scan_quoted hw, scan, if_pos ⟨rfl, rfl⟩, List.nil_append]
    rfl

/-! ## Line breaks and backslashes -/

/-- The characters that end a line. -/
def isBreak (c : Char) : Bool := c = '\n' || c = '\r' || c = '\x00'

def Unbroken (t : List Char) : Prop := ∀ c ∈ t, isBreak c = false

/-- What no line of a file says without a backslash. -/
def isMark (c : Char) : Bool := c = '\\' || isBreak c

def marks (t : List Char) : Nat := t.countP isMark

def slashes (t : List Char) : Nat := t.count '\\'

def Piece.isMark : Piece → Bool
  | char c => UnitFile.isMark c
  | specifier _ => false

theorem Unbroken.append (hs : Unbroken s) (ht : Unbroken t) : Unbroken (s ++ t) :=
  List.forall_mem_append.2 ⟨hs, ht⟩

theorem marks_append (s t : List Char) : marks (s ++ t) = marks s + marks t := List.countP_append

theorem slashes_append (s t : List Char) : slashes (s ++ t) = slashes s + slashes t :=
  List.count_append

theorem slashes_cons (c : Char) (t : List Char) :
    slashes (c :: t) = slashes t + if c = '\\' then 1 else 0 := by
  simp [slashes, List.count_cons]

@[simp] theorem marks_nil : marks [] = 0 := rfl

theorem marks_singleton (c : Char) : marks [c] = if isMark c then 1 else 0 := by
  simp [marks, List.countP_cons]

theorem slashes_of_isBreak {c : Char} (h : isBreak c = true) : slashes [c] = 0 := by
  rw [slashes_cons, if_neg]
  · rfl
  · rintro rfl
    revert h; decide

theorem marks_eq_slashes (h : Unbroken t) : marks t = slashes t := by
  unfold marks slashes List.count
  refine List.countP_congr fun c hc => ?_
  simp [isMark, h c hc]

theorem slashes_le_marks (t : List Char) : slashes t ≤ marks t :=
  List.countP_mono_left fun c _ hc => by simp only [beq_iff_eq] at hc; simp [isMark, hc]

theorem unbroken_of_marks (h : marks t ≤ slashes t) : Unbroken t := by
  intro c hmem
  by_contra hc
  rw [Bool.not_eq_false] at hc
  obtain ⟨u, v, rfl⟩ := List.append_of_mem hmem
  have hslashes := slashes_of_isBreak hc
  have hmarks : marks [c] = 1 := by rw [marks_singleton, if_pos (by simp [isMark, hc])]
  rw [← List.singleton_append, marks_append, marks_append, slashes_append, slashes_append, hmarks,
    hslashes] at h
  have := slashes_le_marks u
  have := slashes_le_marks v
  omega

theorem piecesAfter_marks {specifier : Char → Bool} (opened : Bool) (t : List Char) :
    (piecesAfter specifier opened t).countP Piece.isMark ≤ marks t := by
  have hcons : ∀ c t, marks (c :: t) = (if isMark c then 1 else 0) + marks t := fun c t => by
    rw [← List.singleton_append, marks_append, marks_singleton]
  have hpercent : (Piece.char '%').isMark = false := rfl
  have hchar : ∀ c, (Piece.char c).isMark = isMark c := fun _ => rfl
  induction t generalizing opened with
  | nil => cases opened <;> exact Nat.le_refl 0
  | cons c t ih =>
    have := ih false
    rw [hcons]
    cases opened with
    | true =>
      rw [piecesAfter, List.countP_append]
      have hpiece : (if c = '%' then [Piece.char '%'] else if specifier c then [.specifier c]
          else [.char '%', .char c]).countP Piece.isMark ≤ if isMark c then 1 else 0 := by
        split
        · simp [hpercent]
        split
        · exact Nat.zero_le _
        · simp [List.countP_cons, hpercent, hchar]
      omega
    | false =>
      rw [piecesAfter]
      split
      · exact (ih true).trans (Nat.le_add_left _ _)
      · rw [List.countP_cons, hchar]
        omega

theorem pieces_marks {specifier : Char → Bool} :
    (pieces specifier t).countP Piece.isMark ≤ marks t := piecesAfter_marks false t

def weight (ws : List (List Char)) : Nat := (ws.map marks).sum

theorem weight_append (us ws : List (List Char)) : weight (us ++ ws) = weight us + weight ws := by
  simp [weight]

theorem weight_toList (cur : Option (List Char)) : weight cur.toList = marks (cur.getD []) := by
  cases cur <;> simp [weight, marks]

/-- **The words of a line have no more marks than the line has backslashes.** -/
theorem scan_marks {m : Mode} {k : Nat} {q : Option Char} {cur : Option (List Char)}
    (hline : Unbroken t) (h : scan m k q cur t = some ws) :
    weight ws ≤ marks (cur.getD []) + slashes (t.drop k) := by
  induction t generalizing m k q cur ws with
  | nil =>
    rw [scan] at h
    split at h
    · cases h
      rw [weight_toList]
      exact Nat.le_add_right _ _
    · cases h
  | cons c t ih =>
    obtain ⟨hc, hrest⟩ := List.forall_mem_cons.1 hline
    rcases k with _ | k
    · rw [List.drop_zero]
      have hskip : slashes t ≤ slashes (c :: t) := by rw [slashes_cons]; omega
      cases reads_of_scan h with
      | space _ hws =>
        have := ih hrest hws
        rw [Option.getD_none, List.drop_zero, marks_nil] at this
        rw [weight_append, weight_toList]
        omega
      | opens _ h | closes h =>
        have := ih hrest h
        rw [Option.getD_some, List.drop_zero] at this
        omega
      -- the backslash is there for the mark that the escape may stand for
      | @escape _ _ _ d n _ _ _ h =>
        have hle := ih hrest h
        have hdrop : slashes (t.drop n) ≤ slashes t := (List.drop_sublist n t).count_le _
        have hmark : marks [d] ≤ 1 := by rw [marks_singleton]; split <;> omega
        rw [Option.getD_some, marks_append] at hle
        rw [slashes_cons, if_pos rfl]
        omega
      | char hslash _ _ h =>
        have hle := ih hrest h
        have hzero : marks [c] = 0 := by
          rw [marks_singleton, if_neg]
          simp [isMark, hslash, hc]
        rw [Option.getD_some, marks_append, hzero, List.drop_zero] at hle
        omega
    · exact ih hrest (show scan m k q cur t = some ws from h)

end UnitFile
