import Duende.Search

/-!
# Searching in rendered JSON

A value is rendered with any text `sp` after each colon. The rendering is a sequence of
cells: an optional key, an optional scalar, and a character that ends the cell. A pattern
with none of these characters is found within a cell, and one with a quotation mark after a
letter at the end of a key or of a string (`Cell.closing`).
-/

namespace Json

open Duende (Text contains after)

/-! ## Values -/

/-- A text in which every quotation mark follows a backslash. -/
def Escaped (s : Text) : Prop := ∀ p r, s = p ++ '"' :: r → p.getLast? = some '\\'

/-- How the characters of a string are written. -/
structure Escaping where
  char : Char → Text
  escaped : ∀ c, Escaped (char c)

/-- The text of a string, without the quotation marks around it. -/
def Escaping.body (e : Escaping) (s : Text) : Text := s.flatMap e.char

def hexDigit (n : Nat) : Char := if n < 10 then Char.ofNat (48 + n) else Char.ofNat (87 + n)

/-- Quotation marks, backslashes and control characters are escaped. -/
def standardChar (c : Char) : Text :=
  if c = '"' then ['\\', '"']
  else if c = '\\' then ['\\', '\\']
  else if c.toNat < 32 then
    ['\\', 'u', '0', '0', hexDigit (c.toNat / 16), hexDigit (c.toNat % 16)]
  else [c]

theorem escaped_of_not_mem {s : Text} (h : '"' ∉ s) : Escaped s := by
  rintro p r rfl
  exact absurd (List.mem_append_right p List.mem_cons_self) h

theorem escaped_standardChar (c : Char) : Escaped (standardChar c) := by
  unfold standardChar
  split
  · intro p r h
    rcases p with _ | ⟨a, _ | ⟨b, _ | ⟨d, p⟩⟩⟩
    · cases h
    · obtain ⟨rfl, -⟩ := List.cons.inj h
      rfl
    · cases h
    · cases h
  · rename_i hquote
    split
    · exact escaped_of_not_mem (by decide)
    · split
      · rename_i hsmall
        have hhex : ∀ n < 16, hexDigit n ≠ '"' := by decide
        refine escaped_of_not_mem fun hmem => ?_
        simp only [List.mem_cons, List.not_mem_nil, or_false] at hmem
        rcases hmem with h | h | h | h | h | h
        · cases h
        · cases h
        · cases h
        · cases h
        · exact hhex _ (by omega) h.symm
        · exact hhex _ (by omega) h.symm
      · exact escaped_of_not_mem fun hmem => hquote (List.mem_singleton.1 hmem).symm

def Escaping.standard : Escaping := ⟨standardChar, escaped_standardChar⟩

def isNumeric (c : Char) : Bool :=
  c.isDigit || c == '-' || c == '+' || c == '.' || c == 'e' || c == 'E'

/-- A number, as it is written. -/
structure Number where
  text : Text
  numeric : text.all isNumeric = true
  deriving DecidableEq

inductive Scalar where
  | null
  | bool (b : Bool)
  | number (n : Number)
  | string (s : Text)
  deriving DecidableEq

inductive Value where
  | scalar (a : Scalar)
  | array (vs : List Value)
  | object (ms : List (Text × Value))

def quoted (e : Escaping) (s : Text) : Text := '"' :: (e.body s ++ ['"'])

def Scalar.text (e : Escaping) : Scalar → Text
  | null => "null".toList
  | bool true => "true".toList
  | bool false => "false".toList
  | number n => n.text
  | string s => quoted e s

mutual

def render (e : Escaping) (sp : Text) : Value → Text
  | .scalar a => a.text e
  | .array vs => '[' :: renderElements e sp vs
  | .object ms => '{' :: renderMembers e sp ms

def renderElements (e : Escaping) (sp : Text) : List Value → Text
  | [] => [']']
  | [v] => render e sp v ++ [']']
  | v :: w :: vs => render e sp v ++ ',' :: renderElements e sp (w :: vs)

def renderMembers (e : Escaping) (sp : Text) : List (Text × Value) → Text
  | [] => ['}']
  | [(k, v)] => quoted e k ++ ':' :: (sp ++ render e sp v) ++ ['}']
  | (k, v) :: m :: ms =>
    quoted e k ++ ':' :: (sp ++ render e sp v) ++ ',' :: renderMembers e sp (m :: ms)

end

/-! ## Cells -/

/-- The characters between keys and scalars. -/
inductive Stop where
  | comma
  | openArray
  | closeArray
  | openObject
  | closeObject
  deriving DecidableEq

def Stop.char : Stop → Char
  | comma => ','
  | openArray => '['
  | closeArray => ']'
  | openObject => '{'
  | closeObject => '}'

/-- A stretch of a rendering: a key, a scalar, and the character that ends it. -/
structure Cell where
  key : Option Text
  value : Option Scalar
  stop : Stop
  deriving DecidableEq

namespace Cell

def keyText (e : Escaping) (sp : Text) (c : Cell) : Text :=
  match c.key with
  | some k => quoted e k ++ ':' :: sp
  | none => []

def valueText (e : Escaping) (c : Cell) : Text :=
  match c.value with
  | some a => a.text e
  | none => []

def body (e : Escaping) (sp : Text) (c : Cell) : Text := c.keyText e sp ++ c.valueText e

def text (e : Escaping) (sp : Text) (c : Cell) : Text := c.body e sp ++ [c.stop.char]

end Cell

mutual

/-- The cells of a value with an optional key before it and a character after it. -/
def cells (key : Option Text) (stop : Stop) : Value → List Cell
  | .scalar a => [⟨key, some a, stop⟩]
  | .array vs => ⟨key, none, .openArray⟩ :: (elementCells vs ++ [⟨none, none, stop⟩])
  | .object ms => ⟨key, none, .openObject⟩ :: (memberCells ms ++ [⟨none, none, stop⟩])

def elementCells : List Value → List Cell
  | [] => [⟨none, none, .closeArray⟩]
  | [v] => cells none .closeArray v
  | v :: w :: vs => cells none .comma v ++ elementCells (w :: vs)

def memberCells : List (Text × Value) → List Cell
  | [] => [⟨none, none, .closeObject⟩]
  | [(k, v)] => cells (some k) .closeObject v
  | (k, v) :: m :: ms => cells (some k) .comma v ++ memberCells (m :: ms)

end

def objectCells (ms : List (Text × Value)) : List Cell :=
  ⟨none, none, .openObject⟩ :: memberCells ms

variable {e : Escaping} {sp : Text}

mutual

theorem flatMap_cells (key : Option Text) (stop : Stop) : ∀ v : Value,
    (cells key stop v).flatMap (Cell.text e sp) =
      Cell.keyText e sp ⟨key, none, stop⟩ ++ render e sp v ++ [stop.char]
  | .scalar a => by
    rw [cells, render, List.flatMap_singleton]
    rfl
  | .array vs => by
    rw [cells, render, List.flatMap_cons, List.flatMap_append, flatMap_elementCells vs]
    simp [Cell.text, Cell.body, Cell.valueText, Cell.keyText, Stop.char]
  | .object ms => by
    rw [cells, render, List.flatMap_cons, List.flatMap_append, flatMap_memberCells ms]
    simp [Cell.text, Cell.body, Cell.valueText, Cell.keyText, Stop.char]

theorem flatMap_elementCells : ∀ vs : List Value,
    (elementCells vs).flatMap (Cell.text e sp) = renderElements e sp vs
  | [] => rfl
  | [v] => by
    rw [elementCells, renderElements, flatMap_cells none .closeArray v]
    rfl
  | v :: w :: vs => by
    rw [elementCells, renderElements, List.flatMap_append, flatMap_cells none .comma v,
      flatMap_elementCells (w :: vs), List.append_assoc]
    rfl

theorem flatMap_memberCells : ∀ ms : List (Text × Value),
    (memberCells ms).flatMap (Cell.text e sp) = renderMembers e sp ms
  | [] => rfl
  | [(k, v)] => by
    rw [memberCells, renderMembers, flatMap_cells (some k) .closeObject v]
    simp [Cell.keyText, Stop.char]
  | (k, v) :: m :: ms => by
    rw [memberCells, renderMembers, List.flatMap_append, flatMap_cells (some k) .comma v,
      flatMap_memberCells (m :: ms)]
    simp [Cell.keyText, Stop.char]

end

theorem render_object (ms : List (Text × Value)) :
    render e sp (.object ms) = (objectCells ms).flatMap (Cell.text e sp) := by
  rw [render, objectCells, List.flatMap_cons, flatMap_memberCells]
  rfl

/-! ## Quotation marks -/

theorem Escaped.append {s t : Text} (hs : Escaped s) (ht : Escaped t) : Escaped (s ++ t) := by
  intro p r h
  rcases List.append_eq_append_iff.1 h with ⟨p', rfl, hp'⟩ | ⟨r', rfl, hr'⟩
  · rw [List.getLast?_append, ht p' r hp']
    rfl
  · cases r' with
    | nil =>
      -- the quotation mark would be the first character of `t`
      have := ht [] r hr'.symm
      cases this
    | cons c r' =>
      obtain ⟨rfl, -⟩ := List.cons.inj hr'
      exact hs p r' rfl

theorem escaped_body (s : Text) : Escaped (e.body s) := by
  induction s with
  | nil =>
    intro p r h
    cases p <;> cases h
  | cons c s ih => exact (e.escaped c).append ih

theorem append_quote {p t l r : Text} (hp : '"' ∉ p) (h : p ++ t = l ++ '"' :: r) :
    ∃ m, l = p ++ m ∧ t = m ++ '"' :: r := by
  rcases List.append_eq_append_iff.1 h with ⟨m, hl, ht⟩ | ⟨m, rfl, hr⟩
  · exact ⟨m, hl, ht⟩
  · cases m with
    | nil => exact ⟨[], by simp, hr.symm⟩
    | cons c m =>
      obtain ⟨rfl, -⟩ := List.cons.inj hr
      exact absurd (List.mem_append_right l List.mem_cons_self) hp

variable {s l r t : Text} {x : Char} {c : Cell}

theorem quoted_split (h : quoted e s ++ t = l ++ '"' :: r) (hx : l.getLast? = some x)
    (ha : x.isAlpha = true) : (l = '"' :: e.body s ∧ r = t) ∨
      ∃ m, l = quoted e s ++ m ∧ t = m ++ '"' :: r := by
  have hne : x ≠ '"' := by rintro rfl; cases ha
  have hback : x ≠ '\\' := by rintro rfl; cases ha
  rw [show quoted e s ++ t = ('"' :: e.body s) ++ '"' :: t by simp [quoted]] at h
  rcases List.append_eq_append_iff.1 h with ⟨m, rfl, hm⟩ | ⟨m, hl, hm⟩
  · cases m with
    | nil => exact .inl ⟨by simp, (List.cons.inj hm).2.symm⟩
    | cons c m =>
      obtain ⟨rfl, rfl⟩ := List.cons.inj hm
      exact .inr ⟨m, by simp [quoted], rfl⟩
  · cases m with
    | nil => exact .inl ⟨by simpa using hl.symm, (List.cons.inj hm).2⟩
    | cons c m =>
      obtain ⟨rfl, rfl⟩ := List.cons.inj hm
      -- a quotation mark inside the string follows a backslash
      cases l with
      | nil => cases hx
      | cons c l =>
        obtain ⟨rfl, hbody⟩ := List.cons.inj hl
        have hlast := escaped_body s l m hbody
        rw [List.getLast?_cons, hlast] at hx
        exact absurd (Option.some.inj hx).symm hback

theorem Scalar.quote_not_mem {a : Scalar} (h : ∀ s, a ≠ .string s) : '"' ∉ a.text e := by
  cases a with
  | null =>
    show '"' ∉ "null".toList
    decide
  | bool b =>
    cases b with
    | true =>
      show '"' ∉ "true".toList
      decide
    | false =>
      show '"' ∉ "false".toList
      decide
  | number n =>
    intro hmem
    exact Bool.false_ne_true (List.all_eq_true.1 n.numeric _ hmem)
  | string s => exact absurd rfl (h s)

theorem value_closing (h : c.valueText e = l ++ '"' :: r) (hx : l.getLast? = some x)
    (ha : x.isAlpha = true) :
    ∃ s, c.value = some (.string s) ∧ l = '"' :: e.body s ∧ r = [] := by
  have hmem : '"' ∈ c.valueText e := h ▸ List.mem_append_right l List.mem_cons_self
  unfold Cell.valueText at h hmem
  cases hv : c.value with
  | none =>
    rw [hv] at hmem
    cases hmem
  | some a =>
    simp only [hv] at h hmem
    obtain ⟨s, rfl⟩ : ∃ s, a = .string s := by
      by_contra hne
      exact Scalar.quote_not_mem (fun s hs => hne ⟨s, hs⟩) hmem
    have hs : quoted e s ++ [] = l ++ '"' :: r := by rw [List.append_nil]; exact h
    rcases quoted_split hs hx ha with ⟨hl, hr⟩ | ⟨m, -, hm⟩
    · exact ⟨s, rfl, hl, hr⟩
    · cases m <;> cases hm

def Spaces (sp : Text) : Prop := ∀ c ∈ sp, c = ' '

theorem spaces_nil : Spaces [] := fun _ h => nomatch h

theorem spaces_one : Spaces [' '] := fun _ h => List.mem_singleton.1 h

/-- **A quotation mark after a letter** ends the key of the cell, or its string. -/
theorem Cell.closing (hsp : Spaces sp) (h : c.body e sp = l ++ '"' :: r)
    (hx : l.getLast? = some x) (ha : x.isAlpha = true) :
    (∃ k, c.key = some k ∧ l = '"' :: e.body k ∧ r = ':' :: (sp ++ c.valueText e)) ∨
      ∃ s, c.value = some (.string s) ∧ l = c.keyText e sp ++ '"' :: e.body s ∧ r = [] := by
  unfold Cell.body at h
  cases hk : c.key with
  | none =>
    have hkey : c.keyText e sp = [] := by unfold Cell.keyText; rw [hk]
    rw [hkey, List.nil_append] at h
    obtain ⟨s, hv, hl, hr⟩ := value_closing h hx ha
    exact .inr ⟨s, hv, by rw [hkey, hl]; rfl, hr⟩
  | some k =>
    have hkey : c.keyText e sp = quoted e k ++ ':' :: sp := by unfold Cell.keyText; rw [hk]
    rw [hkey, List.append_assoc] at h
    rcases quoted_split h hx ha with ⟨hl, hr⟩ | ⟨m, hl, hm⟩
    · exact .inl ⟨k, rfl, hl, hr⟩
    · have hquote : '"' ∉ ':' :: sp := by
        intro hmem
        rcases List.mem_cons.1 hmem with hc | hc
        · cases hc
        · cases hsp _ hc
      obtain ⟨m', rfl, hvalue⟩ := append_quote hquote hm
      cases hlast : m'.getLast? with
      | some y =>
        have hy : l.getLast? = some y := by
          rw [hl, List.getLast?_append, List.getLast?_append, hlast]
          rfl
        obtain rfl := Option.some.inj (hx.symm.trans hy)
        obtain ⟨s, hv, hm', hr⟩ := value_closing hvalue hlast ha
        exact .inr ⟨s, hv, by rw [hl, hm', hkey]; simp, hr⟩
      | none =>
        -- the quotation mark that opens a string follows the colon or a space
        rw [List.getLast?_eq_none_iff.1 hlast, List.append_nil] at hl
        have hcolon : x ∈ ':' :: sp := by
          rw [hl, List.getLast?_append] at hx
          cases hsp' : (':' :: sp).getLast? with
          | none => exact absurd (List.getLast?_eq_none_iff.1 hsp') (List.cons_ne_nil _ _)
          | some y =>
            rw [hsp'] at hx
            cases hx
            exact List.mem_of_getLast? hsp'
        rcases List.mem_cons.1 hcolon with rfl | hspace
        · cases ha
        · cases hsp _ hspace
          cases ha

/-! ## Patterns -/

/-- A name with letters at its end, and no quotation marks: what patterns look for. -/
structure Name (w : Text) : Prop where
  plain : '"' ∉ w
  letter : ∃ x, w.getLast? = some x ∧ x.isAlpha = true

/-- A pattern in which no cell ends. -/
def WithinCell (pat : Text) : Prop := ∀ st : Stop, st.char ∉ pat

variable {w pat q : Text} {cs : List Cell}

theorem withinCell_of_all (h : pat.all (fun c => !",[]\x7b\x7d".toList.contains c) = true) :
    WithinCell pat := by
  intro st hmem
  have := List.all_eq_true.1 h _ hmem
  cases st <;> cases this

/-- A string that is the name, or ends with a quotation mark and the name. -/
def Closes (e : Escaping) (s w : Text) : Prop := ('"' :: w) <:+ ('"' :: e.body s)

instance (e : Escaping) (s w : Text) : Decidable (Closes e s w) :=
  inferInstanceAs (Decidable (_ <:+ _))

def quotedPattern (w : Text) : Text := '"' :: (w ++ ['"'])

/-- The name in quotation marks, a colon, and what follows it. -/
def keyPattern (w q : Text) : Text := '"' :: (w ++ '"' :: ':' :: q)

namespace Cell

/-- The key of the cell closes the name. -/
def HasKey (e : Escaping) (w : Text) (c : Cell) : Prop := ∃ k, c.key = some k ∧ Closes e k w

/-- The key of the cell, or its string, closes the name. -/
def Says (e : Escaping) (w : Text) (c : Cell) : Prop :=
  c.HasKey e w ∨ ∃ s, c.value = some (.string s) ∧ Closes e s w

instance (e : Escaping) (w : Text) (c : Cell) : Decidable (c.HasKey e w) :=
  decidable_of_iff ((c.key.any fun k => decide (Closes e k w)) = true) (by
    unfold HasKey
    cases c.key <;> simp)

end Cell

theorem Name.getLast_quote (hw : Name w) (p : Text) :
    ∃ x, (p ++ '"' :: w).getLast? = some x ∧ x.isAlpha = true := by
  obtain ⟨x, hx, ha⟩ := hw.letter
  refine ⟨x, ?_, ha⟩
  rw [List.getLast?_append, List.getLast?_cons, hx]
  rfl

theorem Name.closes (hw : Name w) {p p' : Text} (h : p ++ '"' :: w = p' ++ '"' :: e.body s) :
    Closes e s w := by
  rcases List.append_eq_append_iff.1 h with ⟨m, -, hm⟩ | ⟨m, -, hm⟩
  · cases m with
    | nil =>
      rw [List.nil_append] at hm
      unfold Closes
      rw [hm]
    | cons c m =>
      obtain ⟨rfl, rfl⟩ := List.cons.inj hm
      exact absurd (List.mem_append_right m List.mem_cons_self) hw.plain
  · exact ⟨m, hm.symm⟩

theorem Cell.infix_quoted (hsp : Spaces sp) (hw : Name w) :
    quotedPattern w <:+: c.body e sp ↔ c.Says e w := by
  constructor
  · rintro ⟨p, r, h⟩
    obtain ⟨x, hx, ha⟩ := hw.getLast_quote p
    have hcut : c.body e sp = (p ++ '"' :: w) ++ '"' :: r := by
      rw [← h]
      simp [quotedPattern]
    rcases Cell.closing hsp hcut hx ha with ⟨k, hk, hl, -⟩ | ⟨s, hv, hl, -⟩
    · exact .inl ⟨k, hk, p, hl⟩
    · exact .inr ⟨s, hv, hw.closes hl⟩
  · rintro (⟨k, hk, p, hp⟩ | ⟨s, hv, p, hp⟩)
    · refine ⟨p, ':' :: (sp ++ c.valueText e), ?_⟩
      have hbody : c.body e sp = ('"' :: e.body k) ++ '"' :: ':' :: (sp ++ c.valueText e) := by
        simp [Cell.body, Cell.keyText, hk, quoted]
      rw [hbody, ← hp]
      simp [quotedPattern]
    · refine ⟨c.keyText e sp ++ p, [], ?_⟩
      have hbody : c.body e sp = c.keyText e sp ++ ('"' :: e.body s) ++ ['"'] := by
        simp [Cell.body, Cell.valueText, hv, Scalar.text, quoted]
      rw [hbody, ← hp]
      simp [quotedPattern]

theorem Cell.infix_key (hsp : Spaces sp) (hw : Name w) :
    keyPattern w q <:+: c.body e sp ↔ c.HasKey e w ∧ q <+: sp ++ c.valueText e := by
  constructor
  · rintro ⟨p, r, h⟩
    obtain ⟨x, hx, ha⟩ := hw.getLast_quote p
    have hcut : c.body e sp = (p ++ '"' :: w) ++ '"' :: ':' :: (q ++ r) := by
      rw [← h]
      simp [keyPattern]
    rcases Cell.closing hsp hcut hx ha with ⟨k, hk, hl, hr⟩ | ⟨s, -, -, hr⟩
    · exact ⟨⟨k, hk, p, hl⟩, r, (List.cons.inj hr).2⟩
    · cases hr
  · rintro ⟨⟨k, hk, p, hp⟩, r, hr⟩
    refine ⟨p, r, ?_⟩
    have hbody : c.body e sp = ('"' :: e.body k) ++ '"' :: ':' :: (sp ++ c.valueText e) := by
      simp [Cell.body, Cell.keyText, hk, quoted]
    rw [hbody, ← hp, ← hr]
    simp [keyPattern]

theorem Cell.after_key (hsp : Spaces (q ++ sp)) (hw : Name w) (h : c.HasKey e w) :
    after (keyPattern w q) (c.body e (q ++ sp)) = some (sp ++ c.valueText e) := by
  have hsome : (after (keyPattern w q) (c.body e (q ++ sp))).isSome = true := by
    rw [Duende.after_isSome, Duende.contains_iff, Cell.infix_key hsp hw]
    exact ⟨h, by rw [List.append_assoc]; exact List.prefix_append _ _⟩
  obtain ⟨r, hr⟩ := Option.isSome_iff_exists.1 hsome
  obtain ⟨p, hp⟩ := Duende.after_eq_some hr
  obtain ⟨x, hx, ha⟩ := hw.getLast_quote p
  have hcut : c.body e (q ++ sp) = (p ++ '"' :: w) ++ '"' :: ':' :: (q ++ r) := by
    rw [hp]
    simp [keyPattern]
  rcases Cell.closing hsp hcut hx ha with ⟨k, -, -, hrest⟩ | ⟨s, -, -, hrest⟩
  · have hrest := (List.cons.inj hrest).2
    rw [List.append_assoc] at hrest
    rw [hr, List.append_cancel_left hrest]
  · cases hrest

/-! ## Whole renderings -/

theorem contains_cells (hpat : WithinCell pat) (hne : pat ≠ []) :
    contains pat (cs.flatMap (Cell.text e sp)) = true ↔ ∃ c ∈ cs, pat <:+: c.body e sp := by
  induction cs with
  | nil =>
    refine iff_of_false (fun h => hne ?_) (fun ⟨c, hc, _⟩ => nomatch hc)
    exact List.infix_nil.1 (Duende.contains_iff.1 h)
  | cons c cs ih =>
    rw [List.flatMap_cons, Cell.text, List.append_assoc, List.singleton_append,
      Duende.contains_append_cons (hpat c.stop), Bool.or_eq_true, ih, Duende.contains_iff,
      List.exists_mem_cons_iff]

theorem contains_quoted (hsp : Spaces sp) (hw : Name w) (hcell : WithinCell (quotedPattern w)) :
    contains (quotedPattern w) (cs.flatMap (Cell.text e sp)) = true ↔ ∃ c ∈ cs, c.Says e w := by
  rw [contains_cells hcell (List.cons_ne_nil _ _)]
  simp only [Cell.infix_quoted hsp hw]

theorem contains_key (hsp : Spaces sp) (hw : Name w) (hcell : WithinCell (keyPattern w q)) :
    contains (keyPattern w q) (cs.flatMap (Cell.text e sp)) = true ↔
      ∃ c ∈ cs, c.HasKey e w ∧ q <+: sp ++ c.valueText e := by
  rw [contains_cells hcell (List.cons_ne_nil _ _)]
  simp only [Cell.infix_key hsp hw]

theorem after_key (q sp : Text) (hsp : Spaces (q ++ sp)) (hw : Name w)
    (hcell : WithinCell (keyPattern w q))
    (hc : cs.find? (fun c => c.HasKey e w) = some c) : ∃ rest,
    after (keyPattern w q) (cs.flatMap (Cell.text e (q ++ sp))) =
      some (sp ++ c.valueText e ++ c.stop.char :: rest) := by
  induction cs with
  | nil => cases hc
  | cons d cs ih =>
    rw [List.flatMap_cons, Cell.text, List.append_assoc, List.singleton_append,
      Duende.after_append_cons (hcell d.stop) (List.cons_ne_nil _ _)]
    rw [List.find?_cons] at hc
    by_cases hd : d.HasKey e w
    · rw [decide_eq_true hd] at hc
      cases hc
      exact ⟨_, by rw [Cell.after_key hsp hw hd]; rfl⟩
    · rw [decide_eq_false hd] at hc
      have hnone : after (keyPattern w q) (d.body e (q ++ sp)) = none := by
        rw [← Option.not_isSome_iff_eq_none, Duende.after_isSome, Duende.contains_iff,
          Cell.infix_key hsp hw]
        exact fun h => hd h.1
      rw [hnone]
      exact ih hc

/-- Nothing is found when no key closes the name, or what follows the colon is another text. -/
theorem after_key_none (hsp : Spaces sp) (hw : Name w) (hcell : WithinCell (keyPattern w q))
    (h : ∀ c ∈ cs, c.HasKey e w → ¬ q <+: sp ++ c.valueText e) :
    after (keyPattern w q) (cs.flatMap (Cell.text e sp)) = none := by
  rw [← Option.not_isSome_iff_eq_none, Duende.after_isSome, contains_key hsp hw hcell]
  rintro ⟨c, hc, hkey, hq⟩
  exact h c hc hkey hq

/-! ## Values -/

theorem Number.head {n : Number} (h : n.text.head? = some x) : isNumeric x = true :=
  List.all_eq_true.1 n.numeric x (List.mem_of_mem_head? h)

theorem Cell.head_valueText (h : (c.valueText e).head? = some x) :
    (x = 'n' ∧ c.value = some .null) ∨ (x = 't' ∧ c.value = some (.bool true)) ∨
      (x = 'f' ∧ c.value = some (.bool false)) ∨ (isNumeric x = true) ∨
      (x = '"' ∧ ∃ s, c.value = some (.string s)) := by
  unfold Cell.valueText at h
  cases hv : c.value with
  | none =>
    rw [hv] at h
    cases h
  | some a =>
    simp only [hv] at h
    cases a with
    | null =>
      obtain rfl : 'n' = x := Option.some.inj h
      exact .inl ⟨rfl, rfl⟩
    | bool b =>
      cases b with
      | true =>
        obtain rfl : 't' = x := Option.some.inj h
        exact .inr (.inl ⟨rfl, rfl⟩)
      | false =>
        obtain rfl : 'f' = x := Option.some.inj h
        exact .inr (.inr (.inl ⟨rfl, rfl⟩))
    | number n => exact .inr (.inr (.inr (.inl (Number.head h))))
    | string s =>
      obtain rfl : '"' = x := Option.some.inj h
      exact .inr (.inr (.inr (.inr ⟨rfl, s, rfl⟩)))

theorem head_of_front {s t : Text} (h : (x :: s) <+: t) : t.head? = some x := by
  obtain ⟨r, rfl⟩ := h
  rfl

theorem Cell.not_space_prefix : ¬ (' ' :: q) <+: c.valueText e := by
  intro h
  rcases Cell.head_valueText (head_of_front h) with ⟨hx, -⟩ | ⟨hx, -⟩ | ⟨hx, -⟩ | hx | ⟨hx, -⟩ <;>
    cases hx

theorem Cell.true_prefix : "true".toList <+: c.valueText e ↔ c.value = some (.bool true) := by
  constructor
  · intro h
    have hhead : (c.valueText e).head? = some 't' := head_of_front (s := "rue".toList) h
    rcases Cell.head_valueText hhead with ⟨hx, -⟩ | ⟨-, hv⟩ | ⟨hx, -⟩ | hx | ⟨hx, -⟩
    · cases hx
    · exact hv
    · cases hx
    · cases hx
    · cases hx
  · intro h
    have htext : c.valueText e = "true".toList := by unfold Cell.valueText; rw [h]; rfl
    rw [htext]

theorem Cell.quoted_prefix (hw : Name w) :
    quotedPattern w <+: c.valueText e ↔ ∃ s, c.value = some (.string s) ∧ e.body s = w := by
  constructor
  · intro h
    rcases Cell.head_valueText (head_of_front h) with ⟨hx, -⟩ | ⟨hx, -⟩ | ⟨hx, -⟩ | hx | ⟨-, s, hv⟩
    · cases hx
    · cases hx
    · cases hx
    · cases hx
    · obtain ⟨r, hr⟩ := h
      obtain ⟨x, hx, ha⟩ := hw.getLast_quote []
      have hcut : quoted e s ++ [] = ('"' :: w) ++ '"' :: r := by
        rw [List.append_nil]
        have htext : c.valueText e = quoted e s := by unfold Cell.valueText; rw [hv]; rfl
        rw [← htext, ← hr]
        simp [quotedPattern]
      rcases quoted_split hcut hx ha with ⟨hl, -⟩ | ⟨m, -, hm⟩
      · exact ⟨s, hv, (List.cons.inj hl).2.symm⟩
      · cases m <;> cases hm
  · rintro ⟨s, hv, rfl⟩
    have htext : c.valueText e = quoted e s := by unfold Cell.valueText; rw [hv]; rfl
    rw [htext]
    exact List.prefix_rfl

end Json
