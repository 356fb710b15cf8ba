import Duende.Formats.Xml

/-!
# Property lists

The XML form of property lists: what is read from one, and the writer that puts texts into it
as they are. `parse_document_iff` says that what it writes is read back exactly when every
text is literal. A property list is given by the sequence of its parts; numbers with a
fraction, dates and data are not read.
-/

namespace Plist

open Xml (Token Literal marks isSpace)

inductive Element where
  | plist
  | dict
  | array
  | key
  | string
  | integer
  | bool (b : Bool)
  deriving DecidableEq

def Element.name : Element → List Char
  | plist => "plist".toList
  | dict => "dict".toList
  | array => "array".toList
  | key => "key".toList
  | string => "string".toList
  | integer => "integer".toList
  | bool true => "true".toList
  | bool false => "false".toList

def elementOf (n : List Char) : Option Element :=
  [Element.plist, .dict, .array, .key, .string, .integer, .bool true, .bool false].find? fun e =>
    e.name = n

/-- A part of a property list. -/
inductive Item (α : Type) where
  | key (t : α)
  | string (t : α)
  | integer (n : Int)
  | bool (b : Bool)
  | dictStart
  | dictStop
  | arrayStart
  | arrayStop
  deriving DecidableEq

namespace Item

variable {α β : Type}

def map (f : α → β) : Item α → Item β
  | key t => key (f t)
  | string t => string (f t)
  | integer n => integer n
  | bool b => bool b
  | dictStart => dictStart
  | dictStop => dictStop
  | arrayStart => arrayStart
  | arrayStop => arrayStop

def texts : Item α → List α
  | key t | string t => [t]
  | _ => []

@[simp] theorem map_id (i : Item α) : i.map id = i := by cases i <;> rfl

@[simp] theorem map_map {γ : Type} (f : α → β) (g : β → γ) (i : Item α) :
    (i.map f).map g = i.map (g ∘ f) := by cases i <;> rfl

end Item

/-! ## Where a part may stand -/

/-- A place in a document: before its type, before its property list, in it before and after
its value, after it; in a dictionary before a key and before a value; in an array. -/
inductive Place where
  | start
  | declared
  | root
  | closing
  | finished
  | dict
  | value
  | array
  deriving DecidableEq

def Place.next : Place → Option Place
  | root => some closing
  | value => some dict
  | array => some array
  | _ => none

/-- How a part moves on, from a place and those to return to. -/
def Item.move {α : Type} : Item α → Place × List Place → Option (Place × List Place)
  | key _, (p, outer) => if p = .dict then some (.value, outer) else none
  | dictStart, (p, outer) => p.next.map fun q => (.dict, q :: outer)
  | arrayStart, (p, outer) => p.next.map fun q => (.array, q :: outer)
  | dictStop, (.dict, q :: outer) => some (q, outer)
  | arrayStop, (.array, q :: outer) => some (q, outer)
  | dictStop, _ | arrayStop, _ => none
  | _, (p, outer) => p.next.map fun q => (q, outer)

def moves {α : Type} (is : List (Item α)) (p : Place × List Place) :
    Option (Place × List Place) :=
  is.foldlM (fun p i => i.move p) p

theorem moves_append {α : Type} (is js : List (Item α)) (p : Place × List Place) :
    moves (is ++ js) p = (moves is p).bind (moves js) := List.foldlM_append

@[simp] theorem moves_nil {α : Type} (p : Place × List Place) :
    moves ([] : List (Item α)) p = some p := rfl

@[simp] theorem moves_cons {α : Type} (i : Item α) (is : List (Item α))
    (p : Place × List Place) : moves (i :: is) p = (i.move p).bind (moves is) := rfl

theorem moves_strings {α β : Type} (f : β → α) (xs : List β) (outer : List Place) :
    moves (xs.map fun x => .string (f x)) (.array, outer) = some (.array, outer) := by
  induction xs with
  | nil => rfl
  | cons x xs ih => exact ih

theorem moves_entries {α β : Type} (f g : β → α) (xs : List β) (outer : List Place) :
    moves (xs.flatMap fun x => [.key (f x), .string (g x)]) (.dict, outer) =
      some (.dict, outer) := by
  induction xs with
  | nil => rfl
  | cons x xs ih => exact ih

/-! ## What is read -/

def integerOf : List Char → Option Int
  | '-' :: t => if t ≠ [] ∧ t.all Char.isDigit then some (-(Nat.ofDigitChars 10 t 0)) else none
  | t => if t ≠ [] ∧ t.all Char.isDigit then some (Nat.ofDigitChars 10 t 0) else none

/-- What an element says that has only text. -/
def leafOf : Element → List Char → Option (Item (List Char))
  | .key, t => some (.key t)
  | .string, t => some (.string t)
  | .integer, t => (integerOf t).map .integer
  | .bool b, t => if t = [] then some (.bool b) else none
  | _, _ => none

/-- Between elements, or in one that has only text, of which some has been read. -/
inductive State where
  | between (p : Place × List Place)
  | inside (e : Element) (t : List Char) (p : Place × List Place)

/-- What is done with a token. -/
abbrev Next := Option (State × List (Item (List Char)))

/-- The only attribute is the version of the whole list. -/
def attributesOk (e : Element) (a : List Char) : Bool :=
  a.all isSpace ||
    (e == .plist && ["version=\"1.0\"".toList, "version=\x271.0\x27".toList].contains
      ((a.dropWhile isSpace).reverse.dropWhile isSpace).reverse)

def startOf (e : Element) (p : Place × List Place) : Next :=
  match e with
  | .plist => if p.1 = .start ∨ p.1 = .declared then some (.between (.root, p.2), []) else none
  | .dict => ((Item.dictStart : Item (List Char)).move p).map fun q => (.between q, [.dictStart])
  | .array =>
    ((Item.arrayStart : Item (List Char)).move p).map fun q => (.between q, [.arrayStart])
  | .key => if p.1 = .dict then some (.inside .key [] (.value, p.2), []) else none
  | e => p.1.next.map fun q => (.inside e [] (q, p.2), [])

def stopOf (e : Element) (p : Place × List Place) : Next :=
  match e with
  | .plist => if p.1 = .closing then some (.between (.finished, p.2), []) else none
  | .dict => ((Item.dictStop : Item (List Char)).move p).map fun q => (.between q, [.dictStop])
  | .array => ((Item.arrayStop : Item (List Char)).move p).map fun q => (.between q, [.arrayStop])
  | _ => none

def step : State → Token → Next
  | .between p, .char c => if isSpace c then some (.between p, []) else none
  | .between p, .misc => some (.between p, [])
  | .between p, .doctype => if p.1 = .start then some (.between (.declared, p.2), []) else none
  | .between p, .start n a =>
    (elementOf n).bind fun e => if attributesOk e a then startOf e p else none
  | .between p, .stop n => (elementOf n).bind fun e => stopOf e p
  | .inside e t p, .char c => some (.inside e (t ++ [c]) p, [])
  | .inside e t p, .reference c => some (.inside e (t ++ [c]) p, [])
  | .inside e t p, .cdata t' => some (.inside e (t ++ t') p, [])
  | .inside e t p, .misc => some (.inside e t p, [])
  | .inside e t p, .stop n =>
    if n = e.name then (leafOf e t).map fun i => (.between p, [i]) else none
  | _, _ => none

def State.isFinished : State → Bool
  | between p => p.1 = .finished
  | inside .. => false

def build : State → List Token → Option (List (Item (List Char)))
  | st, [] => if st.isFinished then some [] else none
  | st, tok :: ts => (step st tok).bind fun r => (build r.1 ts).map (r.2 ++ ·)

def parse (s : List Char) : Option (List (Item (List Char))) :=
  (Xml.tokens s).bind (build (.between (.start, [])))

/-! ## What is written -/

def bracket (n : List Char) : List Char := '<' :: n ++ ['>']

def integerText (n : Int) : List Char :=
  if n < 0 then '-' :: Nat.toDigits 10 n.natAbs else Nat.toDigits 10 n.natAbs

/-- An element with a text, put in as it is. -/
def leafText (e : Element) (t : List Char) : List Char :=
  bracket e.name ++ t ++ bracket ('/' :: e.name)

def Item.text : Item (List Char) → List Char
  | key t => leafText .key t
  | string t => leafText .string t
  | integer n => leafText .integer (integerText n)
  | bool b => bracket ((Element.bool b).name ++ ['/'])
  | dictStart => bracket Element.dict.name
  | dictStop => bracket ('/' :: Element.dict.name)
  | arrayStart => bracket Element.array.name
  | arrayStop => bracket ('/' :: Element.array.name)

/-- A part on a line of its own, after some spaces. -/
def line (l : Nat × Item (List Char)) : List Char :=
  List.replicate l.1 ' ' ++ l.2.text ++ ['\n']

def declaration : List Char := "<?xml version=\"1.0\" encoding=\"UTF-8\"?>".toList

def doctype : List Char :=
  "!DOCTYPE plist PUBLIC \"-//Apple//DTD PLIST 1.0//EN\" ".toList ++
    "\"http://www.apple.com/DTDs/PropertyList-1.0.dtd\">".toList

/-- What follows the document type. -/
def body (ls : List (Nat × Item (List Char))) : List Char :=
  bracket "plist version=\"1.0\"".toList ++ '\n' :: (ls.flatMap line ++
    (bracket ('/' :: Element.plist.name) ++ ['\n']))

def document (ls : List (Nat × Item (List Char))) : List Char :=
  declaration ++ '\n' :: '<' :: (doctype ++ '\n' :: body ls)

/-! ## Numbers -/

theorem mem_integerText {n : Int} {c : Char} (h : c ∈ integerText n) :
    c.isDigit = true ∨ c = '-' := by
  have hdigit : ∀ {c : Char}, c ∈ Nat.toDigits 10 n.natAbs → c.isDigit = true :=
    fun h => Nat.isDigit_of_mem_toDigits (by decide) (by decide) h
  unfold integerText at h
  split at h
  · rcases List.mem_cons.1 h with h | h
    · exact .inr h
    · exact .inl (hdigit h)
  · exact .inl (hdigit h)

theorem integerOf_integerText (n : Int) : integerOf (integerText n) = some n := by
  have hne : Nat.toDigits 10 n.natAbs ≠ [] := by simp [Nat.toDigits_ne_nil]
  have hall : (Nat.toDigits 10 n.natAbs).all Char.isDigit = true :=
    List.all_eq_true.2 fun c hc => Nat.isDigit_of_mem_toDigits (by decide) (by decide) hc
  have hval : Nat.ofDigitChars 10 (Nat.toDigits 10 n.natAbs) 0 = n.natAbs :=
    Nat.ofDigitChars_toDigits (by decide) (by decide)
  unfold integerText
  split
  · rw [integerOf, if_pos ⟨hne, hall⟩, hval]
    congr 1
    omega
  · unfold integerOf
    split
    · rename_i t ht
      rw [ht] at hall
      simp at hall
    · rw [if_pos ⟨hne, hall⟩, hval]
      congr 1
      omega

/-- The characters of the markup that is written. -/
def isFrame (c : Char) : Bool := c = '\n' || (32 ≤ c.toNat && c.toNat < 127 && !Xml.isMark c)

theorem isFrame_cases {c : Char} (h : isFrame c = true) :
    Xml.isMark c = false ∧ Xml.isChar c = true ∧ c ≠ '\r' := by
  simp only [isFrame, Bool.or_eq_true, Bool.and_eq_true, decide_eq_true_eq,
    Bool.not_eq_true'] at h
  rcases h with rfl | ⟨⟨hlo, hhi⟩, hm⟩
  · decide
  · have hne : ∀ {x : Char}, ¬ (32 ≤ x.toNat ∧ x.toNat < 127) → c ≠ x :=
      fun hx hc => hx (hc ▸ ⟨hlo, hhi⟩)
    refine ⟨hm, ?_, hne (by decide)⟩
    simp [Xml.isChar, hlo, hne (x := '\uFFFE') (by decide), hne (x := '\uFFFF') (by decide)]

theorem isFrame_of_isDigit {c : Char} (h : c.isDigit = true) : isFrame c = true := by
  have hrange : 48 ≤ c.toNat ∧ c.toNat ≤ 57 := by
    simp only [Char.isDigit, Bool.and_eq_true, decide_eq_true_eq, ge_iff_le,
      UInt32.le_iff_toNat_le] at h
    exact h
  have hm : Xml.isMark c = false := by
    rw [Bool.eq_false_iff]
    intro hm
    simp only [Xml.isMark, Bool.or_eq_true, decide_eq_true_eq] at hm
    rcases hm with (((rfl | rfl) | rfl) | rfl) | rfl <;> revert h <;> decide
  have hlo : 32 ≤ c.toNat := by omega
  have hhi : c.toNat < 127 := by omega
  simp [isFrame, hm, hlo, hhi]

theorem marks_digits {t : List Char} (h : t.all Char.isDigit = true) : marks t = 0 :=
  List.countP_eq_zero.2 fun c hc hm => by
    rw [(isFrame_cases (isFrame_of_isDigit (List.all_eq_true.1 h c hc))).1] at hm
    cases hm

theorem marks_of_integerOf {t : List Char} {n : Int} (h : integerOf t = some n) :
    marks t = 0 := by
  unfold integerOf at h
  split at h
  · split at h
    · rename_i hd
      rw [Xml.marks_cons, marks_digits hd.2]
      rfl
    · cases h
  · split at h
    · rename_i hd; exact marks_digits hd.2
    · cases h

/-! ## What is read is said -/

/-- The text read so far of an element that has only text. -/
def State.pending : State → List Char
  | between _ => []
  | inside _ t _ => t

/-- The marks in the texts of a property list. -/
def said (is : List (Item (List Char))) : Nat := (is.map fun i => (i.texts.map marks).sum).sum

@[simp] theorem said_nil : said [] = 0 := rfl

@[simp] theorem said_append (is js : List (Item (List Char))) :
    said (is ++ js) = said is + said js := by simp [said]

theorem leafOf_texts {e : Element} {t : List Char} {i : Item (List Char)}
    (h : leafOf e t = some i) : i.texts = [t] ∨ i.texts = [] ∧ marks t = 0 := by
  cases e with
  | key => cases h; exact .inl rfl
  | string => cases h; exact .inl rfl
  | integer =>
    obtain ⟨n, hn, rfl⟩ := Option.map_eq_some_iff.1 h
    exact .inr ⟨rfl, marks_of_integerOf hn⟩
  | bool b =>
    rw [leafOf] at h
    split at h
    · rename_i ht
      cases h
      exact .inr ⟨rfl, by rw [ht]; rfl⟩
    · cases h
  | plist | dict | array => cases h

theorem startOf_pending {e : Element} {p : Place × List Place} {st : State}
    {out : List (Item (List Char))} (h : startOf e p = some (st, out)) :
    st.pending = [] ∧ out.flatMap Item.texts = [] := by
  unfold startOf at h
  split at h
  · split at h <;> cases h
    exact ⟨rfl, rfl⟩
  · obtain ⟨q, -, h⟩ := Option.map_eq_some_iff.1 h
    cases h
    exact ⟨rfl, rfl⟩
  · obtain ⟨q, -, h⟩ := Option.map_eq_some_iff.1 h
    cases h
    exact ⟨rfl, rfl⟩
  · split at h <;> cases h
    exact ⟨rfl, rfl⟩
  · obtain ⟨q, -, h⟩ := Option.map_eq_some_iff.1 h
    cases h
    exact ⟨rfl, rfl⟩

theorem stopOf_pending {e : Element} {p : Place × List Place} {st : State}
    {out : List (Item (List Char))} (h : stopOf e p = some (st, out)) :
    st.pending = [] ∧ out.flatMap Item.texts = [] := by
  unfold stopOf at h
  split at h
  · split at h <;> cases h
    exact ⟨rfl, rfl⟩
  · obtain ⟨q, -, h⟩ := Option.map_eq_some_iff.1 h
    cases h
    exact ⟨rfl, rfl⟩
  · obtain ⟨q, -, h⟩ := Option.map_eq_some_iff.1 h
    cases h
    exact ⟨rfl, rfl⟩
  · cases h

/-- A token says nothing, is added to the text of an element, or ends that text. -/
theorem step_cases {st st' : State} {tok : Token} {out : List (Item (List Char))}
    (h : step st tok = some (st', out)) :
    (st'.pending = st.pending ∧ out.flatMap Item.texts = [] ∧ marks tok.says = 0 ∧
      (st.pending = [] ∨ tok.isSpecial = true)) ∨
    (st'.pending = st.pending ++ tok.says ∧ out = [] ∧
      (tok.isSpecial = true ∨ tok.says.map Token.char = [tok])) ∨
    (∃ i, st'.pending = [] ∧ out = [i] ∧ tok.says = [] ∧
      (i.texts = [st.pending] ∨ i.texts = [] ∧ marks st.pending = 0)) := by
  cases st with
  | between p =>
    left
    cases tok with
    | char c =>
      rw [step] at h
      split at h
      · rename_i hc
        cases h
        refine ⟨rfl, rfl, List.countP_eq_zero.2 fun x hx hm => ?_, .inl rfl⟩
        rw [List.mem_singleton.1 hx] at hm
        simp only [isSpace, Bool.or_eq_true, decide_eq_true_eq] at hc
        rcases hc with ((rfl | rfl) | rfl) | rfl <;> revert hm <;> decide
      · cases h
    | misc => cases h; exact ⟨rfl, rfl, rfl, .inl rfl⟩
    | doctype =>
      rw [step] at h
      split at h <;> cases h
      exact ⟨rfl, rfl, rfl, .inl rfl⟩
    | start n a =>
      obtain ⟨e, -, h⟩ := Option.bind_eq_some_iff.1 h
      split at h
      · exact ⟨(startOf_pending h).1, (startOf_pending h).2, rfl, .inl rfl⟩
      · cases h
    | stop n =>
      obtain ⟨e, -, h⟩ := Option.bind_eq_some_iff.1 h
      exact ⟨(stopOf_pending h).1, (stopOf_pending h).2, rfl, .inl rfl⟩
    | reference c => cases h
    | cdata t => cases h
  | inside e t p =>
    cases tok with
    | char c => cases h; exact .inr (.inl ⟨rfl, rfl, .inr rfl⟩)
    | reference c => cases h; exact .inr (.inl ⟨rfl, rfl, .inl rfl⟩)
    | cdata t' => cases h; exact .inr (.inl ⟨rfl, rfl, .inl rfl⟩)
    | misc => cases h; exact .inl ⟨rfl, rfl, rfl, .inr rfl⟩
    | stop n =>
      rw [step] at h
      split at h
      · obtain ⟨i, hi, h⟩ := Option.map_eq_some_iff.1 h
        cases h
        exact .inr (.inr ⟨i, rfl, rfl, rfl, leafOf_texts hi⟩)
      · cases h
    | doctype => cases h
    | start n a => cases h

theorem said_of_texts {is : List (Item (List Char))} (h : is.flatMap Item.texts = []) :
    said is = 0 := by
  rw [List.flatMap_eq_nil_iff] at h
  unfold said
  rw [List.sum_eq_zero]
  intro n hn
  obtain ⟨i, hi, rfl⟩ := List.mem_map.1 hn
  rw [h i hi]
  rfl

theorem build_nil {st : State} {is : List (Item (List Char))} (h : build st [] = some is) :
    st.pending = [] ∧ is = [] := by
  rw [build] at h
  cases st with
  | between p => split at h <;> cases h; exact ⟨rfl, rfl⟩
  | inside e t p => cases h

/-- **The texts of a property list have the marks that its document says.** -/
theorem build_said {ts : List Token} : ∀ {st : State} {is : List (Item (List Char))},
    build st ts = some is →
      said is = marks st.pending + (ts.map fun tok => marks tok.says).sum := by
  induction ts with
  | nil =>
    intro st is h
    obtain ⟨hp, rfl⟩ := build_nil h
    rw [hp]
    rfl
  | cons tok ts ih =>
    intro st is h
    rw [build] at h
    obtain ⟨⟨st', out⟩, hstep, h⟩ := Option.bind_eq_some_iff.1 h
    obtain ⟨is', his, rfl⟩ := Option.map_eq_some_iff.1 h
    have hrest := ih his
    rw [said_append, hrest, List.map_cons, List.sum_cons]
    rcases step_cases hstep with ⟨hp, hout, hs, -⟩ | ⟨hp, rfl, -⟩ | ⟨i, hp, rfl, hs, hi⟩
    · have hzero : said out = 0 := said_of_texts hout
      rw [hp]
      show said out + _ = _
      omega
    · rw [hp, Xml.marks_append]
      show 0 + _ = _
      omega
    · have hsaid : said [i] = marks st.pending := by
        rcases hi with hi | ⟨hi, hz⟩ <;> simp [said, *]
      rw [hp, hs]
      show said [i] + _ = _
      simp only [Xml.marks_nil]
      omega

/-- With no special token, a text stands in the document as it is. -/
theorem build_infix {ts : List Token} (hts : ∀ tok ∈ ts, tok.isSpecial = false) :
    ∀ {st : State} {is : List (Item (List Char))}, build st ts = some is →
      ∀ i ∈ is, ∀ t ∈ i.texts, t.map Token.char <:+: st.pending.map Token.char ++ ts := by
  induction ts with
  | nil =>
    intro st is h i hi
    rw [(build_nil h).2] at hi
    cases hi
  | cons tok ts ih =>
    intro st is h i hi t ht
    have hplain : tok.isSpecial = false := hts tok List.mem_cons_self
    rw [build] at h
    obtain ⟨⟨st', out⟩, hstep, h⟩ := Option.bind_eq_some_iff.1 h
    obtain ⟨is', his, rfl⟩ := Option.map_eq_some_iff.1 h
    have hrest : ∀ i ∈ is', ∀ t ∈ i.texts,
        t.map Token.char <:+: st'.pending.map Token.char ++ ts :=
      ih (fun tok htok => hts tok (List.mem_cons_of_mem _ htok)) his
    have hlater : st'.pending = [] → i ∈ is' →
        t.map Token.char <:+: st.pending.map Token.char ++ tok :: ts := fun hp hi => by
      have := hrest i hi t ht
      rw [hp, List.map_nil, List.nil_append] at this
      exact this.trans ⟨st.pending.map Token.char ++ [tok], [], by simp⟩
    rcases step_cases hstep with ⟨hp, hout, -, hnil⟩ | ⟨hp, rfl, htok⟩ | ⟨j, hp, rfl, -, hj⟩
    · have hnil : st.pending = [] := hnil.resolve_right (by simp [hplain])
      rcases List.mem_append.1 hi with hi | hi
      · rw [List.flatMap_eq_nil_iff.1 hout i hi] at ht
        cases ht
      · exact hlater (hp.trans hnil) hi
    · have htok : tok.says.map Token.char = [tok] := htok.resolve_left (by simp [hplain])
      have := hrest i hi t ht
      rw [hp, List.map_append, htok, List.append_assoc] at this
      exact this
    · rcases List.mem_append.1 hi with hi | hi
      · obtain rfl : i = j := List.mem_singleton.1 hi
        rcases hj with hj | ⟨hj, -⟩
        · rw [hj, List.mem_singleton] at ht
          rw [ht]
          exact ⟨[], tok :: ts, rfl⟩
        · rw [hj] at ht
          cases ht
      · exact hlater hp hi

/-! ## What is written is read -/

def leafTokens (e : Element) (t : List Char) : List Token :=
  .start e.name [] :: (t.map Token.char ++ [.stop e.name])

def Item.tokens : Item (List Char) → List Token
  | key t => leafTokens .key t
  | string t => leafTokens .string t
  | integer n => leafTokens .integer (integerText n)
  | bool b => [.start (Element.bool b).name [], .stop (Element.bool b).name]
  | dictStart => [.start Element.dict.name []]
  | dictStop => [.stop Element.dict.name]
  | arrayStart => [.start Element.array.name []]
  | arrayStop => [.stop Element.array.name]

def lineTokens (l : Nat × Item (List Char)) : List Token :=
  List.replicate l.1 (.char ' ') ++ (l.2.tokens ++ [.char '\n'])

/-- No character of the text starts a tag or a reference. -/
def Plain (t : List Char) : Prop := ∀ c ∈ t, c ≠ '<' ∧ c ≠ '&'

theorem plain_integerText (n : Int) : Plain (integerText n) := fun c hc => by
  rcases mem_integerText hc with h | rfl
  · constructor <;> rintro rfl <;> revert h <;> decide
  · decide

theorem scan_start (e : Element) (s : List Char) :
    Xml.scan 0 (bracket e.name ++ s) = (Xml.scan 0 s).map ([.start e.name []] ++ ·) := by
  have h : Xml.markup ((e.name ++ ['>']) ++ s) =
      some ([.start e.name []], (e.name ++ ['>']).length) := by
    cases e with
    | bool b => cases b <;> rfl
    | plist | dict | array | key | string | integer => rfl
  exact Xml.scan_markup s h

theorem scan_stop (e : Element) (s : List Char) :
    Xml.scan 0 (bracket ('/' :: e.name) ++ s) = (Xml.scan 0 s).map ([.stop e.name] ++ ·) := by
  have h : Xml.markup (('/' :: e.name ++ ['>']) ++ s) =
      some ([.stop e.name], ('/' :: e.name ++ ['>']).length) := by
    cases e with
    | bool b => cases b <;> rfl
    | plist | dict | array | key | string | integer => rfl
  exact Xml.scan_markup s h

theorem scan_leaf (e : Element) {t : List Char} (ht : Plain t) (s : List Char) :
    Xml.scan 0 (leafText e t ++ s) = (Xml.scan 0 s).map (leafTokens e t ++ ·) := by
  rw [leafText, List.append_assoc, List.append_assoc, scan_start, Xml.scan_text _ ht, scan_stop,
    Option.map_map, Option.map_map]
  congr 1
  funext ts
  simp [leafTokens]

theorem scan_item {i : Item (List Char)} (hi : ∀ t ∈ i.texts, Plain t) (s : List Char) :
    Xml.scan 0 (i.text ++ s) = (Xml.scan 0 s).map (i.tokens ++ ·) := by
  cases i with
  | key t => exact scan_leaf _ (hi t List.mem_cons_self) s
  | string t => exact scan_leaf _ (hi t List.mem_cons_self) s
  | integer n => exact scan_leaf _ (plain_integerText n) s
  | bool b =>
    have h : Xml.markup (((Element.bool b).name ++ ['/'] ++ ['>']) ++ s) =
        some ([.start (Element.bool b).name [], .stop (Element.bool b).name],
          ((Element.bool b).name ++ ['/'] ++ ['>']).length) := by cases b <;> rfl
    exact Xml.scan_markup s h
  | dictStart => exact scan_start .dict s
  | dictStop => exact scan_stop .dict s
  | arrayStart => exact scan_start .array s
  | arrayStop => exact scan_stop .array s

theorem scan_lines {ls : List (Nat × Item (List Char))}
    (h : ∀ l ∈ ls, ∀ t ∈ l.2.texts, Plain t) (s : List Char) :
    Xml.scan 0 (ls.flatMap line ++ s) =
      (Xml.scan 0 s).map (ls.flatMap lineTokens ++ ·) := by
  induction ls with
  | nil => simp
  | cons l ls ih =>
    have hspaces : Plain (List.replicate l.1 ' ') := fun c hc => by
      rw [(List.mem_replicate.1 hc).2]; decide
    have hnewline : Plain ['\n'] := fun c hc => by
      rw [List.mem_singleton.1 hc]; decide
    rw [List.flatMap_cons, line, List.append_assoc, List.append_assoc, List.append_assoc,
      Xml.scan_text _ hspaces, scan_item (h l List.mem_cons_self), Xml.scan_text _ hnewline,
      ih fun l' hl' => h l' (List.mem_cons_of_mem l hl')]
    simp only [Option.map_map, List.flatMap_cons, lineTokens, List.map_replicate]
    congr 1
    funext ts
    simp

theorem build_text {e : Element} {p : Place × List Place} (w : List Char) (ts : List Token) :
    ∀ t, build (.inside e t p) (w.map Token.char ++ ts) = build (.inside e (t ++ w) p) ts := by
  induction w with
  | nil => simp
  | cons c w ih =>
    intro t
    rw [List.map_cons, List.cons_append, build, step, Option.bind_some, ih]
    simp

theorem build_leaf {e : Element} {t : List Char} {i : Item (List Char)}
    {p q : Place × List Place} (hstart : startOf e p = some (.inside e [] q, []))
    (hi : leafOf e t = some i) (ts : List Token) :
    build (.between p) (leafTokens e t ++ ts) = (build (.between q) ts).map ([i] ++ ·) := by
  have he : elementOf e.name = some e := by
    cases e with
    | bool b => cases b <;> rfl
    | plist | dict | array | key | string | integer => rfl
  rw [leafTokens, List.cons_append, List.append_assoc, build, step, he, Option.bind_some,
    if_pos (by rfl), hstart, Option.bind_some, build_text, List.singleton_append, build, step,
    if_pos rfl, List.nil_append, hi]
  simp only [Option.map_some, Option.bind_some, Option.map_map]
  rfl

theorem build_item {i : Item (List Char)} {p q : Place × List Place} (hm : i.move p = some q)
    (ts : List Token) :
    build (.between p) (i.tokens ++ ts) = (build (.between q) ts).map ([i] ++ ·) := by
  obtain ⟨p, outer⟩ := p
  have hvalue : ∀ {e : Element}, e = .string ∨ e = .integer → p.next.map (·, outer) = some q →
      startOf e (p, outer) = some (.inside e [] q, []) := by
    intro e he h
    obtain ⟨r, hr, rfl⟩ := Option.map_eq_some_iff.1 h
    rcases he with rfl | rfl <;> simp [startOf, hr]
  cases i with
  | key t =>
    refine build_leaf ?_ rfl ts
    rw [Item.move] at hm
    split at hm
    · rename_i hp
      cases hm
      simp [startOf, hp]
    · cases hm
  | string t => exact build_leaf (hvalue (.inl rfl) hm) rfl ts
  | integer n =>
    refine build_leaf (hvalue (.inr rfl) hm) ?_ ts
    rw [leafOf, integerOf_integerText]
    rfl
  | bool b =>
    have hb : elementOf (Element.bool b).name = some (.bool b) := by cases b <;> rfl
    obtain ⟨r, hr, rfl⟩ := Option.map_eq_some_iff.1 hm
    rw [Item.tokens, List.cons_append, build, step, hb, Option.bind_some, if_pos (by rfl), startOf]
    · simp [hr, build, step, leafOf, Function.comp_def]
    all_goals simp
  | dictStart =>
    rw [Item.tokens, List.singleton_append, build, step, show elementOf Element.dict.name =
      some .dict from rfl, Option.bind_some, if_pos (by rfl), startOf, hm]
    simp
  | arrayStart =>
    rw [Item.tokens, List.singleton_append, build, step, show elementOf Element.array.name =
      some .array from rfl, Option.bind_some, if_pos (by rfl), startOf, hm]
    simp
  | dictStop =>
    rw [Item.tokens, List.singleton_append, build, step, show elementOf Element.dict.name =
      some .dict from rfl, Option.bind_some, stopOf, hm]
    simp
  | arrayStop =>
    rw [Item.tokens, List.singleton_append, build, step, show elementOf Element.array.name =
      some .array from rfl, Option.bind_some, stopOf, hm]
    simp

theorem build_spaces {p : Place × List Place} (n : Nat) (ts : List Token) :
    build (.between p) (List.replicate n (.char ' ') ++ ts) = build (.between p) ts := by
  induction n with
  | zero => rfl
  | succ n ih =>
    rw [List.replicate_succ, List.cons_append, build, step, if_pos (by decide), Option.bind_some,
      ih]
    simp

theorem build_lines {ls : List (Nat × Item (List Char))} {q : Place × List Place}
    (ts : List Token) : ∀ {p : Place × List Place}, moves (ls.map Prod.snd) p = some q →
      build (.between p) (ls.flatMap lineTokens ++ ts) =
        (build (.between q) ts).map (ls.map Prod.snd ++ ·) := by
  induction ls with
  | nil =>
    intro p h
    cases h
    simp
  | cons l ls ih =>
    intro p h
    obtain ⟨r, hr, h⟩ := Option.bind_eq_some_iff.1 h
    rw [List.flatMap_cons, lineTokens, List.append_assoc, List.append_assoc, List.append_assoc,
      build_spaces, build_item hr, List.singleton_append, build, step, if_pos (by decide),
      Option.bind_some, ih h]
    simp only [Option.map_map]
    congr 1

/-! ## Documents -/

/-- The end of a section, as plain characters. -/
def sectionEnd : List Token := "]]>".toList.map Token.char

theorem not_infix_cons {tok : Token} {ts : List Token} (htok : tok ∉ sectionEnd)
    (h : ¬ sectionEnd <:+: ts) : ¬ sectionEnd <:+: tok :: ts := fun hin => by
  rcases List.infix_cons_iff.1 hin with hp | hi
  · obtain ⟨r, hr⟩ := hp
    obtain rfl : Token.char ']' = tok := (List.cons.inj hr).1
    exact htok List.mem_cons_self
  · exact h hi

theorem not_infix_text {t : List Char} {tok : Token} {ts : List Token}
    (ht : ¬ "]]>".toList <:+: t) (htok : tok ∉ sectionEnd) (h : ¬ sectionEnd <:+: ts) :
    ¬ sectionEnd <:+: t.map Token.char ++ tok :: ts := fun hin => by
  rcases List.infix_append_iff_ne_nil.1 hin with hin | hin | ⟨l₁, l₂, -, hne, hl, -, hp⟩
  · obtain ⟨l, hl, heq⟩ := List.infix_map_iff.1 hin
    have hinj : l = "]]>".toList :=
      List.map_injective_iff.2 (fun a b hab => Token.char.inj hab) heq.symm
    exact ht (hinj ▸ hl)
  · exact not_infix_cons htok h hin
  · cases l₂ with
    | nil => exact hne rfl
    | cons x l₂ =>
      obtain rfl : x = tok := (List.cons_prefix_cons.1 hp).1
      exact htok (hl ▸ List.mem_append_right l₁ List.mem_cons_self)

theorem not_infix_item {i : Item (List Char)} {ts : List Token}
    (hi : ∀ t ∈ i.texts, ¬ "]]>".toList <:+: t) (h : ¬ sectionEnd <:+: ts) :
    ¬ sectionEnd <:+: i.tokens ++ ts := by
  have hstart : ∀ n a, Token.start n a ∉ sectionEnd := fun n a => by simp [sectionEnd]
  have hstop : ∀ n, Token.stop n ∉ sectionEnd := fun n => by simp [sectionEnd]
  have hleaf : ∀ (e : Element) {t : List Char}, ¬ "]]>".toList <:+: t →
      ¬ sectionEnd <:+: leafTokens e t ++ ts := by
    intro e t ht
    rw [leafTokens, List.cons_append, List.append_assoc]
    exact not_infix_cons (hstart _ _) (not_infix_text ht (hstop _) h)
  cases i with
  | key t => exact hleaf _ (hi t List.mem_cons_self)
  | string t => exact hleaf _ (hi t List.mem_cons_self)
  | integer n =>
    refine hleaf _ fun hin => ?_
    rcases mem_integerText (hin.subset (show ']' ∈ "]]>".toList by decide)) with h | h <;>
      revert h <;> decide
  | bool b => exact not_infix_cons (hstart _ _) (not_infix_cons (hstop _) h)
  | dictStart => exact not_infix_cons (hstart _ _) h
  | dictStop => exact not_infix_cons (hstop _) h
  | arrayStart => exact not_infix_cons (hstart _ _) h
  | arrayStop => exact not_infix_cons (hstop _) h

theorem not_infix_lines {ls : List (Nat × Item (List Char))} {ts : List Token}
    (hls : ∀ l ∈ ls, ∀ t ∈ l.2.texts, ¬ "]]>".toList <:+: t) (h : ¬ sectionEnd <:+: ts) :
    ¬ sectionEnd <:+: ls.flatMap lineTokens ++ ts := by
  have hspaces : ∀ (n : Nat) {ts : List Token}, ¬ sectionEnd <:+: ts →
      ¬ sectionEnd <:+: List.replicate n (Token.char ' ') ++ ts := by
    intro n ts h
    induction n with
    | zero => exact h
    | succ n ih => exact not_infix_cons (by decide) ih
  induction ls with
  | nil => exact h
  | cons l ls ih =>
    rw [List.flatMap_cons, lineTokens, List.append_assoc, List.append_assoc, List.append_assoc]
    exact hspaces _ (not_infix_item (hls l List.mem_cons_self) (not_infix_cons (by decide)
      (ih fun l' hl' => hls l' (List.mem_cons_of_mem l hl'))))

section

variable {f : Char → Bool} (hf : ∀ c, isFrame c = true → f c = false)
include hf

theorem countP_frame {t : List Char} (ht : ∀ c ∈ t, isFrame c = true) : t.countP f = 0 :=
  List.countP_eq_zero.2 fun c hc => by simp [hf c (ht c hc)]

theorem countP_start (e : Element) : (bracket e.name).countP f = 0 := by
  refine countP_frame hf ?_
  cases e with
  | bool b => cases b <;> exact List.all_eq_true.1 (by decide)
  | plist | dict | array | key | string | integer => exact List.all_eq_true.1 (by decide)

theorem countP_stop (e : Element) : (bracket ('/' :: e.name)).countP f = 0 := by
  refine countP_frame hf ?_
  cases e with
  | bool b => cases b <;> exact List.all_eq_true.1 (by decide)
  | plist | dict | array | key | string | integer => exact List.all_eq_true.1 (by decide)

theorem countP_item (i : Item (List Char)) :
    i.text.countP f = (i.texts.map (List.countP f)).sum := by
  have hleaf : ∀ (e : Element) (t : List Char), (leafText e t).countP f = t.countP f := by
    intro e t
    rw [leafText, List.countP_append, List.countP_append, countP_start hf, countP_stop hf]
    omega
  cases i with
  | key t => exact hleaf .key t
  | string t => exact hleaf .string t
  | integer n =>
    refine (hleaf .integer _).trans (countP_frame hf fun c hc => ?_)
    rcases mem_integerText hc with h | rfl
    · exact isFrame_of_isDigit h
    · decide
  | bool b =>
    refine countP_frame hf ?_
    cases b <;> exact List.all_eq_true.1 (by decide)
  | dictStart => exact countP_start hf .dict
  | dictStop => exact countP_stop hf .dict
  | arrayStart => exact countP_start hf .array
  | arrayStop => exact countP_stop hf .array

theorem countP_body (ls : List (Nat × Item (List Char))) : (body ls).countP f =
    (ls.map fun l => (l.2.texts.map (List.countP f)).sum).sum := by
  have hnewline : ['\n'].countP f = 0 := countP_frame hf (List.all_eq_true.1 (by decide))
  have hroot : (bracket "plist version=\"1.0\"".toList).countP f = 0 :=
    countP_frame hf (List.all_eq_true.1 (by decide))
  have hlines : (ls.flatMap line).countP f =
      (ls.map fun l => (l.2.texts.map (List.countP f)).sum).sum := by
    induction ls with
    | nil => rfl
    | cons l ls ih =>
      have hspaces : (List.replicate l.1 ' ').countP f = 0 :=
        countP_frame hf fun c hc => by rw [(List.mem_replicate.1 hc).2]; decide
      rw [List.flatMap_cons, line, List.countP_append, List.countP_append, List.countP_append, ih,
        countP_item hf, hspaces, hnewline]
      simp
  rw [body, List.countP_append, ← List.singleton_append, List.countP_append, List.countP_append,
    List.countP_append, hroot, hnewline, hlines, countP_stop hf]
  omega

end

theorem marks_body (ls : List (Nat × Item (List Char))) :
    marks (body ls) = said (ls.map Prod.snd) := by
  rw [marks, countP_body fun c hc => (isFrame_cases hc).1, said, List.map_map]
  rfl

theorem forall_body {ls : List (Nat × Item (List Char))} {f : Char → Bool}
    (hf : ∀ c, isFrame c = true → f c = false) :
    (∀ c ∈ body ls, f c = false) ↔ ∀ l ∈ ls, ∀ t ∈ l.2.texts, ∀ c ∈ t, f c = false := by
  have hzero := countP_body hf ls
  constructor
  · intro h l hl t ht
    have hbody : (body ls).countP f = 0 := List.countP_eq_zero.2 fun c hc => by simp [h c hc]
    rw [hbody] at hzero
    have hsum := List.sum_eq_zero_iff_forall_eq_nat.1 hzero.symm _ (List.mem_map_of_mem hl)
    have hcount := List.sum_eq_zero_iff_forall_eq_nat.1 hsum _ (List.mem_map_of_mem ht)
    exact fun c hc => by simpa using List.countP_eq_zero.1 hcount c hc
  · intro h
    have hsum : (ls.map fun l => (l.2.texts.map (List.countP f)).sum).sum = 0 := by
      refine List.sum_eq_zero fun n hn => ?_
      obtain ⟨l, hl, rfl⟩ := List.mem_map.1 hn
      refine List.sum_eq_zero fun n hn => ?_
      obtain ⟨t, ht, rfl⟩ := List.mem_map.1 hn
      exact List.countP_eq_zero.2 fun c hc => by simp [h l hl t ht c hc]
    rw [hsum] at hzero
    exact fun c hc => by simpa using List.countP_eq_zero.1 hzero c hc

/-! ## The round trip -/

/-- What is read before the list itself. -/
def prologue : List Token := [.char '\n', .doctype, .char '\n']

set_option maxRecDepth 4000 in
theorem tokens_document (ls : List (Nat × Item (List Char))) :
    Xml.tokens (document ls) =
      if (body ls).all Xml.isChar then
        (Xml.scan 0 (Xml.normalize (body ls))).bind fun ts =>
          if sectionEnd <:+: prologue ++ ts then none else some (prologue ++ ts)
      else none := by
  have hall : (document ls).all Xml.isChar = (body ls).all Xml.isChar := by
    have h1 : declaration.all Xml.isChar = true := by decide
    have h2 : doctype.all Xml.isChar = true := by decide
    have h3 : Xml.isChar '\n' = true := by decide
    have h4 : Xml.isChar '<' = true := by decide
    simp only [document, List.all_append, List.all_cons, h1, h2, h3, h4, Bool.true_and]
  have hnormal : Xml.normalize (document ls) =
      declaration ++ '\n' :: '<' :: (doctype ++ '\n' :: Xml.normalize (body ls)) := by
    rw [document, Xml.normalize_append _ (by decide), Xml.normalize_cons _ (by decide),
      Xml.normalize_cons _ (by decide), Xml.normalize_append _ (by decide),
      Xml.normalize_cons _ (by decide)]
  have hafter : ∀ s, Xml.afterDeclaration (declaration ++ s) = some s := fun s => rfl
  have hscan : ∀ s, Xml.scan 0 ('\n' :: '<' :: (doctype ++ '\n' :: s)) =
      (Xml.scan 0 s).map (prologue ++ ·) := by
    intro s
    have hm : Xml.markup (doctype ++ '\n' :: s) = some ([.doctype], doctype.length) := rfl
    rw [Xml.scan_cons _ (by decide), Xml.scan_markup _ hm, Xml.scan_cons _ (by decide),
      Option.map_map, Option.map_map]
    rfl
  unfold Xml.tokens
  rw [hall, hnormal, hafter, Option.bind_some, hscan, Option.bind_map]
  rfl

theorem scan_body {ls : List (Nat × Item (List Char))}
    (h : ∀ l ∈ ls, ∀ t ∈ l.2.texts, Plain t) :
    Xml.scan 0 (body ls) = some (.start "plist".toList " version=\"1.0\"".toList :: .char '\n' ::
      (ls.flatMap lineTokens ++ [.stop Element.plist.name, .char '\n'])) := by
  have hm : ∀ s, Xml.markup (("plist version=\"1.0\"".toList ++ ['>']) ++ s) =
      some ([.start "plist".toList " version=\"1.0\"".toList],
        ("plist version=\"1.0\"".toList ++ ['>']).length) := fun s => rfl
  have hroot : ∀ s, Xml.scan 0 (bracket "plist version=\"1.0\"".toList ++ s) =
      (Xml.scan 0 s).map ([.start "plist".toList " version=\"1.0\"".toList] ++ ·) :=
    fun s => Xml.scan_markup s (hm s)
  have hlast : Xml.scan 0 ['\n'] = some [.char '\n'] := rfl
  rw [body, hroot, Xml.scan_cons _ (by decide), scan_lines h, scan_stop, hlast]
  rfl

theorem build_prologue (ts : List Token) :
    build (.between (.start, [])) (prologue ++ ts) = build (.between (.declared, [])) ts := by
  simp [prologue, build, step, isSpace, Function.comp_def]

theorem build_body {ls : List (Nat × Item (List Char))}
    (hm : moves (ls.map Prod.snd) (.root, []) = some (.closing, [])) :
    build (.between (.declared, [])) (.start "plist".toList " version=\"1.0\"".toList ::
      .char '\n' :: (ls.flatMap lineTokens ++ [.stop Element.plist.name, .char '\n'])) =
        some (ls.map Prod.snd) := by
  have hplist : elementOf "plist".toList = some .plist := rfl
  have hversion : attributesOk .plist " version=\"1.0\"".toList = true := by decide
  have hlast : build (.between (.closing, [])) [.stop Element.plist.name, .char '\n'] =
      some [] := rfl
  rw [build, step, hplist, Option.bind_some, if_pos hversion, startOf, if_pos (.inr rfl),
    Option.bind_some, build, step, if_pos (by decide), Option.bind_some, build_lines _ hm, hlast]
  simp

theorem parse_document {ls : List (Nat × Item (List Char))}
    (hm : moves (ls.map Prod.snd) (.root, []) = some (.closing, []))
    (h : ∀ l ∈ ls, ∀ t ∈ l.2.texts, Literal t) :
    parse (document ls) = some (ls.map Prod.snd) := by
  have hchars : (body ls).all Xml.isChar = true := by
    have := (@forall_body ls (fun c => !Xml.isChar c) fun c hc => by
      simp [(isFrame_cases hc).2.1]).2 fun l hl t ht c hc => by
        simp [((h l hl t ht).chars c hc).1]
    exact List.all_eq_true.2 fun c hc => by simpa using this c hc
  have hnormal : Xml.normalize (body ls) = body ls := by
    have hr : '\r' ∉ body ls := fun hmem => by
      have := (@forall_body ls (fun c => c == '\r') fun c hc => by
        simp [(isFrame_cases hc).2.2]).2 fun l hl t ht c hc => by
          simp [((h l hl t ht).chars c hc).2.2.2]
      exact absurd (this _ hmem) (by decide)
    simpa using Xml.normalize_append [] hr
  have hscan := scan_body fun l hl t ht c hc =>
    ⟨((h l hl t ht).chars c hc).2.1, ((h l hl t ht).chars c hc).2.2.1⟩
  have hend : ¬ sectionEnd <:+: prologue ++ (.start "plist".toList " version=\"1.0\"".toList ::
      .char '\n' :: (ls.flatMap lineTokens ++ [.stop Element.plist.name, .char '\n'])) := by
    refine not_infix_cons (by decide) (not_infix_cons (by decide) (not_infix_cons (by decide)
      (not_infix_cons (by simp [sectionEnd]) (not_infix_cons (by decide)
        (not_infix_lines (fun l hl t ht => (h l hl t ht).ends) (by decide))))))
  rw [parse, tokens_document, if_pos hchars, hnormal, hscan, Option.bind_some, if_neg hend,
    Option.bind_some, build_prologue, build_body hm]

theorem literal_of_parse {ls : List (Nat × Item (List Char))}
    (h : parse (document ls) = some (ls.map Prod.snd)) :
    ∀ l ∈ ls, ∀ t ∈ l.2.texts, Literal t := by
  rw [parse, tokens_document] at h
  split at h
  · rename_i hchars
    obtain ⟨ts', hts', hbuild⟩ := Option.bind_eq_some_iff.1 h
    obtain ⟨ts, hscan, hts⟩ := Option.bind_eq_some_iff.1 hts'
    split at hts
    · cases hts
    rename_i hend
    cases hts
    rw [build_prologue] at hbuild
    -- The marks of the document are all in what it says, so no token is special.
    have hplain : ∀ tok ∈ ts, tok.isSpecial = false := by
      have hcost := Xml.scan_cost hscan
      rw [List.drop_zero, Xml.marks_normalize, marks_body, build_said hbuild] at hcost
      exact Xml.not_special_of_cost (by simpa [State.pending] using hcost)
    intro l hl t ht
    have hpart : t.map Token.char <:+: ts :=
      build_infix hplain hbuild l.2 (List.mem_map_of_mem hl) t ht
    refine ⟨fun c hc => ?_, fun hin => ?_⟩
    · obtain ⟨hmem, hlt, hamp⟩ :=
        Xml.mem_of_scan hscan (hpart.subset (List.mem_map_of_mem hc))
      obtain ⟨hr, hc⟩ := Xml.mem_normalize hmem
      refine ⟨?_, hlt, hamp, hr⟩
      rcases hc with hc | rfl
      · exact List.all_eq_true.1 hchars c hc
      · decide
    · exact hend (((hin.map Token.char).trans hpart).trans (List.infix_append' prologue ts []
        |>.trans (by simp)))
  · cases h

/-- **What is written is read back exactly when every text is literal.** -/
theorem parse_document_iff {ls : List (Nat × Item (List Char))}
    (hm : moves (ls.map Prod.snd) (.root, []) = some (.closing, [])) :
    parse (document ls) = some (ls.map Prod.snd) ↔ ∀ l ∈ ls, ∀ t ∈ l.2.texts, Literal t :=
  ⟨literal_of_parse, parse_document hm⟩

/-! ## Keys -/

section

variable {α : Type}

def strings : List (Item α) → List α
  | .string t :: is => t :: strings is
  | _ => []

@[simp] theorem strings_append (ts : List α) (is : List (Item α)) :
    strings (ts.map .string ++ is) = ts ++ strings is := by
  induction ts with
  | nil => rfl
  | cons t ts ih => exact congrArg (List.cons t) ih

variable [DecidableEq α]

/-- What follows a key of the outermost dictionary, after parts that leave `depth` lists open. -/
def after (k : α) : Nat → List (Item α) → List (Item α)
  | _, [] => []
  | depth, .key k' :: is => if depth = 1 ∧ k' = k then is else after k depth is
  | depth, .dictStart :: is | depth, .arrayStart :: is => after k (depth + 1) is
  | depth, .dictStop :: is | depth, .arrayStop :: is => after k (depth - 1) is
  | depth, .string _ :: is | depth, .integer _ :: is | depth, .bool _ :: is => after k depth is

def stringAt (k : α) (is : List (Item α)) : Option α :=
  match after k 0 is with
  | .string t :: _ => some t
  | _ => none

/-- The strings of the array under a key. -/
def arrayAt (k : α) (is : List (Item α)) : Option (List α) :=
  match after k 0 is with
  | .arrayStart :: is => some (strings is)
  | _ => none

end

end Plist
