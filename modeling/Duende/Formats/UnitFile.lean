import Duende.Formats.UnitLines

/-!
# Unit files

Files with sections and `Key=Value` lines, in the grammar of systemd, with the values of the keys.
`read_write_iff` says when a file that is written with its values as they are is read back: every
value is literal. No line break can be part of a value without a backslash that is read for it.
-/

namespace UnitFile

variable {s t : List Char} {ts ws : List (List Char)} {ls : List (List Char)}

/-! ## Values -/

/-- What differs between versions: the letters of specifiers, and the characters before an
executable that are none of its path. -/
structure Grammar where
  specifier : Char → Bool
  execPrefix : Char → Bool

/-- How the value of a key is read. -/
inductive Kind where
  | raw
  | text
  | command
  | assignments
  deriving DecidableEq

inductive Value where
  | raw (t : List Char)
  | text (ps : List Piece)
  | command (ws : List (List Piece))
  | assignments (as : List (List Char × List Piece))
  deriving DecidableEq

def isName (n : List Char) : Bool :=
  match n with
  | [] => false
  | c :: _ => !c.isDigit && n.all fun c => c.isAlphanum || c = '_'

/-- A variable and its value, after the first characters of the name. -/
def assignmentAfter (name : List Char) : List Piece → Option (List Char × List Piece)
  | .char c :: ps =>
    if c = '=' then if isName name then some (name, ps) else none
    else assignmentAfter (name ++ [c]) ps
  | _ => none

def assignment (ps : List Piece) : Option (List Char × List Piece) := assignmentAfter [] ps

/-- The executable has a prefix. -/
def prefixed (g : Grammar) (ws : List (List Char)) : Bool :=
  ws.head?.any fun w => w.head?.any g.execPrefix

/-- The value of a key; of a command line only one command without a prefix is read. -/
def value (g : Grammar) (kind : Kind) (t : List Char) : Option Value :=
  match kind with
  | .raw => some (.raw t)
  | .text => some (.text (pieces g.specifier t))
  | .command =>
    ((words .command t).bind fun ws =>
      if prefixed g ws then none else some (ws.map (pieces g.specifier))).map .command
  | .assignments =>
    ((words .list t).bind fun ws =>
      ws.mapM fun w => assignment (pieces g.specifier w)).map .assignments

structure Directive where
  sec : List Char
  key : List Char
  value : Value
  deriving DecidableEq

def directiveOf (g : Grammar) (kinds : List Char → Kind) (s : Setting) : Option Directive :=
  (value g (kinds s.key) s.value).map fun v => ⟨s.sec, s.key, v⟩

/-- The directives of a file in which every value is in the grammar. -/
def read (g : Grammar) (kinds : List Char → Kind) (t : List Char) : Option (List Directive) :=
  (settings t).bind fun ss => ss.mapM (directiveOf g kinds)

variable {g : Grammar}

/-! ## Values that are read back -/

theorem mapM_cons_eq_some {α β : Type*} {f : α → Option β} {x : α} {xs : List α} {r : List β} :
    (x :: xs).mapM f = some r ↔ ∃ y ys, f x = some y ∧ xs.mapM f = some ys ∧ r = y :: ys := by
  rw [List.mapM_cons]
  cases f x with
  | none => simp
  | some y =>
    cases xs.mapM f with
    | none => simp
    | some ys => simp [eq_comm]

theorem mapM_eq_singleton {α β : Type*} {f : α → Option β} {xs : List α} {y : β} :
    xs.mapM f = some [y] ↔ ∃ x, xs = [x] ∧ f x = some y := by
  constructor
  · intro h
    cases xs with
    | nil => cases h
    | cons x xs =>
      obtain ⟨y, ys, hy, hys, heq⟩ := mapM_cons_eq_some.1 h
      obtain ⟨rfl, rfl⟩ := List.cons.inj heq
      cases xs with
      | nil => exact ⟨x, rfl, hy⟩
      | cons x' xs =>
        obtain ⟨_, _, -, -, h⟩ := mapM_cons_eq_some.1 hys
        cases h
  · rintro ⟨x, rfl, hx⟩
    exact mapM_cons_eq_some.2 ⟨_, _, hx, rfl, rfl⟩

theorem map_pieces {specifier : Char → Bool} : ∀ {ws ts : List (List Char)},
    ws.map (pieces specifier) = ts.map (fun t => t.map .char) →
      size ts ≤ size ws ∧
        (size ws ≤ size ts → ws = ts ∧ ∀ t ∈ ts, verbatim specifier t = true)
  | [], ts, h => by
    obtain rfl : ts = [] := by simpa using h.symm
    exact ⟨Nat.le_refl _, fun _ => ⟨rfl, fun t ht => nomatch ht⟩⟩
  | w :: ws, ts, h => by
    cases ts with
    | nil => cases h
    | cons t ts =>
      obtain ⟨hp, hps⟩ := List.cons.inj h
      obtain ⟨hle, heq⟩ := map_pieces hps
      have hlen : t.length ≤ w.length := by
        have := @pieces_length w specifier
        rwa [hp, List.length_map] at this
      rw [size_cons, size_cons]
      refine ⟨by omega, fun hge => ?_⟩
      obtain ⟨rfl, hmem⟩ := heq (by omega)
      obtain ⟨hw, rfl⟩ := (pieces_eq_map (s := t) (by omega)).1 hp
      exact ⟨rfl, List.forall_mem_cons.2 ⟨hw, hmem⟩⟩

theorem map_pieces_verbatim {specifier : Char → Bool}
    (h : ∀ t ∈ ts, verbatim specifier t = true) :
    ts.map (pieces specifier) = ts.map fun t => t.map .char :=
  List.map_congr_left fun t ht => pieces_of_verbatim (h t ht)

theorem size_intercalate : ∀ {ts : List (List Char)}, ts ≠ [] →
    ([' '].intercalate ts).length + 1 = size ts
  | [t], _ => by simp [size, List.intercalate_singleton]
  | t :: u :: ts, _ => by
    have ih := size_intercalate (List.cons_ne_nil u ts)
    rw [List.intercalate_cons_cons, size_cons, ← ih]
    simp only [List.length_append, List.length_singleton]
    omega

/-- A command that is written as it is. -/
structure PlainCommand (g : Grammar) (ts : List (List Char)) : Prop where
  words : ∀ t ∈ ts, Word t ∧ verbatim g.specifier t = true
  arguments : ∀ t ∈ ts.tail, t ≠ [';']
  executable : prefixed g ts = false

theorem command_value_iff (hne : ts ≠ []) {t : List Char}
    (ht : t.length ≤ ([' '].intercalate ts).length)
    (hself : (∀ t ∈ ts, Word t) → t = [' '].intercalate ts) :
    ((words .command t).bind fun ws =>
        if prefixed g ws then none else some (ws.map (pieces g.specifier))) =
      some (ts.map fun t => t.map .char) ↔ PlainCommand g ts := by
  constructor
  · intro h
    obtain ⟨ws, hws, h⟩ := Option.bind_eq_some_iff.1 h
    split at h
    · cases h
    rename_i hprefix
    obtain ⟨hle, heq⟩ := map_pieces (Option.some.inj h)
    have hsize : size ws ≤ t.length + 1 := by simpa [pending_none] using scan_size hws
    have := size_intercalate hne
    obtain ⟨rfl, hmem⟩ := heq (by omega)
    have hbare : ∀ c ∈ t, Bare c := bare_of_scan hws (by
      rw [Option.getD_none, List.length_nil]; omega)
    have hword := word_of_scan hbare (fun w hw => by cases hw) hws
    have hlone := lone_of_scan hbare (by simp) (fun hm => by cases hm) (by decide)
      (show scan .command 0 none none t = some ws from hws)
    exact ⟨fun u hu => ⟨hword u hu, hmem u hu⟩, hlone.2, by simpa using hprefix⟩
  · intro h
    have hword : ∀ t ∈ ts, Word t := fun u hu => (h.words u hu).1
    rw [hself hword, scan_intercalate hword (fun hm => by cases hm) h.arguments, Option.bind_some,
      if_neg (by simp [h.executable]), map_pieces_verbatim fun u hu => (h.words u hu).2]

theorem not_mem_of_isName {n : List Char} (h : isName n = true) :
    ∀ c ∈ n, c.isAlphanum = true ∨ c = '_' := by
  cases n with
  | nil => exact fun c hc => nomatch hc
  | cons d n =>
    simp only [isName, Bool.and_eq_true] at h
    intro c hc
    simpa using List.all_eq_true.1 h.2 c hc

theorem assignmentAfter_eq_some {u n : List Char} {ps v : List Piece} :
    assignmentAfter u ps = some (n, v) ↔
      ∃ m, n = u ++ m ∧ '=' ∉ m ∧ ps = m.map .char ++ .char '=' :: v ∧ isName n = true := by
  induction ps generalizing u with
  | nil =>
    refine iff_of_false (fun h => nomatch h) ?_
    rintro ⟨m, -, -, h, -⟩
    simp at h
  | cons p ps ih =>
    cases p with
    | specifier c =>
      refine iff_of_false (fun h => nomatch h) ?_
      rintro ⟨m, -, -, h, -⟩
      cases m <;> simp at h
    | char c =>
      rw [assignmentAfter]
      split
      · rename_i hc
        subst hc
        constructor
        · intro h
          split at h
          · rename_i hname
            cases h
            exact ⟨[], (List.append_nil _).symm, List.not_mem_nil, rfl, hname⟩
          · cases h
        · rintro ⟨m, rfl, hm, h, hname⟩
          cases m with
          | nil =>
            obtain ⟨-, rfl⟩ := List.cons.inj h
            rw [List.append_nil] at hname ⊢
            rw [if_pos hname]
          | cons d m =>
            obtain ⟨hd, -⟩ := List.cons.inj h
            obtain rfl : '=' = d := char_injective hd
            exact absurd List.mem_cons_self hm
      · rename_i hc
        rw [ih]
        constructor
        · rintro ⟨m, rfl, hm, rfl, hname⟩
          refine ⟨c :: m, by simp, ?_, rfl, hname⟩
          exact fun h => (List.mem_cons.1 h).elim (fun h => hc h.symm) hm
        · rintro ⟨m, rfl, hm, h, hname⟩
          cases m with
          | nil => exact absurd (char_injective (List.cons.inj h).1) hc
          | cons d m =>
            obtain ⟨hd, rfl⟩ := List.cons.inj h
            obtain rfl : c = d := char_injective hd
            exact ⟨m, by simp, fun h => hm (List.mem_cons_of_mem _ h), rfl, hname⟩

theorem assignment_eq_some {n : List Char} {ps v : List Piece} :
    assignment ps = some (n, v) ↔ ps = n.map .char ++ .char '=' :: v ∧ isName n = true := by
  unfold assignment
  rw [assignmentAfter_eq_some]
  constructor
  · rintro ⟨m, rfl, -, h, hname⟩
    exact ⟨h, hname⟩
  · rintro ⟨h, hname⟩
    refine ⟨n, rfl, fun hmem => ?_, h, hname⟩
    rcases not_mem_of_isName hname '=' hmem with h | h <;> revert h <;> decide

/-- A character that is itself in double quotation marks. -/
def Quotable (c : Char) : Prop := c ≠ '"' ∧ c ≠ '\\'

theorem assignment_value_iff {n v : List Char} :
    ((words .list ('"' :: ((n ++ '=' :: v) ++ ['"']))).bind fun ws =>
        ws.mapM fun w => assignment (pieces g.specifier w)) = some [(n, v.map .char)] ↔
      isName n = true ∧ verbatim g.specifier v = true ∧ ∀ c ∈ v, Quotable c := by
  have hchars : (n.map Piece.char ++ .char '=' :: v.map .char) = (n ++ '=' :: v).map .char := by
    simp
  have hname : ∀ {c : Char}, c.isAlphanum = false → c ≠ '_' → isName n = true → c ∉ n :=
    fun halpha hc hn hmem => by
      rcases not_mem_of_isName hn _ hmem with h | h
      · rw [halpha] at h; cases h
      · exact hc h
  have hverbatim : isName n = true →
      verbatim g.specifier (n ++ '=' :: v) = verbatim g.specifier v := fun hn => by
    rw [← List.singleton_append, ← List.append_assoc]
    refine verbatim_append fun hmem => ?_
    rcases List.mem_append.1 hmem with h | h
    · exact hname (by decide) (by decide) hn h
    · revert h; decide
  constructor
  · intro h
    obtain ⟨ws, hws, h⟩ := Option.bind_eq_some_iff.1 h
    obtain ⟨w, rfl, hw⟩ := mapM_eq_singleton.1 h
    obtain ⟨hps, hn⟩ := assignment_eq_some.1 hw
    rw [hchars] at hps
    have hlen : (n ++ '=' :: v).length ≤ w.length := by
      have := @pieces_length w g.specifier
      rwa [hps, List.length_map] at this
    obtain ⟨hquote, rfl⟩ := (words_quoted hlen).1 hws
    have hpercent := ((pieces_eq_map (Nat.le_refl _)).1 hps).1
    rw [hverbatim hn] at hpercent
    refine ⟨hn, hpercent, fun c hc => hquote c ?_⟩
    exact List.mem_append_right n (List.mem_cons_of_mem _ hc)
  · rintro ⟨hn, hv, hquote⟩
    have hchar : ∀ c ∈ n ++ '=' :: v, Quotable c := by
      intro c hc
      rcases List.mem_append.1 hc with hc | hc
      · exact ⟨fun he => hname (by decide) (by decide) hn (he ▸ hc),
          fun he => hname (by decide) (by decide) hn (he ▸ hc)⟩
      · rcases List.mem_cons.1 hc with rfl | hc
        · exact ⟨by decide, by decide⟩
        · exact hquote c hc
    rw [(words_quoted (Nat.le_refl _)).2 ⟨hchar, rfl⟩, Option.bind_some]
    refine mapM_eq_singleton.2 ⟨_, rfl, ?_⟩
    rw [pieces_of_verbatim ((hverbatim hn).trans hv)]
    exact assignment_eq_some.2 ⟨hchars.symm, hn⟩

/-! ## White space -/

theorem dropWhile_of_head {t : List Char} (h : ∀ c ∈ t.head?, isSpace c = false) :
    t.dropWhile isSpace = t := by
  cases t with
  | nil => rfl
  | cons c t => rw [List.dropWhile_cons_of_neg (by simp [h c rfl])]

theorem strip_eq_self {t : List Char} (hhead : ∀ c ∈ t.head?, isSpace c = false)
    (hlast : ∀ c ∈ t.getLast?, isSpace c = false) : strip t = t := by
  unfold strip
  rw [dropWhile_of_head hhead, List.rdropWhile_eq_self_iff]
  intro hne
  rw [hlast _ (List.getLast?_eq_some_getLast hne)]
  exact Bool.false_ne_true

/-- A text that does not start with white space keeps its first character. -/
theorem strip_cons {c : Char} (hc : isSpace c = false) (t : List Char) :
    ∃ u, strip (c :: t) = c :: u := by
  have hprefix : strip (c :: t) <+: c :: t := by
    unfold strip
    rw [dropWhile_of_head (by simpa using hc)]
    exact List.rdropWhile_prefix _ _
  have hne : strip (c :: t) ≠ [] := by
    unfold strip
    rw [dropWhile_of_head (by simpa using hc), ne_eq, List.rdropWhile_eq_nil_iff]
    intro h
    rw [h c List.mem_cons_self] at hc
    cases hc
  obtain ⟨d, u, hu⟩ := List.exists_cons_of_ne_nil hne
  rw [hu] at hprefix
  obtain ⟨v, hv⟩ := hprefix
  exact ⟨u, by rw [hu, (List.cons.inj hv).1]⟩

/-! ## Marks of values -/

def pieceMarks (ps : List Piece) : Nat := ps.countP Piece.isMark

def Value.marks : Value → Nat
  | raw t => UnitFile.marks t
  | text ps => pieceMarks ps
  | command ws => (ws.map pieceMarks).sum
  | assignments as => (as.map fun a => UnitFile.marks a.1 + pieceMarks a.2).sum

theorem pieceMarks_map (t : List Char) : pieceMarks (t.map .char) = marks t := by
  unfold pieceMarks marks
  rw [List.countP_map]
  rfl

theorem mapM_marks {α : Type*} {f : List Char → Option α} {m : α → Nat}
    (hf : ∀ w a, f w = some a → m a ≤ marks w) :
    ∀ {ws : List (List Char)} {as : List α}, ws.mapM f = some as → (as.map m).sum ≤ weight ws
  | [], as, h => by
    obtain rfl : as = [] := by simpa using h.symm
    exact Nat.le_refl 0
  | w :: ws, as, h => by
    obtain ⟨a, as, ha, has, rfl⟩ := mapM_cons_eq_some.1 h
    have := mapM_marks hf has
    have := hf w a ha
    unfold weight at *
    rw [List.map_cons, List.map_cons, List.sum_cons, List.sum_cons]
    omega

theorem assignment_marks {ps : List Piece} {a : List Char × List Piece}
    (h : assignment ps = some a) : marks a.1 + pieceMarks a.2 = pieceMarks ps := by
  obtain ⟨n, v⟩ := a
  obtain ⟨rfl, -⟩ := assignment_eq_some.1 h
  have heq : (Piece.char '=').isMark = false := rfl
  rw [← pieceMarks_map]
  unfold pieceMarks
  rw [List.countP_append, List.countP_cons_of_neg (by simp [heq])]

/-- **The marks of a value** are backslashes of its line. -/
theorem value_marks {kind : Kind} {v : Value} (hline : Unbroken t) (h : value g kind t = some v) :
    v.marks ≤ slashes t := by
  have hwords : ∀ {m ws}, words m t = some ws → weight ws ≤ slashes t := fun hws => by
    simpa [marks] using scan_marks hline hws
  cases kind with
  | raw => cases h; exact (marks_eq_slashes hline).le
  | text => cases h; exact pieces_marks.trans (marks_eq_slashes hline).le
  | command =>
    obtain ⟨ps, hps, rfl⟩ := Option.map_eq_some_iff.1 h
    obtain ⟨ws, hws, hps⟩ := Option.bind_eq_some_iff.1 hps
    split at hps <;> cases hps
    refine le_trans ?_ (hwords hws)
    show ((ws.map (pieces g.specifier)).map pieceMarks).sum ≤ (ws.map marks).sum
    rw [List.map_map]
    exact List.sum_le_sum fun w _ => pieces_marks
  | assignments =>
    obtain ⟨as, has, rfl⟩ := Option.map_eq_some_iff.1 h
    obtain ⟨ws, hws, has⟩ := Option.bind_eq_some_iff.1 has
    refine (mapM_marks (fun w a ha => ?_) has).trans (hwords hws)
    exact (assignment_marks ha).le.trans pieces_marks

theorem directives_marks {kinds : List Char → Kind} : ∀ {ss : List Setting} {ds : List Directive},
    (∀ s ∈ ss, Unbroken s.value) → ss.mapM (directiveOf g kinds) = some ds →
      (ds.map fun d => d.value.marks).sum ≤ (ss.map fun s => slashes s.value).sum
  | [], ds, _, h => by
    obtain rfl : ds = [] := by simpa using h.symm
    exact Nat.le_refl 0
  | s :: ss, ds, hline, h => by
    obtain ⟨d, ds, hd, hds, rfl⟩ := mapM_cons_eq_some.1 h
    obtain ⟨hs, hline⟩ := List.forall_mem_cons.1 hline
    obtain ⟨v, hv, rfl⟩ := Option.map_eq_some_iff.1 hd
    rw [List.map_cons, List.map_cons, List.sum_cons, List.sum_cons]
    exact Nat.add_le_add (value_marks hs hv) (directives_marks hline hds)

/-- **The marks of a file's values** are backslashes of its lines. -/
theorem read_marks {kinds : List Char → Kind} {ds : List Directive}
    (h : read g kinds t = some ds) :
    (ds.map fun d => d.value.marks).sum ≤ total (logicalLines t) := by
  obtain ⟨ss, hss, hds⟩ := Option.bind_eq_some_iff.1 h
  obtain ⟨hline, hle⟩ := settings_spec hss
  exact (directives_marks hline hds).trans hle

/-! ## Files written with their values as they are -/

/-- What a writer puts after a key. -/
inductive Written where
  | raw (t : List Char)
  | text (t : List Char)
  | command (ts : List (List Char))
  | assignment (name value : List Char)

inductive Item where
  | blank
  | header (name : List Char)
  | directive (key : List Char) (w : Written)

namespace Written

def line : Written → List Char
  | raw t => t
  | text t => t
  | command ts => [' '].intercalate ts
  | assignment n v => '"' :: ((n ++ '=' :: v) ++ ['"'])

def kind : Written → Kind
  | raw _ => .raw
  | text _ => .text
  | command _ => .command
  | assignment _ _ => .assignments

def meant : Written → Value
  | raw t => .raw t
  | text t => .text (t.map .char)
  | command ts => .command (ts.map fun t => t.map .char)
  | assignment n v => .assignments [(n, v.map .char)]

/-- A value that a line ends with. -/
def EndsLine (t : List Char) : Prop := Unbroken t ∧ goesOn t = false ∧ strip t = t

/-- A value that is read back. -/
def Literal (g : Grammar) : Written → Prop
  | raw t => EndsLine t
  | text t => EndsLine t ∧ verbatim g.specifier t = true
  | command ts => PlainCommand g ts ∧ ∀ t ∈ ts, Unbroken t
  | assignment n v =>
    isName n = true ∧ verbatim g.specifier v = true ∧ ∀ c ∈ v, Quotable c ∧ isBreak c = false

theorem strip_words {ts : List (List Char)} (hne : ts ≠ []) (h : ∀ t ∈ ts, Word t) :
    strip ([' '].intercalate ts) = [' '].intercalate ts := by
  have hends : ∀ {ts : List (List Char)}, ts ≠ [] → (∀ t ∈ ts, Word t) →
      (∀ c ∈ ([' '].intercalate ts).head?, isSpace c = false) ∧
        ∀ c ∈ ([' '].intercalate ts).getLast?, isSpace c = false := by
    intro ts hne h
    induction ts with
    | nil => exact absurd rfl hne
    | cons t ts ih =>
      obtain ⟨ht, h⟩ := List.forall_mem_cons.1 h
      cases ts with
      | nil =>
        rw [List.intercalate_singleton]
        exact ⟨fun c hc => ht.noSpace c (List.mem_of_mem_head? hc),
          fun c hc => ht.noSpace c (List.mem_of_mem_getLast? hc)⟩
      | cons u ts =>
        have hrest : [' '].intercalate (u :: ts) ≠ [] := by
          cases ts <;> simp [List.intercalate_cons_cons, List.intercalate_singleton,
            (h u List.mem_cons_self).ne_nil]
        rw [List.intercalate_cons_cons, List.append_assoc, List.head?_append_of_ne_nil _ ht.ne_nil,
          List.getLast?_append_of_ne_nil _ (by simp), List.getLast?_append_of_ne_nil _ hrest]
        exact ⟨fun c hc => ht.noSpace c (List.mem_of_mem_head? hc),
          (ih (List.cons_ne_nil u ts) h).2⟩
  exact strip_eq_self (hends hne h).1 (hends hne h).2

theorem mem_words {c : Char} : ∀ {ts : List (List Char)},
    c ∈ [' '].intercalate ts → c = ' ' ∨ ∃ t ∈ ts, c ∈ t
  | [], h => nomatch h
  | [t], h => .inr ⟨t, List.mem_cons_self, by rwa [List.intercalate_singleton] at h⟩
  | t :: u :: ts, h => by
    rw [List.intercalate_cons_cons, List.append_assoc, List.mem_append, List.mem_append,
      List.mem_singleton] at h
    rcases h with h | h | h
    · exact .inr ⟨t, List.mem_cons_self, h⟩
    · exact .inl h
    · exact (mem_words h).imp_right fun ⟨v, hv, hc⟩ => ⟨v, List.mem_cons_of_mem t hv, hc⟩

theorem sublist_words {t : List Char} : ∀ {ts : List (List Char)}, t ∈ ts →
    t.Sublist ([' '].intercalate ts)
  | [u], h => by rw [List.mem_singleton.1 h, List.intercalate_singleton]
  | u :: v :: ts, h => by
    rw [List.intercalate_cons_cons]
    rcases List.mem_cons.1 h with rfl | h
    · exact ((List.prefix_append _ _).trans (List.prefix_append _ _)).sublist
    · exact (sublist_words h).trans (List.sublist_append_right _ _)

theorem value_iff {w : Written} (hne : w ≠ command []) (hbreak : Unbroken w.line)
    (hlast : goesOn w.line = false) :
    value g w.kind (strip w.line) = some w.meant ↔ w.Literal g := by
  have hmap : ∀ {α : Type} {f : α → Value}, Function.Injective f → ∀ (o : Option α) (a : α),
      o.map f = some (f a) ↔ o = some a := fun hf o a => by
    rw [← Option.map_some, (Option.map_injective hf).eq_iff]
  cases w with
  | raw t =>
    have h : value g .raw (strip t) = some (.raw t) ↔ strip t = t := by simp [value]
    exact h.trans ⟨fun h => ⟨hbreak, hlast, h⟩, fun h => h.2.2⟩
  | text t =>
    have hlen := (strip_sublist t).length_le
    have h : value g .text (strip t) = some (.text (t.map .char)) ↔
        pieces g.specifier (strip t) = t.map .char := by simp [value]
    refine h.trans ((pieces_eq_map hlen).trans ?_)
    constructor
    · rintro ⟨hmem, hstrip⟩
      exact ⟨⟨hbreak, hlast, hstrip⟩, hstrip ▸ hmem⟩
    · rintro ⟨hline, hmem⟩
      exact ⟨hline.2.2.symm ▸ hmem, hline.2.2⟩
  | command ts =>
    have hne : ts ≠ [] := fun h => hne (h ▸ rfl)
    have hlen := (strip_sublist ([' '].intercalate ts)).length_le
    refine (hmap (fun _ _ => Value.command.inj) _ _).trans
      ((command_value_iff hne hlen (strip_words hne)).trans ?_)
    exact (and_iff_left fun t ht c hc => hbreak c ((sublist_words ht).subset hc)).symm
  | assignment n v =>
    have hstrip : strip (assignment n v).line = (assignment n v).line := by
      refine strip_eq_self (fun c hc => ?_) fun c hc => ?_
      · cases hc; rfl
      · rw [Written.line, ← List.cons_append, List.getLast?_concat] at hc
        cases hc; rfl
    rw [hstrip]
    refine (hmap (fun _ _ => Value.assignments.inj) _ _).trans (assignment_value_iff.trans ?_)
    refine and_congr_right fun _ => and_congr_right fun _ => forall₂_congr fun c hc => ?_
    exact (and_iff_left (hbreak c (by simp [Written.line, hc]))).symm

theorem goesOn_of_not_mem {t : List Char} (h : '\\' ∉ t) : goesOn t = false := by
  rcases List.eq_nil_or_concat t with rfl | ⟨u, c, rfl⟩
  · rfl
  · rw [List.concat_eq_append] at h ⊢
    exact goesOn_of_last (fun hc => h (by simp [hc])) u

theorem Literal.line {w : Written} (h : w.Literal g) : Unbroken w.line ∧ goesOn w.line = false := by
  cases w with
  | raw t => exact ⟨h.1, h.2.1⟩
  | text t => exact ⟨h.1.1, h.1.2.1⟩
  | command ts =>
    refine ⟨fun c hc => ?_, goesOn_of_not_mem fun hc => ?_⟩
    · rcases mem_words hc with rfl | ⟨t, ht, hc⟩
      · decide
      · exact h.2 t ht c hc
    · rcases mem_words hc with hc | ⟨t, ht, hc⟩
      · revert hc; decide
      · exact ((h.1.words t ht).1.bare _ hc).2 rfl
  | assignment n v =>
    obtain ⟨hname, -, hv⟩ := h
    refine ⟨?_, ?_⟩
    · intro c hc
      simp only [Written.line, List.mem_cons, List.mem_append, List.not_mem_nil, or_false] at hc
      rcases hc with rfl | (hc | rfl | hc) | rfl
      · decide
      · by_contra hbreak
        simp only [isBreak, Bool.not_eq_false, Bool.or_eq_true, decide_eq_true_eq] at hbreak
        rcases not_mem_of_isName hname _ hc with h | h <;>
          rcases hbreak with (rfl | rfl) | rfl <;> revert h <;> decide
      · decide
      · exact (hv c hc).2
      · decide
    · rw [Written.line, ← List.cons_append]
      exact goesOn_of_last (by decide) _

end Written

def Item.line : Item → List Char
  | blank => []
  | header name => '[' :: (name ++ [']'])
  | directive key w => key ++ '=' :: w.line

/-- Every line ends with a line break. -/
def write (is : List Item) : List Char := is.flatMap fun i => i.line ++ ['\n']

/-- The directives of a file, in their sections. -/
def meant : List Char → List Item → List Directive
  | _, [] => []
  | sec, .blank :: is => meant sec is
  | _, .header name :: is => meant name is
  | sec, .directive key w :: is => ⟨sec, key, w.meant⟩ :: meant sec is

def written : List Char → List Item → List Setting
  | _, [] => []
  | sec, .blank :: is => written sec is
  | _, .header name :: is => written name is
  | sec, .directive key w :: is => ⟨sec, key, strip w.line⟩ :: written sec is

def lastSection : List Char → List Item → List Char
  | sec, [] => sec
  | _, .header name :: is => lastSection name is
  | sec, _ :: is => lastSection sec is

def Label (n : List Char) : Prop := n ≠ [] ∧ ∀ c ∈ n, c.isAlpha = true

/-- An item whose key is read as it is written. -/
def Item.Regular (kinds : List Char → Kind) : Item → Prop
  | blank => True
  | header name => Label name
  | directive key w => Label key ∧ kinds key = w.kind ∧ w ≠ .command []

def Item.Literal (g : Grammar) : Item → Prop
  | directive _ w => w.Literal g
  | _ => True

variable {kinds : List Char → Kind}

theorem Label.char {n : List Char} (h : Label n) {c : Char} (hc : c.isAlpha = false) : c ∉ n :=
  fun hmem => by rw [h.2 c hmem] at hc; cases hc

theorem isSpace_of_isAlpha {c : Char} (h : c.isAlpha = true) : isSpace c = false := by
  by_contra hs
  simp only [isSpace, Bool.not_eq_false, Bool.or_eq_true, decide_eq_true_eq] at hs
  rcases hs with ((rfl | rfl) | rfl) | rfl <;> revert h <;> decide

theorem Label.strip {n : List Char} (h : Label n) : strip n = n :=
  strip_eq_self (fun c hc => isSpace_of_isAlpha (h.2 c (List.mem_of_mem_head? hc)))
    fun c hc => isSpace_of_isAlpha (h.2 c (List.mem_of_mem_getLast? hc))

theorem Label.unbroken {n : List Char} (h : Label n) : Unbroken n := by
  intro c hc
  by_contra hbreak
  have halpha := h.2 c hc
  simp only [isBreak, Bool.not_eq_false, Bool.or_eq_true, decide_eq_true_eq] at hbreak
  rcases hbreak with (rfl | rfl) | rfl <;> revert halpha <;> decide

theorem Label.safe {n : List Char} (h : Label n) : n.all isSafe = true := by
  refine List.all_eq_true.2 fun c hc => ?_
  have halpha := h.2 c hc
  have hrange : (65 ≤ c.toNat ∧ c.toNat ≤ 90) ∨ (97 ≤ c.toNat ∧ c.toNat ≤ 122) := by
    simpa [Char.isAlpha, Char.isUpper, Char.isLower, UInt32.le_iff_toNat_le] using halpha
  have hspace : ' ' ≤ c := by
    rw [Char.le_def, UInt32.le_iff_toNat_le]
    have hval : (' ' : Char).val.toNat = 32 := rfl
    have hnat : c.val.toNat = c.toNat := rfl
    omega
  simp only [isSafe, Bool.and_eq_true, decide_eq_true_eq]
  refine ⟨⟨⟨⟨hspace, ?_⟩, ?_⟩, ?_⟩, ?_⟩ <;> rintro rfl <;> revert halpha <;> decide

theorem readLine_header {name : List Char} (h : Label name) :
    readLine ('[' :: (name ++ [']'])) = some (.header name) := by
  have hstrip : strip ('[' :: (name ++ [']'])) = '[' :: (name ++ [']']) := by
    refine strip_eq_self (fun c hc => ?_) fun c hc => ?_
    · cases hc; rfl
    · rw [← List.cons_append, List.getLast?_concat] at hc
      cases hc; rfl
  unfold readLine
  rw [hstrip]
  simp only [List.getLast?_concat, List.dropLast_concat, h.safe, and_self, if_true]

theorem readLine_of_strip {l u v x : List Char} {c : Char} (hl : l = u ++ '=' :: v) (hu : '=' ∉ u)
    (hs : strip l = c :: x) (hbracket : c ≠ '[') (hc : c ≠ '=') :
    readLine l = some (.setting (strip u) (strip v)) := by
  have hno : ∀ d ∈ u, d ≠ '=' := fun d hd he => hu (he ▸ hd)
  have htake : l.takeWhile (· ≠ '=') = u := by
    rw [hl, List.takeWhile_append_of_pos (by simpa using hno)]
    simp
  have hdrop : l.dropWhile (· ≠ '=') = '=' :: v := by
    rw [hl, List.dropWhile_append_of_pos (by simpa using hno)]
    simp
  unfold readLine
  rw [hs]
  split
  · rename_i heq
    cases heq
  · rename_i heq
    exact absurd (List.cons.inj heq).1 hbracket
  · rename_i d _ _ heq
    obtain rfl : c = d := (List.cons.inj heq).1
    rw [if_pos ⟨hc, by simp [hl]⟩, htake, hdrop]
    rfl

theorem readLine_setting {key : List Char} (h : Label key) (t : List Char) :
    readLine (key ++ '=' :: t) = some (.setting key (strip t)) := by
  obtain ⟨c, k, rfl⟩ := List.exists_cons_of_ne_nil h.1
  have hc : c.isAlpha = true := h.2 c List.mem_cons_self
  obtain ⟨u, hu⟩ := strip_cons (isSpace_of_isAlpha hc) (k ++ '=' :: t)
  have hread := readLine_of_strip rfl (h.char (by decide)) hu
    (by rintro rfl; revert hc; decide) (by rintro rfl; revert hc; decide)
  rwa [h.strip] at hread

theorem settingsFrom_items {sec : List Char} {is : List Item} (h : ∀ i ∈ is, i.Regular kinds) :
    settingsFrom (some sec) (is.map Item.line) =
      some (written sec is, some (lastSection sec is)) := by
  induction is generalizing sec with
  | nil => rfl
  | cons i is ih =>
    obtain ⟨hi, hrest⟩ := List.forall_mem_cons.1 h
    rw [List.map_cons, settingsFrom]
    cases i with
    | blank => exact ih hrest
    | header name =>
      rw [Item.line, readLine_header hi]
      exact ih hrest
    | directive key w =>
      rw [Item.line, readLine_setting hi.1, Option.bind_some, ih hrest]
      rfl

theorem Item.Regular.start {i : Item} (h : i.Regular kinds) :
    isComment i.line = false ∧ i.line.dropWhile isSpace = i.line := by
  have hcons : ∀ {c : Char} {t : List Char}, isSpace c = false → c ≠ '#' → c ≠ ';' →
      isComment (c :: t) = false ∧ (c :: t).dropWhile isSpace = c :: t := fun {c t} hs h1 h2 => by
    have hdrop : (c :: t).dropWhile isSpace = c :: t :=
      List.dropWhile_cons_of_neg (by simp [hs])
    refine ⟨?_, hdrop⟩
    unfold isComment
    rw [hdrop]
    simp [h1, h2]
  cases i with
  | blank => exact ⟨rfl, rfl⟩
  | header name => exact hcons (by decide) (by decide) (by decide)
  | directive key w =>
    obtain ⟨hkey, -⟩ := h
    obtain ⟨c, k, rfl⟩ := List.exists_cons_of_ne_nil hkey.1
    have hc : c.isAlpha = true := hkey.2 c List.mem_cons_self
    refine hcons (isSpace_of_isAlpha hc) ?_ ?_ <;> rintro rfl <;> revert hc <;> decide

/-- What breaks the line of an item, or makes it go on, is in its value. -/
theorem Item.Regular.line_iff {i : Item} (h : i.Regular kinds) :
    (Unbroken i.line ∧ goesOn i.line = false) ↔
      ∀ key w, i = .directive key w → Unbroken w.line ∧ goesOn w.line = false := by
  cases i with
  | blank => exact iff_of_true ⟨fun _ hc => (nomatch hc), rfl⟩ nofun
  | header name =>
    refine iff_of_true ⟨?_, ?_⟩ nofun
    · refine List.forall_mem_cons.2 ⟨by decide, ?_⟩
      exact (Label.unbroken h).append (List.forall_mem_singleton.2 (by decide))
    · rw [Item.line, ← List.cons_append]
      exact goesOn_of_last (by decide) _
  | directive key w =>
    have hbreak : Unbroken (directive key w).line ↔ Unbroken w.line := by
      unfold Unbroken
      rw [Item.line, List.forall_mem_append, List.forall_mem_cons]
      exact ⟨fun h => h.2.2, fun hw => ⟨h.1.unbroken, by decide, hw⟩⟩
    have hgoes : goesOn (directive key w).line = goesOn w.line := goesOn_append (by decide) _ _
    rw [hbreak, hgoes]
    constructor
    · rintro h key' w' heq
      cases heq
      exact h
    · exact fun h => h key w rfl

/-- Setting by setting: what is read is what is meant exactly when every value is literal. -/
theorem mapM_written_iff {sec : List Char} {is : List Item} (h : ∀ i ∈ is, i.Regular kinds)
    (hline : ∀ i ∈ is, Unbroken i.line ∧ goesOn i.line = false) :
    (written sec is).mapM (directiveOf g kinds) = some (meant sec is) ↔
      ∀ i ∈ is, i.Literal g := by
  induction is generalizing sec with
  | nil => exact iff_of_true rfl fun i hi => nomatch hi
  | cons i is ih =>
    obtain ⟨hi, hrest⟩ := List.forall_mem_cons.1 h
    have hiline := (hi.line_iff).1 (hline i List.mem_cons_self)
    have hlines : ∀ i ∈ is, Unbroken i.line ∧ goesOn i.line = false :=
      (List.forall_mem_cons.1 hline).2
    rw [List.forall_mem_cons]
    cases i with
    | blank => exact (ih hrest hlines).trans (iff_of_eq (true_and _)).symm
    | header name => exact (ih hrest hlines).trans (iff_of_eq (true_and _)).symm
    | directive key w =>
      obtain ⟨-, hkind, hne⟩ := hi
      obtain ⟨hbreak, hlast⟩ := hiline key w rfl
      have hvalue := Written.value_iff (g := g) hne hbreak hlast
      rw [written, meant, mapM_cons_eq_some, ← ih hrest hlines]
      show _ ↔ w.Literal g ∧ _
      rw [← hvalue, directiveOf, hkind]
      constructor
      · rintro ⟨d, ds, hd, hds, heq⟩
        obtain ⟨rfl, rfl⟩ := List.cons.inj heq
        obtain ⟨v, hv, hd⟩ := Option.map_eq_some_iff.1 hd
        rw [Directive.mk.injEq] at hd
        exact ⟨hd.2.2 ▸ hv, hds⟩
      · rintro ⟨hv, hds⟩
        exact ⟨_, _, by rw [hv]; rfl, hds, rfl⟩

theorem fileLines_write {is : List Item} (h : ∀ i ∈ is, Unbroken i.line) :
    fileLines (write is) = (is ++ [Item.blank]).map Item.line := by
  have hwrite : write is = (is.map Item.line).flatMap fun l => l ++ ['\n'] := by
    rw [write, List.flatMap_map]
  rw [hwrite, fileLines_flatMap (List.forall_mem_map.2 h), List.map_append]
  rfl

theorem written_concat (sec : List Char) (is : List Item) :
    written sec (is ++ [Item.blank]) = written sec is := by
  induction is generalizing sec with
  | nil => rfl
  | cons i is ih =>
    cases i with
    | blank => exact ih sec
    | header name => exact ih name
    | directive key w => exact congrArg (List.cons _) (ih sec)

theorem settings_write {name : List Char} {is : List Item} (hname : Label name)
    (h : ∀ i ∈ is, i.Regular kinds)
    (hline : ∀ i ∈ is, Unbroken i.line ∧ goesOn i.line = false) :
    settings (write (.header name :: is)) = some (written name is) := by
  have hheader : (Item.header name).Regular kinds := hname
  have hblank : Item.blank.Regular kinds := trivial
  have hall : ∀ i ∈ Item.header name :: is ++ [Item.blank], i.Regular kinds ∧
      Unbroken i.line ∧ goesOn i.line = false := by
    intro i hi
    rcases List.mem_append.1 hi with hi | hi
    · rcases List.mem_cons.1 hi with rfl | hi
      · exact ⟨hheader, hheader.line_iff.2 nofun⟩
      · exact ⟨h i hi, hline i hi⟩
    · rw [List.mem_singleton.1 hi]
      exact ⟨hblank, hblank.line_iff.2 nofun⟩
  have halone : ∀ l ∈ (Item.header name :: is ++ [Item.blank]).map Item.line, Alone l := by
    refine List.forall_mem_map.2 fun i hi => ?_
    obtain ⟨hi, -, hgoes⟩ := hall i hi
    exact ⟨hi.start.1, hgoes, hi.start.2⟩
  have hrest : ∀ i ∈ is ++ [Item.blank], i.Regular kinds := fun i hi =>
    (hall i (List.mem_cons_of_mem _ hi)).1
  unfold settings logicalLines
  rw [fileLines_write fun i hi => (hall i (List.mem_append_left _ hi)).2.1, joined_alone halone,
    Option.toList_none, List.append_nil, List.cons_append, List.map_cons, settingsFrom, Item.line,
    readLine_header hname, Option.bind_some]
  show (settingsFrom (some name) _).map Prod.fst = _
  rw [settingsFrom_items hrest, written_concat]
  rfl

theorem place_write {name : List Char} {is : List Item} (hname : Label name)
    (h : ∀ i ∈ is, i.Regular kinds)
    (hline : ∀ i ∈ is, Unbroken i.line ∧ goesOn i.line = false) :
    place (write (.header name :: is)) =
      some ⟨written name is, some (lastSection name is), []⟩ := by
  have hheader : (Item.header name).Regular kinds := hname
  have hall : ∀ i ∈ Item.header name :: is, i.Regular kinds ∧
      Unbroken i.line ∧ goesOn i.line = false :=
    List.forall_mem_cons.2 ⟨⟨hheader, hheader.line_iff.2 nofun⟩, fun i hi => ⟨h i hi, hline i hi⟩⟩
  have halone : ∀ l ∈ (Item.header name :: is).map Item.line, Alone l := by
    refine List.forall_mem_map.2 fun i hi => ?_
    obtain ⟨hi, -, hgoes⟩ := hall i hi
    exact ⟨hi.start.1, hgoes, hi.start.2⟩
  unfold place
  rw [fileLines_write fun i hi => (hall i hi).2.1, List.map_append, List.map_singleton,
    List.dropLast_concat, joined_alone halone, List.map_cons, settingsFrom, Item.line,
    readLine_header hname, Option.bind_some]
  show (settingsFrom (some name) _).map _ = _
  rw [settingsFrom_items h]
  rfl

theorem Written.meant_marks (w : Written) : w.meant.marks = marks w.line := by
  cases w with
  | raw t => rfl
  | text t => exact pieceMarks_map t
  | command ts =>
    show ((ts.map fun t => t.map Piece.char).map pieceMarks).sum = marks ([' '].intercalate ts)
    induction ts with
    | nil => rfl
    | cons t ts ih =>
      cases ts with
      | nil => simp [List.intercalate_singleton, pieceMarks_map]
      | cons u ts =>
        have hspace : marks [' '] = 0 := rfl
        rw [List.map_cons, List.map_cons, List.sum_cons, ih, pieceMarks_map,
          List.intercalate_cons_cons, marks_append, marks_append, hspace]
        omega
  | assignment n v =>
    show (marks n + pieceMarks (v.map .char)) + 0 = _
    have hquote : marks ['"'] = 0 := rfl
    have heq : marks ['='] = 0 := rfl
    have hline : (assignment n v).line = ['"'] ++ (n ++ (['='] ++ (v ++ ['"']))) := by
      simp [Written.line]
    rw [hline, pieceMarks_map]
    simp only [marks_append, hquote, heq]
    omega

theorem meant_marks {is : List Item} (h : ∀ i ∈ is, i.Regular kinds) (sec : List Char) :
    ((meant sec is).map fun d => d.value.marks).sum = (is.map fun i => marks i.line).sum := by
  have hletters : ∀ {n : List Char}, Label n → marks n = 0 := by
    intro n hn
    refine List.countP_eq_zero.2 fun c hc => ?_
    have hslash : c ≠ '\\' := by rintro rfl; exact hn.char (by decide) hc
    simp [isMark, hslash, hn.unbroken c hc]
  induction is generalizing sec with
  | nil => rfl
  | cons i is ih =>
    obtain ⟨hi, hrest⟩ := List.forall_mem_cons.1 h
    rw [List.map_cons, List.sum_cons]
    cases i with
    | blank => exact (ih hrest sec).trans (Nat.zero_add _).symm
    | header name =>
      have hzero : marks (Item.header name).line = 0 := by
        rw [Item.line, ← List.singleton_append, marks_append, marks_append, hletters hi]
        rfl
      rw [hzero, Nat.zero_add]
      exact ih hrest name
    | directive key w =>
      have hline : marks (Item.directive key w).line = marks w.line := by
        rw [Item.line, ← List.singleton_append, marks_append, marks_append, hletters hi.1]
        exact Nat.zero_add _ |>.trans (Nat.zero_add _)
      rw [hline, meant, List.map_cons, List.sum_cons, ih hrest sec, w.meant_marks]

theorem slashes_write (is : List Item) :
    slashes (write is) = (is.map fun i => slashes i.line).sum := by
  induction is with
  | nil => rfl
  | cons i is ih =>
    have hbreak : slashes ['\n'] = 0 := rfl
    have hcons : write (i :: is) = i.line ++ ['\n'] ++ write is := rfl
    rw [hcons, slashes_append, slashes_append, hbreak, ih, List.map_cons, List.sum_cons,
      Nat.add_zero]

/-- **What is read back is on its lines**: a file that says what was meant has no line break in
a value, and no line that goes on in the next. -/
theorem lines_of_read {name : List Char} {is : List Item} (hname : Label name)
    (h : ∀ i ∈ is, i.Regular kinds)
    (hread : read g kinds (write (.header name :: is)) = some (meant name is)) :
    ∀ i ∈ is, Unbroken i.line ∧ goesOn i.line = false := by
  have hall : ∀ i ∈ Item.header name :: is, i.Regular kinds :=
    List.forall_mem_cons.2 ⟨hname, h⟩
  have hvalues : ((Item.header name :: is).map fun i => marks i.line).sum ≤
      total (logicalLines (write (.header name :: is))) := by
    rw [← meant_marks hall []]
    exact read_marks hread
  have hnil : slashes [] = 0 := rfl
  have hjoined := joined_total none (fileLines (write (.header name :: is)))
  have hfile : total (fileLines (write (.header name :: is))) = _ :=
    (total_linesFrom [] []).trans (by rw [slashes_write, hnil, Nat.zero_add])
  rw [logicalLines, total_append, total_toList] at hvalues
  rw [Option.getD_none, hnil, Nat.zero_add] at hjoined
  have hbreak : ∀ i ∈ Item.header name :: is, Unbroken i.line := by
    by_contra hno
    simp only [not_forall] at hno
    obtain ⟨i, hi, hbroken⟩ := hno
    have hlt := List.sum_lt_sum (l := Item.header name :: is) (fun i => slashes i.line)
      (fun i => marks i.line) (fun i _ => slashes_le_marks i.line)
      ⟨i, hi, Nat.lt_of_not_le fun hle => hbroken (unbroken_of_marks hle)⟩
    omega
  have hmarks : ((Item.header name :: is).map fun i => slashes i.line).sum ≤
      ((Item.header name :: is).map fun i => marks i.line).sum :=
    List.sum_le_sum fun i _ => slashes_le_marks i.line
  have hlast := not_goesOn (show total (fileLines (write (.header name :: is))) ≤ _ by omega)
  rw [fileLines_write hbreak, List.forall_mem_map, List.forall_mem_append] at hlast
  intro i hi
  have hgoes := hlast.1 i (List.mem_cons_of_mem _ hi) (h i hi).start.1
  rw [(h i hi).start.2] at hgoes
  exact ⟨hbreak i (List.mem_cons_of_mem _ hi), hgoes⟩

/-- **Values that are written as they are** are read back exactly when they are literal. -/
theorem read_write_iff {name : List Char} {is : List Item} (hname : Label name)
    (h : ∀ i ∈ is, i.Regular kinds) :
    read g kinds (write (.header name :: is)) = some (meant name is) ↔
      ∀ i ∈ is, i.Literal g := by
  have hiff : (∀ i ∈ is, Unbroken i.line ∧ goesOn i.line = false) →
      (read g kinds (write (.header name :: is)) = some (meant name is) ↔
        ∀ i ∈ is, i.Literal g) := fun hline => by
    rw [read, settings_write hname h hline, Option.bind_some]
    exact mapM_written_iff h hline
  constructor
  · exact fun hread => (hiff (lines_of_read hname h hread)).1 hread
  · intro hliteral
    refine (hiff fun i hi => (h i hi).line_iff.2 ?_).2 hliteral
    rintro key w rfl
    exact Written.Literal.line (hliteral _ hi)

/-! ## A setting after a line that goes on -/

/-- A line that is a setting, if it is read by itself. -/
def SettingLine (w : List Char) : Prop :=
  ∃ key v, w = key ++ '=' :: v ∧ Label key ∧ ∃ d ∈ v.getLast?, isSpace d = false ∧ d ≠ ']'

theorem mem_strip {c : Char} (hc : isSpace c = false) (h : c ∈ t) : c ∈ strip t := by
  have hdrop : ∀ {t : List Char}, c ∈ t → c ∈ t.dropWhile isSpace := fun {t} h => by
    rw [← List.takeWhile_append_dropWhile (p := isSpace) (l := t)] at h
    rcases List.mem_append.1 h with h | h
    · rw [List.mem_takeWhile_imp h] at hc
      cases hc
    · exact h
  unfold strip
  rw [List.rdropWhile, List.mem_reverse]
  exact hdrop (List.mem_reverse.2 (hdrop h))

theorem strip_blank {u : List Char} (hu : ∀ c ∈ u, isSpace c = true) (t : List Char) :
    strip (u ++ t) = strip t := by
  unfold strip
  rw [List.dropWhile_append_of_pos hu]

theorem readLine_blank {rest key : List Char} (hrest : ∀ c ∈ rest, isSpace c = true)
    (h : Label key) (v : List Char) :
    readLine (rest ++ (key ++ '=' :: v)) = some (.setting key (strip v)) := by
  obtain ⟨c, k, rfl⟩ := List.exists_cons_of_ne_nil h.1
  have hc : c.isAlpha = true := h.2 c List.mem_cons_self
  obtain ⟨u, hu⟩ := strip_cons (isSpace_of_isAlpha hc) (k ++ '=' :: v)
  have hno : '=' ∉ rest ++ c :: k := fun hmem => by
    rcases List.mem_append.1 hmem with hmem | hmem
    · exact absurd (hrest _ hmem) (by decide)
    · exact h.char (by decide) hmem
  have hread := readLine_of_strip (List.append_assoc rest (c :: k) ('=' :: v)).symm hno
    ((strip_blank hrest _).trans hu) (by rintro rfl; revert hc; decide)
    (by rintro rfl; revert hc; decide)
  rwa [strip_blank hrest, h.strip] at hread

/-- The first character of a line that is no white space opens a header. -/
def Bracketed (l : List Char) : Prop := (l.dropWhile isSpace).head? = some '['

instance (l : List Char) : Decidable (Bracketed l) := decEq (l.dropWhile isSpace).head? _

theorem not_bracketed_nil : ¬ Bracketed [] := by decide

/-- What a line says that is no setting of its own: nothing, or a setting with a value that no
setting has, or with a key that none has. -/
def Idle (line : Line) : Prop :=
  line = .blank ∨ ∃ key v, line = .setting key v ∧ ('=' ∈ v ∨ ' ' ∈ key)

theorem Idle.ne_header {line : Line} (h : Idle line) (name : List Char) : line ≠ .header name := by
  rintro rfl
  rcases h with h | ⟨key, v, h, -⟩ <;> cases h

theorem strip_append {rest u : List Char} {c : Char} {v : List Char} (hrest : rest = u ++ c :: v)
    (hu : ∀ d ∈ u, isSpace d = true) (hc : isSpace c = false) (w : List Char) :
    ∃ x, strip (rest ++ w) = c :: x := by
  rw [hrest, List.append_assoc, strip_blank hu]
  exact strip_cons hc (v ++ w)

theorem strip_append_last {rest u w : List Char} {c d : Char} {v : List Char}
    (hrest : rest = u ++ c :: v) (hu : ∀ d ∈ u, isSpace d = true) (hc : isSpace c = false)
    (hd : w.getLast? = some d) (hs : isSpace d = false) : strip (rest ++ w) = c :: (v ++ w) := by
  have hlast : (c :: (v ++ w)).getLast? = some d := by
    rw [← List.cons_append, List.getLast?_append, hd, Option.some_or]
  rw [hrest, List.append_assoc, strip_blank hu]
  exact strip_eq_self (by rintro _ ⟨⟩; exact hc) fun e he => by
    rw [List.cons_append, hlast] at he
    cases he; exact hs

theorem exists_first {rest : List Char} (h : ∃ c ∈ rest, isSpace c = false) :
    ∃ u c v, rest = u ++ c :: v ∧ (∀ d ∈ u, isSpace d = true) ∧ isSpace c = false ∧
      (Bracketed rest ↔ c = '[') := by
  obtain ⟨d, hd, hspace⟩ := h
  have hdrop : rest.dropWhile isSpace ≠ [] := fun h => by
    have := List.dropWhile_eq_nil_iff.1 h d hd
    rw [hspace] at this
    cases this
  obtain ⟨c, v, hv⟩ := List.exists_cons_of_ne_nil hdrop
  refine ⟨rest.takeWhile isSpace, c, v, ?_, fun d hd => List.mem_takeWhile_imp hd, ?_, ?_⟩
  · rw [← hv, List.takeWhile_append_dropWhile]
  · have := List.head_dropWhile_not isSpace hdrop
    simpa [hv] using this
  · rw [Bracketed, hv, List.head?_cons, Option.some_inj]

/-- A setting after an open bracket is an error. -/
theorem readLine_bracketed {rest w : List Char} (hrest : Bracketed rest) (hw : SettingLine w) :
    readLine (rest ++ w) = none := by
  have hmem : '[' ∈ rest :=
    (List.dropWhile_sublist isSpace).subset (List.mem_of_mem_head? hrest)
  obtain ⟨u, c, v, hr, hu, hc, hfirst⟩ := exists_first ⟨'[', hmem, by decide⟩
  obtain ⟨key, x, rfl, -, d, hd, hs, hne⟩ := hw
  have hlast : (key ++ '=' :: x).getLast? = some d := by
    rw [← List.singleton_append, ← List.append_assoc, List.getLast?_append, hd, Option.some_or]
  have hname : (v ++ (key ++ '=' :: x)).getLast? ≠ some ']' := by
    rw [List.getLast?_append, hlast, Option.some_or]
    exact fun he => hne (Option.some.inj he)
  unfold readLine
  rw [strip_append_last hr hu hc hlast hs, hfirst.1 hrest]
  exact if_neg fun h => hname h.1

/-- **What a line that goes on makes of a setting** is no setting of its own. -/
theorem readLine_over {rest w : List Char} (hblank : ∃ c ∈ rest, isSpace c = false)
    (hspace : rest.getLast? = some ' ') (hno : ¬ Bracketed rest) (hw : SettingLine w) :
    ∃ line, readLine (rest ++ w) = some line ∧ Idle line := by
  obtain ⟨u, c, v, hr, hu, hc, hfirst⟩ := exists_first hblank
  have hbracket : c ≠ '[' := fun h => hno (hfirst.2 h)
  obtain ⟨x, hx⟩ := strip_append hr hu hc w
  by_cases heq : c = '='
  · -- a line that starts with `=` has no key
    refine ⟨.blank, ?_, .inl rfl⟩
    subst heq
    unfold readLine
    rw [hx]
    rfl
  obtain ⟨key, y, rfl, hkey, -⟩ := hw
  by_cases hmem : '=' ∈ rest
  · -- the setting is part of the value
    obtain ⟨k, z, hk, hkno⟩ := List.eq_append_cons_of_mem hmem
    refine ⟨.setting (strip k) (strip (z ++ (key ++ '=' :: y))),
      readLine_of_strip ?_ hkno hx hbracket heq, .inr ⟨_, _, rfl, .inl ?_⟩⟩
    · rw [hk, List.append_assoc]
      rfl
    · exact mem_strip (by decide) (by simp)
  · -- the key of the setting is part of a longer one
    have hkno : '=' ∉ rest ++ key := fun h =>
      (List.mem_append.1 h).elim hmem (hkey.char (by decide))
    refine ⟨_, readLine_of_strip (List.append_assoc ..).symm hkno hx hbracket heq,
      .inr ⟨_, _, rfl, .inr ?_⟩⟩
    have hlast := List.getLast?_eq_some_getLast hkey.1
    have hd := isSpace_of_isAlpha (hkey.2 _ (List.getLast_mem hkey.1))
    have hv : ' ' ∈ v := by
      cases v with
      | nil =>
        rw [hr, List.getLast?_concat] at hspace
        rw [Option.some.inj hspace] at hc
        cases hc
      | cons e v =>
        rw [hr, List.getLast?_append_of_ne_nil _ (List.cons_ne_nil _ _),
          List.getLast?_cons_cons] at hspace
        exact List.mem_of_mem_getLast? hspace
    rw [strip_append_last hr hu hc hlast hd]
    exact List.mem_cons_of_mem c (List.mem_append_left _ hv)

end UnitFile
