import Duende.Formats.UnitWords

/-!
# Lines and settings of unit files

A file is read line by line: comments are left out, a line that ends with a backslash goes on in
the next, a header opens a section, and `Key=Value` is a setting of the open section. The lines
before some place act on those after it through the open section and the line that goes on
(`joined_append`, `settingsFrom_append`). Backslashes are not made up (`settings_slashes`).
-/

namespace UnitFile

variable {s t : List Char} {ls ms : List (List Char)}

/-! ## Physical lines -/

/-- The lines of a text, after the characters `seen` that end the line before, with what stands in
the line so far. Each of these characters counts once for the end of a line. -/
def linesFrom (seen cur : List Char) : List Char → List (List Char)
  | [] => [cur]
  | c :: t =>
    if isBreak c then
      if seen.isEmpty || seen.contains c then cur :: linesFrom [c] [] t
      else linesFrom (c :: seen) cur t
    else linesFrom [] (cur ++ [c]) t

def fileLines (t : List Char) : List (List Char) := linesFrom [] [] t

def total (ls : List (List Char)) : Nat := (ls.map slashes).sum

theorem total_cons (l : List Char) (ls : List (List Char)) :
    total (l :: ls) = slashes l + total ls := by simp [total]

theorem total_append (ls ms : List (List Char)) : total (ls ++ ms) = total ls + total ms := by
  simp [total]

theorem total_toList (cur : Option (List Char)) : total cur.toList = slashes (cur.getD []) := by
  cases cur <;> simp [total, slashes]

theorem total_linesFrom (seen cur : List Char) :
    total (linesFrom seen cur t) = slashes cur + slashes t := by
  induction t generalizing seen cur with
  | nil => simp [linesFrom, total, slashes]
  | cons c t ih =>
    have hcons : slashes (c :: t) = slashes [c] + slashes t := by
      rw [← List.singleton_append, slashes_append]
    rw [linesFrom, hcons]
    split
    · rename_i hc
      rw [slashes_of_isBreak hc]
      split
      · have hnil : slashes [] = 0 := rfl
        rw [total_cons, ih, hnil]
      · rw [ih, Nat.zero_add]
    · rw [ih, slashes_append, Nat.add_assoc]

theorem unbroken_linesFrom {seen cur : List Char} (hcur : Unbroken cur) :
    ∀ l ∈ linesFrom seen cur t, Unbroken l := by
  induction t generalizing seen cur with
  | nil => exact List.forall_mem_singleton.2 hcur
  | cons c t ih =>
    rw [linesFrom]
    split
    · split
      · exact List.forall_mem_cons.2 ⟨hcur, ih fun _ h => nomatch h⟩
      · exact ih hcur
    · rename_i hc
      exact ih (hcur.append (List.forall_mem_singleton.2 (by simpa using hc)))

theorem linesFrom_unbroken {l : List Char} (hl : Unbroken l) (cur : List Char) :
    linesFrom [] cur (l ++ t) = linesFrom [] (cur ++ l) t := by
  induction l generalizing cur with
  | nil => rw [List.nil_append, List.append_nil]
  | cons c l ih =>
    obtain ⟨hc, hl⟩ := List.forall_mem_cons.1 hl
    rw [List.cons_append, linesFrom, if_neg (by simp [hc]), ih hl, List.append_assoc]
    rfl

/-- Before a character of a line it makes no difference what ended the line before. -/
theorem linesFrom_head (h : ∀ c ∈ t.head?, isBreak c = false) (seen : List Char) :
    linesFrom seen [] t = fileLines t := by
  cases t with
  | nil => rfl
  | cons c t =>
    have hc : ¬ isBreak c = true := by simp [h c rfl]
    rw [fileLines, linesFrom, linesFrom, if_neg hc, if_neg hc]

theorem linesFrom_line {seen l : List Char} (hseen : seen = [] ∨ seen = ['\n'])
    (hl : Unbroken l) (t : List Char) :
    linesFrom seen [] (l ++ '\n' :: t) = l :: linesFrom ['\n'] [] t := by
  have hbreak : isBreak '\n' = true := by decide
  cases l with
  | nil =>
    rw [List.nil_append, linesFrom, if_pos hbreak, if_pos]
    rcases hseen with rfl | rfl <;> decide
  | cons c l =>
    rw [linesFrom_head (by rintro d ⟨⟩; exact hl c List.mem_cons_self), fileLines,
      linesFrom_unbroken hl, List.nil_append, linesFrom, if_pos hbreak, if_pos (by decide)]

theorem fileLines_flatMap (h : ∀ l ∈ ls, Unbroken l) :
    fileLines (ls.flatMap fun l => l ++ ['\n']) = ls ++ [[]] := by
  have hall : ∀ {ls : List (List Char)} {seen : List Char}, (∀ l ∈ ls, Unbroken l) →
      (seen = [] ∨ seen = ['\n']) →
      linesFrom seen [] (ls.flatMap fun l => l ++ ['\n']) = ls ++ [[]] := by
    intro ls
    induction ls with
    | nil => exact fun _ _ => rfl
    | cons l ls ih =>
      intro seen h hseen
      obtain ⟨hl, h⟩ := List.forall_mem_cons.1 h
      rw [List.flatMap_cons, List.append_assoc, List.singleton_append, linesFrom_line hseen hl,
        ih h (.inr rfl)]
      rfl
  exact hall h (.inl rfl)

/-- The reader after some text: the lines so far, and the state in which it goes on. -/
theorem linesFrom_append (s : List Char) {seen cur : List Char} (hcur : seen ≠ [] → cur = []) :
    ∃ ls seen' cur', (∀ t, linesFrom seen cur (s ++ t) = ls ++ linesFrom seen' cur' t) ∧
      (seen' ≠ [] → cur' = []) ∧ (∀ c ∈ s.getLast?, isBreak c = true → cur' = []) := by
  induction s using List.reverseRecOn with
  | nil => exact ⟨[], seen, cur, fun _ => rfl, hcur, fun _ h => nomatch h⟩
  | append_singleton s c ih =>
    obtain ⟨ls, seen', cur', hlines, hcur', -⟩ := ih
    have hstep : ∀ t, linesFrom seen cur (s ++ [c] ++ t) = ls ++ linesFrom seen' cur' (c :: t) :=
      fun t => by rw [List.append_assoc, hlines]; rfl
    have hlast : (s ++ [c]).getLast? = some c := List.getLast?_concat
    by_cases hc : isBreak c = true
    · by_cases hseen : (seen'.isEmpty || seen'.contains c) = true
      · refine ⟨ls ++ [cur'], [c], [], fun t => ?_, fun _ => rfl, fun _ _ _ => rfl⟩
        rw [hstep, linesFrom, if_pos hc, if_pos hseen, List.append_assoc]
        rfl
      · have hnil : cur' = [] := hcur' fun h => hseen (by rw [h]; rfl)
        refine ⟨ls, c :: seen', cur', fun t => ?_, fun _ => hnil, fun _ _ _ => hnil⟩
        rw [hstep, linesFrom, if_pos hc, if_neg hseen]
    · refine ⟨ls, [], cur' ++ [c], fun t => ?_, fun h => absurd rfl h, fun d hd hbreak => ?_⟩
      · rw [hstep, linesFrom, if_neg hc]
      · rw [hlast] at hd
        cases hd
        exact absurd hbreak hc

/-- A text that a line feed ends, before another one: its lines are those before it. -/
theorem fileLines_append (s : List Char) (h : ∀ c ∈ t.head?, isBreak c = false) :
    fileLines (s ++ '\n' :: t) = (fileLines (s ++ ['\n'])).dropLast ++ fileLines t := by
  obtain ⟨ls, seen, cur, hlines, -, hlast⟩ :=
    @linesFrom_append (s ++ ['\n']) [] [] fun h => absurd rfl h
  obtain rfl : cur = [] := hlast '\n' (by simp) (by decide)
  have hfront : fileLines (s ++ ['\n']) = ls ++ [[]] := by
    have := hlines []
    rwa [List.append_nil] at this
  have hall : fileLines (s ++ '\n' :: t) = ls ++ linesFrom seen [] t := by
    rw [← hlines t, List.append_assoc]
    rfl
  rw [hall, hfront, List.dropLast_concat, linesFrom_head h]

/-! ## Lines that go on -/

def strip (t : List Char) : List Char := (t.dropWhile isSpace).rdropWhile isSpace

def isComment (l : List Char) : Bool :=
  match l.dropWhile isSpace with
  | [] => false
  | c :: _ => c = '#' || c = ';'

/-- The line ends with a backslash that no other one escapes. -/
def goesOn (l : List Char) : Bool := l.foldl (fun escaped c => !escaped && c = '\\') false

/-- The lines without comments, each with those it goes on in, and the one that is not finished. -/
def joined (cur : Option (List Char)) : List (List Char) → List (List Char) × Option (List Char)
  | [] => ([], cur)
  | l :: ls =>
    if isComment l then joined cur ls
    else if goesOn (cur.getD [] ++ l.dropWhile isSpace) then
      joined (some ((cur.getD [] ++ l.dropWhile isSpace).dropLast ++ [' '])) ls
    else ((cur.getD [] ++ l.dropWhile isSpace) :: (joined none ls).1, (joined none ls).2)

/-- The lines of a file as they are read. -/
def logicalLines (t : List Char) : List (List Char) :=
  (joined none (fileLines t)).1 ++ (joined none (fileLines t)).2.toList

theorem joined_append (cur : Option (List Char)) (ls ms : List (List Char)) :
    joined cur (ls ++ ms) =
      ((joined cur ls).1 ++ (joined (joined cur ls).2 ms).1, (joined (joined cur ls).2 ms).2) := by
  induction ls generalizing cur with
  | nil => rfl
  | cons l ls ih =>
    rw [List.cons_append, joined, joined]
    split
    · exact ih cur
    split
    · exact ih _
    · simp only [ih none, List.cons_append]

theorem goesOn_concat (t : List Char) (c : Char) :
    goesOn (t ++ [c]) = (!goesOn t && decide (c = '\\')) := by
  unfold goesOn
  rw [List.foldl_append]
  rfl

theorem goesOn_append {c : Char} (hc : c ≠ '\\') (s t : List Char) :
    goesOn (s ++ c :: t) = goesOn t := by
  unfold goesOn
  rw [List.foldl_append, List.foldl_cons, decide_eq_false hc, Bool.and_false]

theorem goesOn_of_last {c : Char} (hc : c ≠ '\\') (s : List Char) : goesOn (s ++ [c]) = false :=
  goesOn_append hc s []

/-- Going on in the next line takes a backslash. -/
theorem slashes_goesOn (h : goesOn t = true) : slashes (t.dropLast ++ [' ']) + 1 = slashes t := by
  rcases List.eq_nil_or_concat t with rfl | ⟨u, c, rfl⟩
  · cases h
  · rw [List.concat_eq_append, goesOn_concat, Bool.and_eq_true, decide_eq_true_eq] at h
    rw [List.concat_eq_append, List.dropLast_concat, slashes_append, slashes_append, h.2]
    rfl

theorem slashes_dropWhile (p : Char → Bool) (t : List Char) : slashes (t.dropWhile p) ≤ slashes t :=
  (List.dropWhile_sublist _).count_le _

theorem joined_total (cur : Option (List Char)) (ls : List (List Char)) :
    total (joined cur ls).1 + slashes ((joined cur ls).2.getD []) ≤
      slashes (cur.getD []) + total ls := by
  induction ls generalizing cur with
  | nil => simp [joined, total]
  | cons l ls ih =>
    have hline := slashes_append (cur.getD []) (l.dropWhile isSpace)
    have hdrop := slashes_dropWhile isSpace l
    rw [joined, total_cons]
    split
    · have := ih cur
      omega
    split
    · rename_i hgoes
      have hle := ih (some ((cur.getD [] ++ l.dropWhile isSpace).dropLast ++ [' ']))
      have := slashes_goesOn hgoes
      rw [Option.getD_some] at hle
      omega
    · have := ih none
      have hnil : slashes [] = 0 := rfl
      rw [Option.getD_none, hnil] at this
      simp only [total_cons]
      omega

/-- Where no backslash is lost, no line goes on in the next. -/
theorem not_goesOn (h : total ls ≤
      total (joined none ls).1 + slashes ((joined none ls).2.getD [])) :
    ∀ l ∈ ls, isComment l = false → goesOn (l.dropWhile isSpace) = false := by
  induction ls with
  | nil => exact fun l hl => nomatch hl
  | cons l ls ih =>
    have hdrop := slashes_dropWhile isSpace l
    rw [joined, total_cons, Option.getD_none, List.nil_append] at h
    split at h
    · rename_i hcomment
      refine List.forall_mem_cons.2 ⟨fun hno => ?_, ih (by omega)⟩
      rw [hcomment] at hno
      cases hno
    split at h
    · rename_i hgoes
      have := joined_total (some ((l.dropWhile isSpace).dropLast ++ [' '])) ls
      have := slashes_goesOn hgoes
      rw [Option.getD_some] at *
      omega
    · rename_i hgoes
      rw [total_cons] at h
      exact List.forall_mem_cons.2 ⟨fun _ => by simpa using hgoes, ih (by simp only at h; omega)⟩

/-- A line of its own: no comment, nothing that goes on, and no white space before it. -/
def Alone (l : List Char) : Prop :=
  isComment l = false ∧ goesOn l = false ∧ l.dropWhile isSpace = l

theorem joined_alone (h : ∀ l ∈ ls, Alone l) : joined none ls = (ls, none) := by
  induction ls with
  | nil => rfl
  | cons l ls ih =>
    obtain ⟨⟨hcomment, hgoes, hspace⟩, h⟩ := List.forall_mem_cons.1 h
    rw [joined, if_neg (by simp [hcomment]), hspace, Option.getD_none, List.nil_append,
      if_neg (by simp [hgoes]), ih h]

theorem joined_cons_alone {l : List Char} (hl : Alone l) (h : ∀ l ∈ ls, Alone l)
    (cur : Option (List Char)) (hcur : goesOn (cur.getD [] ++ l) = false) :
    joined cur (l :: ls) = ((cur.getD [] ++ l) :: ls, none) := by
  rw [joined, if_neg (by simp [hl.1]), hl.2.2, if_neg (by simp [hcur]), joined_alone h]

theorem unbroken_joined {cur : Option (List Char)} (hcur : Unbroken (cur.getD []))
    (h : ∀ l ∈ ls, Unbroken l) :
    ∀ l ∈ (joined cur ls).1 ++ (joined cur ls).2.toList, Unbroken l := by
  induction ls generalizing cur with
  | nil =>
    intro l hl
    rw [joined, List.nil_append, Option.mem_toList] at hl
    obtain rfl : cur = some l := hl
    exact hcur
  | cons l ls ih =>
    obtain ⟨hl, h⟩ := List.forall_mem_cons.1 h
    have hboth : Unbroken (cur.getD [] ++ l.dropWhile isSpace) :=
      hcur.append fun c hc => hl c ((List.dropWhile_sublist _).subset hc)
    rw [joined]
    split
    · exact ih hcur h
    split
    · refine ih (Unbroken.append (fun c hc => hboth c (List.dropLast_subset _ hc)) ?_) h
      exact List.forall_mem_singleton.2 (by decide)
    · exact List.forall_mem_cons.2 ⟨hboth, ih (fun _ hc => nomatch hc) h⟩

/-! ## Settings -/

structure Setting where
  sec : List Char
  key : List Char
  value : List Char
  deriving DecidableEq

/-- What a line says. -/
inductive Line where
  | blank
  | header (name : List Char)
  | setting (key value : List Char)

def isSafe (c : Char) : Bool :=
  ' ' ≤ c && c ≠ '"' && c ≠ '\'' && c ≠ '\\' && c ≠ '\x7f'

/-- A line without `=` or without a key says nothing; a header that is none is an error. -/
def readLine (l : List Char) : Option Line :=
  match strip l with
  | [] => some .blank
  | '[' :: name =>
    if name.getLast? = some ']' ∧ name.dropLast.all isSafe = true then
      some (.header name.dropLast)
    else none
  | c :: _ =>
    if c ≠ '=' ∧ '=' ∈ l then
      some (.setting (strip (l.takeWhile (· ≠ '='))) (strip (l.dropWhile (· ≠ '=')).tail))
    else some .blank

/-- The settings of lines, after a header of the section `sec`, and the section in the end. -/
def settingsFrom : Option (List Char) → List (List Char) →
    Option (List Setting × Option (List Char))
  | sec, [] => some ([], sec)
  | sec, l :: ls =>
    (readLine l).bind fun line =>
      match line with
      | .blank => settingsFrom sec ls
      | .header name => settingsFrom (some name) ls
      | .setting key v => (settingsFrom sec ls).map fun r =>
          ((sec.toList.map fun sec => ⟨sec, key, v⟩) ++ r.1, r.2)

def settings (t : List Char) : Option (List Setting) :=
  (settingsFrom none (logicalLines t)).map Prod.fst

/-- The value that counts: the last one that `parse` takes. -/
def lastValue {α : Type} (parse : List Char → Option α) (sec key : List Char)
    (ss : List Setting) : Option α :=
  (ss.filterMap fun s => if s.sec = sec ∧ s.key = key then parse s.value else none).getLast?

theorem settingsFrom_append (sec : Option (List Char)) (ls ms : List (List Char)) :
    settingsFrom sec (ls ++ ms) = (settingsFrom sec ls).bind fun r =>
      (settingsFrom r.2 ms).map fun r' => (r.1 ++ r'.1, r'.2) := by
  induction ls generalizing sec with
  | nil => cases h : settingsFrom sec ms <;> simp [settingsFrom, h]
  | cons l ls ih =>
    rw [List.cons_append, settingsFrom, settingsFrom]
    cases readLine l with
    | none => rfl
    | some line =>
      cases line with
      | blank => exact ih sec
      | header name => exact ih (some name)
      | setting key v =>
        rw [Option.bind_some, Option.bind_some, ih]
        cases settingsFrom sec ls with
        | none => rfl
        | some r => cases h : settingsFrom r.2 ms <;> simp [h, List.append_assoc]

theorem strip_sublist (t : List Char) : (strip t).Sublist t :=
  (List.rdropWhile_prefix _ _).sublist.trans (List.dropWhile_sublist _)

/-- The value of a setting stands in its line. -/
theorem sublist_of_setting {l key v : List Char} (h : readLine l = some (.setting key v)) :
    v.Sublist l := by
  unfold readLine at h
  split at h
  · cases h
  · split at h <;> cases h
  · split at h <;> cases h
    exact (strip_sublist _).trans ((List.tail_sublist _).trans (List.dropWhile_sublist _))

/-- **The settings of lines have no more backslashes than the lines.** -/
theorem settingsFrom_slashes {sec : Option (List Char)} {r : List Setting × Option (List Char)}
    (h : settingsFrom sec ls = some r) : (r.1.map fun s => slashes s.value).sum ≤ total ls := by
  induction ls generalizing sec r with
  | nil => cases h; exact Nat.le_refl 0
  | cons l ls ih =>
    rw [settingsFrom] at h
    obtain ⟨line, hline, h⟩ := Option.bind_eq_some_iff.1 h
    rw [total_cons]
    cases line with
    | blank => exact (ih h).trans (Nat.le_add_left _ _)
    | header name => exact (ih h).trans (Nat.le_add_left _ _)
    | setting key v =>
      obtain ⟨r, hr, rfl⟩ := Option.map_eq_some_iff.1 h
      have hv : slashes v ≤ slashes l := (sublist_of_setting hline).count_le _
      have := ih hr
      rw [List.map_append, List.sum_append]
      cases sec with
      | none =>
        rw [Option.toList_none, List.map_nil, List.map_nil, List.sum_nil]
        omega
      | some sec => exact Nat.add_le_add (by simpa using hv) this

theorem unbroken_settings {sec : Option (List Char)} {r : List Setting × Option (List Char)}
    (hls : ∀ l ∈ ls, Unbroken l) (h : settingsFrom sec ls = some r) :
    ∀ s ∈ r.1, Unbroken s.value := by
  induction ls generalizing sec r with
  | nil => cases h; exact fun _ hs => nomatch hs
  | cons l ls ih =>
    obtain ⟨hl, hls⟩ := List.forall_mem_cons.1 hls
    rw [settingsFrom] at h
    obtain ⟨line, hline, h⟩ := Option.bind_eq_some_iff.1 h
    cases line with
    | blank => exact ih hls h
    | header name => exact ih hls h
    | setting key v =>
      obtain ⟨r, hr, rfl⟩ := Option.map_eq_some_iff.1 h
      refine List.forall_mem_append.2 ⟨fun s hs => ?_, ih hls hr⟩
      obtain ⟨sec, -, rfl⟩ := List.mem_map.1 hs
      exact fun c hc => hl c ((sublist_of_setting hline).subset hc)

/-- **The values of a file stand on one line each**, and have no more backslashes than the file. -/
theorem settings_spec {ss : List Setting} (h : settings t = some ss) :
    (∀ s ∈ ss, Unbroken s.value) ∧
      (ss.map fun s => slashes s.value).sum ≤ total (logicalLines t) := by
  obtain ⟨r, hr, rfl⟩ := Option.map_eq_some_iff.1 h
  refine ⟨unbroken_settings ?_ hr, settingsFrom_slashes hr⟩
  exact unbroken_joined (fun _ hc => nomatch hc) (unbroken_linesFrom fun _ hc => nomatch hc)

/-! ## The reader on its way -/

/-- Where the reader stands after whole lines: the settings so far, the open section, and what
stands in the line that goes on. -/
structure Place where
  read : List Setting
  sec : Option (List Char)
  rest : List Char
  deriving DecidableEq

def place (t : List Char) : Option Place :=
  (settingsFrom none (joined none (fileLines t).dropLast).1).map fun r =>
    ⟨r.1, r.2, (joined none (fileLines t).dropLast).2.getD []⟩

theorem joined_rest {cur : Option (List Char)} (hcur : ∀ u ∈ cur, u.getLast? = some ' ')
    (ls : List (List Char)) : ∀ u ∈ (joined cur ls).2, u.getLast? = some ' ' := by
  induction ls generalizing cur with
  | nil => exact hcur
  | cons l ls ih =>
    rw [joined]
    split
    · exact ih hcur
    split
    · refine ih fun u hu => ?_
      cases hu
      exact List.getLast?_concat
    · exact ih fun u hu => by cases hu

theorem place_rest {p : Place} (h : place t = some p) :
    p.rest = [] ∨ p.rest.getLast? = some ' ' := by
  obtain ⟨r, -, rfl⟩ := Option.map_eq_some_iff.1 h
  have hnone : ∀ u ∈ (none : Option (List Char)), u.getLast? = some ' ' := fun u hu => nomatch hu
  have hrest := joined_rest hnone (fileLines t).dropLast
  cases hcur : (joined none (fileLines t).dropLast).2 with
  | none => exact .inl rfl
  | some u => exact .inr (by simpa [hcur] using hrest u hcur)

theorem settings_append (s : List Char) {c : Char} {l : List Char} (hc : c ≠ '\\')
    (hline : ∀ m ∈ (c :: l) :: ls, Unbroken m ∧ Alone m) :
    settings (s ++ '\n' :: ((c :: l) :: ls).flatMap fun m => m ++ ['\n']) =
      (place (s ++ ['\n'])).bind fun p =>
        (settingsFrom p.sec ((p.rest ++ c :: l) :: ls)).map fun r => p.read ++ r.1 := by
  have hl := hline _ List.mem_cons_self
  have hhead : ∀ d ∈ (((c :: l) :: ls).flatMap fun m => m ++ ['\n']).head?, isBreak d = false := by
    rintro d ⟨⟩
    exact hl.1 c List.mem_cons_self
  have hlines : fileLines (s ++ '\n' :: ((c :: l) :: ls).flatMap fun m => m ++ ['\n']) =
      (fileLines (s ++ ['\n'])).dropLast ++ ((c :: l) :: (ls ++ [[]])) := by
    rw [fileLines_append s hhead, fileLines_flatMap fun m hm => (hline m hm).1]
    rfl
  have hnil : Alone [] := ⟨rfl, rfl, rfl⟩
  have hrest : ∀ m ∈ ls ++ [[]], Alone m := by
    intro m hm
    rcases List.mem_append.1 hm with hm | hm
    · exact (hline m (List.mem_cons_of_mem _ hm)).2
    · rw [List.mem_singleton.1 hm]
      exact hnil
  have hgoes : ∀ u : List Char, goesOn (u ++ c :: l) = false := fun u => by
    rw [goesOn_append hc]
    exact (goesOn_append hc [] l).symm.trans hl.2.2.1
  unfold settings logicalLines place
  rw [hlines, joined_append]
  generalize joined none (fileLines (s ++ ['\n'])).dropLast = front
  rw [joined_cons_alone hl.2 hrest _ (hgoes _), Option.toList_none, List.append_nil,
    settingsFrom_append, ← List.cons_append]
  cases settingsFrom none front.1 with
  | none => rfl
  | some r =>
    simp only [Option.bind_some, Option.map_some, settingsFrom_append, Option.map_bind]
    cases settingsFrom r.2 ((front.2.getD [] ++ c :: l) :: ls) with
    | none => rfl
    | some r' => simp [settingsFrom, readLine, strip]

/-! ## The value that counts -/

section LastValue

variable {α : Type} {parse : List Char → Option α} {sec key : List Char} {ss : List Setting}

theorem lastValue_append_self (ss : List Setting) {v : List Char} {x : α} (h : parse v = some x) :
    lastValue parse sec key (ss ++ [⟨sec, key, v⟩]) = some x := by
  simp [lastValue, h]

/-- Settings of other sections or keys do not count, and neither do values that are none. -/
theorem lastValue_append_other (ss : List Setting) {ss' : List Setting}
    (h : ∀ s ∈ ss', s.sec = sec → s.key = key → parse s.value = none) :
    lastValue parse sec key (ss ++ ss') = lastValue parse sec key ss := by
  have hnone : (ss'.filterMap fun s =>
      if s.sec = sec ∧ s.key = key then parse s.value else none) = [] := by
    refine List.filterMap_eq_nil_iff.2 fun s hs => ?_
    split
    · rename_i hboth
      exact h s hs hboth.1 hboth.2
    · rfl
  rw [lastValue, List.filterMap_append, hnone, List.append_nil]
  rfl

end LastValue

end UnitFile
