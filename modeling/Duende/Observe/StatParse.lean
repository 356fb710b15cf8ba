import Duende.Observe.Monitor

/-!
# Parsing `/proc/{pid}/stat`

The slice after the last parenthesis is taken at a fixed byte offset. `stat_returns_iff` says
for which contents that offset is in range and on a character boundary.
-/

namespace Duende.Observe

open DaemonMonitor

variable {content pre post : Text} {fields : List Text} {max i : Nat} {what : String}

/-- The parser returns, with a value or an error, and its slice is in range and starts at a
character boundary. -/
structure Returns (content : Text) : Prop where
  noPanic : parseStatContent content ≠ .error .panicked
  slice : ∀ i, rfind ')' content = some i → (sliceFrom (i + 2) content).isSome

/-- The last parenthesis, if there is one, is followed by a character of one byte. -/
def ByteAfterParen (content : Text) : Prop :=
  ∀ pre post, content = pre ++ ')' :: post → ')' ∉ post →
    ∃ c rest, post = c :: rest ∧ c.utf8Size = 1

theorem parseField_ne_panicked : parseField max fields i what ≠ .error .panicked := by
  unfold parseField; split <;> simp

theorem bind_ne_panicked {α β : Type} {x : Except Abort α} {f : α → Except Abort β}
    (hx : x ≠ .error .panicked) (hf : ∀ a, f a ≠ .error .panicked) :
    (x >>= f) ≠ .error .panicked := by
  cases x with
  | error e => exact fun h => hx (by cases h; rfl)
  | ok a => exact hf a

/-- The parser panics only where it slices. -/
theorem parseStatContent_panicked : parseStatContent content = .error .panicked ↔
    ∃ i, rfind ')' content = some i ∧ sliceFrom (i + 2) content = none := by
  unfold parseStatContent
  cases hi : rfind ')' content with
  | none => simp
  | some i =>
    simp only [Option.some.injEq, exists_eq_left']
    cases hs : sliceFrom (i + 2) content with
    | none => simp
    | some afterComm =>
      simp only [reduceCtorEq, iff_false]
      split
      · simp
      · -- the three numbers are parsed in turn, and each may end the parse with its own error
        exact bind_ne_panicked parseField_ne_panicked fun utime =>
          bind_ne_panicked parseField_ne_panicked fun stime =>
            bind_ne_panicked parseField_ne_panicked fun numThreads => by simp [pure, Except.pure]

theorem slice_after_paren :
    sliceFrom (byteLen pre + 2) (pre ++ ')' :: post) = sliceFrom 1 post := by
  rw [sliceFrom_append]; rfl

/-- **`parse_stat_content` never panics**, and its slice is in range and on a character
boundary, exactly when the last parenthesis of the content, if there is one, is followed by
a character of one byte. -/
theorem stat_returns_iff (content : Text) : Returns content ↔ ByteAfterParen content := by
  constructor
  · rintro ⟨-, hslice⟩ pre post rfl hpost
    have := hslice _ (rfind_append hpost pre)
    rwa [slice_after_paren, sliceFrom_one] at this
  · intro hb
    have hslice : ∀ i, rfind ')' content = some i → (sliceFrom (i + 2) content).isSome := by
      intro i hi
      have hmem : ')' ∈ content := by
        by_contra hc
        rw [rfind_eq_none.2 hc] at hi; cases hi
      obtain ⟨pre, post, rfl, hpost⟩ := exists_last hmem
      cases (rfind_append hpost pre).symm.trans hi
      rw [slice_after_paren, sliceFrom_one]
      exact hb pre post rfl hpost
    refine ⟨fun h => ?_, hslice⟩
    obtain ⟨i, hi, hs⟩ := parseStatContent_panicked.1 h
    have := hslice i hi
    rw [hs] at this; cases this

/-- Content that ends with the parenthesis, and content with a character of two bytes after
it: the parser panics. -/
theorem stat_panics : parseStatContent "1234 (daemon)".toList = .error .panicked ∧
    parseStatContent "1234 (daemon)é S 1".toList = .error .panicked ∧
    ¬ ∀ content, Returns content :=
  ⟨by decide +kernel, by decide +kernel, fun h =>
    (h "1234 (daemon)".toList).noPanic (by decide +kernel)⟩

/-! ## What the kernel writes -/

/-- `/proc/{pid}/stat`: the pid, the command in parentheses, and the other fields. -/
def statLine (pid : UInt32) (comm : Text) (fields : List Text) : Text :=
  decimal pid.toNat ++ " (".toList ++ comm ++ ") ".toList ++ [' '].intercalate fields

/-- The fields after the command, which has no bounds of its own. -/
structure Fields (fields : List Text) (state : Char) (utime stime : UInt64)
    (numThreads : UInt32) : Prop where
  count : 20 ≤ fields.length
  plain : ∀ f ∈ fields, f ≠ [] ∧ ')' ∉ f ∧ ∀ c ∈ f, isWhitespace c = false
  state : (fields.getD 0 []).head? = some state
  utime : parseNat (fields.getD 11 []) = some utime.toNat
  stime : parseNat (fields.getD 12 []) = some stime.toNat
  numThreads : parseNat (fields.getD 17 []) = some numThreads.toNat

theorem parseField_of_parseNat {n : Nat} (h : parseNat (fields.getD i []) = some n)
    (hn : n ≤ max) : parseField max fields i what = .ok n := by
  unfold parseField
  rw [parseUnsigned_of_parseNat h hn]

/-- **Parsing `/proc/{pid}/stat` undoes writing it**, whatever the command is called. -/
theorem stat_decodes {pid : UInt32} {comm : Text} {state : Char} {utime stime : UInt64}
    {numThreads : UInt32} (h : Fields fields state utime stime numThreads) :
    parseStatContent (statLine pid comm fields) = .ok {
      state := parseState [state]
      utime := utime.toNat
      stime := stime.toNat
      numThreads := numThreads.toNat } := by
  have hparen : ')' ∉ ' ' :: [' '].intercalate fields := fun hmem =>
    not_mem_intercalate (by decide) (fun f hf => (h.plain f hf).2.1)
      ((List.mem_cons.1 hmem).resolve_left (by decide))
  have hline : statLine pid comm fields =
      (decimal pid.toNat ++ " (".toList ++ comm) ++ ')' :: ' ' :: [' '].intercalate fields := by
    show _ ++ [')', ' '] ++ _ = _
    rw [List.append_assoc]
    rfl
  have hslice : sliceFrom (byteLen (decimal pid.toNat ++ " (".toList ++ comm) + 2)
      (statLine pid comm fields) = some ([' '].intercalate fields) := by
    rw [hline, slice_after_paren, sliceFrom, if_pos (by decide)]
    exact sliceFrom.eq_1 _
  have hwords : splitWhitespace ([' '].intercalate fields) = fields :=
    splitWhitespace_intercalate fun f hf => ⟨(h.plain f hf).1, (h.plain f hf).2.2⟩
  have hstate : parseState (fields.getD 0 []) = parseState [state] := by
    unfold parseState
    rw [h.state]
    rfl
  have hu := utime.toNat_lt
  have hs := stime.toNat_lt
  have hn := numThreads.toNat_lt
  unfold parseStatContent
  rw [hline, rfind_append hparen, ← hline]
  simp only [hslice, hwords, hstate, if_neg (Nat.not_lt.2 h.count),
    parseField_of_parseNat h.utime (show utime.toNat ≤ u64Max by unfold u64Max; omega),
    parseField_of_parseNat h.stime (show stime.toNat ≤ u64Max by unfold u64Max; omega),
    parseField_of_parseNat h.numThreads (show numThreads.toNat ≤ u32Max by unfold u32Max; omega)]
  rfl

def sleepingFields : List Text :=
  ["S".toList] ++ List.replicate 10 "0".toList ++ ["50".toList, "25".toList] ++
    List.replicate 4 "0".toList ++ ["5".toList] ++ List.replicate 2 "0".toList

/-- A command that looks like the rest of the line. -/
theorem stat_decodes_paren :
    parseStatContent (statLine 7 "a) R 1 (b".toList sleepingFields) =
      .ok { state := .sleeping, utime := 50, stime := 25, numThreads := 5 } := by
  have hplain : sleepingFields.all (fun f => !f.isEmpty && !f.contains ')' &&
      f.all fun c => !isWhitespace c) = true := by decide
  refine @stat_decodes sleepingFields 7 "a) R 1 (b".toList 'S' 50 25 5
    ⟨by decide, fun f hf => ?_, by decide, by decide, by decide, by decide⟩
  have hf := List.all_eq_true.1 hplain f hf
  simp only [Bool.and_eq_true, Bool.not_eq_true', List.isEmpty_eq_false_iff, List.all_eq_true,
    List.contains_eq_mem, decide_eq_false_iff_not] at hf
  exact ⟨hf.1.1, hf.1.2, hf.2⟩

end Duende.Observe
