import Duende.Core.Services
import Duende.Platform.Services
import Duende.Search

/-!
# Exit codes in a status text

`exit_code_reads`: an exit code that is written after its key, where the key occurs nowhere
else, is read back by the three functions that look for one.
-/

namespace Duende.Status

variable {key ws post pre text : Text} {code : Int32}

/-- A text with one place for the key, and after it at most one space, the code, and no
character that could belong to it. -/
inductive Renders (key : Text) (code : Int32) : Text → Prop where
  | intro (pre ws post : Text)
      (once : occurrences key (pre ++ (key ++ (ws ++ (decimalInt code.toInt ++ post)))) = 1)
      (space : ws = [] ∨ ws = [' '])
      (ends : ∀ c ∈ post.head?, c.isDigit = false ∧ c ≠ '-') :
      Renders key code (pre ++ (key ++ (ws ++ (decimalInt code.toInt ++ post))))

/-- The characters that the scanners take. -/
abbrev numeric (c : Char) : Bool := c.isDigit || c = '-'

theorem takeWhile_numeric (ends : ∀ c ∈ post.head?, c.isDigit = false ∧ c ≠ '-') :
    (decimalInt code.toInt ++ post).takeWhile numeric = decimalInt code.toInt := by
  have hall : ∀ c ∈ decimalInt code.toInt, numeric c = true := fun c hc => by
    simpa using mem_decimalInt hc
  have hpost : post.takeWhile numeric = [] := by
    cases post with
    | nil => rfl
    | cons c post =>
      have hc := ends c rfl
      simp [hc]
  rw [List.takeWhile_append_of_pos hall, hpost, List.append_nil]

theorem dropWhile_space (space : ws = [] ∨ ws = [' ']) :
    (ws ++ (decimalInt code.toInt ++ post)).dropWhile isWhitespace =
      decimalInt code.toInt ++ post := by
  have hcode : (decimalInt code.toInt ++ post).dropWhile isWhitespace =
      decimalInt code.toInt ++ post := by
    cases h : decimalInt code.toInt with
    | nil => exact absurd h (decimalInt_ne_nil _)
    | cons c s =>
      have hc : isWhitespace c = false :=
        isWhitespace_of_numeric (mem_decimalInt (h ▸ List.mem_cons_self))
      rw [List.cons_append, List.dropWhile_cons_of_neg (by simp [hc])]
  rcases space with rfl | rfl
  · exact hcode
  · rw [List.singleton_append, List.dropWhile_cons_of_pos (by rfl), hcode]

/-- A pattern that does not occur is passed over. -/
theorem exitCodeAfter_of_none {p : Text} {ps : List Text} (h : after p text = none) :
    Core.Container.exitCodeAfter (p :: ps) text = Core.Container.exitCodeAfter ps text := by
  unfold Core.Container.exitCodeAfter
  simp only [List.findSome?_cons, h, Option.bind_none]

theorem exitCodeAfter_of_some {p rest : Text} {ps : List Text} (h : after p text = some rest)
    (hne : rest.takeWhile numeric ≠ []) :
    Core.Container.exitCodeAfter (p :: ps) text = parseI32 (rest.takeWhile numeric) := by
  unfold Core.Container.exitCodeAfter
  simp only [List.findSome?_cons, h, Option.bind_some, List.isEmpty_iff, if_neg hne]

theorem exitCodeAfter_renders (h : Renders key code text) :
    Core.Container.exitCodeAfter [key ++ [' '], key] text = some code := by
  obtain ⟨pre, ws, post, once, space, ends⟩ := h
  have htake := @takeWhile_numeric post code ends
  have hne : (decimalInt code.toInt ++ post).takeWhile numeric ≠ [] := by
    rw [htake]
    exact decimalInt_ne_nil _
  have hspaced := @after_append key [' '] _ _ once
  have hkey := @after_append key [] _ _ once
  rw [List.append_nil] at hkey
  rcases space with rfl | rfl
  · -- the first pattern occurs nowhere
    have hno : ([' '] : Text).isPrefixOf ([] ++ (decimalInt code.toInt ++ post)) = false := by
      cases h : decimalInt code.toInt with
      | nil => exact absurd h (decimalInt_ne_nil _)
      | cons c s =>
        have hc : ' ' ≠ c := by
          rintro rfl
          exact absurd (mem_decimalInt (h ▸ List.mem_cons_self)) (by decide)
        show (' ' == c && _) = false
        rw [beq_false_of_ne hc, Bool.false_and]
    rw [hno] at hspaced
    rw [exitCodeAfter_of_none hspaced, exitCodeAfter_of_some hkey hne]
    exact (congrArg parseI32 htake).trans (parseI32_decimalInt code)
  · rw [exitCodeAfter_of_some hspaced hne]
    exact (congrArg parseI32 htake).trans (parseI32_decimalInt code)

theorem platform_exitCode_renders (h : Renders "\"ExitCode\":".toList code text) :
    Platforms.Container.exitCode text = some code := by
  obtain ⟨pre, ws, post, once, space, ends⟩ := h
  have hkey := @after_append "\"ExitCode\":".toList [] _ _ once
  rw [List.append_nil] at hkey
  unfold Platforms.Container.exitCode
  rw [hkey]
  show parseI32 (List.takeWhile numeric (List.dropWhile isWhitespace (ws ++ (_ ++ post)))) = _
  rw [dropWhile_space space, takeWhile_numeric ends, parseI32_decimalInt]

/-- **Exit codes are read back** by the scanners of the container and WOS adapters, and by
the status parser of the platform's container adapter. -/
theorem exit_code_reads :
    (Renders "\"ExitCode\":".toList code text →
      Core.Container.extractExitCode text = some code) ∧
    (Renders "\"exit_code\":".toList code text → Core.Wos.extractExitCode text = some code) ∧
    (Renders "\"ExitCode\":".toList code text → contains "\"exited\"".toList text = true →
      contains "\"running\"".toList text = false →
      Platforms.Container.parseStatus text =
        if code = 0 then .stopped else .failed (.exitCode code)) := by
  refine ⟨exitCodeAfter_renders, exitCodeAfter_renders, fun h hexited hrunning => ?_⟩
  unfold Platforms.Container.parseStatus
  simp only [hexited, hrunning, platform_exitCode_renders h, Bool.false_eq_true, if_false, if_true]

/-- The state of a container with the least code, at the end of the text. -/
def leastCode : Text := "\x7b\"Status\":\"exited\",\"ExitCode\": -2147483648".toList

theorem leastCode_renders : Renders "\"ExitCode\":".toList (-2147483648) leastCode :=
  .intro "\x7b\"Status\":\"exited\",".toList [' '] [] (by decide +kernel) (.inr rfl)
    (fun c hc => nomatch hc)

theorem exit_code_reads_least : Core.Container.extractExitCode leastCode = some (-2147483648) ∧
    Core.Wos.extractExitCode "\"exit_code\":7\x7d".toList = some 7 ∧
    Platforms.Container.parseStatus leastCode = .failed (.exitCode (-2147483648)) :=
  ⟨exit_code_reads.1 leastCode_renders,
    exit_code_reads.2.1 (.intro [] [] ['\x7d'] (by decide +kernel) (.inl rfl) (by
      rintro c ⟨rfl⟩; decide)),
    exit_code_reads.2.2 leastCode_renders (by decide +kernel) (by decide +kernel)⟩

end Duende.Status
