import Duende.Formats.Json
import Duende.Status.ExitCode

/-!
# Spaces in the JSON of a status

The status functions of the container, pepita and WOS adapters search for keys with their
values. `spacing_ignored_iff` says for which objects they return the same status whether or
not there is a space after each colon.
-/

namespace Duende.Status

open Json

variable {e : Escaping} {ms : List (Text × Value)} {cs : List Cell} {w q sp text : Text}

/-- The object with no space after a colon, as `docker inspect` prints it. -/
def compact (e : Escaping) (ms : List (Text × Value)) : Text := render e [] (.object ms)

def spaced (e : Escaping) (ms : List (Text × Value)) : Text := render e [' '] (.object ms)

/-! ## What an object says -/

/-- Some key that closes the name, at whatever depth, is `true`. -/
def Flag (e : Escaping) (ms : List (Text × Value)) (w : String) : Prop :=
  ∃ c ∈ objectCells ms, c.HasKey e w.toList ∧ c.value = some (.bool true)

/-- Some key that closes `state` has the string as its value. -/
def State (e : Escaping) (ms : List (Text × Value)) (s : String) : Prop :=
  ∃ c ∈ objectCells ms, c.HasKey e "state".toList ∧
    ∃ t, c.value = some (.string t) ∧ e.body t = s.toList

/-- The number after the first key that closes the name. -/
def codeOf (e : Escaping) (ms : List (Text × Value)) (w : Text) : Option Int32 :=
  ((objectCells ms).find? fun c => c.HasKey e w).bind fun c =>
    parseI32 ((c.valueText e).takeWhile numeric)

def exited (code : Option Int32) : DaemonStatus :=
  match code with
  | some code => if code ≠ 0 then .failed (.exitCode code) else .stopped
  | none => .stopped

/-- The keys that the container adapter looks for. -/
def flagNames : List String :=
  ["Running", "running", "Restarting", "restarting", "Paused", "paused"]

/-! ## Patterns in the two renderings -/

theorem compact_spaced (hw : Name w) (hcell : WithinCell (keyPattern w (' ' :: q))) :
    contains (keyPattern w (' ' :: q)) (compact e ms) = false := by
  rw [Bool.eq_false_iff, compact, render_object, ne_eq, contains_key spaces_nil hw hcell]
  rintro ⟨c, -, -, hq⟩
  exact Cell.not_space_prefix hq

theorem spaced_spaced (hw : Name w) (hcell : WithinCell (keyPattern w (' ' :: q))) :
    contains (keyPattern w (' ' :: q)) (spaced e ms) = true ↔
      ∃ c ∈ objectCells ms, c.HasKey e w ∧ q <+: c.valueText e := by
  rw [spaced, render_object, contains_key spaces_one hw hcell]
  simp only [List.singleton_append, List.cons_prefix_cons, true_and]

theorem compact_compact (hw : Name w) (hcell : WithinCell (keyPattern w q)) :
    contains (keyPattern w q) (compact e ms) = true ↔
      ∃ c ∈ objectCells ms, c.HasKey e w ∧ q <+: c.valueText e := by
  rw [compact, render_object, contains_key spaces_nil hw hcell]
  simp only [List.nil_append]

theorem spaced_compact {x : Char} (hx : x ≠ ' ') (hw : Name w)
    (hcell : WithinCell (keyPattern w (x :: q))) :
    contains (keyPattern w (x :: q)) (spaced e ms) = false := by
  rw [Bool.eq_false_iff, spaced, render_object, ne_eq, contains_key spaces_one hw hcell]
  rintro ⟨c, -, -, hq⟩
  rw [List.singleton_append, List.cons_prefix_cons] at hq
  exact hx hq.1

/-! ## Exit codes -/

theorem exitCodeAfter_of_empty {p rest : Text} {ps : List Text} (h : after p text = some rest)
    (hnil : rest.takeWhile numeric = []) :
    Core.Container.exitCodeAfter (p :: ps) text = Core.Container.exitCodeAfter ps text := by
  unfold Core.Container.exitCodeAfter
  simp only [List.findSome?_cons, h, Option.bind_some, List.isEmpty_iff, if_pos hnil]

theorem exitCodeAfter_nil : Core.Container.exitCodeAfter [] text = none := rfl

theorem exitCodeAfter_single {p rest : Text} (h : after p text = some rest) :
    Core.Container.exitCodeAfter [p] text = parseI32 (rest.takeWhile numeric) := by
  by_cases hnil : rest.takeWhile numeric = []
  · rw [exitCodeAfter_of_empty h hnil, exitCodeAfter_nil, hnil]
    rfl
  · exact exitCodeAfter_of_some h hnil

theorem numeric_stop (st : Stop) : numeric st.char = false := by cases st <;> rfl

section Codes

variable (hw : Name w) (hspaced : WithinCell (keyPattern w [' ']))
  (hcompact : WithinCell (keyPattern w []))

include hw hspaced hcompact

theorem exitCodeAfter_compact :
    Core.Container.exitCodeAfter [keyPattern w [' '], keyPattern w []] (compact e ms) =
      codeOf e ms w := by
  have hnone : after (keyPattern w [' ']) (compact e ms) = none := by
    rw [compact, render_object]
    exact after_key_none spaces_nil hw hspaced fun c _ _ => Cell.not_space_prefix
  rw [exitCodeAfter_of_none hnone]
  unfold codeOf
  cases hc : (objectCells ms).find? fun c => c.HasKey e w with
  | none =>
    have hno : after (keyPattern w []) (compact e ms) = none := by
      rw [compact, render_object]
      refine after_key_none spaces_nil hw hcompact fun c hmem hkey _ => ?_
      exact absurd (decide_eq_true hkey) (List.find?_eq_none.1 hc c hmem)
    rw [exitCodeAfter_of_none hno]
    rfl
  | some c =>
    obtain ⟨rest, hrest⟩ : ∃ rest, after (keyPattern w []) (compact e ms) =
        some (c.valueText e ++ c.stop.char :: rest) := by
      rw [compact, render_object]
      exact after_key [] [] spaces_nil hw hcompact hc
    rw [exitCodeAfter_single hrest, takeWhile_append_cons (numeric_stop _)]
    rfl

theorem exitCodeAfter_spaced :
    Core.Container.exitCodeAfter [keyPattern w [' '], keyPattern w []] (spaced e ms) =
      codeOf e ms w := by
  unfold codeOf
  cases hc : (objectCells ms).find? fun c => c.HasKey e w with
  | none =>
    have hno : ∀ q, WithinCell (keyPattern w q) → after (keyPattern w q) (spaced e ms) = none := by
      intro q hq
      rw [spaced, render_object]
      refine after_key_none spaces_one hw hq fun c hmem hkey _ => ?_
      exact absurd (decide_eq_true hkey) (List.find?_eq_none.1 hc c hmem)
    rw [exitCodeAfter_of_none (hno _ hspaced), exitCodeAfter_of_none (hno _ hcompact)]
    rfl
  | some c =>
    obtain ⟨rest, hrest⟩ : ∃ rest, after (keyPattern w [' ']) (spaced e ms) =
        some (c.valueText e ++ c.stop.char :: rest) := by
      rw [spaced, render_object]
      exact after_key [' '] [] spaces_one hw hspaced hc
    obtain ⟨rest', hrest'⟩ : ∃ rest, after (keyPattern w []) (spaced e ms) =
        some (' ' :: (c.valueText e ++ c.stop.char :: rest)) := by
      rw [spaced, render_object]
      exact after_key [] [' '] spaces_one hw hcompact hc
    have htake : (c.valueText e ++ c.stop.char :: rest).takeWhile numeric =
        (c.valueText e).takeWhile numeric := takeWhile_append_cons (numeric_stop _)
    by_cases hnil : (c.valueText e).takeWhile numeric = []
    · -- the second pattern finds the space
      rw [exitCodeAfter_of_empty hrest (htake.trans hnil), exitCodeAfter_single hrest',
        Option.bind_some, hnil]
      rfl
    · rw [exitCodeAfter_of_some hrest (fun h => hnil (htake.symm.trans h)), htake]
      rfl

end Codes

/-! ## Containers -/

theorem flagNames_name : ∀ w ∈ flagNames, Name w.toList ∧
    WithinCell (keyPattern w.toList (' ' :: "true".toList)) := by
  intro w hw
  simp only [flagNames, List.mem_cons, List.not_mem_nil, or_false] at hw
  rcases hw with rfl | rfl | rfl | rfl | rfl | rfl <;>
    exact ⟨⟨by decide, _, rfl, by decide⟩, withinCell_of_all (by decide)⟩

/-- What is looked for under a flag. -/
def flagIn (text : Text) (w : String) : Bool :=
  contains (keyPattern w.toList (' ' :: "true".toList)) text

theorem container_parseStatus_eq : Core.Container.parseStatus text =
    if flagIn text "Running" || flagIn text "running" then .running
    else if flagIn text "Restarting" || flagIn text "restarting" then .starting
    else if flagIn text "Paused" || flagIn text "paused" then .paused
    else exited (Core.Container.extractExitCode text) := rfl

theorem exited_ne {code : Option Int32} {st : DaemonStatus} (hstopped : st ≠ .stopped)
    (hfailed : ∀ c, st ≠ .failed (.exitCode c)) : exited code ≠ st := by
  cases code with
  | none => exact hstopped.symm
  | some c =>
    unfold exited
    simp only
    split
    · exact (hfailed c).symm
    · exact hstopped.symm

theorem container_extractExitCode :
    Core.Container.extractExitCode (compact e ms) = Core.Container.extractExitCode (spaced e ms) := by
  have hname : Name "ExitCode".toList := ⟨by decide, _, rfl, by decide⟩
  have hspaced : WithinCell (keyPattern "ExitCode".toList [' ']) := withinCell_of_all (by decide)
  have hcompact : WithinCell (keyPattern "ExitCode".toList []) := withinCell_of_all (by decide)
  exact (exitCodeAfter_compact hname hspaced hcompact).trans
    (exitCodeAfter_spaced hname hspaced hcompact).symm

/-- No flag is found in the compact rendering. -/
theorem container_same_iff :
    Core.Container.parseStatus (compact e ms) = Core.Container.parseStatus (spaced e ms) ↔
      ∀ w ∈ flagNames, ¬ Flag e ms w := by
  have hflag : ∀ w ∈ flagNames, flagIn (spaced e ms) w = true ↔ Flag e ms w := fun w hw => by
    unfold flagIn Flag
    simp only [spaced_spaced (flagNames_name w hw).1 (flagNames_name w hw).2, Cell.true_prefix]
  have hnone : ∀ w ∈ flagNames, flagIn (compact e ms) w = false := fun w hw =>
    compact_spaced (flagNames_name w hw).1 (flagNames_name w hw).2
  have hcompact : Core.Container.parseStatus (compact e ms) =
      exited (Core.Container.extractExitCode (spaced e ms)) := by
    rw [container_parseStatus_eq, hnone _ (by decide), hnone _ (by decide), hnone _ (by decide),
      hnone _ (by decide), hnone _ (by decide), hnone _ (by decide), container_extractExitCode]
    rfl
  have hflags : (∀ w ∈ flagNames, ¬ Flag e ms w) ↔
      ∀ w ∈ flagNames, flagIn (spaced e ms) w = false := by
    refine forall_congr' fun w => forall_congr' fun hw => ?_
    rw [← hflag w hw, Bool.not_eq_true]
  rw [hcompact, container_parseStatus_eq, hflags]
  constructor
  · -- a flag that is found gives a status that no exited process has
    intro h w hw
    have hor : ∀ {a b : Bool}, (a || b) = false → a = false ∧ b = false := fun h => by
      simpa using h
    split at h
    · exact absurd h (exited_ne nofun fun _ => nofun)
    · rename_i h1
      split at h
      · exact absurd h (exited_ne nofun fun _ => nofun)
      · rename_i h2
        split at h
        · exact absurd h (exited_ne nofun fun _ => nofun)
        · rename_i h3
          have h1 := hor (Bool.not_eq_true _ ▸ h1)
          have h2 := hor (Bool.not_eq_true _ ▸ h2)
          have h3 := hor (Bool.not_eq_true _ ▸ h3)
          simp only [flagNames, List.mem_cons, List.not_mem_nil, or_false] at hw
          rcases hw with rfl | rfl | rfl | rfl | rfl | rfl
          · exact h1.1
          · exact h1.2
          · exact h2.1
          · exact h2.2
          · exact h3.1
          · exact h3.2
  · intro h
    rw [h _ (by decide), h _ (by decide), h _ (by decide), h _ (by decide), h _ (by decide),
      h _ (by decide)]
    rfl

/-! ## The state of a VM or a process -/

/-- A word that is looked for as a state. -/
structure StateWord (s : String) : Prop where
  name : Name s.toList
  spaced : WithinCell (keyPattern "state".toList (' ' :: quotedPattern s.toList))
  compact : WithinCell (keyPattern "state".toList (quotedPattern s.toList))

theorem stateWord_of_mem :
    ∀ s ∈ ["running", "paused", "failed", "ready", "stopped", "exited"], StateWord s := by
  intro s hs
  simp only [List.mem_cons, List.not_mem_nil, or_false] at hs
  rcases hs with rfl | rfl | rfl | rfl | rfl | rfl <;>
    exact ⟨⟨by decide, _, rfl, by decide⟩, withinCell_of_all (by decide),
      withinCell_of_all (by decide)⟩

theorem name_state : Name "state".toList := ⟨by decide, _, rfl, by decide⟩

section States

variable {s : String} (hs : StateWord s)

include hs

theorem state_spaced :
    contains (keyPattern "state".toList (' ' :: quotedPattern s.toList)) (spaced e ms) = true ↔
      State e ms s := by
  rw [spaced_spaced name_state hs.spaced]
  simp only [Cell.quoted_prefix hs.name]
  rfl

theorem state_compact :
    contains (keyPattern "state".toList (quotedPattern s.toList)) (compact e ms) = true ↔
      State e ms s := by
  rw [compact_compact name_state hs.compact]
  simp only [Cell.quoted_prefix hs.name]
  rfl

theorem state_compact_spaced :
    contains (keyPattern "state".toList (' ' :: quotedPattern s.toList)) (compact e ms) = false :=
  compact_spaced name_state hs.spaced

theorem state_spaced_compact :
    contains (keyPattern "state".toList (quotedPattern s.toList)) (spaced e ms) = false :=
  spaced_compact (by decide) name_state hs.compact

end States

/-- What is looked for as a state, with a space after the colon. -/
def stateIn (text : Text) (s : String) : Bool :=
  contains (keyPattern "state".toList (' ' :: quotedPattern s.toList)) text

theorem pepita_parseStatus_eq : Core.Pepita.parseStatus text =
    if stateIn text "running" ||
      contains (keyPattern "state".toList (quotedPattern "running".toList)) text then .running
    else if stateIn text "paused" then .paused
    else if stateIn text "failed" then .failed (.exitCode 1)
    else .stopped := rfl

/-- Only `running` is found in the compact rendering. -/
theorem pepita_same_iff :
    Core.Pepita.parseStatus (compact e ms) = Core.Pepita.parseStatus (spaced e ms) ↔
      State e ms "running" ∨ (¬ State e ms "paused" ∧ ¬ State e ms "failed") := by
  have hrunning := stateWord_of_mem "running" (by decide)
  have hpaused := stateWord_of_mem "paused" (by decide)
  have hfailed := stateWord_of_mem "failed" (by decide)
  rw [pepita_parseStatus_eq, pepita_parseStatus_eq]
  unfold stateIn
  rw [state_compact_spaced hrunning, state_compact_spaced hpaused, state_compact_spaced hfailed,
    state_spaced_compact hrunning]
  have hsame : contains (keyPattern "state".toList (quotedPattern "running".toList))
      (compact e ms) = contains (keyPattern "state".toList
        (' ' :: quotedPattern "running".toList)) (spaced e ms) := by
    rw [Bool.eq_iff_iff, state_compact hrunning, state_spaced hrunning]
  rw [hsame, ← state_spaced hrunning, ← state_spaced hpaused, ← state_spaced hfailed]
  cases contains (keyPattern "state".toList (' ' :: quotedPattern "running".toList))
    (spaced e ms) with
  | true => exact iff_of_true rfl (.inl rfl)
  | false =>
    cases contains (keyPattern "state".toList (' ' :: quotedPattern "paused".toList))
      (spaced e ms) with
    | true => exact iff_of_false nofun (by simp)
    | false =>
      cases contains (keyPattern "state".toList (' ' :: quotedPattern "failed".toList))
        (spaced e ms) with
      | true => exact iff_of_false nofun (by simp)
      | false => exact iff_of_true rfl (.inr ⟨by simp, by simp⟩)

theorem wos_parseStatus_eq : Core.Wos.parseStatus text =
    if stateIn text "running" then some .running
    else if stateIn text "ready" then some .starting
    else if stateIn text "stopped" then some .paused
    else if stateIn text "exited" then some (exited (Core.Wos.extractExitCode text))
    else none := by
  unfold Core.Wos.parseStatus exited
  cases Core.Wos.extractExitCode text with
  | none => rfl
  | some code =>
    by_cases h0 : code ≠ 0
    · simp only [if_pos h0]
      rfl
    · simp only [if_neg h0]
      rfl

/-- The status in the local table is the one that the object stands for, if it has one. -/
structure LocalAgrees (e : Escaping) (ms : List (Text × Value)) (st : DaemonStatus) : Prop where
  running : State e ms "running" → st = .running
  ready : ¬ State e ms "running" → State e ms "ready" → st = .starting
  stopped : ¬ State e ms "running" → ¬ State e ms "ready" → State e ms "stopped" → st = .paused
  exited : ¬ State e ms "running" → ¬ State e ms "ready" → ¬ State e ms "stopped" →
    State e ms "exited" → st = exited (codeOf e ms "exit_code".toList)

/-- Nothing is found in the compact rendering: the local table answers. -/
theorem wos_same_iff {st : DaemonStatus} :
    (Core.Wos.parseStatus (compact e ms)).getD st = (Core.Wos.parseStatus (spaced e ms)).getD st ↔
      LocalAgrees e ms st := by
  have hrunning := stateWord_of_mem "running" (by decide)
  have hready := stateWord_of_mem "ready" (by decide)
  have hstopped := stateWord_of_mem "stopped" (by decide)
  have hexited := stateWord_of_mem "exited" (by decide)
  have hcode : Core.Wos.extractExitCode (spaced e ms) = codeOf e ms "exit_code".toList :=
    @exitCodeAfter_spaced e ms "exit_code".toList ⟨by decide, _, rfl, by decide⟩
      (withinCell_of_all (by decide)) (withinCell_of_all (by decide))
  rw [wos_parseStatus_eq, wos_parseStatus_eq, hcode]
  unfold stateIn
  rw [state_compact_spaced hrunning, state_compact_spaced hready, state_compact_spaced hstopped,
    state_compact_spaced hexited]
  simp only [Bool.false_eq_true, if_false]
  by_cases h1 : State e ms "running"
  · rw [if_pos ((state_spaced hrunning).2 h1)]
    exact ⟨fun h => ⟨fun _ => h, fun h' => absurd h1 h', fun h' => absurd h1 h',
      fun h' => absurd h1 h'⟩, fun h => h.running h1⟩
  · rw [if_neg (mt (state_spaced hrunning).1 h1)]
    by_cases h2 : State e ms "ready"
    · rw [if_pos ((state_spaced hready).2 h2)]
      exact ⟨fun h => ⟨fun h' => absurd h' h1, fun _ _ => h, fun _ h' => absurd h2 h',
        fun _ h' => absurd h2 h'⟩, fun h => h.ready h1 h2⟩
    · rw [if_neg (mt (state_spaced hready).1 h2)]
      by_cases h3 : State e ms "stopped"
      · rw [if_pos ((state_spaced hstopped).2 h3)]
        exact ⟨fun h => ⟨fun h' => absurd h' h1, fun _ h' => absurd h' h2, fun _ _ _ => h,
          fun _ _ h' => absurd h3 h'⟩, fun h => h.stopped h1 h2 h3⟩
      · rw [if_neg (mt (state_spaced hstopped).1 h3)]
        by_cases h4 : State e ms "exited"
        · rw [if_pos ((state_spaced hexited).2 h4)]
          exact ⟨fun h => ⟨fun h' => absurd h' h1, fun _ h' => absurd h' h2,
            fun _ _ h' => absurd h' h3, fun _ _ _ _ => h⟩, fun h => h.exited h1 h2 h3 h4⟩
        · rw [if_neg (mt (state_spaced hexited).1 h4)]
          exact ⟨fun _ => ⟨fun h' => absurd h' h1, fun _ h' => absurd h' h2,
            fun _ _ h' => absurd h' h3, fun _ _ _ h' => absurd h' h4⟩, fun _ => rfl⟩

/-- **Spaces in a status**: the three adapters return the same status for both renderings
exactly when, for containers, no flag is set, for VMs, the state is `running` or neither
`paused` nor `failed`, and for WOS processes, the local table has the status that the state
stands for. -/
theorem spacing_ignored_iff (a : Core.Wos.WosAdapter) (pid : UInt32) :
    (Core.Container.parseStatus (compact e ms) = Core.Container.parseStatus (spaced e ms) ↔
      ∀ w ∈ flagNames, ¬ Flag e ms w) ∧
    (Core.Pepita.parseStatus (compact e ms) = Core.Pepita.parseStatus (spaced e ms) ↔
      State e ms "running" ∨ (¬ State e ms "paused" ∧ ¬ State e ms "failed")) ∧
    ((Core.Wos.parseStatus (compact e ms)).getD (Core.Wos.localStatus a pid) =
        (Core.Wos.parseStatus (spaced e ms)).getD (Core.Wos.localStatus a pid) ↔
      LocalAgrees e ms (Core.Wos.localStatus a pid)) :=
  ⟨container_same_iff, pepita_same_iff, wos_same_iff⟩

/-- A container that runs is not recognised in the rendering that `docker inspect` prints. -/
theorem running_compact :
    Core.Container.parseStatus (compact .standard [("Running".toList, .scalar (.bool true))]) ≠
      Core.Container.parseStatus (spaced .standard [("Running".toList, .scalar (.bool true))]) := by
  decide

end Duende.Status
