import Duende.Core.Services
import Duende.Platform.ContainerArgs
import Duende.Platform.LaunchdPlist

/-!
# The names of units

What each adapter calls the unit of a daemon. `unit_names_distinct` says which of these names
distinct daemons share.
-/

namespace Duende

def Core.Systemd.unitName (daemonName : Text) : Text :=
  "duende-".toList ++ replaceChar ' ' '-' daemonName ++ ".service".toList

def Core.Launchd.serviceLabel (daemonName : Text) : Text :=
  "com.duende.".toList ++ replaceChar '_' '-' (replaceChar ' ' '-' daemonName)

def Core.Container.containerName (daemonName : Text) : Text :=
  "duende-".toList ++ replaceChar '_' '-' (replaceChar ' ' '-' daemonName)

def Platforms.Linux.unitName (daemonName : Text) : Text :=
  "duende-".toList ++ replaceChar ' ' '-' daemonName ++ ".service".toList

/-- The names in which only spaces are replaced. -/
def plainNames : List (Text → Text) :=
  [Core.Systemd.unitName, Platforms.Linux.unitName, Platforms.MacOS.serviceLabel,
    Platforms.Container.containerName, Platforms.Pepita.vmName]

/-- The names in which underscores are replaced as well. -/
def hyphenatedNames : List (Text → Text) :=
  [Core.Launchd.serviceLabel, Core.Container.containerName, Core.Pepita.vmId]

variable {table : Char → Bool} {c d : DaemonConfig} {s : Text}

theorem replaceChar_of_not_mem {a b : Char} (h : a ∉ s) : replaceChar a b s = s := by
  have hkeep : ∀ x ∈ s, (if x = a then b else x) = x := fun x hx =>
    if_neg fun e : x = a => h (e ▸ hx)
  exact (List.map_congr_left hkeep).trans (List.map_id s)

theorem DaemonConfig.Valid.space_not_mem (h : c.Valid table) : ' ' ∉ c.name := fun hmem =>
  Bool.false_ne_true (h.name_chars ' ' hmem)

theorem plainNames_eq : ∀ f ∈ plainNames, ∃ pre post : Text, ∀ s : Text, ' ' ∉ s →
    f s = pre ++ s ++ post := by
  have hbare : ∀ (pre s : Text), ' ' ∉ s → pre ++ replaceChar ' ' '-' s = pre ++ s ++ [] := by
    intro pre s hs
    rw [replaceChar_of_not_mem hs, List.append_nil]
  have hunit : ∀ (pre post s : Text), ' ' ∉ s →
      pre ++ replaceChar ' ' '-' s ++ post = pre ++ s ++ post := by
    intro pre post s hs
    rw [replaceChar_of_not_mem hs]
  intro f hf
  simp only [plainNames, List.mem_cons, List.not_mem_nil, or_false] at hf
  rcases hf with rfl | rfl | rfl | rfl | rfl
  · exact ⟨_, _, fun s hs => hunit _ _ s hs⟩
  · exact ⟨_, _, fun s hs => hunit _ _ s hs⟩
  · exact ⟨_, _, fun s hs => hbare _ s hs⟩
  · exact ⟨_, _, fun s hs => hbare _ s hs⟩
  · exact ⟨_, _, fun s hs => hbare _ s hs⟩

theorem hyphenatedNames_eq : ∀ f ∈ hyphenatedNames, ∃ pre : Text, ∀ s : Text, ' ' ∉ s →
    f s = pre ++ replaceChar '_' '-' s := by
  have hbare : ∀ (pre s : Text), ' ' ∉ s →
      pre ++ replaceChar '_' '-' (replaceChar ' ' '-' s) = pre ++ replaceChar '_' '-' s := by
    intro pre s hs
    rw [replaceChar_of_not_mem hs]
  intro f hf
  simp only [hyphenatedNames, List.mem_cons, List.not_mem_nil, or_false] at hf
  rcases hf with rfl | rfl | rfl
  · exact ⟨_, fun s hs => hbare _ s hs⟩
  · exact ⟨_, fun s hs => hbare _ s hs⟩
  · exact ⟨_, fun s hs => hbare _ s hs⟩

/-- **The units of two daemons** have distinct names, those of the launchd, container and
pepita adapters of the core when the daemons' names differ in more than hyphens for
underscores. -/
theorem unit_names_distinct (hc : c.validate table = .ok ()) (hd : d.validate table = .ok ())
    (hne : c.name ≠ d.name) :
    (∀ f ∈ plainNames, f c.name ≠ f d.name) ∧
      ∀ f ∈ hyphenatedNames,
        f c.name ≠ f d.name ↔ replaceChar '_' '-' c.name ≠ replaceChar '_' '-' d.name := by
  have hcs := (validate_iff.1 hc).space_not_mem
  have hds := (validate_iff.1 hd).space_not_mem
  constructor
  · intro f hf
    obtain ⟨pre, post, heq⟩ := plainNames_eq f hf
    rw [heq _ hcs, heq _ hds]
    exact fun h => hne (List.append_cancel_left (List.append_cancel_right h))
  · intro f hf
    obtain ⟨pre, heq⟩ := hyphenatedNames_eq f hf
    rw [heq _ hcs, heq _ hds]
    exact not_congr (List.append_right_inj pre)

def named (name : String) : DaemonConfig := .new name.toList (Path.ofText "/bin/d".toList)

theorem unit_names_of_two : Core.Container.containerName (named "a_b").name ≠
    Core.Container.containerName (named "a_c").name :=
  ((@unit_names_distinct (fun _ => false) (named "a_b") (named "a_c") (by decide +kernel)
    (by decide +kernel) (by decide)).2 _ (by simp [hyphenatedNames])).2 (by decide)

/-- One container, one VM and one launchd job for two daemons. -/
theorem unit_names_shared : (named "a-b").name ≠ (named "a_b").name ∧
    (named "a-b").validate (fun _ => false) = .ok () ∧
    (named "a_b").validate (fun _ => false) = .ok () ∧
    ∀ f ∈ hyphenatedNames, f (named "a-b").name = f (named "a_b").name := by
  refine ⟨by decide, by decide +kernel, by decide +kernel, fun f hf => ?_⟩
  simp only [hyphenatedNames, List.mem_cons, List.not_mem_nil, or_false] at hf
  rcases hf with rfl | rfl | rfl <;> decide

end Duende
