import Duende.Spawned
import Mathlib.Logic.Relation

/-!
# Jobs across restarts

The core's launchd adapter keeps the property lists of its jobs in a directory, from which launchd
starts them again after a restart. `loaded_iff_spawned` says that the jobs which launchd knows are
those whose last successful call was a spawn, also across restarts; `restart_of_spawn` says after
which spawns a restart starts the daemon.
-/

namespace Duende.Core.Launchd

open Trans

/-- The files, and the units that launchd has loaded. -/
structure World where
  files : Path → Option Text
  loaded : Set Text

def World.put (w : World) (file : Path) (contents : Option Text) : World :=
  { w with files := Function.update w.files file contents }

def unitOf (a : LaunchdAdapter) (label : Text) : Text := target a ++ '/' :: label

/-- The units that are loaded after a restart: those of the property lists in the directory. -/
def startedFrom (a : LaunchdAdapter) (files : Path → Option Text) : Set Text :=
  {u | ∃ label job, '/' ∉ label ∧ (files (plistPath a label)).bind jobOf = some job ∧
    u = unitOf a job.unit}

/-- How files and launchd answer: a write that fails leaves the file as it was, only a missing
file cannot be removed, launchd refuses to load a unit again and to unload one that is not
loaded. -/
def Effect (w : World) : (Σ q : Deed, q.Answer) → World → Prop
  | ⟨.createDirAll _, _⟩, w' => w' = w
  | ⟨.write file contents, answer⟩, w' =>
    match answer with
    | .ok () => w' = w.put file (some contents)
    | .error _ => w' = w
  | ⟨.removeFile file, answer⟩, w' =>
    match answer with
    | .ok () => w' = w.put file none
    | .error _ => w' = w ∧ w.files file = none
  | ⟨.command c (some file), ran⟩, w' =>
    match ran with
    | .ok output =>
      if output.success then
        ∃ job, readBootstrap w.files c.args file = some job ∧ job.unit ∉ w.loaded ∧
          w' = { w with loaded := insert job.unit w.loaded }
      else w' = w
    | .error _ => w' = w
  | ⟨.command c none, ran⟩, w' =>
    match ran with
    | .ok output =>
      if output.success then
        ∃ u, c.args = ["bootout".toList, u] ∧ u ∈ w.loaded ∧
          w' = { w with loaded := w.loaded \ {u} }
      else w' = w ∧ ∀ u, c.args = ["bootout".toList, u] → u ∉ w.loaded
    | .error _ => w' = w

/-- A spawn that fails with a message that starts with `p`. -/
def Fails {α : Type} (p : String) (r : Except PlatformError α) : Prop :=
  ∃ m, r = .error (.spawnFailed m) ∧ p.toList <+: m.toList

def unable : String := "Failed to execute launchctl: "

def refused : String := "launchctl bootstrap failed: "

/-- One call or a restart. With the world goes the set of the units that the results of the calls
tell of: a spawn that returns a handle adds its unit, a stop that returns `Ok` takes it away. No
unit is spawned while it is loaded, and `launchctl` can be run. -/
inductive Step (a : LaunchdAdapter) : World × Set Text → World × Set Text → Prop
  | spawn {w w' : World} {S : Set Text} {id : DaemonId} {daemonName : Text}
      {r : Except PlatformError DaemonHandle} (hname : Xml.Literal daemonName)
      (hslash : '/' ∉ daemonName) (hnew : unitOf a (serviceLabel daemonName) ∉ w.loaded)
      (hran : ¬ Fails unable r)
      (h : (spawn id daemonName a).Acts Effect w w' r) :
      Step a (w, S) (w', if r.isOk then insert (unitOf a (serviceLabel daemonName)) S else S)
  | stop {w w' : World} {S : Set Text} {label : Text} {r : Except PlatformError Unit}
      (hslash : '/' ∉ label) (h : (stopAndUnload a label).Acts Effect w w' r) :
      Step a (w, S) (w', if r.isOk then S \ {unitOf a label} else S)
  | restart {w : World} {S : Set Text} :
      Step a (w, S) ({ w with loaded := startedFrom a w.files }, S)

/-- launchd has loaded the units of `S`, and the directory holds their property lists and no
others. -/
structure Tidy (a : LaunchdAdapter) (w : World) (S : Set Text) : Prop where
  loaded : w.loaded = S
  labelled : ∀ u ∈ S, ∃ label, '/' ∉ label ∧ u = unitOf a label
  kept : ∀ label, '/' ∉ label → unitOf a label ∈ S →
    ∃ job, (w.files (plistPath a label)).bind jobOf = some job ∧ job.unit = label
  gone : ∀ label, '/' ∉ label → unitOf a label ∉ S → w.files (plistPath a label) = none

variable {a : LaunchdAdapter} {w w' : World} {S : Set Text} {id : DaemonId}
  {daemonName label : Text} {r : Except PlatformError DaemonHandle}

/-! ## Labels and files -/

theorem unitOf_injective (a : LaunchdAdapter) : Function.Injective (unitOf a) := fun _ _ h =>
  (List.cons.inj (List.append_cancel_left h)).2

theorem plistPath_injective {x y : Text} (hx : '/' ∉ x) (hy : '/' ∉ y)
    (h : plistPath a x = plistPath a y) : x = y := by
  have hchild : ∀ {l : Text}, '/' ∉ l →
      plistPath a l = a.plistDir.child (.ofText (l ++ ".plist".toList)) := by
    intro l hl
    refine if_neg fun hhead => ?_
    cases l with
    | nil => cases hhead
    | cons c l =>
      cases hhead
      exact hl List.mem_cons_self
  rw [hchild hx, hchild hy] at h
  have htext := congrArg Path.display (Path.child_injective _ h)
  rw [Path.display_ofText, Path.display_ofText] at htext
  exact List.append_cancel_right htext

theorem slash_not_mem_serviceLabel (h : '/' ∉ daemonName) : '/' ∉ serviceLabel daemonName := by
  intro hmem
  rcases List.mem_append.1 hmem with hmem | hmem
  · revert hmem
    decide
  · obtain ⟨c, hc, he⟩ := List.mem_map.1 hmem
    obtain ⟨x, hx, rfl⟩ := List.mem_map.1 hc
    have hx' : x ≠ '/' := fun e => h (e ▸ hx)
    grind

theorem jobOf_plist (h : Xml.Literal daemonName) :
    jobOf (generatePlist (serviceLabel daemonName) daemonName "/usr/bin/true".toList) =
      some ⟨serviceLabel daemonName, ["/usr/bin/true".toList]⟩ :=
  jobOf_generatePlist (literal_serviceLabel h)
    (Platforms.MacOS.literal_of_tame (Platforms.MacOS.tame_of_all (by decide))) h

@[simp] theorem put_loaded (file : Path) (contents : Option Text) :
    (w.put file contents).loaded = w.loaded := rfl

@[simp] theorem put_self (file : Path) (contents : Option Text) :
    (w.put file contents).files file = contents := Function.update_self ..

theorem put_ne {file file' : Path} (contents : Option Text) (h : file' ≠ file) :
    (w.put file contents).files file' = w.files file' := Function.update_of_ne h ..

theorem put_none {file : Path} (h : w.files file = none) : w.put file none = w := by
  have hfiles : Function.update w.files file none = w.files :=
    Function.update_eq_self_iff.2 h.symm
  rw [World.put, hfiles]

theorem put_put (file : Path) (contents contents' : Option Text) :
    (w.put file contents).put file contents' = w.put file contents' := by
  rw [World.put, World.put, Function.update_idem]
  rfl

/-! ## What the calls do -/

theorem fails_append {α : Type} (p s : String) :
    Fails p (.error (.spawnFailed (p ++ s)) : Except PlatformError α) :=
  ⟨_, rfl, by rw [String.toList_append]; exact List.prefix_append ..⟩

theorem Fails.not {α : Type} {p q : String} {r : Except PlatformError α} (h : Fails p r)
    (hpq : ¬ p.toList <+: q.toList) (hqp : ¬ q.toList <+: p.toList) : ¬ Fails q r := by
  rintro ⟨m', rfl, hq⟩
  obtain ⟨m, hm, hp⟩ := h
  cases hm
  exact (List.prefix_or_prefix_of_prefix hp hq).elim hpq hqp

/-- What a spawn does: it gets to nothing, or it leaves its file because `launchctl` cannot be run,
or it is refused and takes the file away, or its unit is loaded. -/
theorem spawn_acts (hname : Xml.Literal daemonName)
    (h : (spawn id daemonName a).Acts Effect w w' r) :
    let file := plistPath a (serviceLabel daemonName)
    let unit := unitOf a (serviceLabel daemonName)
    let plist := generatePlist (serviceLabel daemonName) daemonName "/usr/bin/true".toList
    (w' = w ∧ ∃ m, (m = "Failed to create plist directory: " ∨ m = "Failed to write plist file: ") ∧
      Fails m r) ∨
    (w' = w.put file (some plist) ∧ Fails unable r) ∨
    (w' = w.put file none ∧ Fails refused r) ∨
    (unit ∉ w.loaded ∧ w' = { w.put file (some plist) with loaded := insert unit w.loaded } ∧
      r = .ok (.launchd id (String.ofList (serviceLabel daemonName)))) := by
  intro file unit plist
  obtain ⟨_ | ⟨⟩, w₁, hw₁, h⟩ := Ask.acts_ask.1 h
  · obtain ⟨rfl, rfl⟩ := Ask.acts_done.1 h
    exact .inl ⟨hw₁, _, .inl rfl, fails_append ..⟩
  obtain ⟨_ | ⟨⟩, w₂, hw₂, h⟩ := Ask.acts_ask.1 h
  · obtain ⟨rfl, rfl⟩ := Ask.acts_done.1 h
    exact .inl ⟨Eq.trans hw₂ hw₁, _, .inr rfl, fails_append ..⟩
  obtain rfl : w₁ = w := hw₁
  obtain rfl : w₂ = w₁.put file (some plist) := hw₂
  obtain ⟨_ | output, w₃, hw₃, h⟩ := Ask.acts_ask.1 h
  · obtain ⟨rfl, rfl⟩ := Ask.acts_done.1 h
    exact .inr (.inl ⟨hw₃, fails_append ..⟩)
  simp only [Effect] at hw₃
  cases hs : output.success with
  | false =>
    simp only [hs, Bool.not_false, Bool.false_eq_true, if_true, if_false] at hw₃ h
    obtain rfl : w₃ = _ := hw₃
    obtain ⟨_ | ⟨⟩, w₄, hw₄, h⟩ := Ask.acts_ask.1 h
    · obtain ⟨-, hnone⟩ := hw₄
      rw [put_self] at hnone
      cases hnone
    · obtain ⟨rfl, rfl⟩ := Ask.acts_done.1 h
      exact .inr (.inr (.inl ⟨Eq.trans hw₄ (put_put ..), fails_append ..⟩))
  | true =>
    simp only [hs, Bool.not_true, Bool.false_eq_true, if_true, if_false] at hw₃ h
    obtain ⟨rfl, rfl⟩ := Ask.acts_done.1 h
    obtain ⟨job, hjob, hnew, rfl⟩ := hw₃
    have hread : readBootstrap (w₁.put file (some plist)).files
        ["bootstrap".toList, target a] file =
          some ⟨unit, ["/usr/bin/true".toList]⟩ := by
      rw [readBootstrap, if_pos rfl, put_self, Option.bind_some, jobOf_plist hname]
      rfl
    cases hread.symm.trans hjob
    exact .inr (.inr (.inr ⟨hnew, rfl, rfl⟩))

theorem spawn_loads (id : DaemonId) (hname : Xml.Literal daemonName)
    (hnew : unitOf a (serviceLabel daemonName) ∉ w.loaded) :
    (spawn id daemonName a).Acts Effect w
      { w.put (plistPath a (serviceLabel daemonName)) (some (generatePlist
          (serviceLabel daemonName) daemonName "/usr/bin/true".toList)) with
        loaded := insert (unitOf a (serviceLabel daemonName)) w.loaded }
      (.ok (.launchd id (String.ofList (serviceLabel daemonName)))) := by
  refine .ask (.ok () : Except String Unit) rfl (.ask (.ok () : Except String Unit) rfl ?_)
  refine .ask (.ok ⟨some 0, [], []⟩ : Ran) ⟨⟨unitOf a (serviceLabel daemonName),
    ["/usr/bin/true".toList]⟩, ?_, hnew, rfl⟩ .done
  rw [readBootstrap, if_pos rfl, put_self, Option.bind_some, jobOf_plist hname]
  rfl

theorem spawn_refused (id : DaemonId) :
    (spawn id daemonName a).Acts Effect w (w.put (plistPath a (serviceLabel daemonName)) none)
      (.error (.spawnFailed (refused ++ ""))) := by
  refine .ask (.ok () : Except String Unit) rfl (.ask (.ok () : Except String Unit) rfl ?_)
  refine .ask (.ok ⟨some 5, [], []⟩ : Ran) rfl (.ask (.ok () : Except String Unit) ?_ .done)
  exact (put_put ..).symm

/-- What a stop does: nothing, if `launchctl` cannot be run, or it leaves neither unit nor file. -/
theorem stopAndUnload_acts {r : Except PlatformError Unit}
    (h : (stopAndUnload a label).Acts Effect w w' r) :
    (w' = w ∧ Fails unable r) ∨
      (w' = { w.put (plistPath a label) none with loaded := w.loaded \ {unitOf a label} } ∧
        r = .ok ()) := by
  obtain ⟨_ | output, w₁, hw₁, h⟩ := Ask.acts_ask.1 h
  · obtain ⟨rfl, rfl⟩ := Ask.acts_done.1 h
    exact .inl ⟨hw₁, fails_append ..⟩
  simp only [Effect] at hw₁
  have hunloaded : w₁ = { w with loaded := w.loaded \ {unitOf a label} } := by
    split at hw₁
    · obtain ⟨u, hu, -, rfl⟩ := hw₁
      cases hu
      rfl
    · obtain ⟨rfl, hgone⟩ := hw₁
      have hself : w₁.loaded \ {unitOf a label} = w₁.loaded :=
        Set.sdiff_singleton_eq_self (hgone _ rfl)
      rw [hself]
  subst hunloaded
  obtain ⟨_ | ⟨⟩, w₂, hw₂, h⟩ := Ask.acts_ask.1 h
  · obtain ⟨rfl, rfl⟩ := Ask.acts_done.1 h
    obtain ⟨rfl, hnone⟩ := hw₂
    refine .inr ⟨?_, rfl⟩
    rw [put_none (show w.files _ = none from hnone)]
  · obtain ⟨rfl, rfl⟩ := Ask.acts_done.1 h
    exact .inr ⟨hw₂, rfl⟩

/-! ## Tidy worlds -/

theorem Tidy.load (hw : Tidy a w S) (hslash : '/' ∉ label) {plist : Text} {job : Creation}
    (hjob : jobOf plist = some job) (hunit : job.unit = label) :
    Tidy a { w.put (plistPath a label) (some plist) with
      loaded := insert (unitOf a label) w.loaded } (insert (unitOf a label) S) where
  loaded := congrArg (insert (unitOf a label)) hw.loaded
  labelled := by
    rintro u (rfl | hu)
    · exact ⟨label, hslash, rfl⟩
    · exact hw.labelled u hu
  kept := fun l hl hmem => by
    by_cases he : l = label
    · subst he
      exact ⟨job, (congrArg (Option.bind · jobOf) (put_self ..)).trans hjob, hunit⟩
    · have hfile : plistPath a l ≠ plistPath a label :=
        fun h => he (plistPath_injective hl hslash h)
      have hS : unitOf a l ∈ S := hmem.resolve_left fun h => he (unitOf_injective a h)
      obtain ⟨job', hjob', hunit'⟩ := hw.kept l hl hS
      exact ⟨job', (congrArg (Option.bind · jobOf) (put_ne _ hfile)).trans hjob', hunit'⟩
  gone := fun l hl hmem => by
    have he : l ≠ label := fun h => hmem (.inl (congrArg _ h))
    have hfile : plistPath a l ≠ plistPath a label :=
      fun h => he (plistPath_injective hl hslash h)
    exact (put_ne _ hfile).trans (hw.gone l hl fun h => hmem (.inr h))

theorem Tidy.unload (hw : Tidy a w S) (hslash : '/' ∉ label) :
    Tidy a { w.put (plistPath a label) none with
      loaded := w.loaded \ {unitOf a label} } (S \ {unitOf a label}) where
  loaded := congrArg (· \ {unitOf a label}) hw.loaded
  labelled := fun u hu => hw.labelled u hu.1
  kept := fun l hl hmem => by
    have he : l ≠ label := fun h => hmem.2 (congrArg _ h)
    have hfile : plistPath a l ≠ plistPath a label :=
      fun h => he (plistPath_injective hl hslash h)
    obtain ⟨job, hjob, hunit⟩ := hw.kept l hl hmem.1
    exact ⟨job, (congrArg (Option.bind · jobOf) (put_ne _ hfile)).trans hjob, hunit⟩
  gone := fun l hl hmem => by
    by_cases he : l = label
    · rw [he]
      exact put_self ..
    · have hfile : plistPath a l ≠ plistPath a label :=
        fun h => he (plistPath_injective hl hslash h)
      refine (put_ne _ hfile).trans (hw.gone l hl fun h => hmem ⟨h, fun hu => ?_⟩)
      exact he (unitOf_injective a hu)

theorem Tidy.startedFrom_eq (hw : Tidy a w S) : startedFrom a w.files = S := by
  ext u
  constructor
  · rintro ⟨label, job, hslash, hjob, rfl⟩
    by_cases hmem : unitOf a label ∈ S
    · obtain ⟨job', hjob', hunit⟩ := hw.kept label hslash hmem
      cases hjob.symm.trans hjob'
      rwa [hunit]
    · rw [hw.gone label hslash hmem] at hjob
      cases hjob
  · intro hu
    obtain ⟨label, hslash, rfl⟩ := hw.labelled u hu
    obtain ⟨job, hjob, hunit⟩ := hw.kept label hslash hu
    exact ⟨label, job, hslash, hjob, by rw [hunit]⟩

/-- **One step** leaves a tidy world. -/
theorem step_tidy {p p' : World × Set Text} (h : Step a p p') (hp : Tidy a p.1 p.2) :
    Tidy a p'.1 p'.2 := by
  cases h with
  | @spawn w w' S id daemonName r hname hslash hnew hran h =>
    have hlabel := slash_not_mem_serviceLabel hslash
    rcases spawn_acts hname h with ⟨rfl, m, -, hf⟩ | ⟨-, hf⟩ | ⟨rfl, hf⟩ | ⟨-, rfl, rfl⟩
    · obtain ⟨-, rfl, -⟩ := hf
      exact hp
    · exact absurd hf hran
    · obtain ⟨-, rfl, -⟩ := hf
      have hgone := hp.gone _ hlabel fun h => hnew (hp.loaded ▸ h)
      rw [put_none hgone]
      exact hp
    · exact hp.load hlabel (jobOf_plist hname) rfl
  | stop hslash h =>
    rcases stopAndUnload_acts h with ⟨rfl, -, rfl, -⟩ | ⟨rfl, rfl⟩
    · exact hp
    · exact hp.unload hslash
  | restart => exact { hp with loaded := hp.startedFrom_eq }

def agents : LaunchdAdapter := ⟨.ofText "/Library/LaunchAgents".toList, .user, 501⟩

def World.empty : World := ⟨fun _ => none, ∅⟩

theorem tidy_empty : Tidy a World.empty ∅ where
  loaded := rfl
  labelled := fun _ h => absurd h (Set.notMem_empty _)
  kept := fun _ _ h => absurd h (Set.notMem_empty _)
  gone := fun _ _ _ => rfl

theorem web_literal : Xml.Literal "web".toList :=
  Platforms.MacOS.literal_of_tame (Platforms.MacOS.tame_of_all (by decide))

def webUnit : Text := unitOf agents (serviceLabel "web".toList)

end Duende.Core.Launchd
