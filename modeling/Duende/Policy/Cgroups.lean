import Duende.Policy.Limiter
import Duende.Decimals
import Duende.Trans.Run

/-!
# Cgroups over the life of the processes

`ResourceLimiter::remove`, and runs of `apply` and `remove` for any processes, between which
processes fork and exit. What the kernel answers is arbitrary, up to two things it documents: the
file `cgroup.procs` lists only processes of its cgroup, and a cgroup with a process in it is not
removed. `limits_persist` says that what `apply` put in force for one process stays in force
whatever is applied to and removed from the others; `processes_housed` says that no process is ever
left in a cgroup that is gone.
-/

namespace Duende.Policy

/-! ## Removing a cgroup -/

/-- What the kernel answers while a cgroup is removed: the text of a file, whether a write fails,
and whether the directory is removed. -/
structure Removal where
  read : Path → Except Text Text
  write : Path → Text → Except Text Unit
  removeDir : Path → Except Text Unit

def cgroupProcs (dir : Path) : Path := cgroupFile dir "cgroup.procs".toList

/-- Moves a process to the parent; an error is ignored. -/
def moveLine (k : Removal) (base : Path) (line : Text) (fs : Cgroups) : Cgroups :=
  match parseUnsigned u32Max (trim line) with
  | none => fs
  | some pid =>
    match k.write (cgroupProcs base) (decimal pid) with
    | .error _ => fs
    | .ok () => { fs with group := Function.update fs.group (UInt32.ofNat pid) (some base) }

def moveLines (k : Removal) (base : Path) : List Text → Cgroups → Cgroups
  | [], fs => fs
  | line :: ls, fs => moveLines k base ls (moveLine k base line fs)

def moveToParent (k : Removal) (base dir : Path) (fs : Cgroups) : Cgroups :=
  match k.read (cgroupProcs dir) with
  | .error _ => fs
  | .ok procs => if trim procs = [] then fs else moveLines k base (lines procs) fs

/-- The directory is gone, with the files the kernel kept in it. -/
def Cgroups.removed (fs : Cgroups) (dir : Path) : Cgroups where
  dirs := Function.update fs.dirs dir false
  files p := if cgroupFile dir [] <+: p then none else fs.files p
  group := fs.group

def ResourceLimiter.remove (l : ResourceLimiter) (k : Removal) (pid : UInt32) (fs : Cgroups) :
    Outcome :=
  let dir := l.cgroupPath pid
  if fs.dirs dir then
    let moved := moveToParent k l.cgroupBase dir fs
    match k.removeDir dir with
    | .error e => (.error (.resourceLimit ("failed to remove cgroup: ".toList ++ e)), moved)
    | .ok () => (.ok (), moved.removed dir)
  else (.ok (), fs)

/-! ## The paths of two processes -/

variable {l : ResourceLimiter} {fs fs' : Cgroups} {p q : UInt32}

theorem slash_not_mem_decimal (n : Nat) : '/' ∉ decimal n := fun h =>
  absurd (isDigit_of_mem_decimal h) (by decide)

theorem cgroupPath_eq (l : ResourceLimiter) : ∃ pre : Path, ∀ pid : UInt32,
    l.cgroupPath pid = pre ++ .ofText (decimal pid.toNat) := by
  have htext : ∀ pid : UInt32, Path.ofText (l.cgroupPrefix ++ '-' :: decimal pid.toNat) =
      Path.ofText (l.cgroupPrefix ++ ['-']) ++ .ofText (decimal pid.toNat) := fun pid => by
    simp [Path.ofText]
  have hhead : ∀ pid : UInt32, (Path.ofText (l.cgroupPrefix ++ '-' :: decimal pid.toNat)).head? =
      (Path.ofText (l.cgroupPrefix ++ ['-'])).head? := fun pid => by
    cases l.cgroupPrefix <;> rfl
  by_cases habs : (Path.ofText (l.cgroupPrefix ++ ['-'])).head? = some (.inl '/')
  · refine ⟨Path.ofText (l.cgroupPrefix ++ ['-']), fun pid => ?_⟩
    rw [ResourceLimiter.cgroupPath, Path.join, hhead, if_pos habs, htext]
  · refine ⟨l.cgroupBase.child (Path.ofText (l.cgroupPrefix ++ ['-'])), fun pid => ?_⟩
    rw [ResourceLimiter.cgroupPath, Path.join, hhead, if_neg habs, htext]
    unfold Path.child
    split <;> simp

theorem cgroupPath_injective (l : ResourceLimiter) : Function.Injective l.cgroupPath := by
  intro p q h
  obtain ⟨pre, hpre⟩ := cgroupPath_eq l
  rw [hpre, hpre] at h
  have hd : decimal p.toNat = decimal q.toNat :=
    List.map_injective_iff.2 Sum.inl_injective (List.append_cancel_left h)
  exact UInt32.toNat_inj.1 (decimal_injective hd)

/-- A file of the cgroup is at the path of its process, a slash and its name. -/
theorem cgroupFile_path (l : ResourceLimiter) (pid : UInt32) (name : Text) :
    cgroupFile (l.cgroupPath pid) name = l.cgroupPath pid ++ .inl '/' :: Path.ofText name := by
  obtain ⟨pre, hpre⟩ := cgroupPath_eq l
  have hne : decimal pid.toNat ≠ [] := Nat.toDigits_ne_nil
  have hlast : (l.cgroupPath pid).getLast? ≠ some (.inl '/') := by
    rw [hpre, List.getLast?_append_of_ne_nil _ (by simpa [Path.ofText] using hne)]
    intro h
    have hmem := List.mem_of_getLast? h
    simp only [Path.ofText, List.mem_map, Sum.inl.injEq, exists_eq_right] at hmem
    exact slash_not_mem_decimal _ hmem
  have hnil : l.cgroupPath pid ≠ [] := by
    rw [hpre]
    simpa [Path.ofText] using fun _ => hne
  rw [cgroupFile, Path.child, if_neg (by simp only [hnil, hlast, or_self, not_false_iff])]

/-- The cgroups of two processes have no file in common, whatever the names. -/
theorem cgroupFile_ne (hpq : p ≠ q) (name name' : Text) (rest : Path) :
    cgroupFile (l.cgroupPath p) name ++ rest ≠ cgroupFile (l.cgroupPath q) name' := by
  intro h
  obtain ⟨pre, hpre⟩ := cgroupPath_eq l
  rw [cgroupFile_path, cgroupFile_path, hpre, hpre, List.append_assoc, List.append_assoc,
    List.append_assoc] at h
  have h' := congrArg (fun xs => xs.takeWhile (· ≠ Sum.inl '/')) (List.append_cancel_left h)
  have hslash : ∀ (n : Nat) (xs : Path), (Path.ofText (decimal n) ++ .inl '/' :: xs).takeWhile
      (· ≠ Sum.inl '/') = Path.ofText (decimal n) := fun n xs => by
    rw [List.takeWhile_append_of_pos]
    · simp
    · intro x hx
      simp only [Path.ofText, List.mem_map] at hx
      obtain ⟨c, hc, rfl⟩ := hx
      simpa using fun he : c = '/' => slash_not_mem_decimal n (he ▸ hc)
  simp only [List.cons_append] at h'
  rw [hslash, hslash] at h'
  have hd : decimal p.toNat = decimal q.toNat := List.map_injective_iff.2 Sum.inl_injective h'
  exact hpq (UInt32.toNat_inj.1 (decimal_injective hd))

/-! ## What a call leaves alone -/

/-- The cgroup of `q` exists or not as before, and its files are the same. -/
structure Untouched (l : ResourceLimiter) (q : UInt32) (fs fs' : Cgroups) : Prop where
  dir : fs'.dirs (l.cgroupPath q) = fs.dirs (l.cgroupPath q)
  files : ∀ name, fs'.files (cgroupFile (l.cgroupPath q) name) =
    fs.files (cgroupFile (l.cgroupPath q) name)

theorem Untouched.refl (l : ResourceLimiter) (q : UInt32) (fs : Cgroups) : Untouched l q fs fs :=
  ⟨rfl, fun _ => rfl⟩

theorem Untouched.trans {fs'' : Cgroups} (h : Untouched l q fs fs') (h' : Untouched l q fs' fs'') :
    Untouched l q fs fs'' :=
  ⟨h'.dir.trans h.dir, fun name => (h'.files name).trans (h.files name)⟩

theorem andThen_keeps {R : Cgroups → Cgroups → Prop} {o : Outcome} {f : Cgroups → Outcome}
    (htrans : ∀ a b c, R a b → R b c → R a c) (ho : R fs o.2) (hf : ∀ fs, R fs (f fs).2) :
    R fs (o.andThen f).2 := by
  rcases o with ⟨_ | _, fs1⟩
  · exact ho
  · exact htrans _ _ _ ho (hf fs1)

section

variable {k : Kernel} {dir : Path}

theorem createGroup_untouched (hpq : p ≠ q) :
    Untouched l q fs (createGroup k (l.cgroupPath p) fs).2 := by
  unfold createGroup
  split
  · exact .refl l q fs
  · split
    · exact .refl l q fs
    · rename_i files _
      refine ⟨Function.update_of_ne ((cgroupPath_injective l).ne hpq.symm) .., fun name => ?_⟩
      have hfind : files.find? (fun f => cgroupFile (l.cgroupPath p) f.1 =
          cgroupFile (l.cgroupPath q) name) = none := by
        rw [List.find?_eq_none]
        intro f _
        simpa using cgroupFile_ne hpq f.1 name []
      simp only [Cgroups.created, hfind, Option.elim_none]

theorem createGroup_group : (createGroup k dir fs).2.group = fs.group := by
  unfold createGroup
  split
  · rfl
  · split <;> rfl

theorem applySetting_untouched (s : Setting) (hpq : p ≠ q) :
    Untouched l q fs (applySetting k (l.cgroupPath p) s fs).2 := by
  unfold applySetting
  split
  · split
    · exact .refl l q fs
    · refine ⟨rfl, fun name => Function.update_of_ne ?_ ..⟩
      simpa using (cgroupFile_ne hpq s.file name []).symm
  · exact .refl l q fs

theorem applySetting_group (s : Setting) : (applySetting k dir s fs).2.group = fs.group := by
  unfold applySetting
  split
  · split <;> rfl
  · rfl

theorem applySettings_untouched (ss : List Setting) (hpq : p ≠ q) :
    ∀ fs, Untouched l q fs (applySettings k (l.cgroupPath p) ss fs).2 := by
  induction ss with
  | nil => exact fun fs => .refl l q fs
  | cons s ss ih =>
    exact fun fs => andThen_keeps (fun _ _ _ => Untouched.trans) (applySetting_untouched s hpq) ih

theorem applySettings_dirs (k : Kernel) (dir : Path) (ss : List Setting) :
    ∀ fs, (applySettings k dir ss fs).2.dirs = fs.dirs := by
  induction ss with
  | nil => exact fun _ => rfl
  | cons s ss ih =>
    refine fun fs => andThen_keeps (R := fun a b => b.dirs = a.dirs)
      (fun _ _ _ h h' => h'.trans h) ?_ ih
    unfold applySetting
    split
    · split <;> rfl
    · rfl

theorem applySettings_group (k : Kernel) (dir : Path) (ss : List Setting) :
    ∀ fs, (applySettings k dir ss fs).2.group = fs.group := by
  induction ss with
  | nil => exact fun _ => rfl
  | cons s ss ih =>
    exact fun fs => andThen_keeps (R := fun a b => b.group = a.group)
      (fun _ _ _ h h' => h'.trans h) (applySetting_group s) ih

theorem moveProcess_untouched : Untouched l q fs (moveProcess k dir p fs).2 := by
  unfold moveProcess
  split <;> exact ⟨rfl, fun _ => rfl⟩

theorem apply_untouched (l : ResourceLimiter) (k : Kernel) (fs : Cgroups) (hpq : p ≠ q) :
    Untouched l q fs (l.apply k p fs).2 :=
  andThen_keeps (fun _ _ _ => Untouched.trans) (createGroup_untouched hpq) fun _ =>
    andThen_keeps (fun _ _ _ => Untouched.trans) (applySettings_untouched _ hpq _) fun _ =>
      moveProcess_untouched

theorem apply_group {x : UInt32} (hx : x ≠ p) : (l.apply k p fs).2.group x = fs.group x := by
  refine andThen_keeps (R := fun a b => b.group x = a.group x) (fun _ _ _ h h' => h'.trans h)
    (by rw [createGroup_group]) fun fs => ?_
  refine andThen_keeps (R := fun a b => b.group x = a.group x) (fun _ _ _ h h' => h'.trans h)
    (by rw [applySettings_group]) fun fs => ?_
  unfold moveProcess
  split
  · rfl
  · exact Function.update_of_ne hx ..

end

section

variable {k : Removal} {base dir : Path}

/-- Moving to the parent changes nothing but the cgroups of the processes listed. -/
theorem moveLine_frame (k : Removal) (base : Path) (line : Text) (fs : Cgroups) :
    (moveLine k base line fs).dirs = fs.dirs ∧ (moveLine k base line fs).files = fs.files ∧
      ∀ x, (moveLine k base line fs).group x = fs.group x ∨
        (parseUnsigned u32Max (trim line) = some x.toNat ∧
          (moveLine k base line fs).group x = some base) := by
  unfold moveLine
  split
  · exact ⟨rfl, rfl, fun _ => .inl rfl⟩
  · rename_i pid hpid
    split
    · exact ⟨rfl, rfl, fun _ => .inl rfl⟩
    · refine ⟨rfl, rfl, fun x => ?_⟩
      by_cases hx : x = UInt32.ofNat pid
      · subst hx
        have hle : pid ≤ u32Max := (parseUnsigned_eq_some.1 hpid).2
        have hnat : (UInt32.ofNat pid).toNat = pid := by
          rw [UInt32.toNat_ofNat']
          exact Nat.mod_eq_of_lt (by unfold u32Max at hle; omega)
        exact .inr ⟨by rw [hpid, hnat], Function.update_self ..⟩
      · exact .inl (Function.update_of_ne hx ..)

theorem moveLines_frame (k : Removal) (base : Path) : ∀ (ls : List Text) (fs : Cgroups),
    (moveLines k base ls fs).dirs = fs.dirs ∧ (moveLines k base ls fs).files = fs.files ∧
      ∀ x, (moveLines k base ls fs).group x = fs.group x ∨
        ((∃ line ∈ ls, parseUnsigned u32Max (trim line) = some x.toNat) ∧
          (moveLines k base ls fs).group x = some base)
  | [], _ => ⟨rfl, rfl, fun _ => .inl rfl⟩
  | line :: ls, fs => by
    obtain ⟨hdirs, hfiles, hgroup⟩ := moveLine_frame k base line fs
    obtain ⟨hdirs', hfiles', hgroup'⟩ := moveLines_frame k base ls (moveLine k base line fs)
    refine ⟨hdirs'.trans hdirs, hfiles'.trans hfiles, fun x => ?_⟩
    rcases hgroup' x with h' | ⟨⟨w, hw, hp⟩, hb⟩
    · rcases hgroup x with h | ⟨hp, hb⟩
      · exact .inl (h'.trans h)
      · exact .inr ⟨⟨line, List.mem_cons_self, hp⟩, h'.trans hb⟩
    · exact .inr ⟨⟨w, List.mem_cons_of_mem _ hw, hp⟩, hb⟩

/-- The kernel lists only processes of the cgroup. -/
def Removal.Lists (k : Removal) (dir : Path) (fs : Cgroups) : Prop :=
  ∀ procs, k.read (cgroupProcs dir) = .ok procs → ∀ line ∈ lines procs, ∀ x : UInt32,
    parseUnsigned u32Max (trim line) = some x.toNat → fs.group x = some dir

theorem moveToParent_frame (base : Path) (fs : Cgroups) (hl : k.Lists dir fs) :
    (moveToParent k base dir fs).dirs = fs.dirs ∧ (moveToParent k base dir fs).files = fs.files ∧
      ∀ x, (moveToParent k base dir fs).group x = fs.group x ∨
        (fs.group x = some dir ∧ (moveToParent k base dir fs).group x = some base) := by
  unfold moveToParent
  split
  · exact ⟨rfl, rfl, fun _ => .inl rfl⟩
  · rename_i procs hread
    split
    · exact ⟨rfl, rfl, fun _ => .inl rfl⟩
    · obtain ⟨hdirs, hfiles, hgroup⟩ := moveLines_frame k base (lines procs) fs
      refine ⟨hdirs, hfiles, fun x => ?_⟩
      rcases hgroup x with h | ⟨⟨line, hline, hp⟩, hb⟩
      · exact .inl h
      · exact .inr ⟨hl procs hread line hline x hp, hb⟩

end

section

variable {k : Removal}

theorem remove_untouched (hpq : p ≠ q) (hl : k.Lists (l.cgroupPath p) fs) :
    Untouched l q fs (l.remove k p fs).2 := by
  obtain ⟨hdirs, hfiles, -⟩ := moveToParent_frame l.cgroupBase fs hl
  have hmoved : Untouched l q fs (moveToParent k l.cgroupBase (l.cgroupPath p) fs) :=
    ⟨by rw [hdirs], fun name => by rw [hfiles]⟩
  unfold ResourceLimiter.remove
  simp only
  split
  · split
    · exact hmoved
    · refine hmoved.trans ⟨Function.update_of_ne ((cgroupPath_injective l).ne hpq.symm) ..,
        fun name => if_neg ?_⟩
      rintro ⟨rest, hrest⟩
      exact cgroupFile_ne hpq [] name rest hrest
  · exact .refl l q fs

/-- Only processes of the cgroup are moved, and only to the parent. -/
theorem remove_group (hl : k.Lists (l.cgroupPath p) fs) (x : UInt32) :
    (l.remove k p fs).2.group x = fs.group x ∨
      (fs.group x = some (l.cgroupPath p) ∧
        (l.remove k p fs).2.group x = some l.cgroupBase) := by
  obtain ⟨-, -, hgroup⟩ := moveToParent_frame l.cgroupBase fs hl
  unfold ResourceLimiter.remove
  simp only
  split
  · split <;> exact hgroup x
  · exact .inl rfl

end

/-! ## Runs -/

/-- A call of the limiter, whose limits may have been set anew, with what the kernel answers; or a
process forks or exits. -/
inductive Event where
  | apply (limits : ResourceLimits) (k : Kernel) (pid : UInt32)
  | remove (k : Removal) (pid : UInt32)
  | fork (parent child : UInt32)
  | exit (pid : UInt32)

/-- A child starts in the cgroup of its parent. -/
def Event.step (l : ResourceLimiter) (fs : Cgroups) : Event → Option Cgroups
  | .apply limits k pid => some (({ l with limits } : ResourceLimiter).apply k pid fs).2
  | .remove k pid => some (l.remove k pid fs).2
  | .fork parent child =>
    if fs.group child = none then
      some { fs with group := Function.update fs.group child (fs.group parent) }
    else none
  | .exit pid => some { fs with group := Function.update fs.group pid none }

/-- The kernel answers as it documents: it lists only processes of the cgroup, and it removes none
with a process in it. -/
def Event.Truthful (l : ResourceLimiter) (fs : Cgroups) : Event → Prop
  | .remove k pid => k.Lists (l.cgroupPath pid) fs ∧
      (k.removeDir (l.cgroupPath pid) = .ok () → ∀ x,
        (moveToParent k l.cgroupBase (l.cgroupPath pid) fs).group x ≠ some (l.cgroupPath pid))
  | _ => True

/-- The event is not about the process. -/
def Event.Spares (q : UInt32) : Event → Prop
  | .apply _ _ pid => pid ≠ q
  | .remove _ pid => pid ≠ q
  | .fork _ _ => True
  | .exit pid => pid ≠ q

/-- **The step lemma**: an event that is about other processes leaves the cgroup of `q` alone, and
every process in it that it is not about either. -/
theorem step_spares {e : Event} (hs : e.Spares q) (ht : e.Truthful l fs)
    (h : e.step l fs = some fs') :
    Untouched l q fs fs' ∧ ∀ x, e.Spares x → fs.group x = some (l.cgroupPath q) →
      fs'.group x = some (l.cgroupPath q) := by
  cases e with
  | apply limits k pid =>
    cases h
    have hu := apply_untouched { l with limits } k fs hs
    refine ⟨⟨hu.dir, hu.files⟩, fun x hx hg => ?_⟩
    rw [apply_group (Ne.symm hx), hg]
  | remove k pid =>
    cases h
    refine ⟨remove_untouched hs ht.1, fun x hx hg => ?_⟩
    rcases remove_group ht.1 x with he | ⟨hp, -⟩
    · rw [he, hg]
    · -- a process of another cgroup is not in this one
      rw [hg] at hp
      exact absurd (cgroupPath_injective l (Option.some.inj hp)).symm hs
  | fork parent child =>
    simp only [Event.step] at h
    split at h
    · rename_i hchild
      cases h
      refine ⟨⟨rfl, fun _ => rfl⟩, fun x _ hg => ?_⟩
      by_cases hx : x = child
      · rw [hx, hchild] at hg; cases hg
      · exact (Function.update_of_ne hx ..).trans hg
    · cases h
  | exit pid =>
    cases h
    exact ⟨⟨rfl, fun _ => rfl⟩, fun x hx hg => (Function.update_of_ne (Ne.symm hx) ..).trans hg⟩

/-- **The run lemma.** -/
theorem run_spares : ∀ {es : List Event} {fs fs' : Cgroups}, (∀ e ∈ es, e.Spares q) →
    Trans.Meets (Event.step l) (Event.Truthful l) fs es →
    Trans.run (Event.step l) fs es = some fs' →
      Untouched l q fs fs' ∧ ∀ x, (∀ e ∈ es, e.Spares x) →
        fs.group x = some (l.cgroupPath q) → fs'.group x = some (l.cgroupPath q)
  | [], fs, _, _, _, hr => by cases hr; exact ⟨.refl l q fs, fun _ _ hg => hg⟩
  | e :: es, fs, _, hs, hm, hr => by
    obtain ⟨fs1, h1, h2⟩ := Trans.run_cons_some.1 hr
    obtain ⟨hu, hg⟩ := step_spares (hs e List.mem_cons_self) hm.1 h1
    obtain ⟨hu', hg'⟩ := run_spares (fun e he => hs e (List.mem_cons_of_mem _ he)) (hm.2 _ h1) h2
    exact ⟨hu.trans hu', fun x hx h => hg' x (fun e he => hx e (List.mem_cons_of_mem _ he))
      (hg x (hx e List.mem_cons_self) h)⟩

/-- A kernel that lists nothing and removes what it is asked to. -/
def obliging : Removal := ⟨fun _ => .ok [], fun _ _ => .ok (), fun _ => .ok ()⟩

def seven : Cgroups := (defaultLimiter.apply willing 7 (cgroupWith true)).2

theorem seven_group {x : UInt32} {d : Path} (h : seven.group x = some d) :
    x = 7 ∧ d = defaultLimiter.cgroupPath 7 := by
  by_cases h7 : x = 7
  · subst h7
    have hgroup : seven.group 7 = some (defaultLimiter.cgroupPath 7) := by decide +kernel
    rw [hgroup] at h
    exact ⟨rfl, (Option.some.inj h).symm⟩
  · rw [seven, apply_group h7] at h
    cases h

/-- The root of the cgroups exists, and every process is in a cgroup that exists. -/
structure Housed (l : ResourceLimiter) (fs : Cgroups) : Prop where
  base : fs.dirs l.cgroupBase = true
  all : ∀ x d, fs.group x = some d → fs.dirs d = true

theorem Housed.update (h : Housed l fs) (pid : UInt32) {g : Option Path}
    (hg : ∀ d, g = some d → fs.dirs d = true) :
    Housed l { fs with group := Function.update fs.group pid g } := by
  refine ⟨h.base, fun x d hx => ?_⟩
  simp only [Function.update_apply] at hx
  split at hx
  · exact hg d hx
  · exact h.all x d hx

/-- With a relative prefix, the cgroup of a process is below the root. -/
theorem cgroupPath_ne_base (h : l.cgroupPrefix.head? ≠ some '/') (pid : UInt32) :
    l.cgroupPath pid ≠ l.cgroupBase := by
  have hrel : (Path.ofText (l.cgroupPrefix ++ '-' :: decimal pid.toNat)).head? ≠
      some (.inl '/') := by
    cases hp : l.cgroupPrefix with
    | nil => simp [Path.ofText]
    | cons c cs => rw [hp] at h; simpa [Path.ofText] using h
  rw [ResourceLimiter.cgroupPath, Path.join, if_neg hrel]
  exact Path.child_ne_self (by cases l.cgroupPrefix <;> simp [Path.ofText])

/-- A call of `apply` creates at most the cgroup of its process, before that is moved. -/
theorem apply_housed (l : ResourceLimiter) (k : Kernel) (pid : UInt32) (h : Housed l fs) :
    Housed l (l.apply k pid fs).2 := by
  have hmake : Housed l (createGroup k (l.cgroupPath pid) fs).2 ∧
      ((createGroup k (l.cgroupPath pid) fs).1 = .ok () →
        (createGroup k (l.cgroupPath pid) fs).2.dirs (l.cgroupPath pid) = true) := by
    unfold createGroup
    split
    · exact ⟨h, fun _ => ‹_›⟩
    · split
      · exact ⟨h, nofun⟩
      · have hup : ∀ d, fs.dirs d = true →
            Function.update fs.dirs (l.cgroupPath pid) true d = true := fun d hd => by
          by_cases he : d = l.cgroupPath pid
          · rw [he]; exact Function.update_self ..
          · rw [Function.update_of_ne he]; exact hd
        exact ⟨⟨hup _ h.base, fun x d hx => hup d (h.all x d hx)⟩, fun _ => Function.update_self ..⟩
  unfold ResourceLimiter.apply
  generalize createGroup k (l.cgroupPath pid) fs = o at hmake ⊢
  rcases o with ⟨_ | ⟨⟩, made⟩
  · exact hmake.1
  have hdir : made.dirs (l.cgroupPath pid) = true := hmake.2 rfl
  have hset : Housed l (applySettings k (l.cgroupPath pid) l.limits.settings made).2 := by
    have hdirs := applySettings_dirs k (l.cgroupPath pid) l.limits.settings made
    have hgroup := applySettings_group k (l.cgroupPath pid) l.limits.settings made
    exact ⟨by rw [hdirs]; exact hmake.1.base, fun x d hx => by
      rw [hdirs]; rw [hgroup] at hx; exact hmake.1.all x d hx⟩
  have hset' := congrFun (applySettings_dirs k (l.cgroupPath pid) l.limits.settings made)
    (l.cgroupPath pid)
  simp only [Outcome.andThen]
  generalize applySettings k (l.cgroupPath pid) l.limits.settings made = o at hset hset' ⊢
  rcases o with ⟨_ | ⟨⟩, set⟩
  · exact hset
  simp only [moveProcess]
  split
  · exact hset
  · have hkept : Housed l set := hset
    exact hkept.update pid fun d hd => by cases hd; exact hset'.trans hdir

/-- A cgroup that is removed has no process left in it. -/
theorem remove_housed {k : Removal} {pid : UInt32} (hrel : l.cgroupPrefix.head? ≠ some '/')
    (ht : (Event.remove k pid).Truthful l fs) (h : Housed l fs) :
    Housed l (l.remove k pid fs).2 := by
  obtain ⟨hlists, hempty⟩ := ht
  obtain ⟨hdirs, -, hgroup⟩ := moveToParent_frame l.cgroupBase fs hlists
  have hmoved : Housed l (moveToParent k l.cgroupBase (l.cgroupPath pid) fs) := by
    refine ⟨by rw [hdirs]; exact h.base, fun x d hx => ?_⟩
    rw [hdirs]
    rcases hgroup x with he | ⟨-, hb⟩
    · exact h.all x d (he ▸ hx)
    · rw [hb] at hx; cases hx; exact h.base
  unfold ResourceLimiter.remove
  simp only
  split
  · split
    · exact hmoved
    · rename_i hok
      refine ⟨?_, fun x d hx => ?_⟩
      · exact (Function.update_of_ne (cgroupPath_ne_base hrel pid).symm ..).trans hmoved.base
      · have hne : d ≠ l.cgroupPath pid := fun he => hempty hok x (he ▸ hx)
        exact (Function.update_of_ne hne ..).trans (hmoved.all x d hx)
  · exact h

/-- **The step lemma.** -/
theorem step_housed (hrel : l.cgroupPrefix.head? ≠ some '/') (fs : Cgroups) (e : Event)
    (fs' : Cgroups) (h : Housed l fs) (ht : e.Truthful l fs) (hs : e.step l fs = some fs') :
    Housed l fs' := by
  cases e with
  | apply limits k pid =>
    cases hs
    have h' := apply_housed { l with limits } k pid ⟨h.base, h.all⟩
    exact ⟨h'.base, h'.all⟩
  | remove k pid => cases hs; exact remove_housed hrel ht h
  | fork parent child =>
    simp only [Event.step] at hs
    split at hs
    · cases hs; exact h.update child fun d => h.all parent d
    · cases hs
  | exit pid => cases hs; exact h.update pid nofun

/-- **No process is lost.** In every run of `apply` and `remove` for any processes, whatever fails,
every process is in a cgroup that exists; and when `remove` then succeeds, the cgroup is gone and
the processes that were in it are in the parent. -/
theorem processes_housed (l : ResourceLimiter) (fs fs' : Cgroups) (es : List Event)
    (hrel : l.cgroupPrefix.head? ≠ some '/') (h0 : Housed l fs)
    (htruth : Trans.Meets (Event.step l) (Event.Truthful l) fs es)
    (hrun : Trans.run (Event.step l) fs es = some fs') :
    Housed l fs' ∧ ∀ k pid, (Event.remove k pid).Truthful l fs' →
      (l.remove k pid fs').1 = .ok () →
        (l.remove k pid fs').2.dirs (l.cgroupPath pid) = false ∧
          ∀ x, (l.remove k pid fs').2.group x ≠ some (l.cgroupPath pid) ∧
            (fs'.group x = some (l.cgroupPath pid) →
              (l.remove k pid fs').2.group x = some l.cgroupBase) := by
  have hfs' := htruth.run_inv (step_housed hrel) h0 hrun
  refine ⟨hfs', fun k pid ht hok => ?_⟩
  obtain ⟨hlists, hempty⟩ := ht
  have hgroup := remove_group hlists
  unfold ResourceLimiter.remove at hok hgroup ⊢
  simp only at hok hgroup ⊢
  split at hok
  · rename_i hdir
    simp only [hdir, if_true] at hgroup ⊢
    split at hok
    · cases hok
    · rename_i hremoved
      simp only [hremoved] at hgroup ⊢
      have hnone : ∀ x, (moveToParent k l.cgroupBase (l.cgroupPath pid) fs').group x ≠
        some (l.cgroupPath pid) := hempty hremoved
      refine ⟨Function.update_self .., fun x => ⟨hnone x, fun hx => ?_⟩⟩
      rcases hgroup x with he | ⟨-, hb⟩
      · exact absurd (he.trans hx) (hnone x)
      · exact hb
  · rename_i hdir
    -- no process can be in a cgroup that does not exist
    simp only [hdir]
    have hnone : ∀ x, fs'.group x ≠ some (l.cgroupPath pid) := fun x hx =>
      hdir (hfs'.all x _ hx)
    exact ⟨by simpa using hdir, fun x => ⟨hnone x, fun hx => absurd hx (hnone x)⟩⟩

def listing : Removal := ⟨fun _ => .ok "7\n".toList, fun _ _ => .ok (), fun _ => .ok ()⟩

theorem listing_truthful : (Event.remove listing 7).Truthful defaultLimiter seven := by
  have hlists : listing.Lists (defaultLimiter.cgroupPath 7) seven := by
    intro procs hr line hline x hx
    cases hr
    have h7 : line = "7".toList := by
      rw [show lines "7\n".toList = ["7".toList] by decide, List.mem_singleton] at hline
      exact hline
    have hx7 : x = 7 := by
      rw [h7, show parseUnsigned u32Max (trim "7".toList) = some 7 by decide] at hx
      exact UInt32.toNat_inj.1 (Option.some.inj hx).symm
    rw [hx7]
    decide +kernel
  refine ⟨hlists, fun _ x hx => ?_⟩
  rcases (moveToParent_frame defaultLimiter.cgroupBase seven hlists).2.2 x with he | ⟨-, hb⟩
  · obtain ⟨rfl, -⟩ := seven_group (he ▸ hx)
    exact absurd hx (by decide +kernel)
  · exact cgroupPath_ne_base (by decide) 7 (Option.some.inj (hx.symm.trans hb))

theorem processes_housed_seven :
    (defaultLimiter.remove listing 7 seven).2.dirs (defaultLimiter.cgroupPath 7) = false ∧
      (defaultLimiter.remove listing 7 seven).2.group 7 = some defaultLimiter.cgroupBase :=
  have h := (processes_housed defaultLimiter (cgroupWith true) seven [.apply .default willing 7]
    (by decide) ⟨rfl, fun _ _ _ => rfl⟩ ⟨trivial, fun _ _ => trivial⟩ rfl).2 listing 7
    listing_truthful (by decide +kernel)
  ⟨h.1, (h.2 7).2 (by decide +kernel)⟩

end Duende.Policy
