import Duende.Rounding

/-!
# The resource limiter

`ResourceLimiter::apply` on Linux, over a file system of cgroups: which controller files exist
and what every write answers is arbitrary. `limits_applied` says what holds when it succeeds.
The quota of the CPU is computed as floats are, with every operation rounded.
-/

namespace Duende.Policy

inductive PolicyError where
  | resourceLimit (msg : Text)
  deriving DecidableEq

structure ResourceLimits where
  memoryBytes : UInt64
  memorySwapBytes : UInt64
  cpuQuotaPercent : F64
  cpuPeriodUs : UInt64
  ioReadBps : UInt64
  ioWriteBps : UInt64
  pidsMax : UInt64
  deriving DecidableEq

structure ResourceLimiter where
  limits : ResourceLimits
  cgroupPrefix : Text
  cgroupBase : Path
  deriving DecidableEq

def ResourceLimits.default : ResourceLimits where
  memoryBytes := 512 * 1024 * 1024
  memorySwapBytes := 1024 * 1024 * 1024
  cpuQuotaPercent := .finite 100
  cpuPeriodUs := 100000
  ioReadBps := 0
  ioWriteBps := 0
  pidsMax := 100

def ResourceLimiter.new (limits : ResourceLimits) : ResourceLimiter where
  limits := limits
  cgroupPrefix := "duende".toList
  cgroupBase := .ofText "/sys/fs/cgroup".toList

/-! ## Cgroups -/

/-- The directories, the files with their contents, and the cgroup of each process. -/
structure Cgroups where
  dirs : Path → Bool
  files : Path → Option Text
  group : UInt32 → Option Path

/-- What the kernel answers: the files of a directory that is created, and whether a write
fails, or the text of the error. -/
structure Kernel where
  createDir : Path → Except Text (List (Text × Text))
  write : Path → Text → Except Text Unit

def cgroupFile (dir : Path) (name : Text) : Path := dir.child (.ofText name)

abbrev Outcome := Except PolicyError Unit × Cgroups

def Outcome.andThen (o : Outcome) (f : Cgroups → Outcome) : Outcome :=
  match o with
  | (.ok (), fs) => f fs
  | (.error e, fs) => (.error e, fs)

/-- The cgroup's directory, with the files that the kernel puts into it. -/
def Cgroups.created (fs : Cgroups) (dir : Path) (files : List (Text × Text)) : Cgroups where
  dirs := Function.update fs.dirs dir true
  files p := (files.find? fun f => cgroupFile dir f.1 = p).elim (fs.files p) fun f => some f.2
  group := fs.group

/-- Creates the cgroup directory if it doesn't exist. -/
def createGroup (k : Kernel) (dir : Path) (fs : Cgroups) : Outcome :=
  if fs.dirs dir then (.ok (), fs)
  else
    match k.createDir dir with
    | .error e => (.error (.resourceLimit ("failed to create cgroup ".toList ++ dir.display ++
        ": ".toList ++ e ++ " (requires root or cgroup delegation)".toList)), fs)
    | .ok files => (.ok (), fs.created dir files)

/-- A limit: whether it is applied, its controller file and what is written there. -/
structure Setting where
  wanted : Bool
  file : Text
  value : Text
  deriving DecidableEq

/-- The quota of the period, cast `as u64`; the casts and the operations round. -/
def quotaUs (percent : F64) (period : UInt64) : Nat :=
  ((percent.div 100).rounded.times (.round period.toNat)).rounded.asU64

namespace ResourceLimits

def memory (l : ResourceLimits) : Setting :=
  ⟨0 < l.memoryBytes, "memory.max".toList, decimal l.memoryBytes.toNat⟩

def memorySwap (l : ResourceLimits) : Setting :=
  ⟨0 < l.memorySwapBytes, "memory.swap.max".toList, decimal l.memorySwapBytes.toNat⟩

def cpu (l : ResourceLimits) : Setting :=
  ⟨(F64.finite 0).lt l.cpuQuotaPercent, "cpu.max".toList,
    decimal (quotaUs l.cpuQuotaPercent l.cpuPeriodUs) ++ ' ' :: decimal l.cpuPeriodUs.toNat⟩

def pids (l : ResourceLimits) : Setting :=
  ⟨0 < l.pidsMax, "pids.max".toList, decimal l.pidsMax.toNat⟩

/-- The settings, in the order in which they are applied. The I/O limits are only logged. -/
def settings (l : ResourceLimits) : List Setting := [l.memory, l.memorySwap, l.cpu, l.pids]

end ResourceLimits

def applySetting (k : Kernel) (dir : Path) (s : Setting) (fs : Cgroups) : Outcome :=
  if s.wanted && (fs.files (cgroupFile dir s.file)).isSome then
    match k.write (cgroupFile dir s.file) s.value with
    | .error e => (.error (.resourceLimit
        ("failed to set ".toList ++ s.file ++ ": ".toList ++ e)), fs)
    | .ok () => (.ok (), { fs with
        files := Function.update fs.files (cgroupFile dir s.file) (some s.value) })
  else (.ok (), fs)

def applySettings (k : Kernel) (dir : Path) : List Setting → Cgroups → Outcome
  | [], fs => (.ok (), fs)
  | s :: ss, fs => (applySetting k dir s fs).andThen (applySettings k dir ss)

def moveProcess (k : Kernel) (dir : Path) (pid : UInt32) (fs : Cgroups) : Outcome :=
  match k.write (cgroupFile dir "cgroup.procs".toList) (decimal pid.toNat) with
  | .error e => (.error (.resourceLimit ("failed to move pid ".toList ++ decimal pid.toNat ++
      " to cgroup: ".toList ++ e)), fs)
  | .ok () => (.ok (), { fs with group := Function.update fs.group pid (some dir) })

namespace ResourceLimiter

def cgroupPath (l : ResourceLimiter) (pid : UInt32) : Path :=
  l.cgroupBase.join (.ofText (l.cgroupPrefix ++ '-' :: decimal pid.toNat))

/-- Applies resource limits to a process using cgroups v2. -/
def apply (l : ResourceLimiter) (k : Kernel) (pid : UInt32) (fs : Cgroups) : Outcome :=
  (createGroup k (l.cgroupPath pid) fs).andThen fun fs =>
    (applySettings k (l.cgroupPath pid) l.limits.settings fs).andThen
      (moveProcess k (l.cgroupPath pid) pid)

end ResourceLimiter

/-! ## What a success leaves -/

variable {k : Kernel} {dir : Path} {fs fs' : Cgroups} {s : Setting} {ss : List Setting}

theorem andThen_ok {o : Outcome} {f : Cgroups → Outcome} (h : o.andThen f = (.ok (), fs')) :
    ∃ fs, o = (.ok (), fs) ∧ f fs = (.ok (), fs') := by
  rcases o with ⟨_ | _, fs⟩
  · cases h
  · exact ⟨fs, rfl, h⟩

theorem cgroupFile_injective (dir : Path) : Function.Injective (cgroupFile dir) :=
  (Path.child_injective dir).comp (List.map_injective_iff.2 Sum.inl_injective)

/-- A limit that could be applied is in its file, unless there is none; nothing else changed. -/
theorem applySetting_ok (h : applySetting k dir s fs = (.ok (), fs')) :
    (s.wanted = true → fs'.files (cgroupFile dir s.file) = none ∨
      fs'.files (cgroupFile dir s.file) = some s.value) ∧
    (∀ name, name ≠ s.file → fs'.files (cgroupFile dir name) = fs.files (cgroupFile dir name)) ∧
    fs'.group = fs.group := by
  unfold applySetting at h
  split at h
  · split at h
    · cases h
    · cases h
      refine ⟨fun _ => .inr (Function.update_self ..), fun name hname => ?_, rfl⟩
      exact Function.update_of_ne ((cgroupFile_injective dir).ne hname) ..
  · rename_i hskip
    cases h
    refine ⟨fun hw => .inl ?_, fun _ _ => rfl, rfl⟩
    rw [hw, Bool.true_and, Bool.not_eq_true, Option.isSome_eq_false_iff] at hskip
    exact Option.isNone_iff_eq_none.1 hskip

theorem applySettings_ok (hn : (ss.map Setting.file).Nodup)
    (h : applySettings k dir ss fs = (.ok (), fs')) :
    (∀ s ∈ ss, s.wanted = true → fs'.files (cgroupFile dir s.file) = none ∨
      fs'.files (cgroupFile dir s.file) = some s.value) ∧
    (∀ name, name ∉ ss.map Setting.file →
      fs'.files (cgroupFile dir name) = fs.files (cgroupFile dir name)) ∧
    fs'.group = fs.group := by
  induction ss generalizing fs with
  | nil =>
    cases h
    exact ⟨nofun, fun _ _ => rfl, rfl⟩
  | cons s ss ih =>
    obtain ⟨mid, hs, hss⟩ := andThen_ok h
    obtain ⟨hfirst, hkeep, hgroup⟩ := applySetting_ok hs
    rw [List.map_cons, List.nodup_cons] at hn
    obtain ⟨hrest, hkeep', hgroup'⟩ := ih hn.2 hss
    refine ⟨fun s' hs' hw => ?_, fun name hname => ?_, hgroup'.trans hgroup⟩
    · rcases List.mem_cons.1 hs' with rfl | hs'
      · -- the later settings have other files
        rw [hkeep' s'.file hn.1]
        exact hfirst hw
      · exact hrest s' hs' hw
    · rw [List.map_cons, List.mem_cons, not_or] at hname
      rw [hkeep' name hname.2, hkeep name hname.1]

theorem settings_files (l : ResourceLimits) : l.settings.map Setting.file =
    ["memory.max".toList, "memory.swap.max".toList, "cpu.max".toList, "pids.max".toList] := rfl

theorem settings_nodup (l : ResourceLimits) : (l.settings.map Setting.file).Nodup := by
  rw [settings_files]
  decide

/-- A controller file that exists has the value. -/
def InForce (fs : Cgroups) (dir : Path) (file value : Text) : Prop :=
  ∀ content, fs.files (cgroupFile dir file) = some content → content = value

theorem inForce_of {value : Text} (h : fs.files (cgroupFile dir s.file) = none ∨
    fs.files (cgroupFile dir s.file) = some value) : InForce fs dir s.file value := by
  intro content hc
  rcases h with h | h <;> rw [h] at hc <;> cases hc
  rfl

theorem quotaUs_zero (percent : F64) : quotaUs percent 0 = 0 := by
  have hzero : F64.round ((0 : UInt64).toNat : ℚ) = .finite 0 := by decide +kernel
  unfold quotaUs
  rw [hzero]
  cases (percent.div 100).rounded with
  | finite a =>
    have ha : (F64.finite a).times (.finite 0) = .finite 0 := by
      rw [F64.times, mul_zero]
    rw [ha]
    decide +kernel
  | infinite negative => rfl
  | nan => rfl

/-- The quota is less than two microseconds off: by the rounding, and by the cut. -/
theorem quotaUs_near {q : ℚ} {period : UInt64} (h0 : 0 ≤ q)
    (h : q / 100 * period.toNat ≤ 2 ^ 50) :
    |(quotaUs (.finite q) period : ℚ) - q / 100 * period.toNat| < 2 := by
  rcases eq_or_ne period 0 with rfl | hne
  · rw [quotaUs_zero]
    norm_num
  · have hpos : 0 < period.toNat := Nat.pos_of_ne_zero fun h => hne (UInt64.toNat.inj h)
    have hlt : (period.toNat : ℚ) ≤ 2 ^ 64 := by exact_mod_cast period.toNat_lt.le
    obtain ⟨r, hr, hnear⟩ := F64.round_times (div_nonneg h0 (by norm_num))
      (Nat.one_le_cast.2 hpos) hlt h
    obtain ⟨hlo, hhi⟩ := abs_lt.1 hnear
    have hexact : 0 ≤ q / 100 * period.toNat := by positivity
    have hquota : quotaUs (.finite q) period = min ⌊r⌋.toNat u64Max := congrArg F64.asU64 hr
    have hfloor := Int.floor_le r
    have hceil := Int.lt_floor_add_one r
    have hmax : ⌊r⌋.toNat ≤ u64Max := by
      have : ⌊r⌋ < 2 ^ 50 + 1 := Int.floor_lt.2 (by push_cast; linarith)
      unfold u64Max
      omega
    rw [hquota, min_eq_left hmax]
    rcases le_total 0 ⌊r⌋ with hf | hf
    · have hcast : (⌊r⌋.toNat : ℚ) = ⌊r⌋ := by exact_mod_cast Int.toNat_of_nonneg hf
      rw [hcast]
      exact abs_lt.2 ⟨by linarith, by linarith⟩
    · have hf' : (⌊r⌋ : ℚ) ≤ 0 := by exact_mod_cast hf
      rw [Int.toNat_of_nonpos hf]
      exact abs_lt.2 ⟨by push_cast; linarith, by push_cast; linarith⟩

/-- A quota of 29 percent is cut to less. -/
example : quotaUs (.finite 29) 100000 = 28999 := by decide +kernel

/-- **Limits applied**: when `apply` succeeds, the process is in its cgroup, and the limits of
memory, CPU and processes that are not zero are in the controller files that exist. -/
theorem limits_applied (l : ResourceLimiter) (k : Kernel) (pid : UInt32) (fs fs' : Cgroups)
    (h : l.apply k pid fs = (.ok (), fs')) :
    fs'.group pid = some (l.cgroupPath pid) ∧
    (l.limits.memoryBytes ≠ 0 → InForce fs' (l.cgroupPath pid) "memory.max".toList
      (decimal l.limits.memoryBytes.toNat)) ∧
    ((F64.finite 0).lt l.limits.cpuQuotaPercent = true →
      InForce fs' (l.cgroupPath pid) "cpu.max".toList
        (decimal (quotaUs l.limits.cpuQuotaPercent l.limits.cpuPeriodUs) ++
          ' ' :: decimal l.limits.cpuPeriodUs.toNat)) ∧
    (∀ q, l.limits.cpuQuotaPercent = .finite q → 0 < q →
      q / 100 * l.limits.cpuPeriodUs.toNat ≤ 2 ^ 50 →
        |(quotaUs l.limits.cpuQuotaPercent l.limits.cpuPeriodUs : ℚ) -
          q / 100 * l.limits.cpuPeriodUs.toNat| < 2) ∧
    (l.limits.pidsMax ≠ 0 → InForce fs' (l.cgroupPath pid) "pids.max".toList
      (decimal l.limits.pidsMax.toNat)) ∧
    ∃ made, createGroup k (l.cgroupPath pid) fs = (.ok (), made) ∧
      fs'.files (cgroupFile (l.cgroupPath pid) "io.max".toList) =
        made.files (cgroupFile (l.cgroupPath pid) "io.max".toList) := by
  obtain ⟨made, hmade, h⟩ := andThen_ok h
  obtain ⟨set, hset, hmove⟩ := andThen_ok h
  obtain ⟨hforce, hkeep, -⟩ := applySettings_ok (settings_nodup l.limits) hset
  have hgroup : fs'.files = set.files ∧ fs'.group pid = some (l.cgroupPath pid) := by
    unfold moveProcess at hmove
    split at hmove
    · cases hmove
    · cases hmove
      exact ⟨rfl, Function.update_self ..⟩
  have hpos : ∀ n : UInt64, n ≠ 0 → decide (0 < n) = true := fun n hn =>
    decide_eq_true (UInt64.pos_iff_ne_zero.2 hn)
  have hfiles : ∀ s ∈ l.limits.settings, s.wanted = true →
      InForce fs' (l.cgroupPath pid) s.file s.value := fun s hs hw => by
    have := hforce s hs hw
    rw [← hgroup.1] at this
    exact inForce_of this
  refine ⟨hgroup.2, fun hm => ?_, fun hc => ?_, fun q hq h0 hle => ?_, fun hp => ?_, made, hmade,
    ?_⟩
  · exact hfiles l.limits.memory (by simp [ResourceLimits.settings]) (hpos _ hm)
  · exact hfiles l.limits.cpu (by simp [ResourceLimits.settings]) hc
  · rw [hq]
    exact quotaUs_near h0.le hle
  · exact hfiles l.limits.pids (by simp [ResourceLimits.settings]) (hpos _ hp)
  · rw [hgroup.1]
    refine hkeep _ ?_
    rw [settings_files]
    decide

/-- A cgroup that exists, with the controller file of the memory limit or without any. -/
def cgroupWith (memory : Bool) : Cgroups where
  dirs _ := true
  files p := if memory && p = cgroupFile (.ofText "/sys/fs/cgroup/duende-7".toList)
    "memory.max".toList then some "max".toList else none
  group _ := none

def willing : Kernel := ⟨fun _ => .ok [], fun _ _ => .ok ()⟩

def defaultLimiter : ResourceLimiter := .new .default

theorem limits_applied_default : InForce (defaultLimiter.apply willing 7 (cgroupWith true)).2
    (.ofText "/sys/fs/cgroup/duende-7".toList) "memory.max".toList "536870912".toList :=
  (limits_applied defaultLimiter willing 7 (cgroupWith true) _
    (Prod.ext (by decide +kernel) rfl)).2.1 (by decide)

/-- Without its controller file the memory limit is skipped. -/
theorem memory_limit_skipped :
    (defaultLimiter.apply willing 7 (cgroupWith false)).1 = .ok () ∧
      defaultLimiter.limits.memoryBytes ≠ 0 ∧
      (defaultLimiter.apply willing 7 (cgroupWith false)).2.files
        (cgroupFile (defaultLimiter.cgroupPath 7) "memory.max".toList) ≠
          some (decimal defaultLimiter.limits.memoryBytes.toNat) := by
  decide +kernel

end Duende.Policy
