import Duende.Platform.ContainerArgs
import Duende.Platform.UnitLimits
import Duende.Rounding

/-!
# Resource limits of units

The memory and CPU limits that the platform adapters write, as they are read from the unit
file and the command lines. `limits_carried_iff` says for which limits each of them is there,
is not zero, and is off by less than a step.
-/

namespace Duende

/-! ## Reading limits -/

def parseFixed (v : Text) : Option ℚ :=
  let parts := splitAtFirst '.' v
  (parseNat parts.1).bind fun i => (parseNat parts.2).map fun f : Nat =>
    (i : ℚ) + f / 10 ^ parts.2.length

def wordAfter (o : String) : List Text → Option Text
  | w :: v :: ws => if w = o.toList then some v else wordAfter o (v :: ws)
  | _ => none

namespace Platforms

/-- The limits follow the name, up to the limit for processes. -/
def Container.readLimits (args : List Text) : Option ℚ × Option ℚ :=
  let args := (args.drop 4).takeWhile (· ≠ "--pids-limit".toList)
  (((wordAfter "--memory" args).bind (withUnit 'b')).map Nat.cast,
    ((wordAfter "--cpus" args).bind parseFixed).map fun n => n * 100)

/-- The limits follow the name. -/
def Pepita.readLimits (args : List Text) : Option ℚ × Option ℚ :=
  let args := args.drop 3
  (((wordAfter "--memory" args).bind (withUnit 'M')).map fun n : Nat => (n : ℚ) * 1024 * 1024,
    ((wordAfter "--vcpus" args).bind parseNat).map fun n : Nat => (n : ℚ) * 100)

end Platforms

/-! ## What is carried over -/

/-- A limit that is there, not zero, and less than a step from the configured value. -/
def Carried (written : Option ℚ) (configured step : ℚ) : Prop :=
  ∃ v, written = some v ∧ v ≠ 0 ∧ |v - configured| < step

/-- The limits of a configuration, with `quota` percent of a processor, are carried over into
what each adapter generates. -/
structure LimitsCarried (vals : Platforms.Linux.Values) (a : Platforms.Linux.LinuxAdapter)
    (b : Platforms.Container.ContainerAdapter) (s : Platforms.Pepita.Settings) (cid : UInt32)
    (config : DaemonConfig) (quota : ℚ) : Prop where
  unitMemory : Carried (Platforms.Linux.readLimits vals
    (Platforms.Linux.generateUnitFile a config)).1 config.resources.memoryBytes.toNat 1
  unitCpu : Carried (Platforms.Linux.readLimits vals
    (Platforms.Linux.generateUnitFile a config)).2 quota 1
  argvMemory : Carried (Platforms.Container.readLimits
    (Platforms.Container.buildRunArgs b config)).1 config.resources.memoryBytes.toNat 1
  argvCpu : Carried (Platforms.Container.readLimits
    (Platforms.Container.buildRunArgs b config)).2 quota 1
  vmMemory : Carried (Platforms.Pepita.readLimits
    (Platforms.Pepita.buildRunArgs s config cid)).1 config.resources.memoryBytes.toNat (1024 * 1024)
  vmCpu : Carried (Platforms.Pepita.readLimits
    (Platforms.Pepita.buildRunArgs s config cid)).2 quota 100

variable {table : Char → Bool} {config : DaemonConfig} {q : ℚ} {n : Nat}
  {vals : Platforms.Linux.Values}
  {a : Platforms.Linux.LinuxAdapter} {b : Platforms.Container.ContainerAdapter}
  {s : Platforms.Pepita.Settings} {cid : UInt32}

theorem DaemonConfig.Valid.memory_pos (h : config.Valid table) :
    0 < config.resources.memoryBytes.toNat :=
  Nat.pos_of_ne_zero fun h0 => h.memory_ne (UInt64.toNat.inj h0)

theorem DaemonConfig.Valid.pids_pos (h : config.Valid table) :
    0 < config.resources.pidsMax.toNat :=
  Nat.pos_of_ne_zero fun h0 => h.pids_ne (UInt64.toNat.inj h0)

/-! ## The unit file -/

namespace Platforms.Linux

theorem cpuQuota_finite (h0 : 0 < q) (h1 : q < 100) : cpuQuota (.finite q) = ⌊q⌋₊ := by
  have hsmall : ⌊q * 10000⌋₊ < 1000000 :=
    (Nat.floor_lt (by positivity)).2 (by push_cast; linarith)
  have hcast : (F64.mul (.finite q) 10000).asU64 = ⌊q * 10000⌋₊ := by
    show min ⌊q * 10000⌋.toNat u64Max = _
    rw [Int.floor_toNat]
    unfold u64Max
    omega
  have hdiv := Nat.floor_div_ofNat (q * 10000) 10000
  rw [mul_div_assoc, div_self (by norm_num), mul_one] at hdiv
  unfold cpuQuota
  rw [hcast, hdiv]

end Platforms.Linux

/-! ## The command lines -/

/-- A word that starts with a digit is no option. -/
def DigitHead (w : Text) : Prop := ∃ c s, w = c :: s ∧ c.isDigit = true

theorem digitHead_decimal (n : Nat) (s : Text) : DigitHead (decimal n ++ s) := by
  obtain ⟨c, t, ht, hc⟩ := decimal_eq_cons n
  exact ⟨c, t ++ s, by rw [ht]; rfl, hc⟩

theorem DigitHead.ne {w o : Text} (h : DigitHead w) (ho : o.head? = some '-') : w ≠ o := by
  obtain ⟨c, s, rfl, hc⟩ := h
  rintro rfl
  cases ho
  cases hc

theorem F64.fixed2_finite (h : 0 ≤ q) : (F64.finite q).fixed2 =
    decimal ((F64.roundHalfEven (100 * q)).toNat / 100) ++
      '.' :: (decimal ((F64.roundHalfEven (100 * q)).toNat / 10 % 10) ++
        decimal ((F64.roundHalfEven (100 * q)).toNat % 10)) := by
  unfold F64.fixed2
  simp only [abs_of_nonneg h, if_neg (not_lt.2 h), List.nil_append, List.append_assoc,
    List.cons_append]

theorem parseFixed_fixed2 (h : 0 ≤ q) : parseFixed (F64.finite q).fixed2 =
    some (((F64.roundHalfEven (100 * q)).toNat : ℚ) / 100) := by
  rw [F64.fixed2_finite h]
  generalize (F64.roundHalfEven (100 * q)).toNat = n
  have hdot : '.' ∉ decimal (n / 100) := fun hmem =>
    absurd (isDigit_of_mem_decimal hmem) (by decide)
  have hplaces : ∀ a < 10, ∀ b < 10, parseNat (decimal a ++ decimal b) = some (10 * a + b) ∧
      (decimal a ++ decimal b).length = 2 := by decide
  obtain ⟨hparse, hlen⟩ := hplaces (n / 10 % 10) (Nat.mod_lt _ (by decide)) (n % 10)
    (Nat.mod_lt _ (by decide))
  unfold parseFixed
  rw [splitAtFirst_append hdot]
  simp only [parseNat_decimal, Option.bind_some, hparse, hlen, Option.map_some]
  have hn : n = 100 * (n / 100) + (10 * (n / 10 % 10) + n % 10) := by omega
  have hq : (n : ℚ) = 100 * (n / 100 : ℕ) + ((10 * (n / 10 % 10) + n % 10 : ℕ) : ℚ) := by
    exact_mod_cast hn
  rw [hq, add_div, mul_div_cancel_left₀ _ (by norm_num)]
  norm_num

section Words

variable {o : String} {w v : Text} {ws : List Text}

theorem wordAfter_self : wordAfter o (o.toList :: v :: ws) = some v := by
  rw [wordAfter, if_pos rfl]

theorem wordAfter_ne (h : w ≠ o.toList) : wordAfter o (w :: v :: ws) = wordAfter o (v :: ws) := by
  rw [wordAfter, if_neg h]

theorem takeWhile_ne_option (h : ∀ w ∈ ws, w ≠ v) (rest : List Text) :
    (ws ++ v :: rest).takeWhile (· ≠ v) = ws := by
  rw [List.takeWhile_append_of_pos fun w hw => decide_eq_true (h w hw),
    List.takeWhile_cons_of_neg (by simp), List.append_nil]

end Words

namespace Platforms.Container

/-- The words between the name and the limit for processes. -/
def limitArgs (memory : Nat) (quota : ℚ) : List Text :=
  ["--memory".toList, decimal memory ++ ['b']] ++
    if quota < 100 then ["--cpus".toList, (F64.finite (quota / 100)).fixed2] else []

theorem limitArgs_ne {memory : Nat} (h0 : 0 < q) :
    ∀ w ∈ limitArgs memory q, w ≠ "--pids-limit".toList := by
  have hmemory : DigitHead (decimal memory ++ ['b']) := digitHead_decimal _ _
  have hcpus : DigitHead (F64.finite (q / 100)).fixed2 := by
    rw [F64.fixed2_finite (by positivity)]
    exact digitHead_decimal _ _
  have hdash : ("--pids-limit".toList).head? = some '-' := by decide
  intro w hw
  unfold limitArgs at hw
  rw [List.mem_append, List.mem_pair] at hw
  rcases hw with (rfl | rfl) | hw
  · decide
  · exact hmemory.ne hdash
  · split at hw
    · rcases List.mem_pair.1 hw with rfl | rfl
      · decide
      · exact hcpus.ne hdash
    · cases hw

theorem readLimits_buildRunArgs (hv : config.Valid table)
    (hq : config.resources.cpuQuotaPercent = .finite q) (h0 : 0 < q) :
    readLimits (buildRunArgs b config) = (some (config.resources.memoryBytes.toNat : ℚ),
      if q < 100 then some ((F64.roundHalfEven q).toNat : ℚ) else none) := by
  have hargs : ∃ rest, (buildRunArgs b config).drop 4 =
      limitArgs config.resources.memoryBytes.toNat q ++ "--pids-limit".toList :: rest := by
    have hlt : ((F64.finite 0).lt (.finite q) && (F64.finite q).lt (.finite 100)) =
        decide (q < 100) := by
      simp only [F64.lt, h0, decide_true, Bool.true_and]
    unfold buildRunArgs limitArgs
    rw [if_pos hv.memory_pos, if_pos hv.pids_pos, hq, hlt]
    simp only [List.append_assoc, decide_eq_true_eq]
    exact ⟨_, rfl⟩
  obtain ⟨rest, hargs⟩ := hargs
  have hmemory : wordAfter "--memory" (limitArgs config.resources.memoryBytes.toNat q) =
      some (decimal config.resources.memoryBytes.toNat ++ ['b']) := wordAfter_self
  have hcpus : wordAfter "--cpus" (limitArgs config.resources.memoryBytes.toNat q) =
      if q < 100 then some (F64.finite (q / 100)).fixed2 else none := by
    have hne : decimal config.resources.memoryBytes.toNat ++ ['b'] ≠ "--cpus".toList :=
      (digitHead_decimal _ _).ne (by decide)
    unfold limitArgs
    split
    · exact (wordAfter_ne (by decide)).trans ((wordAfter_ne hne).trans wordAfter_self)
    · exact wordAfter_ne (by decide)
  have hround : F64.roundHalfEven (100 * (q / 100)) = F64.roundHalfEven q := by
    congr 1
    ring
  unfold readLimits
  rw [hargs, takeWhile_ne_option (limitArgs_ne h0)]
  simp only [hmemory, hcpus, Option.bind_some, withUnit_decimal, Option.map_some]
  split
  · rw [Option.bind_some, parseFixed_fixed2 (by positivity), hround, Option.map_some,
      div_mul_cancel₀ _ (by norm_num)]
  · rfl

end Platforms.Container

namespace Platforms.Pepita

theorem readLimits_buildRunArgs (hv : config.Valid table)
    (hq : config.resources.cpuQuotaPercent = .finite q) (h0 : 0 < q) :
    readLimits (buildRunArgs s config cid) =
      (some ((config.resources.memoryBytes.toNat / (1024 * 1024) : ℕ) * 1024 * 1024 : ℚ),
        some (((max (vcpusOf (.finite q)) 1 : ℕ) : ℚ) * 100)) := by
  have hvcpus : decimal (max (vcpusOf (.finite q)) 1) ≠ "--memory".toList := by
    have hhead := digitHead_decimal (max (vcpusOf (.finite q)) 1) []
    rw [List.append_nil] at hhead
    exact hhead.ne (by decide)
  have hpos : (F64.finite 0).lt (.finite q) = true := by
    simp only [F64.lt, h0, decide_true]
  obtain ⟨rest, hargs⟩ : ∃ rest, (buildRunArgs s config cid).drop 3 =
      "--vcpus".toList :: decimal (max (vcpusOf (.finite q)) 1) :: "--memory".toList ::
        (decimal (config.resources.memoryBytes.toNat / (1024 * 1024)) ++ ['M']) :: rest := by
    unfold buildRunArgs
    rw [hq, if_pos hpos, if_pos hv.memory_pos]
    simp only [List.append_assoc, List.cons_append, List.drop_succ_cons, List.drop_zero]
    exact ⟨_, rfl⟩
  unfold readLimits
  simp only [hargs, wordAfter_self, wordAfter_ne hvcpus,
    wordAfter_ne (show "--vcpus".toList ≠ "--memory".toList by decide), Option.bind_some,
    withUnit_decimal, parseNat_decimal, Option.map_some]

end Platforms.Pepita

/-! ## Rounding -/

theorem carried_self (h : 0 < n) : Carried (some (n : ℚ)) n 1 :=
  ⟨n, rfl, by exact_mod_cast h.ne', by rw [sub_self, abs_zero]; norm_num⟩

theorem not_carried_none {c step : ℚ} : ¬ Carried none c step := by
  rintro ⟨v, hv, -⟩
  cases hv

theorem carried_floor (h0 : 0 < q) : Carried (some (⌊q⌋₊ : ℚ)) q 1 ↔ 1 ≤ q := by
  constructor
  · rintro ⟨v, hv, hne, -⟩
    cases hv
    have hfloor : ⌊q⌋₊ ≠ 0 := by exact_mod_cast hne
    exact Nat.floor_pos.1 (Nat.pos_of_ne_zero hfloor)
  · intro h
    have hlo := Nat.floor_le h0.le
    have hhi := Nat.lt_floor_add_one q
    refine ⟨⌊q⌋₊, rfl, ?_, abs_lt.2 ⟨by linarith, by linarith⟩⟩
    exact_mod_cast (Nat.floor_pos.2 h).ne'

theorem roundHalfEven_pos_iff (h0 : 0 < q) : 0 < F64.roundHalfEven q ↔ 1 / 2 < q := by
  obtain ⟨hfloor, hnear⟩ := F64.roundHalfEven_spec q
  constructor
  · intro hpos
    by_contra hle
    have hzero : ⌊q⌋ = 0 := Int.floor_eq_zero_iff.2 ⟨h0.le, by linarith⟩
    have hround : F64.roundHalfEven q = 0 := by
      unfold F64.roundHalfEven
      simp only [hzero, Int.cast_zero, sub_zero]
      refine if_pos ?_
      rcases lt_or_eq_of_le (not_lt.1 hle) with h | h
      · exact .inl h
      · exact .inr ⟨h, rfl⟩
    omega
  · intro h
    by_contra hle
    have hneg : (F64.roundHalfEven q : ℚ) ≤ 0 := by exact_mod_cast not_lt.1 hle
    have := (abs_le.1 hnear).1
    linarith

theorem carried_round (h0 : 0 < q) :
    Carried (if q < 100 then some ((F64.roundHalfEven q).toNat : ℚ) else none) q 1 ↔
      1 / 2 < q ∧ q < 100 := by
  constructor
  · rintro ⟨v, hv, hne, -⟩
    split at hv
    · rename_i h1
      cases hv
      have hround : (F64.roundHalfEven q).toNat ≠ 0 := by exact_mod_cast hne
      exact ⟨(roundHalfEven_pos_iff h0).1 (by omega), h1⟩
    · cases hv
  · rintro ⟨h, h1⟩
    have hpos := (roundHalfEven_pos_iff h0).2 h
    have hcast : ((F64.roundHalfEven q).toNat : ℚ) = F64.roundHalfEven q := by
      exact_mod_cast Int.toNat_of_nonneg hpos.le
    refine ⟨_, if_pos h1, ?_, ?_⟩
    · rw [hcast]
      exact_mod_cast hpos.ne'
    · rw [hcast]
      exact (F64.roundHalfEven_spec q).2.trans_lt (by norm_num)

theorem carried_mebibytes :
    Carried (some ((n / (1024 * 1024) : ℕ) * 1024 * 1024 : ℚ)) n (1024 * 1024) ↔
      1024 * 1024 ≤ n := by
  have hle : n / (1024 * 1024) * (1024 * 1024) ≤ n := Nat.div_mul_le_self _ _
  have hlt : n < n / (1024 * 1024) * (1024 * 1024) + 1024 * 1024 := by omega
  have hle' : ((n / (1024 * 1024) : ℕ) * (1024 * 1024) : ℚ) ≤ n := by exact_mod_cast hle
  have hlt' : (n : ℚ) < (n / (1024 * 1024) : ℕ) * (1024 * 1024) + 1024 * 1024 := by
    exact_mod_cast hlt
  constructor
  · rintro ⟨v, hv, hne, -⟩
    cases hv
    by_contra hsmall
    exact hne (by rw [Nat.div_eq_of_lt (by omega)]; norm_num)
  · intro h
    have hpos : 0 < n / (1024 * 1024) := Nat.div_pos h (by norm_num)
    refine ⟨_, rfl, ?_, abs_lt.2 ⟨by rw [mul_assoc]; linarith, by rw [mul_assoc]; linarith⟩⟩
    have : ((n / (1024 * 1024) : ℕ) : ℚ) ≠ 0 := by exact_mod_cast hpos.ne'
    positivity

theorem carried_vcpu (h0 : 0 < q) (h1 : q < 100) :
    Carried (some (((max (Platforms.Pepita.vcpusOf (.finite q)) 1 : ℕ) : ℚ) * 100)) q 100 := by
  have hceil : ⌈q / 100⌉ = 1 := by
    rw [Int.ceil_eq_iff]
    constructor
    · push_cast; linarith [show 0 < q / 100 by positivity]
    · push_cast; linarith
  have hone : max (Platforms.Pepita.vcpusOf (.finite q)) 1 = 1 := by
    show max (min ⌈q / 100⌉.toNat u32Max) 1 = 1
    rw [hceil]
    rfl
  rw [hone]
  exact ⟨_, rfl, by norm_num, abs_lt.2 ⟨by push_cast; linarith, by push_cast; linarith⟩⟩

/-! ## Limits that are carried over -/

/-- The unit file carries the limits over: those that are generated, where the fields leave the
section open with nothing but white space to go on, and those that the fields set themselves,
where one of their lines or another section takes the generated ones in. -/
def Platforms.Linux.Takes (vals : Values) (config : DaemonConfig) (quota : ℚ) : Prop :=
  ∃ p, UnitFile.place (fields config) = some p ∧ ¬ UnitFile.Bracketed p.rest ∧
    if p.sec = some service then
      1 ≤ quota ∧ ((∀ c ∈ p.rest, UnitFile.isSpace c = true) ∨
        Carried (limitsOf vals p.read).1 config.resources.memoryBytes.toNat 1)
    else
      Carried (limitsOf vals p.read).1 config.resources.memoryBytes.toNat 1 ∧
        Carried (limitsOf vals p.read).2 quota 1

theorem Platforms.Linux.takes_plain {g : UnitFile.Grammar} (h : Plain g config) :
    Takes vals config q ↔ 1 ≤ q := by
  obtain ⟨ss, hp⟩ := place_plain h
  constructor
  · rintro ⟨p, hp', -, htakes⟩
    cases hp.symm.trans hp'
    rw [if_pos rfl] at htakes
    exact htakes.1
  · intro hq
    refine ⟨_, hp, UnitFile.not_bracketed_nil, ?_⟩
    rw [if_pos rfl]
    exact ⟨hq, .inl nofun⟩

theorem DaemonConfig.Valid.quota_finite (h : config.Valid table)
    (hq : config.resources.cpuQuotaPercent = .finite q) : 0 < q := by
  have := h.quota_pos
  rw [hq] at this
  simpa [F64.le] using this

theorem unit_carried_iff (hv : config.Valid table)
    (hq : config.resources.cpuQuotaPercent = .finite q) (h1 : q < 100) :
    (Carried (Platforms.Linux.readLimits vals (Platforms.Linux.generateUnitFile a config)).1
        config.resources.memoryBytes.toNat 1 ∧
      Carried (Platforms.Linux.readLimits vals (Platforms.Linux.generateUnitFile a config)).2 q 1) ↔
      Platforms.Linux.Takes vals config q := by
  have h0 := hv.quota_finite hq
  have hmemory : Carried (some (config.resources.memoryBytes.toNat : ℚ))
      config.resources.memoryBytes.toNat 1 := carried_self hv.memory_pos
  have hwritten : Platforms.Linux.quotaWritten config.resources = true := by
    rw [Platforms.Linux.quotaWritten, hq]
    simp [F64.lt, h0, h1]
  have hquota : (Platforms.Linux.cpuQuota config.resources.cpuQuotaPercent : ℚ) = ⌊q⌋₊ := by
    rw [hq, Platforms.Linux.cpuQuota_finite h0 h1]
  by_cases hbad : ∀ p, UnitFile.place (Platforms.Linux.fields config) = some p →
      UnitFile.Bracketed p.rest
  · rw [Platforms.Linux.readLimits_error hv hbad]
    refine iff_of_false (fun h => not_carried_none h.1) ?_
    rintro ⟨p, hp, hno, -⟩
    exact hno (hbad p hp)
  · simp only [not_forall] at hbad
    obtain ⟨p, hp, hno⟩ := hbad
    have htakes : Platforms.Linux.Takes vals config q ↔
        if p.sec = some Platforms.Linux.service then
          1 ≤ q ∧ ((∀ c ∈ p.rest, UnitFile.isSpace c = true) ∨
            Carried (Platforms.Linux.limitsOf vals p.read).1 config.resources.memoryBytes.toNat 1)
        else
          Carried (Platforms.Linux.limitsOf vals p.read).1 config.resources.memoryBytes.toNat 1 ∧
            Carried (Platforms.Linux.limitsOf vals p.read).2 q 1 := by
      constructor
      · rintro ⟨p', hp', -, h⟩
        cases hp.symm.trans hp'
        exact h
      · exact fun h => ⟨p, hp, hno, h⟩
    rw [htakes]
    by_cases hsec : p.sec = some Platforms.Linux.service
    · rw [if_pos hsec]
      by_cases hrest : ∀ c ∈ p.rest, UnitFile.isSpace c = true
      · -- the generated limits
        rw [Platforms.Linux.readLimits_open hv hp hsec hrest, if_pos hwritten, hquota,
          carried_floor h0]
        exact ⟨fun h => ⟨h.2, .inl hrest⟩, fun h => ⟨hmemory, h.1⟩⟩
      · -- the generated quota, and the memory limit of the fields
        have hblank : ∃ c ∈ p.rest, UnitFile.isSpace c = false := by
          simpa only [not_forall, Bool.not_eq_true, exists_prop] using hrest
        rw [Platforms.Linux.readLimits_over hv hp hsec hblank hno, if_pos hwritten, hquota,
          carried_floor h0]
        exact ⟨fun h => ⟨h.2, .inr h.1⟩, fun h => ⟨h.2.resolve_left hrest, h.1⟩⟩
    · rw [if_neg hsec, Platforms.Linux.readLimits_closed hv hp hsec hno]

/-- A daemon with a quota, and the default limits otherwise. -/
def withQuota (q : ℚ) : DaemonConfig :=
  { DaemonConfig.new "d".toList (Path.ofText "/bin/d".toList) with
    resources := { cpuQuotaPercent := .finite q } }

theorem withQuota_valid (h : 0 < q) : (withQuota q).validate (fun _ => false) = .ok () := by
  have hbase := validate_iff.1 (show (DaemonConfig.new "d".toList
    (Path.ofText "/bin/d".toList)).validate (fun _ => false) = .ok () by decide +kernel)
  exact validate_iff.2 ⟨hbase.name_ne, hbase.name_chars, hbase.binary_ne, hbase.memory_ne,
    by simpa [withQuota, F64.le] using h, hbase.pids_ne⟩

theorem withQuota_place (q : ℚ) : UnitFile.place (Platforms.Linux.fields (withQuota q)) =
    some ⟨UnitFile.written "Unit".toList (Platforms.Linux.fieldItems (withQuota q)),
      some Platforms.Linux.service, []⟩ := by
  have hfields : Platforms.Linux.fields (withQuota q) = Platforms.Linux.fields (withQuota 1) := rfl
  have hitems : Platforms.Linux.fieldItems (withQuota q) =
      Platforms.Linux.fieldItems (withQuota 1) := rfl
  rw [hfields, hitems]
  decide +kernel

end Duende
