import Duende.Platform.UnitReading

/-!
# The limits in a unit file

The memory and CPU limits that systemd reads in the unit file. The generated ones follow all the
fields, so it depends on where these leave the reader (`UnitFile.place`): in the open section
`[Service]` with nothing to go on, the generated limits are read (`readLimits_open`); otherwise
a line of the fields takes the memory limit in (`readLimits_over`), or another section takes both
(`readLimits_closed`).
-/

namespace Duende

def withUnit (u : Char) (v : Text) : Option Nat :=
  if v.getLast? = some u then parseNat v.dropLast else none

theorem withUnit_decimal (u : Char) (n : Nat) : withUnit u (decimal n ++ [u]) = some n := by
  unfold withUnit
  rw [List.getLast?_concat, if_pos rfl, List.dropLast_concat, parseNat_decimal]

theorem parseNat_eq_none {c : Char} {v : Text} (hc : c.isDigit = false) (h : c ∈ v) :
    parseNat v = none := by
  have hall : v.all Char.isDigit = false :=
    List.all_eq_false.2 ⟨c, h, by rw [hc]; exact Bool.false_ne_true⟩
  rw [parseNat, if_pos (by rw [hall, Bool.not_false, Bool.or_true])]

theorem withUnit_eq_none {u c : Char} {v : Text} (hc : c.isDigit = false) (hu : c ≠ u)
    (h : c ∈ v) : withUnit u v = none := by
  unfold withUnit
  split
  · rename_i hlast
    refine parseNat_eq_none hc ?_
    rw [← List.dropLast_append_getLast? u hlast, List.mem_append, List.mem_singleton] at h
    exact h.resolve_right hu
  · rfl

namespace Platforms.Linux

open UnitFile (Item Setting SettingLine Label Place place settings settingsFrom lastValue written
  readLine isSpace Bracketed)

variable {table : Char → Bool} {a : LinuxAdapter} {config : DaemonConfig} {p : Place}

def service : Text := "Service".toList

/-- How the values of the limits are read. One that is none leaves the limit as it was, and one may
take the limit away (`some none`); numbers are limits in bytes and in percent of a processor. -/
structure Values where
  memory : Text → Option (Option ℚ)
  quota : Text → Option (Option ℚ)
  memory_decimal (n : Nat) : memory (decimal n) = some (some (n : ℚ))
  quota_decimal (n : Nat) : quota (decimal n ++ ['%']) = some (some (n : ℚ))
  memory_equals {v : Text} (h : '=' ∈ v) : memory v = none
  quota_equals {v : Text} (h : '=' ∈ v) : quota v = none

/-- Numbers, and no other values. -/
def Values.numbers : Values where
  memory v := (parseNat v).map fun n : Nat => some (n : ℚ)
  quota v := (withUnit '%' v).map fun n : Nat => some (n : ℚ)
  memory_decimal n := by rw [parseNat_decimal]; rfl
  quota_decimal n := by rw [withUnit_decimal]; rfl
  memory_equals h := by rw [parseNat_eq_none (by decide) h]; rfl
  quota_equals h := by rw [withUnit_eq_none (by decide) (by decide) h]; rfl

variable {vals : Values}

/-- The memory limit in bytes and the CPU limit in percent of a processor. -/
def limitsOf (vals : Values) (ss : List Setting) : Option ℚ × Option ℚ :=
  ((lastValue vals.memory service "MemoryMax".toList ss).join,
    (lastValue vals.quota service "CPUQuota".toList ss).join)

def readLimits (vals : Values) (unit : Text) : Option ℚ × Option ℚ :=
  (settings unit).elim (none, none) (limitsOf vals)

/-! ## Lines after the fields -/

theorem write_concat {is : List Item} (h : is ≠ []) : ∃ s, UnitFile.write is = s ++ ['\n'] := by
  obtain ⟨is, i, rfl⟩ := List.eq_nil_or_concat is |>.resolve_left h
  refine ⟨UnitFile.write is ++ i.line, ?_⟩
  rw [List.concat_eq_append, write_append, write_cons, UnitFile.write, List.append_assoc,
    List.append_assoc]
  rfl

theorem settings_fields {key v : Text} {is : List Item}
    (h : ∀ i ∈ Item.directive key (.raw v) :: is, i.Regular kinds ∧ i.Literal manual) :
    settings (fields config ++ UnitFile.write (.directive key (.raw v) :: is)) =
      (place (fields config)).bind fun p =>
        (settingsFrom p.sec ((p.rest ++ (key ++ '=' :: v)) :: is.map Item.line)).map
          fun r => p.read ++ r.1 := by
  obtain ⟨s, hs⟩ := write_concat (List.cons_ne_nil (Item.header "Unit".toList) (fieldItems config))
  rw [← fields_eq] at hs
  have hline : ∀ m ∈ (Item.directive key (.raw v) :: is).map Item.line,
      UnitFile.Unbroken m ∧ UnitFile.Alone m := by
    refine List.forall_mem_map.2 fun i hi => ?_
    obtain ⟨hreg, hlit⟩ := h i hi
    have hone := hreg.line_iff.2 fun key w he => by
      subst he
      exact UnitFile.Written.Literal.line hlit
    exact ⟨hone.1, hreg.start.1, hone.2, hreg.start.2⟩
  have hkey : Label key := (h _ List.mem_cons_self).1.1
  obtain ⟨c, k, rfl⟩ := List.exists_cons_of_ne_nil hkey.1
  have hc : c ≠ '\\' := by
    rintro rfl
    exact absurd (hkey.2 _ List.mem_cons_self) (by decide)
  have hwrite : ∀ is : List Item,
      UnitFile.write is = (is.map Item.line).flatMap fun m => m ++ ['\n'] := fun is => by
    rw [UnitFile.write, List.flatMap_map]
  rw [hs, hwrite, List.append_assoc]
  exact UnitFile.settings_append s hc hline

/-- Lines of the generator's own are read in any section, and say nothing about one that is not
open. -/
theorem settingsFrom_other (sec : Option Text) {is : List Item}
    (h : ∀ i ∈ is, i.Regular kinds) (hmem : .header service ∉ is) :
    ∃ r, settingsFrom sec (is.map Item.line) = some r ∧
      (sec ≠ some service → ∀ s ∈ r.1, s.sec ≠ service) := by
  induction is generalizing sec with
  | nil => exact ⟨([], sec), rfl, fun _ s hs => (nomatch hs)⟩
  | cons i is ih =>
    obtain ⟨hi, hrest⟩ := List.forall_mem_cons.1 h
    have hmem' : Item.header service ∉ is := fun hm => hmem (List.mem_cons_of_mem _ hm)
    cases i with
    | blank => exact ih sec hrest hmem'
    | header name =>
      obtain ⟨r, hr, hother⟩ := ih (some name) hrest hmem'
      refine ⟨r, ?_, fun _ => hother fun he => hmem ?_⟩
      · rw [List.map_cons, settingsFrom, Item.line, UnitFile.readLine_header hi]
        exact hr
      · rw [Option.some.inj he]
        exact List.mem_cons_self
    | directive key w =>
      obtain ⟨r, hr, hother⟩ := ih sec hrest hmem'
      refine ⟨((sec.toList.map fun sec => ⟨sec, key, UnitFile.strip w.line⟩) ++ r.1, r.2), ?_,
        fun hsec => List.forall_mem_append.2 ⟨fun s hs => ?_, hother hsec⟩⟩
      · rw [List.map_cons, settingsFrom, Item.line, UnitFile.readLine_setting hi.1,
          Option.bind_some, hr]
        rfl
      · obtain ⟨sec, hmem, rfl⟩ := List.mem_map.1 hs
        exact fun he => hsec (he ▸ Option.mem_toList.1 hmem)

/-! ## The generated limits -/

/-- A quota below a whole processor is written. -/
def quotaWritten (resources : ResourceConfig) : Bool :=
  (F64.finite 0).lt resources.cpuQuotaPercent && resources.cpuQuotaPercent.lt (.finite 100)

/-- The lines after the memory limit. -/
def laterItems (config : DaemonConfig) : List Item :=
  (if quotaWritten config.resources then
    [directive "CPUQuota" (.raw (decimal (cpuQuota config.resources.cpuQuotaPercent) ++ ['%']))]
    else []) ++
  directive "TasksMax" (.raw (decimal config.resources.pidsMax.toNat)) :: endingItems config

def memoryItem (config : DaemonConfig) : Item :=
  directive "MemoryMax" (.raw (decimal config.resources.memoryBytes.toNat))

theorem generatedItems_eq (hv : config.Valid table) :
    limitItems config.resources ++ endingItems config = memoryItem config :: laterItems config := by
  have hmemory : 0 < config.resources.memoryBytes.toNat :=
    Nat.pos_of_ne_zero fun h0 => hv.memory_ne (UInt64.toNat.inj h0)
  have hpids : 0 < config.resources.pidsMax.toNat :=
    Nat.pos_of_ne_zero fun h0 => hv.pids_ne (UInt64.toNat.inj h0)
  unfold limitItems
  rw [if_pos hmemory, if_pos hpids]
  simp only [List.append_assoc]
  rfl

theorem generateUnitFile_split (hv : config.Valid table) : generateUnitFile a config =
    fields config ++ UnitFile.write (memoryItem config :: laterItems config) := by
  rw [generateUnitFile, limits_eq, ending_eq, ← write_append, generatedItems_eq hv]

/-- The lines of the generator's own are settings, each on one line. -/
theorem generated_lines (hv : config.Valid table) :
    ∀ i ∈ memoryItem config :: laterItems config, i.Regular kinds ∧ i.Literal manual := by
  rw [← generatedItems_eq hv]
  intro i hi
  refine ⟨items_regular config i ?_, ?_⟩
  · rw [items, List.append_assoc]
    exact List.mem_append_right _ hi
  · rcases List.mem_append.1 hi with hi | hi
    · exact limitItems_literal _ i hi
    · exact endingItems_literal _ i hi

theorem limitsOf_append (ss : List Setting) {ss' : List Setting}
    (h : ∀ s ∈ ss', s.sec = service →
      (s.key = "MemoryMax".toList → vals.memory s.value = none) ∧
        (s.key = "CPUQuota".toList → vals.quota s.value = none)) :
    limitsOf vals (ss ++ ss') = limitsOf vals ss := by
  unfold limitsOf
  rw [UnitFile.lastValue_append_other ss fun s hs he => (h s hs he).1,
    UnitFile.lastValue_append_other ss fun s hs he => (h s hs he).2]

theorem limitsOf_others (ss : List Setting) : limitsOf vals (ss ++ written service
    (directive "TasksMax" (.raw (decimal config.resources.pidsMax.toNat)) ::
      endingItems config)) = limitsOf vals ss := by
  have hkeys : (written service (directive "TasksMax"
      (.raw (decimal config.resources.pidsMax.toNat)) :: endingItems config)).map Setting.key =
      ["TasksMax", "Restart", "TimeoutStopSec", "WantedBy"].map String.toList := rfl
  have hall : ∀ k ∈ ["TasksMax", "Restart", "TimeoutStopSec", "WantedBy"].map String.toList,
      k ≠ "MemoryMax".toList ∧ k ≠ "CPUQuota".toList := by decide
  refine limitsOf_append ss fun s hs _ => ?_
  have hne := hall _ (hkeys ▸ List.mem_map_of_mem hs)
  exact ⟨fun h => absurd h hne.1, fun h => absurd h hne.2⟩

theorem keys_ne : "MemoryMax".toList ≠ "CPUQuota".toList := by decide

theorem limitsOf_memory (ss : List Setting) (n : Nat) :
    limitsOf vals (ss ++ [⟨service, "MemoryMax".toList, decimal n⟩]) =
      (some (n : ℚ), (limitsOf vals ss).2) := by
  have hother : lastValue vals.quota service "CPUQuota".toList
      (ss ++ [⟨service, "MemoryMax".toList, decimal n⟩]) = _ :=
    UnitFile.lastValue_append_other ss (List.forall_mem_singleton.2 fun _ h =>
      absurd h keys_ne)
  unfold limitsOf
  rw [UnitFile.lastValue_append_self ss (vals.memory_decimal n), hother]
  rfl

theorem limitsOf_quota (ss : List Setting) (n : Nat) :
    limitsOf vals (ss ++ [⟨service, "CPUQuota".toList, decimal n ++ ['%']⟩]) =
      ((limitsOf vals ss).1, some (n : ℚ)) := by
  have hother : lastValue vals.memory service "MemoryMax".toList
      (ss ++ [⟨service, "CPUQuota".toList, decimal n ++ ['%']⟩]) = _ :=
    UnitFile.lastValue_append_other ss (List.forall_mem_singleton.2 fun _ h =>
      absurd h keys_ne.symm)
  unfold limitsOf
  rw [UnitFile.lastValue_append_self ss (vals.quota_decimal n), hother]
  rfl

/-- After the memory limit none follows; the quota follows if it is written. -/
theorem limitsOf_later (ss : List Setting) :
    limitsOf vals (ss ++ written service (laterItems config)) = ((limitsOf vals ss).1,
      if quotaWritten config.resources then
        some (cpuQuota config.resources.cpuQuotaPercent : ℚ) else (limitsOf vals ss).2) := by
  unfold laterItems
  cases quotaWritten config.resources with
  | false =>
    rw [if_neg Bool.false_ne_true, if_neg Bool.false_ne_true, List.nil_append, limitsOf_others]
  | true =>
    have hstrip : UnitFile.strip (decimal (cpuQuota config.resources.cpuQuotaPercent) ++ ['%']) =
        decimal (cpuQuota config.resources.cpuQuotaPercent) ++ ['%'] := by
      refine (endsLine_decimal _ fun c hc => ?_).2.2
      rw [List.mem_singleton.1 hc]
      decide
    have hcons : ∀ is : List Item, written service ([directive "CPUQuota"
        (.raw (decimal (cpuQuota config.resources.cpuQuotaPercent) ++ ['%']))] ++ is) =
        [⟨service, "CPUQuota".toList,
          UnitFile.strip (decimal (cpuQuota config.resources.cpuQuotaPercent) ++ ['%'])⟩] ++
          written service is := fun _ => rfl
    rw [if_pos rfl, if_pos rfl, hcons, hstrip, ← List.append_assoc, limitsOf_others,
      limitsOf_quota]

/-! ## Where the fields leave the reader -/

theorem readLimits_eq (hv : config.Valid table) : readLimits vals (generateUnitFile a config) =
    ((place (fields config)).bind fun p =>
      (settingsFrom p.sec ((p.rest ++ (memoryItem config).line) ::
        (laterItems config).map Item.line)).map fun r => p.read ++ r.1).elim (none, none)
      (limitsOf vals) := by
  rw [readLimits, generateUnitFile_split hv]
  exact congrArg (fun o => Option.elim o (none, none) (limitsOf vals))
    (settings_fields (generated_lines hv))

theorem later_regular (hv : config.Valid table) : ∀ i ∈ laterItems config, i.Regular kinds :=
  fun i hi => (generated_lines hv i (List.mem_cons_of_mem _ hi)).1

theorem header_later (config : DaemonConfig) : Item.header service ∉ laterItems config := by
  unfold laterItems endingItems directive
  split <;> simp [service]

theorem memoryMax_label : Label "MemoryMax".toList :=
  ⟨by decide, fun c hc => List.all_eq_true.1 (by decide) c hc⟩

theorem settingLine_memory (config : DaemonConfig) : SettingLine (memoryItem config).line := by
  refine ⟨"MemoryMax".toList, decimal config.resources.memoryBytes.toNat, rfl, memoryMax_label, ?_⟩
  obtain ⟨c, t, ht, -⟩ := decimal_eq_cons config.resources.memoryBytes.toNat
  obtain ⟨d, hd⟩ : ∃ d, d ∈ (decimal config.resources.memoryBytes.toNat).getLast? := by
    rw [ht]
    exact ⟨_, List.getLast?_eq_some_getLast (List.cons_ne_nil c t)⟩
  have hdigit := isDigit_of_mem_decimal (List.mem_of_mem_getLast? hd)
  exact ⟨d, hd, isSpace_of_isDigit hdigit, fun he => absurd (he ▸ hdigit) (by decide)⟩

theorem readLine_memory {rest : Text} (hrest : ∀ c ∈ rest, isSpace c = true) :
    readLine (rest ++ (memoryItem config).line) = some (.setting "MemoryMax".toList
      (decimal config.resources.memoryBytes.toNat)) := by
  have h := UnitFile.readLine_blank hrest memoryMax_label
    (decimal config.resources.memoryBytes.toNat)
  rwa [(endsLine_number _).2.2] at h

/-- **The generated limits are read** where the fields leave the section open, with nothing but
white space to go on. -/
theorem readLimits_open (hv : config.Valid table) (hp : place (fields config) = some p)
    (hsec : p.sec = some service) (hrest : ∀ c ∈ p.rest, isSpace c = true) :
    readLimits vals (generateUnitFile a config) = (some (config.resources.memoryBytes.toNat : ℚ),
      if quotaWritten config.resources then
        some (cpuQuota config.resources.cpuQuotaPercent : ℚ) else (limitsOf vals p.read).2) := by
  rw [readLimits_eq hv, hp, Option.bind_some, hsec, settingsFrom, readLine_memory hrest,
    Option.bind_some]
  simp only [UnitFile.settingsFrom_items (later_regular hv), Option.map_some, Option.elim_some,
    Option.toList_some, List.map_cons, List.map_nil]
  rw [← List.append_assoc, limitsOf_later, limitsOf_memory]

theorem readLimits_line (vals : Values) (a : LinuxAdapter) {line : UnitFile.Line}
    (hv : config.Valid table)
    (hp : place (fields config) = some p)
    (hread : readLine (p.rest ++ (memoryItem config).line) = some line)
    (hsetting : ∀ name, line ≠ .header name) :
    ∃ ss, (∀ s ∈ ss, line = .setting s.key s.value) ∧ ∃ later,
      readLimits vals (generateUnitFile a config) = limitsOf vals (p.read ++ (ss ++ later)) ∧
      (p.sec = some service → later = written service (laterItems config)) ∧
      (p.sec ≠ some service → ∀ s ∈ ss ++ later, s.sec ≠ service) := by
  obtain ⟨r, hr, hother⟩ := settingsFrom_other p.sec (later_regular hv) (header_later config)
  have hopen : p.sec = some service → r.1 = written service (laterItems config) := fun hsec => by
    rw [hsec, UnitFile.settingsFrom_items (later_regular hv)] at hr
    rw [← Option.some.inj hr]
  rw [readLimits_eq hv, hp, Option.bind_some, settingsFrom, hread, Option.bind_some]
  cases line with
  | blank =>
    refine ⟨[], fun s hs => absurd hs List.not_mem_nil, r.1, ?_, hopen, hother⟩
    simp only [hr, Option.map_some, Option.elim_some, List.nil_append]
  | header name => exact absurd rfl (hsetting name)
  | setting key v =>
    refine ⟨p.sec.toList.map fun sec => ⟨sec, key, v⟩, List.forall_mem_map.2 fun _ _ => rfl, r.1,
      ?_, hopen, fun hsec => ?_⟩
    · simp only [hr, Option.map_some, Option.elim_some]
    · refine List.forall_mem_append.2 ⟨List.forall_mem_map.2 fun sec hmem he => ?_, hother hsec⟩
      exact hsec (he ▸ Option.mem_toList.1 hmem)

/-- **A line of the fields takes the memory limit in**, and the quota that follows is read. -/
theorem readLimits_over (hv : config.Valid table) (hp : place (fields config) = some p)
    (hsec : p.sec = some service) (hrest : ∃ c ∈ p.rest, isSpace c = false)
    (hno : ¬ Bracketed p.rest) :
    readLimits vals (generateUnitFile a config) = ((limitsOf vals p.read).1,
      if quotaWritten config.resources then
        some (cpuQuota config.resources.cpuQuotaPercent : ℚ) else (limitsOf vals p.read).2) := by
  have hspace : p.rest.getLast? = some ' ' := by
    obtain ⟨c, hc, -⟩ := hrest
    exact (UnitFile.place_rest hp).resolve_left (List.ne_nil_of_mem hc)
  obtain ⟨line, hread, hidle⟩ :=
    UnitFile.readLine_over hrest hspace hno (settingLine_memory config)
  obtain ⟨ss, hss, later, hlimits, hlater, -⟩ := readLimits_line vals a hv hp hread hidle.ne_header
  rw [hlimits, hlater hsec, ← List.append_assoc, limitsOf_later, limitsOf_append]
  intro s hs _
  rcases hidle with h | ⟨key, v, h, hodd⟩
  · cases h.symm.trans (hss s hs)
  · obtain ⟨rfl, rfl⟩ := UnitFile.Line.setting.inj (h.symm.trans (hss s hs))
    rcases hodd with hequals | hblank
    · exact ⟨fun _ => vals.memory_equals hequals, fun _ => vals.quota_equals hequals⟩
    · exact ⟨fun he => absurd (he ▸ hblank) (by decide), fun he => absurd (he ▸ hblank) (by decide)⟩

/-- **Another section takes the limits in.** -/
theorem readLimits_closed (hv : config.Valid table) (hp : place (fields config) = some p)
    (hsec : p.sec ≠ some service) (hno : ¬ Bracketed p.rest) :
    readLimits vals (generateUnitFile a config) = limitsOf vals p.read := by
  obtain ⟨line, hread, hheader⟩ : ∃ line,
      readLine (p.rest ++ (memoryItem config).line) = some line ∧
        ∀ name, line ≠ .header name := by
    by_cases hrest : ∀ c ∈ p.rest, isSpace c = true
    · exact ⟨_, readLine_memory hrest, nofun⟩
    · simp only [not_forall, Bool.not_eq_true] at hrest
      obtain ⟨c, hc, hblank⟩ := hrest
      have hspace := (UnitFile.place_rest hp).resolve_left (List.ne_nil_of_mem hc)
      obtain ⟨line, hread, hidle⟩ :=
        UnitFile.readLine_over ⟨c, hc, hblank⟩ hspace hno (settingLine_memory config)
      exact ⟨line, hread, hidle.ne_header⟩
  obtain ⟨ss, -, later, hlimits, -, hother⟩ := readLimits_line vals a hv hp hread hheader
  rw [hlimits, limitsOf_append _ fun s hs he => absurd he (hother hsec s hs)]

/-- An open bracket before the limits, or an error in the fields, is one of the whole file. -/
theorem readLimits_error (hv : config.Valid table)
    (h : ∀ p, place (fields config) = some p → Bracketed p.rest) :
    readLimits vals (generateUnitFile a config) = (none, none) := by
  rw [readLimits_eq hv]
  cases hp : place (fields config) with
  | none => rfl
  | some p =>
    rw [Option.bind_some, settingsFrom,
      UnitFile.readLine_bracketed (h p hp) (settingLine_memory config)]
    rfl

theorem lastSection_directives {is : List Item} (h : ∀ i ∈ is, ∃ key w, i = .directive key w)
    (sec : Text) : UnitFile.lastSection sec is = sec := by
  induction is with
  | nil => rfl
  | cons i is ih =>
    obtain ⟨⟨key, w, rfl⟩, hrest⟩ := List.forall_mem_cons.1 h
    exact ih hrest

theorem place_plain {g : UnitFile.Grammar} (h : Plain g config) :
    ∃ ss, place (fields config) = some ⟨ss, some service, []⟩ := by
  have hname : Label "Unit".toList :=
    ⟨by decide, fun c hc => List.all_eq_true.1 (by decide) c hc⟩
  have hmem : ∀ i ∈ fieldItems config, i ∈ items config := fun i hi => by
    rw [items, List.append_assoc]
    exact List.mem_append_left _ hi
  have hregular : ∀ i ∈ fieldItems config, i.Regular kinds := fun i hi =>
    items_regular config i (hmem i hi)
  have hliteral := (items_literal ⟨h.binary.1, fun p hp => (h.workingDir p hp).1⟩).2 h
  have hline : ∀ i ∈ fieldItems config, UnitFile.Unbroken i.line ∧ UnitFile.goesOn i.line = false :=
    fun i hi => (hregular i hi).line_iff.2 fun key w he => by
      subst he
      exact UnitFile.Written.Literal.line (hliteral _ (hmem _ hi))
  have hdirectives : ∀ i ∈ [directive "Type" (.raw "simple".toList),
      directive "ExecStart" (.command (config.binaryPath.display :: config.args))] ++
      identityItems config ++ config.env.entries.map fun e =>
        directive "Environment" (.assignment e.1 e.2), ∃ key w, i = .directive key w := by
    unfold identityItems
    simp only [List.forall_mem_append, List.forall_mem_cons, List.forall_mem_map]
    exact ⟨⟨⟨⟨_, _, rfl⟩, ⟨_, _, rfl⟩, fun i hi => absurd hi List.not_mem_nil⟩,
      ⟨fun _ _ => ⟨_, _, rfl⟩, fun _ _ => ⟨_, _, rfl⟩⟩, fun _ _ => ⟨_, _, rfl⟩⟩,
      fun _ _ => ⟨_, _, rfl⟩⟩
  have hlast : UnitFile.lastSection "Unit".toList (fieldItems config) = service :=
    lastSection_directives hdirectives service
  refine ⟨UnitFile.written "Unit".toList (fieldItems config), ?_⟩
  rw [fields_eq, UnitFile.place_write hname hregular hline, hlast]

end Platforms.Linux

end Duende
