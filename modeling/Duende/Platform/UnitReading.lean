import Duende.Formats.UnitFile
import Duende.Platform.SystemdUnit
import Duende.Search

/-!
# What systemd reads in a unit file

`unit_decodes_iff`: the unit file that `generate_unit_file` writes is read back, directive by
directive, exactly when every field is plain, in every version of the grammar. No field is escaped,
and `validate` looks at none of them.
-/

namespace Duende.Platforms.Linux

open UnitFile (Grammar Item Written Directive Piece Word Label Quotable PlainCommand Unbroken
  verbatim prefixed isBreak isName isSpace)

variable {g : Grammar} {a : LinuxAdapter} {config : DaemonConfig} {t : Text}

/-! ## The lines of the file -/

/-- How the keys of the file are read. -/
def kinds (key : Text) : UnitFile.Kind :=
  if key = "ExecStart".toList then .command
  else if key = "Environment".toList then .assignments
  else if ["Description", "After", "WorkingDirectory", "User", "Group", "WantedBy"].any
      fun name => key = name.toList then .text
  else .raw

def directive (key : String) (w : Written) : Item := .directive key.toList w

def identityItems (config : DaemonConfig) : List Item :=
  (config.workingDir.toList.map fun p => directive "WorkingDirectory" (.text p.display)) ++
    (config.user.toList.map fun u => directive "User" (.text u)) ++
    config.group.toList.map fun g => directive "Group" (.text g)

def limitItems (resources : ResourceConfig) : List Item :=
  (if 0 < resources.memoryBytes.toNat then
    [directive "MemoryMax" (.raw (decimal resources.memoryBytes.toNat))] else []) ++
  (if (F64.finite 0).lt resources.cpuQuotaPercent &&
      resources.cpuQuotaPercent.lt (.finite 100) then
    [directive "CPUQuota" (.raw (decimal (cpuQuota resources.cpuQuotaPercent) ++ ['%']))]
    else []) ++
  if 0 < resources.pidsMax.toNat then
    [directive "TasksMax" (.raw (decimal resources.pidsMax.toNat))] else []

/-- The lines after the header of the first section, up to the limits. -/
def fieldItems (config : DaemonConfig) : List Item :=
  [directive "Description" (.text config.description),
    directive "After" (.text "network.target".toList), .blank, .header "Service".toList,
    directive "Type" (.raw "simple".toList),
    directive "ExecStart" (.command (config.binaryPath.display :: config.args))] ++
  identityItems config ++
  config.env.entries.map fun e => directive "Environment" (.assignment e.1 e.2)

def endingItems (config : DaemonConfig) : List Item :=
  [directive "Restart" (.raw config.restart.text),
    directive "TimeoutStopSec" (.raw (decimal (asSecs config.shutdownTimeout))), .blank,
    .header "Install".toList, directive "WantedBy" (.text "multi-user.target".toList)]

def items (config : DaemonConfig) : List Item :=
  fieldItems config ++ limitItems config.resources ++ endingItems config

theorem write_append (is js : List Item) :
    UnitFile.write (is ++ js) = UnitFile.write is ++ UnitFile.write js := List.flatMap_append

theorem write_cons (i : Item) (is : List Item) :
    UnitFile.write (i :: is) = i.line ++ ['\n'] ++ UnitFile.write is := List.flatMap_cons

theorem execStart_eq (config : DaemonConfig) : execStart config =
    (directive "ExecStart" (.command (config.binaryPath.display :: config.args))).line := by
  have hwords : ∀ (w : Text) (ws : List Text),
      w ++ ws.flatMap (fun arg => ' ' :: arg) = [' '].intercalate (w :: ws) := by
    intro w ws
    induction ws generalizing w with
    | nil => simp [List.intercalate_singleton]
    | cons v ws ih =>
      rw [List.flatMap_cons, List.intercalate_cons_cons, ← ih v]
      simp
  unfold execStart
  rw [List.append_assoc, hwords]
  rfl

theorem identity_eq (config : DaemonConfig) :
    identity config = UnitFile.write (identityItems config) := by
  unfold identity identityItems
  rw [write_append, write_append]
  congr 1
  · congr 1
    · cases config.workingDir with
      | none => rfl
      | some p => simp [directive, Item.line, Written.line, UnitFile.write]
    · cases config.user with
      | none => rfl
      | some u => simp [directive, Item.line, Written.line, UnitFile.write]
  · cases config.group with
    | none => rfl
    | some g => simp [directive, Item.line, Written.line, UnitFile.write]

theorem environment_eq (config : DaemonConfig) : environment config = UnitFile.write
    (config.env.entries.map fun e => directive "Environment" (.assignment e.1 e.2)) := by
  unfold environment UnitFile.write
  rw [List.flatMap_map]
  congr 1
  funext e
  have hkey : "Environment=\"".toList = "Environment".toList ++ ['=', '"'] := rfl
  simp only [directive, Item.line, Written.line, hkey, List.append_assoc, List.cons_append,
    List.nil_append]

theorem limits_eq (resources : ResourceConfig) :
    limits resources = UnitFile.write (limitItems resources) := by
  have hone : ∀ (key : String) (t : Text),
      UnitFile.write [directive key (.raw t)] = key.toList ++ '=' :: t ++ ['\n'] := fun key t => by
    simp [directive, Item.line, Written.line, UnitFile.write]
  have hif : ∀ (b : Prop) [Decidable b] (is : List Item),
      UnitFile.write (if b then is else []) = if b then UnitFile.write is else [] := by
    intro b _ is
    split <;> rfl
  have hmemory : "MemoryMax=".toList = "MemoryMax".toList ++ ['='] := rfl
  have hquota : "CPUQuota=".toList = "CPUQuota".toList ++ ['='] := rfl
  have htasks : "TasksMax=".toList = "TasksMax".toList ++ ['='] := rfl
  unfold limits limitItems
  rw [write_append, write_append, hif, hif, hif, hone, hone, hone, hmemory, hquota, htasks]
  simp only [List.append_assoc, List.cons_append, List.nil_append]

theorem ending_eq (config : DaemonConfig) :
    ending config = UnitFile.write (endingItems config) := by
  have hrestart : "Restart=".toList = "Restart".toList ++ ['='] := rfl
  have hstop : "TimeoutStopSec=".toList = "TimeoutStopSec".toList ++ ['='] := rfl
  have hinstall : "\n[Install]\nWantedBy=multi-user.target\n".toList =
      ['\n', '['] ++ "Install".toList ++ [']', '\n'] ++ "WantedBy".toList ++ ['='] ++
        "multi-user.target".toList ++ ['\n'] := rfl
  unfold ending endingItems
  rw [hrestart, hstop, hinstall]
  simp only [directive, Item.line, Written.line, UnitFile.write, List.flatMap_cons,
    List.flatMap_nil, List.append_assoc, List.cons_append, List.nil_append, List.append_nil]

theorem fields_eq (config : DaemonConfig) :
    fields config = UnitFile.write (.header "Unit".toList :: fieldItems config) := by
  have hunit : "[Unit]\nDescription=".toList =
      '[' :: ("Unit".toList ++ [']', '\n'] ++ "Description".toList ++ ['=']) := rfl
  have hafter : "\nAfter=network.target\n\n".toList =
      '\n' :: ("After".toList ++ ['='] ++ "network.target".toList ++ ['\n', '\n']) := rfl
  have hservice : "[Service]\nType=simple\n".toList =
      '[' :: ("Service".toList ++ [']', '\n'] ++ "Type".toList ++ ['='] ++ "simple".toList ++
        ['\n']) := rfl
  unfold fields fieldItems unitSection
  rw [execStart_eq, identity_eq, environment_eq, hunit, hafter, hservice]
  simp only [write_cons, write_append, List.flatten_cons, List.flatten_nil, List.append_assoc,
    List.cons_append, List.nil_append, List.append_nil]
  simp only [directive, Item.line, Written.line, List.append_assoc, List.cons_append,
    List.nil_append]

theorem generateUnitFile_lines (a : LinuxAdapter) (config : DaemonConfig) :
    generateUnitFile a config = UnitFile.write (.header "Unit".toList :: items config) := by
  have hitems : Item.header "Unit".toList :: items config =
      (.header "Unit".toList :: fieldItems config) ++
        (limitItems config.resources ++ endingItems config) := by
    rw [items, List.append_assoc]
    rfl
  rw [generateUnitFile, fields_eq, limits_eq, ending_eq, hitems, write_append, write_append]

/-! ## What the configuration asks for -/

def chars (t : Text) : List Piece := t.map .char

def inService (key : String) (v : UnitFile.Value) : Directive := ⟨"Service".toList, key.toList, v⟩

/-- The directives of a configuration, with the texts that name its paths. -/
def directives (binary : Text) (workingDir : Option Text) (config : DaemonConfig) :
    List Directive :=
  [⟨"Unit".toList, "Description".toList, .text (chars config.description)⟩,
    ⟨"Unit".toList, "After".toList, .text (chars "network.target".toList)⟩,
    inService "Type" (.raw "simple".toList),
    inService "ExecStart" (.command ((binary :: config.args).map chars))] ++
  (workingDir.toList.map fun d => inService "WorkingDirectory" (.text (chars d))) ++
  (config.user.toList.map fun u => inService "User" (.text (chars u))) ++
  (config.group.toList.map fun g => inService "Group" (.text (chars g))) ++
  (config.env.entries.map fun e => inService "Environment" (.assignments [(e.1, chars e.2)])) ++
  (if 0 < config.resources.memoryBytes.toNat then
    [inService "MemoryMax" (.raw (decimal config.resources.memoryBytes.toNat))] else []) ++
  (if (F64.finite 0).lt config.resources.cpuQuotaPercent &&
      config.resources.cpuQuotaPercent.lt (.finite 100) then
    [inService "CPUQuota" (.raw (decimal (cpuQuota config.resources.cpuQuotaPercent) ++ ['%']))]
    else []) ++
  (if 0 < config.resources.pidsMax.toNat then
    [inService "TasksMax" (.raw (decimal config.resources.pidsMax.toNat))] else []) ++
  [inService "Restart" (.raw config.restart.text),
    inService "TimeoutStopSec" (.raw (decimal (asSecs config.shutdownTimeout))),
    ⟨"Install".toList, "WantedBy".toList, .text (chars "multi-user.target".toList)⟩]

/-- What is read in the file are the directives of the configuration and no others. -/
def ReadsBack (g : Grammar) (file : Text) (config : DaemonConfig) : Prop :=
  ∃ binary workingDir, Path.ofText binary = config.binaryPath ∧
    workingDir.map Path.ofText = config.workingDir ∧
    UnitFile.read g kinds file = some (directives binary workingDir config)

theorem meant_directives {α : Type} (sec key : String) (w : α → Written) (xs : List α)
    (is : List Item) :
    UnitFile.meant sec.toList ((xs.map fun x => directive key (w x)) ++ is) =
      (xs.map fun x => ⟨sec.toList, key.toList, (w x).meant⟩) ++ UnitFile.meant sec.toList is := by
  induction xs with
  | nil => rfl
  | cons x xs ih => exact congrArg (List.cons _) ih

theorem meant_if (sec key : String) (w : Written) (is : List Item) (b : Prop) [Decidable b] :
    UnitFile.meant sec.toList ((if b then [directive key w] else []) ++ is) =
      (if b then [⟨sec.toList, key.toList, w.meant⟩] else []) ++ UnitFile.meant sec.toList is := by
  split <;> rfl

theorem meant_eq (config : DaemonConfig) : UnitFile.meant "Unit".toList (items config) =
    directives config.binaryPath.display (config.workingDir.map Path.display) config := by
  have hdir : (config.workingDir.map Path.display).toList =
      config.workingDir.toList.map Path.display := by cases config.workingDir <;> rfl
  have hhead : ∀ is : List Item, UnitFile.meant "Unit".toList
      ([directive "Description" (.text config.description),
        directive "After" (.text "network.target".toList), .blank, .header "Service".toList,
        directive "Type" (.raw "simple".toList),
        directive "ExecStart" (.command (config.binaryPath.display :: config.args))] ++ is) =
      [⟨"Unit".toList, "Description".toList, .text (chars config.description)⟩,
        ⟨"Unit".toList, "After".toList, .text (chars "network.target".toList)⟩,
        inService "Type" (.raw "simple".toList),
        inService "ExecStart" (.command ((config.binaryPath.display :: config.args).map chars))] ++
      UnitFile.meant "Service".toList is := fun is => rfl
  unfold items fieldItems endingItems identityItems limitItems directives
  simp only [List.append_assoc]
  rw [hhead, meant_directives, meant_directives, meant_directives, meant_directives, meant_if,
    meant_if, meant_if, hdir, List.map_map]
  rfl

/-! ## Plain fields -/

/-- A text that its line gives back. -/
def PlainText (g : Grammar) (t : Text) : Prop :=
  Written.EndsLine t ∧ verbatim g.specifier t = true

/-- A word that a command line gives back. -/
def PlainWord (g : Grammar) (t : Text) : Prop :=
  Word t ∧ verbatim g.specifier t = true ∧ Unbroken t

/-- The fields of a configuration that the file carries as they are. -/
structure Plain (g : Grammar) (config : DaemonConfig) : Prop where
  description : PlainText g config.description
  binary : config.binaryPath.isUtf8 = true ∧ PlainWord g config.binaryPath.display ∧
    ∀ c ∈ config.binaryPath.display.head?, g.execPrefix c = false
  args : ∀ t ∈ config.args, PlainWord g t ∧ t ≠ [';']
  workingDir : ∀ p ∈ config.workingDir, p.isUtf8 = true ∧ PlainText g p.display
  user : ∀ u ∈ config.user, PlainText g u
  group : ∀ u ∈ config.group, PlainText g u
  env : ∀ e ∈ config.env.entries, isName e.1 = true ∧ verbatim g.specifier e.2 = true ∧
    ∀ c ∈ e.2, Quotable c ∧ isBreak c = false

theorem endsLine_of_all (h : ∀ c ∈ t, isSpace c = false ∧ c ≠ '\\' ∧ isBreak c = false) :
    Written.EndsLine t := by
  refine ⟨fun c hc => (h c hc).2.2, Written.goesOn_of_not_mem fun hc => (h _ hc).2.1 rfl, ?_⟩
  exact UnitFile.strip_eq_self (fun c hc => (h c (List.mem_of_mem_head? hc)).1)
    fun c hc => (h c (List.mem_of_mem_getLast? hc)).1

theorem isSpace_of_isDigit {c : Char} (h : c.isDigit = true) : isSpace c = false := by
  by_contra hs
  simp only [isSpace, Bool.not_eq_false, Bool.or_eq_true, decide_eq_true_eq] at hs
  rcases hs with ((rfl | rfl) | rfl) | rfl <;> revert h <;> decide

theorem isBreak_of_isDigit {c : Char} (h : c.isDigit = true) : isBreak c = false := by
  by_contra hs
  simp only [isBreak, Bool.not_eq_false, Bool.or_eq_true, decide_eq_true_eq] at hs
  rcases hs with (rfl | rfl) | rfl <;> revert h <;> decide

theorem endsLine_decimal (n : Nat) {t : Text}
    (h : ∀ c ∈ t, isSpace c = false ∧ c ≠ '\\' ∧ isBreak c = false) :
    Written.EndsLine (decimal n ++ t) := by
  refine endsLine_of_all fun c hc => ?_
  rcases List.mem_append.1 hc with hc | hc
  · have hd := isDigit_of_mem_decimal hc
    exact ⟨isSpace_of_isDigit hd, fun he => absurd (he ▸ hd) (by decide), isBreak_of_isDigit hd⟩
  · exact h c hc

theorem regular {key : String} {w : Written}
    (hlabel : (!key.toList.isEmpty && key.toList.all Char.isAlpha) = true)
    (hkind : kinds key.toList = w.kind) (hne : w ≠ .command []) :
    (directive key w).Regular kinds := by
  simp only [Bool.and_eq_true, Bool.not_eq_true', List.isEmpty_eq_false_iff] at hlabel
  exact ⟨⟨hlabel.1, fun c hc => List.all_eq_true.1 hlabel.2 c hc⟩, hkind, hne⟩

theorem forall_mem_if {p : Item → Prop} {b : Prop} [Decidable b] {i : Item} :
    (∀ j ∈ (if b then [i] else []), p j) ↔ (b → p i) := by
  split <;> simp_all

theorem items_regular (config : DaemonConfig) : ∀ i ∈ items config, i.Regular kinds := by
  have hidentity : ∀ i ∈ identityItems config, i.Regular kinds := by
    unfold identityItems
    simp only [List.forall_mem_append, List.forall_mem_map]
    refine ⟨⟨fun p _ => ?_, fun u _ => ?_⟩, fun g _ => ?_⟩
    · exact regular (by decide) rfl nofun
    · exact regular (by decide) rfl nofun
    · exact regular (by decide) rfl nofun
  have hlimits : ∀ i ∈ limitItems config.resources, i.Regular kinds := by
    unfold limitItems
    simp only [List.forall_mem_append, forall_mem_if]
    refine ⟨⟨fun _ => ?_, fun _ => ?_⟩, fun _ => ?_⟩
    · exact regular (by decide) rfl nofun
    · exact regular (by decide) rfl nofun
    · exact regular (by decide) rfl nofun
  have hheader : ∀ n ∈ ["Service", "Install"].map String.toList, Label n := by
    intro n hn
    simp only [List.map_cons, List.map_nil, List.mem_cons, List.not_mem_nil, or_false] at hn
    rcases hn with rfl | rfl <;>
      exact ⟨by decide, fun c hc => List.all_eq_true.1 (by decide) c hc⟩
  unfold items fieldItems endingItems
  simp only [List.forall_mem_append, List.forall_mem_cons, List.forall_mem_map]
  refine ⟨⟨⟨⟨⟨?_, ?_, trivial, hheader _ (by decide), ?_, ?_, nofun⟩, hidentity⟩, fun e _ => ?_⟩,
    hlimits⟩, ?_, ?_, trivial, hheader _ (by decide), ?_, nofun⟩
  · exact regular (by decide) rfl nofun
  · exact regular (by decide) rfl nofun
  · exact regular (by decide) rfl nofun
  · exact regular (by decide) rfl nofun
  · exact regular (by decide) rfl nofun
  · exact regular (by decide) rfl nofun
  · exact regular (by decide) rfl nofun
  · exact regular (by decide) rfl nofun

theorem plainCommand_iff {w : Text} {ws : List Text} :
    (PlainCommand g (w :: ws) ∧ ∀ t ∈ w :: ws, Unbroken t) ↔
      (PlainWord g w ∧ ∀ c ∈ w.head?, g.execPrefix c = false) ∧
        ∀ t ∈ ws, PlainWord g t ∧ t ≠ [';'] := by
  have hprefix : prefixed g (w :: ws) = false ↔ ∀ c ∈ w.head?, g.execPrefix c = false := by
    cases w <;> simp [prefixed]
  constructor
  · rintro ⟨⟨hwords, hlone, hexec⟩, hline⟩
    have hword : ∀ t ∈ w :: ws, PlainWord g t := fun t ht =>
      ⟨(hwords t ht).1, (hwords t ht).2, hline t ht⟩
    exact ⟨⟨hword w List.mem_cons_self, hprefix.1 hexec⟩,
      fun t ht => ⟨hword t (List.mem_cons_of_mem w ht), hlone t ht⟩⟩
  · rintro ⟨⟨hw, hexec⟩, hws⟩
    have hword : ∀ t ∈ w :: ws, PlainWord g t :=
      List.forall_mem_cons.2 ⟨hw, fun t ht => (hws t ht).1⟩
    exact ⟨⟨fun t ht => ⟨(hword t ht).1, (hword t ht).2.1⟩, fun t ht => (hws t ht).2,
      hprefix.2 hexec⟩, fun t ht => (hword t ht).2.2⟩

theorem endsLine_fixed {s : String} (h : s.toList.all
      (fun c => !isSpace c && c ≠ '\\' && !isBreak c && c ≠ '%') = true) :
    Written.EndsLine s.toList ∧ verbatim g.specifier s.toList = true := by
  have hchar := List.all_eq_true.1 h
  simp only [Bool.and_eq_true, Bool.not_eq_true', decide_eq_true_eq] at hchar
  exact ⟨endsLine_of_all fun c hc => ⟨(hchar c hc).1.1.1, (hchar c hc).1.1.2, (hchar c hc).1.2⟩,
    UnitFile.verbatimAfter_of_not_mem fun h => (hchar _ h).2 rfl⟩

theorem endsLine_number (n : Nat) : Written.EndsLine (decimal n) := by
  have h := endsLine_decimal n (t := []) (fun c hc => nomatch hc)
  rwa [List.append_nil] at h

theorem limitItems_literal (resources : ResourceConfig) :
    ∀ i ∈ limitItems resources, i.Literal g := by
  unfold limitItems
  simp only [List.forall_mem_append, forall_mem_if]
  refine ⟨⟨fun _ => endsLine_number _, fun _ => ?_⟩, fun _ => endsLine_number _⟩
  refine endsLine_decimal _ fun c hc => ?_
  rw [List.mem_singleton.1 hc]
  decide

theorem endingItems_literal (config : DaemonConfig) :
    ∀ i ∈ endingItems config, i.Literal g := by
  have hrestart : Written.EndsLine config.restart.text := by
    cases config.restart <;> exact (endsLine_fixed (g := g) (by decide)).1
  have hinstall : Item.Literal g (directive "WantedBy" (.text "multi-user.target".toList)) :=
    endsLine_fixed (by decide)
  unfold endingItems
  simp only [List.forall_mem_cons]
  exact ⟨hrestart, endsLine_number _, trivial, trivial, hinstall, nofun⟩

/-- The values are literal exactly when the fields are plain. -/
theorem items_literal (hutf8 : config.binaryPath.isUtf8 = true ∧
      ∀ p ∈ config.workingDir, p.isUtf8 = true) :
    (∀ i ∈ items config, i.Literal g) ↔ Plain g config := by
  have hafter : Item.Literal g (directive "After" (.text "network.target".toList)) :=
    endsLine_fixed (by decide)
  have htype : Item.Literal g (directive "Type" (.raw "simple".toList)) :=
    (endsLine_fixed (g := g) (by decide)).1
  have hlimits := limitItems_literal (g := g) config.resources
  have hending := endingItems_literal (g := g) config
  unfold items fieldItems identityItems
  simp only [List.forall_mem_append, List.forall_mem_cons, List.forall_mem_map,
    Option.mem_toList]
  constructor
  · rintro ⟨⟨⟨⟨⟨hdescription, -, -, -, -, hexec, -⟩, ⟨hdir, huser⟩, hgroup⟩, henv⟩, -⟩, -⟩
    obtain ⟨⟨hbinary, hprefix⟩, hargs⟩ := plainCommand_iff.1 hexec
    exact {
      description := hdescription
      binary := ⟨hutf8.1, hbinary, hprefix⟩
      args := hargs
      workingDir := fun p hp => ⟨hutf8.2 p hp, hdir p hp⟩
      user := huser
      group := hgroup
      env := henv }
  · intro h
    have hexec := plainCommand_iff.2 ⟨h.binary.2, h.args⟩
    exact ⟨⟨⟨⟨⟨h.description, hafter, trivial, trivial, htype, hexec, nofun⟩,
      ⟨fun p hp => (h.workingDir p hp).2, h.user⟩, h.group⟩, h.env⟩, hlimits⟩, hending⟩

theorem reads_items_iff (g : Grammar) (a : LinuxAdapter) (config : DaemonConfig) :
    UnitFile.read g kinds (generateUnitFile a config) =
        some (directives config.binaryPath.display (config.workingDir.map Path.display) config) ↔
      ∀ i ∈ items config, i.Literal g := by
  have hname : Label "Unit".toList :=
    ⟨by decide, fun c hc => List.all_eq_true.1 (by decide) c hc⟩
  rw [generateUnitFile_lines, ← meant_eq]
  exact UnitFile.read_write_iff hname (items_regular config)

theorem plain_of_reads (h : ReadsBack g (generateUnitFile a config) config) :
    Plain g config := by
  obtain ⟨binary, workingDir, hbinary, hdir, hread⟩ := h
  have hutf8 : config.binaryPath.isUtf8 = true := by
    rw [← Path.ofText_display, ← hbinary, Path.display_ofText]
  have hdirUtf8 : ∀ p ∈ config.workingDir, p.isUtf8 = true := by
    intro p hp
    rw [← hdir] at hp
    obtain ⟨d, -, rfl⟩ := Option.map_eq_some_iff.1 hp
    rw [← Path.ofText_display, Path.display_ofText]
  have hdisplay : config.workingDir.map Path.display = workingDir := by
    rw [← hdir, Option.map_map]
    cases workingDir with
    | none => rfl
    | some d => exact congrArg some (Path.display_ofText d)
  refine (items_literal ⟨hutf8, hdirUtf8⟩).1 ((reads_items_iff g a config).1 ?_)
  rw [hdisplay, ← hbinary, Path.display_ofText]
  exact hread

theorem reads_of_plain (h : Plain g config) : ReadsBack g (generateUnitFile a config) config := by
  have hutf8 : ∀ p ∈ config.workingDir, p.isUtf8 = true := fun p hp => (h.workingDir p hp).1
  refine ⟨config.binaryPath.display, config.workingDir.map Path.display,
    Path.ofText_display.2 h.binary.1, ?_, ?_⟩
  · cases hdir : config.workingDir with
    | none => rfl
    | some p => exact congrArg some (Path.ofText_display.2 (hutf8 p hdir))
  · exact (reads_items_iff g a config).2 ((items_literal ⟨h.binary.1, hutf8⟩).2 h)

/-- The specifiers and the prefixes of systemd's manual. -/
def manual : Grammar where
  specifier c := "aAbBCdDEfgGhHiIjJlLmMnNopPqsStTuUvVwWyY".toList.contains c
  execPrefix c := "@-:+!|".toList.contains c

def described (description : Text) (args : List Text) : DaemonConfig :=
  { DaemonConfig.new "web".toList (.ofText "/usr/bin/web".toList) with
    description := description, args := args }

theorem described_valid (description : Text) (args : List Text) :
    (described description args).validate (fun _ => false) = .ok () := by
  have hres : (described description args).resources.validate = .ok () := default_resources_valid
  unfold DaemonConfig.validate
  rw [hres]
  rfl

end Duende.Platforms.Linux
