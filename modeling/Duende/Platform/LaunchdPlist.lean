import Duende.Formats.Plist
import Duende.Platform.Services

/-!
# The property list of a launchd job

`generate_plist` and what is read from the text it generates. `plist_decodes_iff` says for
which configurations that is the configuration.
-/

namespace Duende.Platforms.MacOS

open Plist (Item)

def serviceLabel (daemonName : Text) : Text :=
  "com.duende.".toList ++ replaceChar ' ' '-' daemonName

def generatePlist (a : MacOSAdapter) (config : DaemonConfig) : Text :=
  let label := serviceLabel config.name
  List.flatten [
    "<?xml version=\"1.0\" encoding=\"UTF-8\"?>\n".toList,
    "<!DOCTYPE plist PUBLIC \"-//Apple//DTD PLIST 1.0//EN\" ".toList,
    "\"http://www.apple.com/DTDs/PropertyList-1.0.dtd\">\n".toList,
    "<plist version=\"1.0\">\n".toList,
    "<dict>\n".toList,
    "    <key>Label</key>\n".toList,
    "    <string>".toList ++ label ++ "</string>\n".toList,
    "    <key>ProgramArguments</key>\n".toList,
    "    <array>\n".toList,
    "        <string>".toList ++ config.binaryPath.display ++ "</string>\n".toList,
    config.args.flatMap fun arg => "        <string>".toList ++ arg ++ "</string>\n".toList,
    "    </array>\n".toList,
    config.workingDir.elim [] fun workingDir =>
      "    <key>WorkingDirectory</key>\n".toList ++
        ("    <string>".toList ++ workingDir.display ++ "</string>\n".toList),
    if !a.userAgent then
      (config.user.elim [] fun user =>
        "    <key>UserName</key>\n".toList ++
          ("    <string>".toList ++ user ++ "</string>\n".toList)) ++
      (config.group.elim [] fun group =>
        "    <key>GroupName</key>\n".toList ++
          ("    <string>".toList ++ group ++ "</string>\n".toList))
    else [],
    if !config.env.entries.isEmpty then
      List.flatten [
        "    <key>EnvironmentVariables</key>\n".toList,
        "    <dict>\n".toList,
        config.env.entries.flatMap fun e =>
          ("        <key>".toList ++ e.1 ++ "</key>\n".toList) ++
          ("        <string>".toList ++ e.2 ++ "</string>\n".toList),
        "    </dict>\n".toList]
    else [],
    "    <key>KeepAlive</key>\n".toList,
    "    <".toList ++ (if config.restart ≠ .never then "true".toList else "false".toList) ++
      "/>\n".toList,
    "    <key>RunAtLoad</key>\n".toList,
    "    <true/>\n".toList,
    "    <key>StandardOutPath</key>\n".toList,
    "    <string>".toList ++ ("/var/log/".toList ++ label ++ ".log".toList) ++
      "</string>\n".toList,
    "    <key>StandardErrorPath</key>\n".toList,
    "    <string>".toList ++ ("/var/log/".toList ++ label ++ ".error.log".toList) ++
      "</string>\n".toList,
    if 0 < config.resources.memoryBytes.toNat ∨ 0 < config.resources.openFilesMax.toNat then
      List.flatten [
        "    <key>SoftResourceLimits</key>\n".toList,
        "    <dict>\n".toList,
        if 0 < config.resources.memoryBytes.toNat then
          "        <key>MemoryLock</key>\n".toList ++ ("        <integer>".toList ++
            decimal config.resources.memoryBytes.toNat ++ "</integer>\n".toList)
        else [],
        if 0 < config.resources.openFilesMax.toNat then
          "        <key>NumberOfFiles</key>\n".toList ++ ("        <integer>".toList ++
            decimal config.resources.openFilesMax.toNat ++ "</integer>\n".toList)
        else [],
        "    </dict>\n".toList]
    else [],
    "</dict>\n".toList,
    "</plist>\n".toList]

/-! ## How it is read -/

/-- What is read from a property list: its strings name texts and paths. -/
def decode (plist : Text) : Option (List (Item Path)) :=
  (Plist.parse plist).map (List.map (Item.map Path.ofText))

/-- A key with a string, if there is one. -/
def stringEntry {α β : Type} (text : Text → α) (key : String) (f : β → α) :
    Option β → List (Nat × Item α)
  | some x => [(4, .key (text key.toList)), (4, .string (f x))]
  | none => []

def limits {α : Type} (text : Text → α) (resources : ResourceConfig) : List (Nat × Item α) :=
  let limit (k : String) (n : Nat) : List (Nat × Item α) :=
    if 0 < n then [(8, .key (text k.toList)), (8, .integer n)] else []
  if 0 < resources.memoryBytes.toNat ∨ 0 < resources.openFilesMax.toNat then
    [(4, .key (text "SoftResourceLimits".toList)), (4, .dictStart)] ++
      limit "MemoryLock" resources.memoryBytes.toNat ++
      limit "NumberOfFiles" resources.openFilesMax.toNat ++ [(4, .dictStop)]
  else []

/-- The parts of the property list, with how far each is indented: `text` makes something of
its texts, `path` of its paths. -/
def parts {α : Type} (text : Text → α) (path : Path → α) (a : MacOSAdapter)
    (config : DaemonConfig) : List (Nat × Item α) :=
  let label := serviceLabel config.name
  let key (n : Nat) (k : String) : Nat × Item α := (n, .key (text k.toList))
  List.flatten [
    [(0, .dictStart), key 4 "Label", (4, .string (text label)), key 4 "ProgramArguments",
      (4, .arrayStart), (8, .string (path config.binaryPath))],
    config.args.map fun arg => (8, .string (text arg)),
    [(4, .arrayStop)],
    stringEntry text "WorkingDirectory" path config.workingDir,
    if !a.userAgent then
      stringEntry text "UserName" text config.user ++
        stringEntry text "GroupName" text config.group
    else [],
    if !config.env.entries.isEmpty then
      [key 4 "EnvironmentVariables", (4, .dictStart)] ++
        (config.env.entries.flatMap fun e => [(8, .key (text e.1)), (8, .string (text e.2))]) ++
        [(4, .dictStop)]
    else [],
    [key 4 "KeepAlive", (4, .bool (config.restart ≠ .never)), key 4 "RunAtLoad", (4, .bool true),
      key 4 "StandardOutPath",
      (4, .string (text ("/var/log/".toList ++ label ++ ".log".toList))),
      key 4 "StandardErrorPath",
      (4, .string (text ("/var/log/".toList ++ label ++ ".error.log".toList)))],
    limits text config.resources,
    [(0, .dictStop)]]

/-- What the configuration says, under the keys that the generator names. -/
def wanted (a : MacOSAdapter) (config : DaemonConfig) : List (Item Path) :=
  (parts Path.ofText id a config).map Prod.snd

/-- A path that stands in a document as it is. -/
def LiteralPath (p : Path) : Prop := p.isUtf8 = true ∧ Xml.Literal p.display

/-- Everything that is put into the document says itself. -/
structure Plain (a : MacOSAdapter) (config : DaemonConfig) : Prop where
  binary : LiteralPath config.binaryPath
  args : ∀ arg ∈ config.args, Xml.Literal arg
  workingDir : ∀ p, config.workingDir = some p → LiteralPath p
  user : a.userAgent = false → ∀ u, config.user = some u → Xml.Literal u
  group : a.userAgent = false → ∀ g, config.group = some g → Xml.Literal g
  env : ∀ e ∈ config.env.entries, Xml.Literal e.1 ∧ Xml.Literal e.2

/-! ## The document -/

variable {a : MacOSAdapter} {config : DaemonConfig} {table : Char → Bool}

def written (a : MacOSAdapter) (config : DaemonConfig) : List (Nat × Item Text) :=
  parts id Path.display a config

theorem leaf_line {n : Nat} {i : Item Text} {e : Plist.Element} {t : Text} {before after : String}
    (hi : i.text = Plist.leafText e t)
    (hb : before.toList = List.replicate n ' ' ++ Plist.bracket e.name)
    (ha : after.toList = Plist.bracket ('/' :: e.name) ++ ['\n']) :
    before.toList ++ t ++ after.toList = Plist.line (n, i) := by
  simp only [Plist.line, hi, Plist.leafText, hb, ha, List.append_assoc]

theorem string_line_four (t : Text) :
    "    <string>".toList ++ t ++ "</string>\n".toList = Plist.line (4, .string t) :=
  leaf_line rfl rfl rfl

theorem string_line_eight (t : Text) :
    "        <string>".toList ++ t ++ "</string>\n".toList = Plist.line (8, .string t) :=
  leaf_line rfl rfl rfl

theorem key_line_eight (t : Text) :
    "        <key>".toList ++ t ++ "</key>\n".toList = Plist.line (8, .key t) :=
  leaf_line rfl rfl rfl

theorem integer_line_eight (n : Nat) :
    "        <integer>".toList ++ decimal n ++ "</integer>\n".toList =
      Plist.line (8, .integer n) :=
  leaf_line (e := .integer) (t := decimal n) rfl rfl rfl

theorem flatMap_stringEntry {β : Type} (key : String) (f : β → Text) (x : Option β) :
    (stringEntry id key f x).flatMap Plist.line =
      x.elim [] fun x => Plist.line (4, .key key.toList) ++ Plist.line (4, .string (f x)) := by
  cases x <;> simp [stringEntry]

theorem flatMap_limits (resources : ResourceConfig) : (limits id resources).flatMap Plist.line =
    if 0 < resources.memoryBytes.toNat ∨ 0 < resources.openFilesMax.toNat then
      List.flatten [Plist.line (4, .key "SoftResourceLimits".toList), Plist.line (4, .dictStart),
        if 0 < resources.memoryBytes.toNat then
          Plist.line (8, .key "MemoryLock".toList) ++
            Plist.line (8, .integer resources.memoryBytes.toNat)
        else [],
        if 0 < resources.openFilesMax.toNat then
          Plist.line (8, .key "NumberOfFiles".toList) ++
            Plist.line (8, .integer resources.openFilesMax.toNat)
        else [],
        Plist.line (4, .dictStop)]
    else [] := by
  unfold limits
  split
  · simp only [List.flatMap_append, List.flatMap_cons, List.flatMap_nil, List.flatten_cons,
      List.flatten_nil, apply_ite (List.flatMap Plist.line), List.append_nil, List.append_assoc,
      id_eq]
  · rfl

theorem generatePlist_eq : generatePlist a config = Plist.document (written a config) := by
  have hdecl : "<?xml version=\"1.0\" encoding=\"UTF-8\"?>\n".toList =
      Plist.declaration ++ ['\n'] := rfl
  have htype : "<!DOCTYPE plist PUBLIC \"-//Apple//DTD PLIST 1.0//EN\" ".toList ++
      "\"http://www.apple.com/DTDs/PropertyList-1.0.dtd\">\n".toList =
      '<' :: (Plist.doctype ++ ['\n']) := by decide
  have hroot : "<plist version=\"1.0\">\n".toList =
      Plist.bracket "plist version=\"1.0\"".toList ++ ['\n'] := rfl
  have hend : "</plist>\n".toList = Plist.bracket ('/' :: Plist.Element.plist.name) ++ ['\n'] :=
    rfl
  have hdict : "<dict>\n".toList = Plist.line (0, .dictStart) := rfl
  have hdict' : "    <dict>\n".toList = Plist.line (4, .dictStart) := rfl
  have hstop : "</dict>\n".toList = Plist.line (0, .dictStop) := rfl
  have hstop' : "    </dict>\n".toList = Plist.line (4, .dictStop) := rfl
  have harray : "    <array>\n".toList = Plist.line (4, .arrayStart) := rfl
  have harray' : "    </array>\n".toList = Plist.line (4, .arrayStop) := rfl
  have hlabel : "    <key>Label</key>\n".toList = Plist.line (4, .key "Label".toList) := rfl
  have hargs : "    <key>ProgramArguments</key>\n".toList =
      Plist.line (4, .key "ProgramArguments".toList) := rfl
  have hwd : "    <key>WorkingDirectory</key>\n".toList =
      Plist.line (4, .key "WorkingDirectory".toList) := rfl
  have huser : "    <key>UserName</key>\n".toList = Plist.line (4, .key "UserName".toList) := rfl
  have hgroup : "    <key>GroupName</key>\n".toList = Plist.line (4, .key "GroupName".toList) :=
    rfl
  have henv : "    <key>EnvironmentVariables</key>\n".toList =
      Plist.line (4, .key "EnvironmentVariables".toList) := rfl
  have halive : "    <key>KeepAlive</key>\n".toList = Plist.line (4, .key "KeepAlive".toList) :=
    rfl
  have hbool : "    <".toList ++ (if config.restart ≠ .never then "true".toList
      else "false".toList) ++ "/>\n".toList = Plist.line (4, .bool (config.restart ≠ .never)) := by
    by_cases h : config.restart = .never
    · rw [h]; rfl
    · simp only [ne_eq, h, not_false_eq_true, if_true, decide_true]; rfl
  have hload : "    <key>RunAtLoad</key>\n".toList = Plist.line (4, .key "RunAtLoad".toList) :=
    rfl
  have htrue : "    <true/>\n".toList = Plist.line (4, .bool true) := rfl
  have hout : "    <key>StandardOutPath</key>\n".toList =
      Plist.line (4, .key "StandardOutPath".toList) := rfl
  have herr : "    <key>StandardErrorPath</key>\n".toList =
      Plist.line (4, .key "StandardErrorPath".toList) := rfl
  have hlimits : "    <key>SoftResourceLimits</key>\n".toList =
      Plist.line (4, .key "SoftResourceLimits".toList) := rfl
  have hmem : "        <key>MemoryLock</key>\n".toList =
      Plist.line (8, .key "MemoryLock".toList) := rfl
  have hfiles : "        <key>NumberOfFiles</key>\n".toList =
      Plist.line (8, .key "NumberOfFiles".toList) := rfl
  unfold generatePlist Plist.document Plist.body written parts
  simp only [hdecl, hroot, hend, hdict, hdict', hstop, hstop', harray, harray', hlabel, hargs,
    hwd, huser, hgroup, henv, halive, hbool, hload, htrue, hout, herr, hlimits, hmem, hfiles,
    string_line_four, string_line_eight, key_line_eight, integer_line_eight]
  simp only [List.flatten_cons, List.flatten_nil, List.flatMap_append, List.flatMap_cons,
    List.flatMap_nil, flatMap_stringEntry, flatMap_limits, List.flatMap_map, List.flatMap_assoc,
    List.append_nil, apply_ite (List.flatMap Plist.line), List.append_assoc, id_eq]
  rw [← List.append_assoc "<!DOCTYPE plist PUBLIC \"-//Apple//DTD PLIST 1.0//EN\" ".toList, htype]
  simp only [List.append_assoc, List.cons_append, List.nil_append]

/-! ## The round trip -/

theorem moves_parts {α : Type} (text : Text → α) (path : Path → α) :
    Plist.moves ((parts text path a config).map Prod.snd) (.root, []) =
      some (.closing, []) := by
  have hentry : ∀ {β : Type} (key : String) (f : β → α) (x : Option β) (outer : List Plist.Place),
      Plist.moves ((stringEntry text key f x).map Prod.snd) (.dict, outer) =
        some (.dict, outer) := by
    intro β key f x outer
    cases x <;> rfl
  have hlimits : ∀ (r : ResourceConfig) (outer : List Plist.Place),
      Plist.moves ((limits text r).map Prod.snd) (.dict, outer) = some (.dict, outer) := by
    intro r outer
    unfold limits
    split
    · by_cases hm : 0 < r.memoryBytes.toNat <;> by_cases hf : 0 < r.openFilesMax.toNat <;>
        simp [hm, hf, Item.move, Plist.Place.next]
    · rfl
  have hargs : ∀ outer, Plist.moves ((config.args.map fun arg => (8, Item.string (text arg))).map
      Prod.snd) (.array, outer) = some (.array, outer) := by
    intro outer
    rw [List.map_map]
    exact Plist.moves_strings text config.args outer
  have hpairs : ∀ outer, Plist.moves ((config.env.entries.flatMap fun e =>
      [(8, Item.key (text e.1)), (8, Item.string (text e.2))]).map Prod.snd) (.dict, outer) =
        some (.dict, outer) := by
    intro outer
    rw [List.map_flatMap]
    exact Plist.moves_entries (fun e => text e.1) (fun e => text e.2) config.env.entries outer
  unfold parts
  split <;> split <;>
    simp only [List.flatten_cons, List.flatten_nil, List.map_append, List.map_cons, List.map_nil,
      Plist.moves_append, Plist.moves_cons, Plist.moves_nil, hentry, hlimits, hargs, hpairs,
      Item.move, Plist.Place.next, Option.map_some, Option.bind_some, if_true]

theorem parts_eq_iff {α : Type} {text : Text → α} {f g : Path → α} :
    (parts text f a config).map Prod.snd = (parts text g a config).map Prod.snd ↔
      f config.binaryPath = g config.binaryPath ∧
        ∀ p, config.workingDir = some p → f p = g p := by
  cases h : config.workingDir <;>
    simp only [parts, stringEntry, h, List.flatten_cons, List.map_append, List.map_cons,
      List.cons_append, List.nil_append, List.append_cancel_left_eq, List.cons.injEq,
      Item.string.injEq, true_and, and_true, reduceCtorEq, false_imp_iff, implies_true,
      Option.some.injEq, forall_eq']

theorem map_parts {α β : Type} (text : Text → α) (path : Path → α) (f : α → β) :
    (parts text path a config).map (Prod.map id (Item.map f)) =
      parts (f ∘ text) (f ∘ path) a config := by
  have hentry : ∀ {γ : Type} (key : String) (g : γ → α) (x : Option γ),
      (stringEntry text key g x).map (Prod.map id (Item.map f)) =
        stringEntry (f ∘ text) key (f ∘ g) x := by
    intro γ key g x
    cases x <;> rfl
  have hlimits : (limits text config.resources).map (Prod.map id (Item.map f)) =
      limits (f ∘ text) config.resources := by
    unfold limits
    split
    · by_cases hm : 0 < config.resources.memoryBytes.toNat <;>
        by_cases hf : 0 < config.resources.openFilesMax.toNat <;>
        simp [hm, hf, Item.map]
    · rfl
  unfold parts
  split <;> split <;>
    simp only [List.flatten_cons, List.flatten_nil, List.map_append, List.map_cons, List.map_nil,
      List.map_map, List.map_flatMap, hentry, hlimits, Prod.map, Item.map, id_eq,
      Function.comp_def]

def keys : List Text :=
  ["Label".toList, "ProgramArguments".toList, "WorkingDirectory".toList, "UserName".toList,
    "GroupName".toList, "EnvironmentVariables".toList, "KeepAlive".toList, "RunAtLoad".toList,
    "StandardOutPath".toList, "StandardErrorPath".toList, "SoftResourceLimits".toList,
    "MemoryLock".toList, "NumberOfFiles".toList]

/-- The texts of a line satisfy `P`. -/
def Says (P : Text → Prop) (l : Nat × Item Text) : Prop := ∀ t ∈ l.2.texts, P t

section

variable {P : Text → Prop}

theorem says_key {n : Nat} {t : Text} : Says P (n, .key t) ↔ P t := List.forall_mem_singleton

theorem says_string {n : Nat} {t : Text} : Says P (n, .string t) ↔ P t :=
  List.forall_mem_singleton

theorem says_integer {n : Nat} {i : Int} : Says P (n, .integer i) := fun _ h => nomatch h

theorem says_bool {n : Nat} {b : Bool} : Says P (n, .bool b) := fun _ h => nomatch h

theorem says_dictStart {n : Nat} : Says P (n, .dictStart) := fun _ h => nomatch h

theorem says_dictStop {n : Nat} : Says P (n, .dictStop) := fun _ h => nomatch h

theorem says_arrayStart {n : Nat} : Says P (n, .arrayStart) := fun _ h => nomatch h

theorem says_arrayStop {n : Nat} : Says P (n, .arrayStop) := fun _ h => nomatch h

theorem says_stringEntry {β : Type} {key : String} {f : β → Text} {x : Option β}
    (hk : P key.toList) :
    (∀ l ∈ stringEntry id key f x, Says P l) ↔ ∀ y, x = some y → P (f y) := by
  cases x with
  | none => simp [stringEntry]
  | some y =>
    simp only [stringEntry, List.forall_mem_cons, says_key, says_string, id_eq, hk, true_and,
      List.not_mem_nil, false_imp_iff, implies_true, and_true, Option.some.injEq, forall_eq']

theorem says_limits {r : ResourceConfig} (hkeys : ∀ t ∈ keys, P t) :
    ∀ l ∈ limits id r, Says P l := by
  have h1 : P "SoftResourceLimits".toList := hkeys _ (by decide)
  have h2 : P "MemoryLock".toList := hkeys _ (by decide)
  have h3 : P "NumberOfFiles".toList := hkeys _ (by decide)
  unfold limits
  split
  · by_cases hm : 0 < r.memoryBytes.toNat <;> by_cases hf : 0 < r.openFilesMax.toNat <;>
      simp only [hm, hf, if_true, if_false, List.append_nil, List.forall_mem_append,
        List.forall_mem_cons, says_key, says_integer, says_dictStart, says_dictStop, id_eq,
        List.not_mem_nil, false_imp_iff, implies_true, and_true, h1, h2, h3]
  · exact fun l hl => nomatch hl

end

/-- The texts of the document are the keys, what has the label in it, and the fields. -/
theorem says_written {P : Text → Prop} (hkeys : ∀ t ∈ keys, P t)
    (hlabel : P (serviceLabel config.name))
    (hout : P ("/var/log/".toList ++ serviceLabel config.name ++ ".log".toList))
    (herr : P ("/var/log/".toList ++ serviceLabel config.name ++ ".error.log".toList)) :
    (∀ l ∈ written a config, Says P l) ↔
      P config.binaryPath.display ∧ (∀ arg ∈ config.args, P arg) ∧
      (∀ p, config.workingDir = some p → P p.display) ∧
      (a.userAgent = false → (∀ u, config.user = some u → P u) ∧
        ∀ g, config.group = some g → P g) ∧
      ∀ e ∈ config.env.entries, P e.1 ∧ P e.2 := by
  have hwd := says_stringEntry (f := Path.display) (x := config.workingDir)
    (hkeys "WorkingDirectory".toList (by decide))
  have huser : (∀ l ∈ (if !a.userAgent then stringEntry id "UserName" id config.user ++
      stringEntry id "GroupName" id config.group else []), Says P l) ↔
      (a.userAgent = false → (∀ u, config.user = some u → P u) ∧
        ∀ g, config.group = some g → P g) := by
    cases a.userAgent with
    | true => simp
    | false =>
      simp only [Bool.not_false, if_true, List.forall_mem_append, true_imp_iff,
        says_stringEntry (hkeys "UserName".toList (by decide)),
        says_stringEntry (hkeys "GroupName".toList (by decide)), id_eq]
  have henv : (∀ l ∈ (if !config.env.entries.isEmpty then
      [(4, .key (id "EnvironmentVariables".toList)), (4, .dictStart)] ++
        (config.env.entries.flatMap fun e => [(8, .key (id e.1)), (8, .string (id e.2))]) ++
        [(4, Item.dictStop)] else []), Says P l) ↔
      ∀ e ∈ config.env.entries, P e.1 ∧ P e.2 := by
    have hkey : P "EnvironmentVariables".toList := hkeys _ (by decide)
    cases config.env.entries with
    | nil => simp
    | cons e es =>
      simp only [List.isEmpty_cons, Bool.not_false, if_true, List.forall_mem_append,
        List.forall_mem_cons, List.forall_mem_flatMap, says_key, says_string, says_dictStart,
        says_dictStop, id_eq, List.not_mem_nil, false_imp_iff, implies_true, and_true, true_and,
        hkey]
  have h1 : P "Label".toList := hkeys _ (by decide)
  have h2 : P "ProgramArguments".toList := hkeys _ (by decide)
  have h3 : P "KeepAlive".toList := hkeys _ (by decide)
  have h4 : P "RunAtLoad".toList := hkeys _ (by decide)
  have h5 : P "StandardOutPath".toList := hkeys _ (by decide)
  have h6 : P "StandardErrorPath".toList := hkeys _ (by decide)
  unfold written parts
  simp only [List.flatten_cons, List.flatten_nil, List.append_nil, List.forall_mem_append, huser,
    henv, hwd]
  simp only [List.forall_mem_cons, List.forall_mem_map, says_key, says_string, says_bool,
    says_dictStart, says_dictStop, says_arrayStart, says_arrayStop, id_eq, List.not_mem_nil,
    false_imp_iff, implies_true, and_true, true_and, h1, h2, h3, h4, h5, h6, hlabel, hout, herr]
  have hlim := says_limits (r := config.resources) hkeys
  tauto

/-- A character that neither starts markup nor ends a section. -/
abbrev Tame (c : Char) : Prop :=
  Xml.isChar c = true ∧ c ≠ '<' ∧ c ≠ '&' ∧ c ≠ '\r' ∧ c ≠ ']'

theorem tame_of_all {t : Text} (h : t.all (fun c => decide (Tame c)) = true) :
    ∀ c ∈ t, Tame c := fun c hc => of_decide_eq_true (List.all_eq_true.1 h c hc)

theorem literal_of_tame {t : Text} (h : ∀ c ∈ t, Tame c) : Xml.Literal t where
  chars := fun c hc => by
    obtain ⟨h1, h2, h3, h4, -⟩ := h c hc
    exact ⟨h1, h2, h3, h4⟩
  ends := fun hin => (h _ (hin.subset (show ']' ∈ "]]>".toList by decide))).2.2.2.2 rfl

/-- The label of a valid name is literal, also in a file name. -/
theorem label_tame (hv : config.Valid table) : ∀ c ∈ serviceLabel config.name, Tame c := by
  have hname : ∀ c ∈ config.name, Tame c := by
    intro c hc
    have h := hv.name_chars c hc
    simp only [Bool.or_eq_true, beq_iff_eq] at h
    rcases h with (h | rfl) | rfl
    · unfold isAlphanumeric at h
      split at h
      · rename_i hlt
        have hword : ∀ x : Char, x.isAlphanum = false → c ≠ x := fun x hx e => by
          rw [e, hx] at h; cases h
        have hlo : 32 ≤ c.toNat := by
          by_contra hlo
          have : ∀ n < 32, (Char.ofNat n).isAlphanum = false := by decide
          rw [← Char.ofNat_toNat c, this _ (by omega)] at h
          cases h
        refine ⟨?_, hword _ (by decide), hword _ (by decide), hword _ (by decide),
          hword _ (by decide)⟩
        simp [Xml.isChar, hlo, hword '\uFFFE' (by decide), hword '\uFFFF' (by decide)]
      · rename_i hge
        have hne : ∀ x : Char, x.toNat < 128 → c ≠ x := fun x hx e => hge (e ▸ hx)
        simp only [Bool.and_eq_true, bne_iff_ne, ne_eq] at h
        refine ⟨?_, hne _ (by decide), hne _ (by decide), hne _ (by decide), hne _ (by decide)⟩
        have hlo : 32 ≤ c.toNat := by omega
        simp [Xml.isChar, hlo, h.1.2, h.2]
    · decide
    · decide
  intro c hc
  rcases List.mem_append.1 hc with hc | hc
  · have hpre : ∀ c ∈ "com.duende.".toList, Tame c := tame_of_all (by decide)
    exact hpre c hc
  · obtain ⟨x, hx, rfl⟩ := List.mem_map.1 hc
    split
    · decide
    · exact hname x hx

theorem map_items {α β : Type} (text : Text → α) (path : Path → α) (f : α → β) :
    ((parts text path a config).map Prod.snd).map (Item.map f) =
      (parts (f ∘ text) (f ∘ path) a config).map Prod.snd := by
  rw [← map_parts]
  simp only [List.map_map, Function.comp_def, Prod.map_snd]

/-- With a valid name, only the fields need not be literal. -/
theorem literal_written (hv : config.Valid table) :
    (∀ l ∈ written a config, Says Xml.Literal l) ↔
      Xml.Literal config.binaryPath.display ∧ (∀ arg ∈ config.args, Xml.Literal arg) ∧
      (∀ p, config.workingDir = some p → Xml.Literal p.display) ∧
      (a.userAgent = false → (∀ u, config.user = some u → Xml.Literal u) ∧
        ∀ g, config.group = some g → Xml.Literal g) ∧
      ∀ e ∈ config.env.entries, Xml.Literal e.1 ∧ Xml.Literal e.2 := by
  have hlabel := label_tame hv
  have hfile : ∀ suffix : Text, (∀ c ∈ suffix, Tame c) →
      Xml.Literal ("/var/log/".toList ++ serviceLabel config.name ++ suffix) := by
    intro suffix hs
    have hpre : ∀ c ∈ "/var/log/".toList, Tame c := tame_of_all (by decide)
    refine literal_of_tame fun c hc => ?_
    rcases List.mem_append.1 hc with hc | hc
    · rcases List.mem_append.1 hc with hc | hc
      · exact hpre c hc
      · exact hlabel c hc
    · exact hs c hc
  exact says_written (fun t ht => literal_of_tame (tame_of_all (by revert t; decide)))
    (literal_of_tame hlabel) (hfile ".log".toList (tame_of_all (by decide)))
    (hfile ".error.log".toList (tame_of_all (by decide)))

theorem display_comp_ofText : Path.display ∘ Path.ofText = id := funext Path.display_ofText

/-- What is written names the paths of the configuration exactly when they are UTF-8. -/
theorem read_written : ((written a config).map Prod.snd).map (Item.map Path.ofText) =
    wanted a config ↔
      config.binaryPath.isUtf8 = true ∧ ∀ p, config.workingDir = some p → p.isUtf8 = true := by
  rw [written, map_items, wanted]
  refine parts_eq_iff.trans ?_
  simp only [Function.comp_apply, id_eq, Path.ofText_display]

theorem plain_of_decodes (hv : config.Valid table)
    (h : decode (generatePlist a config) = some (wanted a config)) : Plain a config := by
  rw [generatePlist_eq] at h
  obtain ⟨is, his, hwanted⟩ := Option.map_eq_some_iff.1 h
  have hback : is = (written a config).map Prod.snd := by
    calc is = (is.map (Item.map Path.ofText)).map (Item.map Path.display) := by
            rw [List.map_map]
            refine (List.map_id'' (fun i => ?_) is).symm
            rw [Function.comp_apply, Item.map_map, display_comp_ofText, Item.map_id]
      _ = (written a config).map Prod.snd := by
            rw [hwanted, wanted, map_items, display_comp_ofText]
            rfl
  rw [hback] at his hwanted
  obtain ⟨hbin, hargs, hwd, huser, henv⟩ :=
    (literal_written hv).1 (Plist.literal_of_parse his)
  obtain ⟨hbin', hwd'⟩ := read_written.1 hwanted
  exact ⟨⟨hbin', hbin⟩, hargs, fun p hp => ⟨hwd' p hp, hwd p hp⟩, fun ha => (huser ha).1,
    fun ha => (huser ha).2, henv⟩

/-- **The property list of a daemon** is read back as its configuration exactly when every
text that is put into it is literal, and its paths are UTF-8. -/
theorem plist_decodes_iff (hv : config.validate table = .ok ()) :
    decode (generatePlist a config) = some (wanted a config) ↔ Plain a config := by
  have hvalid := validate_iff.1 hv
  constructor
  · exact plain_of_decodes hvalid
  · rintro ⟨⟨hbin', hbin⟩, hargs, hwd, huser, hgroup, henv⟩
    have hliteral : ∀ l ∈ written a config, ∀ t ∈ l.2.texts, Xml.Literal t :=
      (literal_written hvalid).2 ⟨hbin, hargs, fun p hp => (hwd p hp).2,
        fun ha => ⟨huser ha, hgroup ha⟩, henv⟩
    have hparse : Plist.parse (Plist.document (written a config)) =
        some ((written a config).map Prod.snd) :=
      Plist.parse_document (moves_parts id Path.display) hliteral
    rw [generatePlist_eq, decode, hparse, Option.map_some,
      read_written.2 ⟨hbin', fun p hp => (hwd p hp).1⟩]

def withArg (arg : Text) : DaemonConfig :=
  { DaemonConfig.new "web".toList (.ofText "/usr/bin/web".toList) with args := [arg] }

theorem withArg_valid (arg : Text) : (withArg arg).validate (fun _ => false) = .ok () := by
  have hres : (withArg arg).resources.validate = .ok () := default_resources_valid
  unfold DaemonConfig.validate
  rw [hres]
  rfl

theorem withArg_plain {arg : Text} (h : Xml.Literal arg) : Plain (.mk [] false) (withArg arg) where
  binary := by
    have hb : LiteralPath (.ofText "/usr/bin/web".toList) :=
      ⟨by decide, literal_of_tame (tame_of_all (by decide))⟩
    exact hb
  args := fun t ht => (List.mem_singleton.1 ht).symm ▸ h
  workingDir := fun p hp => nomatch hp
  user := fun _ u hu => nomatch hu
  group := fun _ g hg => nomatch hg
  env := fun e he => nomatch he

/-- An ordinary argument comes back. -/
theorem plist_decodes_port : decode (generatePlist (.mk [] false) (withArg "--port=80".toList)) =
    some (wanted (.mk [] false) (withArg "--port=80".toList)) :=
  (plist_decodes_iff (withArg_valid _)).2
    (withArg_plain (literal_of_tame (tame_of_all (by decide))))

/-- An ampersand does not. -/
theorem ampersand_lost : (withArg "a&b".toList).validate (fun _ => false) = .ok () ∧
    decode (generatePlist (.mk [] false) (withArg "a&b".toList)) ≠
      some (wanted (.mk [] false) (withArg "a&b".toList)) := by
  refine ⟨withArg_valid _, fun h => ?_⟩
  have hplain := plain_of_decodes (validate_iff.1 (withArg_valid _)) h
  have hliteral : Xml.Literal "a&b".toList := hplain.args _ List.mem_cons_self
  exact (hliteral.chars '&' (by decide)).2.2.1 rfl

end Duende.Platforms.MacOS
