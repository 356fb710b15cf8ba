import Duende.Core.Services
import Duende.Platform.Services
import Duende.Search

/-!
# The listing of `launchctl`

One parser takes the first line that contains the label anywhere, the other the line whose
third column is the label. `own_line_iff` says when they agree, and when what the first one
returns is decided by the line of the label.
-/

namespace Duende.Status

variable {output : Text} {rows : List Row} {r r' : Row}

/-- A line of `launchctl list`. -/
structure Row where
  pid : Option Nat
  status : Int32
  label : Text
  plain : '\t' ∉ label ∧ '\n' ∉ label

namespace Row

def pidColumn (r : Row) : Text := (r.pid.map decimal).getD ['-']

def line (r : Row) : Text :=
  r.pidColumn ++ '\t' :: (decimalInt r.status.toInt ++ '\t' :: r.label)

/-- What the columns of a line say. -/
def daemonStatus (r : Row) : DaemonStatus :=
  if r.pid.isSome then .running
  else if r.status = 0 then .stopped
  else .failed (.exitCode r.status)

/-- Two lines for services that both run, or that both ended with the same status. -/
def SameColumns (a b : Row) : Prop :=
  a.pid.isSome = b.pid.isSome ∧ (b.pid = none → a.status = b.status)

end Row

/-- The lines of the text are those of the rows. -/
def Listing (output : Text) (rows : List Row) : Prop := lines output = rows.map Row.line

/-- The status parsed for a label is decided by its own line, and both parsers agree on it. -/
structure OwnLine (output : Text) (r : Row) : Prop where
  alone : Core.Launchd.parseStatus output r.label = Core.Launchd.parseStatus r.line r.label
  agree : Core.Launchd.parseStatus output r.label = Platforms.MacOS.parseStatus output r.label

namespace Row

/-! ## The columns of a line -/

theorem mem_pidColumn {c : Char} (h : c ∈ r.pidColumn) : c.isDigit = true ∨ c = '-' := by
  unfold pidColumn at h
  cases hp : r.pid with
  | none =>
    rw [hp] at h
    exact .inr (List.mem_singleton.1 h)
  | some pid =>
    rw [hp] at h
    exact .inl (isDigit_of_mem_decimal h)

theorem pidColumn_eq_dash : r.pidColumn = ['-'] ↔ r.pid.isSome = false := by
  unfold pidColumn
  cases r.pid with
  | none => exact iff_of_true rfl rfl
  | some pid =>
    refine iff_of_false (fun h => ?_) (by simp)
    have hd : ('-').isDigit = true :=
      isDigit_of_mem_decimal (n := pid) (by rw [show decimal pid = ['-'] from h]; simp)
    cases hd

theorem trim_pidColumn : trim r.pidColumn = r.pidColumn :=
  trim_of_forall fun _ hc => isWhitespace_of_numeric (mem_pidColumn hc)

theorem trim_status : trim (decimalInt r.status.toInt) = decimalInt r.status.toInt :=
  trim_of_forall fun _ hc => isWhitespace_of_numeric (mem_decimalInt hc)

theorem splitOn_line :
    r.line.splitOn '\t' = [r.pidColumn, decimalInt r.status.toInt, r.label] := by
  have hpid : '\t' ∉ r.pidColumn := fun h => absurd (mem_pidColumn h) (by decide)
  have hstatus : '\t' ∉ decimalInt r.status.toInt := fun h =>
    absurd (mem_decimalInt h) (by decide)
  unfold line
  rw [List.splitOn_append_cons_self_of_not_mem hpid,
    List.splitOn_append_cons_self_of_not_mem hstatus, List.splitOn_eq_singleton r.plain.1]

theorem lines_line : lines r.line = [r.line] := by
  refine lines_singleton (fun h => ?_) (by simp [line])
  unfold line at h
  simp only [List.mem_append, List.mem_cons] at h
  rcases h with h | h | h | h | h
  · exact absurd (mem_pidColumn h) (by decide)
  · cases h
  · exact absurd (mem_decimalInt h) (by decide)
  · cases h
  · exact r.plain.2 h

theorem daemonStatus_eq_iff : r'.daemonStatus = r.daemonStatus ↔ r'.SameColumns r := by
  unfold daemonStatus SameColumns
  cases r.pid with
  | some pid =>
    cases r'.pid with
    | some pid' => simp
    | none => by_cases h' : r'.status = 0 <;> simp [h']
  | none =>
    cases r'.pid with
    | some pid' => by_cases h : r.status = 0 <;> simp [h]
    | none =>
      by_cases h : r.status = 0 <;> by_cases h' : r'.status = 0
      · simp [h, h']
      · simp [h, h']
      · simp [h, h', Ne.symm h]
      · simp [h, h']

end Row

/-! ## The parsers -/

theorem core_parseStatus (h : Listing output rows) (label : Text) :
    Core.Launchd.parseStatus output label =
      ((rows.find? fun x => contains label x.line).map Row.daemonStatus).getD .stopped := by
  unfold Core.Launchd.parseStatus
  rw [h]
  dsimp only
  rw [List.findSome?_map, ← findSome?_ite]
  congr 1
  refine congrArg (fun f => List.findSome? f rows) (funext fun x => ?_)
  show (if contains label x.line then _ else none) = _
  split
  · simp only [x.splitOn_line, x.trim_pidColumn, x.trim_status, parseI32_decimalInt, ne_eq,
      Row.pidColumn_eq_dash]
    unfold Row.daemonStatus
    cases x.pid.isSome <;> by_cases h0 : x.status = 0 <;> simp [h0]
  · rfl

theorem platform_parseStatus (h : Listing output rows) (label : Text) :
    Platforms.MacOS.parseStatus output label =
      ((rows.find? fun x => x.label = label).map Row.daemonStatus).getD .created := by
  have hzero : ∀ x : Row, decimalInt x.status.toInt = ['0'] ↔ x.status = 0 := fun x =>
    ⟨fun h0 => Option.some.inj ((parseI32_decimalInt x.status).symm.trans (by rw [h0]; rfl)),
      fun h0 => by rw [h0]; rfl⟩
  unfold Platforms.MacOS.parseStatus
  rw [h]
  dsimp only
  rw [List.findSome?_map, ← findSome?_ite]
  congr 1
  refine congrArg (fun f => List.findSome? f rows) (funext fun x => ?_)
  simp only [Function.comp_apply, x.splitOn_line, x.trim_pidColumn, x.trim_status,
    parseI32_decimalInt, Row.pidColumn_eq_dash, hzero, Option.getD_some, decide_eq_true_eq]
  unfold Row.daemonStatus
  cases x.pid.isSome <;> by_cases h0 : x.status = 0 <;> simp [h0]

theorem contains_line (r : Row) : contains r.label r.line = true := by
  rw [contains_iff]
  unfold Row.line
  exact ⟨r.pidColumn ++ '\t' :: decimalInt r.status.toInt ++ ['\t'], [], by simp⟩

/-- **A label in a listing**: its status is decided by its own line, and is the same for
both parsers, exactly when the first line that contains the label anywhere says what the
line of the label says. -/
theorem own_line_iff (h : Listing output rows) (hlabels : (rows.map Row.label).Nodup)
    (hr : r ∈ rows) : OwnLine output r ↔
      ∀ r', (rows.find? fun x => contains r.label x.line) = some r' → r'.SameColumns r := by
  have halone : Core.Launchd.parseStatus r.line r.label = r.daemonStatus := by
    rw [@core_parseStatus r.line [r] r.lines_line, List.find?_cons, contains_line]
    rfl
  have hplatform : Platforms.MacOS.parseStatus output r.label = r.daemonStatus := by
    rw [platform_parseStatus h, find?_key hlabels hr]
    rfl
  obtain ⟨r', hr'⟩ := Option.isSome_iff_exists.1
    ((@List.find?_isSome _ rows fun x => contains r.label x.line).2 ⟨r, hr, contains_line r⟩)
  have hcore : Core.Launchd.parseStatus output r.label = r'.daemonStatus := by
    rw [core_parseStatus h, hr']
    rfl
  simp only [hr', Option.some.injEq, forall_eq', ← Row.daemonStatus_eq_iff]
  constructor
  · intro hown
    rw [← hcore, hown.alone, halone]
  · intro hsame
    exact ⟨by rw [hcore, halone, hsame], by rw [hcore, hplatform, hsame]⟩

/-- A service that runs, and one that has ended. -/
def web : Row := ⟨some 12, 0, "com.duende.web".toList, by decide⟩

def web2 : Row := ⟨none, 1, "com.duende.web2".toList, by decide⟩

theorem own_line_of_web : OwnLine (web.line ++ '\n' :: web2.line) web :=
  (own_line_iff (by unfold Listing; decide +kernel : Listing _ [web, web2]) (by decide +kernel)
    List.mem_cons_self).2 (by rintro r' ⟨rfl⟩; exact ⟨rfl, nofun⟩)

/-- Its label is a prefix of that of the line before. -/
theorem own_line_after_web2 : Listing (web2.line ++ '\n' :: web.line) [web2, web] ∧
    ¬ OwnLine (web2.line ++ '\n' :: web.line) web :=
  ⟨by unfold Listing; decide +kernel, fun h => absurd h.alone (by decide +kernel)⟩

end Duende.Status
