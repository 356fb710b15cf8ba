import Duende.Core.Types
import Duende.Text

/-!
# Daemon configuration

`DaemonConfig` with the fields that the adapters read, its defaults and `validate`. A map is
listed in the order in which it is iterated over; a path holds what its bytes decode to.
-/

namespace Duende

/-! ## Data -/

/-- An `f64`; the finite ones are exact rationals. -/
inductive F64 where
  | finite (q : ℚ)
  | infinite (negative : Bool)
  | nan
  deriving DecidableEq

namespace F64

/-- `<` of two floats; a comparison with a NaN is false. -/
def lt : F64 → F64 → Bool
  | finite a, finite b => decide (a < b)
  | finite _, infinite negative => !negative
  | infinite negative, finite _ => negative
  | infinite negative, infinite negative' => negative && !negative'
  | _, _ => false

def le : F64 → F64 → Bool
  | finite a, finite b => decide (a ≤ b)
  | infinite negative, infinite negative' => negative || !negative'
  | a, b => a.lt b

/-- The quotient by a positive number. -/
def div (a : F64) (n : ℚ) : F64 :=
  match a with
  | finite q => finite (q / n)
  | a => a

/-- The product with a positive number. -/
def mul (a : F64) (n : ℚ) : F64 :=
  match a with
  | finite q => finite (q * n)
  | a => a

def asU64 : F64 → Nat
  | finite q => min ⌊q⌋.toNat u64Max
  | infinite negative => if negative then 0 else u64Max
  | nan => 0

def times : F64 → F64 → F64
  | finite a, finite b => finite (a * b)
  | finite a, infinite negative => if a = 0 then nan else infinite (negative != decide (a < 0))
  | infinite negative, finite b => if b = 0 then nan else infinite (negative != decide (b < 0))
  | infinite negative, infinite negative' => infinite (negative != negative')
  | _, _ => nan

/-- The nearest integer, the even one of two. -/
def roundHalfEven (q : ℚ) : Int :=
  let r := q - ⌊q⌋
  if r < 1 / 2 ∨ (r = 1 / 2 ∧ ⌊q⌋ % 2 = 0) then ⌊q⌋ else ⌊q⌋ + 1

/-- The text of `{:.2}`. -/
def fixed2 : F64 → Text
  | finite q =>
    let n := (roundHalfEven (100 * |q|)).toNat
    (if q < 0 then ['-'] else []) ++ decimal (n / 100) ++ '.' :: decimal (n / 10 % 10) ++
      decimal (n % 10)
  | infinite negative => if negative then "-inf".toList else "inf".toList
  | nan => "NaN".toList

end F64

/-- A path or an `OsString`: the characters its bytes decode to, and the sequences of bytes
that are not UTF-8. -/
abbrev Path := List (Char ⊕ List UInt8)

namespace Path

/-- `display` and `to_string_lossy`. -/
def display (p : Path) : Text := p.map (Sum.elim id fun _ => '\uFFFD')

/-- The path that a string names. -/
def ofText (s : Text) : Path := s.map Sum.inl

/-- All bytes of the path decode. -/
def isUtf8 (p : Path) : Bool := p.all Sum.isLeft

@[simp] theorem display_ofText (s : Text) : (ofText s).display = s := by
  simp [display, ofText, List.map_map, Function.comp_def]

/-- What is displayed names the path exactly when the path is UTF-8. -/
theorem ofText_display {p : Path} : ofText p.display = p ↔ p.isUtf8 = true := by
  induction p with
  | nil => simp [ofText, display, isUtf8]
  | cons x p ih =>
    unfold ofText display isUtf8 at *
    cases x with
    | inl c => simpa using ih
    | inr bytes => simp

end Path

namespace Path

/-- `file_name`: the last component, unless that is the root or `..`. -/
def fileName (p : Path) : Option Path :=
  let components := (p.splitOn (.inl '/')).filter fun c => c ≠ [] ∧ c ≠ ofText ['.']
  components.getLast?.bind fun c => if c = ofText "..".toList then none else some c

def child (dir file : Path) : Path :=
  if dir = [] ∨ dir.getLast? = some (.inl '/') then dir ++ file else dir ++ .inl '/' :: file

/-- `join`: an absolute path replaces the directory. -/
def join (dir p : Path) : Path := if p.head? = some (.inl '/') then p else dir.child p

theorem child_injective (dir : Path) : Function.Injective dir.child := by
  intro a b h
  unfold child at h
  split at h
  · exact List.append_cancel_left h
  · exact (List.cons.inj (List.append_cancel_left h)).2

theorem child_ne_self {dir file : Path} (h : file ≠ []) : dir.child file ≠ dir := by
  unfold child
  split
  · exact fun he => h (List.append_right_eq_self.1 he)
  · exact fun he => List.cons_ne_nil _ _ (List.append_right_eq_self.1 he)

end Path

/-- A `HashMap<String, String>`, as its iterator lists it. -/
structure Env where
  entries : List (Text × Text)
  nodup : (entries.map Prod.fst).Nodup
  deriving DecidableEq

def Env.empty : Env := ⟨[], List.nodup_nil⟩

inductive RestartPolicy where
  | never
  | onFailure
  | always
  | unlessStopped
  deriving DecidableEq, Repr

/-- The name that systemd and the container runtimes have for a restart policy. -/
def RestartPolicy.text : RestartPolicy → Text
  | never => "no".toList
  | always => "always".toList
  | onFailure => "on-failure".toList
  | unlessStopped => "unless-stopped".toList

/-- Resource limits. -/
structure ResourceConfig where
  memoryBytes : UInt64 := 512 * 1024 * 1024
  cpuQuotaPercent : F64 := .finite 100
  pidsMax : UInt64 := 100
  openFilesMax : UInt64 := 1024
  deriving DecidableEq

/-- Daemon configuration; the timeout in nanoseconds. -/
structure DaemonConfig where
  name : Text
  description : Text
  binaryPath : Path
  args : List Text
  env : Env
  user : Option Text
  group : Option Text
  workingDir : Option Path
  resources : ResourceConfig
  restart : RestartPolicy
  shutdownTimeout : Nat
  deriving DecidableEq

def asSecs (d : Nat) : Nat := d / 1000000000

namespace DaemonConfig

def new (name : Text) (binaryPath : Path) : DaemonConfig where
  name := name
  description := []
  binaryPath := binaryPath
  args := []
  env := .empty
  user := none
  group := none
  workingDir := none
  resources := {}
  restart := .onFailure
  shutdownTimeout := 30000000000

end DaemonConfig

/-! ## Validation -/

/-- `char::is_alphanumeric`: exact on ASCII and on the noncharacters of the first plane;
`table` answers for the other characters. -/
def isAlphanumeric (table : Char → Bool) (c : Char) : Bool :=
  if c.toNat < 128 then c.isAlphanum else table c && c != '\uFFFE' && c != '\uFFFF'

def ResourceConfig.validate (r : ResourceConfig) : Except DaemonError Unit :=
  if r.memoryBytes = 0 then .error (.config "memory_bytes must be greater than 0")
  else if r.cpuQuotaPercent.le (.finite 0) then
    .error (.config "cpu_quota_percent must be positive")
  else if r.pidsMax = 0 then .error (.config "pids_max must be greater than 0")
  else .ok ()

def DaemonConfig.validate (table : Char → Bool) (c : DaemonConfig) : Except DaemonError Unit :=
  if c.name.isEmpty then .error (.config "name cannot be empty")
  else if !c.name.all fun x => isAlphanumeric table x || x == '-' || x == '_' then
    .error (.config "name must contain only alphanumeric characters, hyphens, and underscores")
  else if c.binaryPath.isEmpty then .error (.config "binary_path cannot be empty")
  else c.resources.validate

/-- What a valid configuration satisfies. -/
structure DaemonConfig.Valid (table : Char → Bool) (c : DaemonConfig) : Prop where
  name_ne : c.name ≠ []
  name_chars : ∀ x ∈ c.name, (isAlphanumeric table x || x == '-' || x == '_') = true
  binary_ne : c.binaryPath ≠ []
  memory_ne : c.resources.memoryBytes ≠ 0
  quota_pos : c.resources.cpuQuotaPercent.le (.finite 0) = false
  pids_ne : c.resources.pidsMax ≠ 0

theorem resources_validate_iff {r : ResourceConfig} : r.validate = .ok () ↔
    r.memoryBytes ≠ 0 ∧ r.cpuQuotaPercent.le (.finite 0) = false ∧ r.pidsMax ≠ 0 := by
  unfold ResourceConfig.validate
  split
  · rename_i h; simp [h]
  · rename_i h
    split
    · rename_i hq; simp [hq]
    · rename_i hq
      split
      · rename_i hp; simp [hp]
      · rename_i hp; simpa [h, hp] using hq

/-- **`validate` accepts the valid configurations.** -/
theorem validate_iff {table : Char → Bool} {c : DaemonConfig} :
    c.validate table = .ok () ↔ c.Valid table := by
  unfold DaemonConfig.validate
  constructor
  · intro h
    split at h
    · cases h
    · rename_i hname
      split at h
      · cases h
      · rename_i hchars
        split at h
        · cases h
        · rename_i hbin
          obtain ⟨h1, h2, h3⟩ := resources_validate_iff.1 h
          rw [Bool.not_eq_true', Bool.not_eq_false, List.all_eq_true] at hchars
          exact ⟨by simpa using hname, hchars, by simpa using hbin, h1, h2, h3⟩
  · rintro ⟨hname, hchars, hbin, h1, h2, h3⟩
    rw [if_neg (by simpa using hname), List.all_eq_true.2 hchars, if_neg (by simp),
      if_neg (by simpa using hbin)]
    exact resources_validate_iff.2 ⟨h1, h2, h3⟩

theorem default_resources_valid : ({} : ResourceConfig).validate = .ok () := by decide +kernel

end Duende
