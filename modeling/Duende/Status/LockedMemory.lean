import Duende.Decimals
import Duende.Search

/-!
# The two readers of `VmLck`

`duende_mlock` strips the key and the unit of the line and trims what is left; `duende_platform`
takes the second word. On the lines that the kernel writes they agree
(`vmLck_readers_agree`).
-/

namespace Duende

/-- The key of the line, in `/proc/self/status`. -/
def vmLck : Text := "VmLck:".toList

def kbUnit : Text := " kB".toList

/-! ## The readers -/

namespace Mlock

/-- The number of a line, in kilobytes; `none` leaves the line out. -/
def lockedKb (line : Text) : Option Nat := do
  let rest ← stripPrefix vmLck line
  let kbStr ← stripSuffix kbUnit (trim rest)
  parseUnsigned u64Max (trim kbStr)

/-- Get the number of bytes currently locked; `none` is a file that could not be read. -/
def lockedBytes (status : Option Text) : UInt64 :=
  match status with
  | none => 0
  | some s =>
    match (lines s).findSome? lockedKb with
    | some kb => UInt64.ofNat kb * 1024
    | none => 0

def isLocked (status : Option Text) : Bool := 0 < lockedBytes status

end Mlock

namespace Platforms

/-- Whether the number of a line is positive; `none` leaves the line out. -/
def lockedLine (line : Text) : Option Bool :=
  if vmLck.isPrefixOf line then
    match splitWhitespace line with
    | _ :: kb :: _ => (parseUnsigned u64Max kb).map fun kb => 0 < kb
    | _ => none
  else none

def isMemoryLocked (status : Option Text) : Bool :=
  match status with
  | none => false
  | some s => ((lines s).findSome? lockedLine).getD false

end Platforms

/-! ## The lines of the kernel -/

/-- The key, spaces or tabs, the number and the unit. -/
def KernelForm (line : Text) (n : Nat) : Prop :=
  ∃ sp ds, line = vmLck ++ (sp ++ (ds ++ kbUnit)) ∧ sp ≠ [] ∧ (∀ c ∈ sp, c = ' ' ∨ c = '\t') ∧
    ds ≠ [] ∧ (∀ c ∈ ds, c.isDigit = true) ∧ digitsValue ds = n ∧ n < 2 ^ 54

namespace KernelForm

variable {line sp ds : Text} {n : Nat}

theorem isWhitespace_of_space (h : ∀ c ∈ sp, c = ' ' ∨ c = '\t') (c : Char) (hc : c ∈ sp) :
    isWhitespace c = true := by
  rcases h c hc with rfl | rfl <;> rfl

theorem parseUnsigned_digits (hne : ds ≠ []) (h : ∀ c ∈ ds, c.isDigit = true)
    (hn : digitsValue ds < 2 ^ 54) : parseUnsigned u64Max ds = some (digitsValue ds) := by
  obtain ⟨k, hk⟩ := digits_eq hne h
  have hmax : digitsValue ds ≤ u64Max := by
    unfold u64Max
    omega
  exact parseUnsigned_eq_some.2 ⟨⟨k, .inl hk⟩, hmax⟩

theorem isPrefixOf_vmLck (h : KernelForm line n) : vmLck.isPrefixOf line = true := by
  obtain ⟨sp, ds, rfl, -⟩ := h
  exact List.isPrefixOf_iff_prefix.2 (List.prefix_append _ _)

theorem lt (h : KernelForm line n) : n < 2 ^ 54 := by
  obtain ⟨-, -, -, -, -, -, -, -, hn⟩ := h
  exact hn

theorem lockedKb_eq (h : KernelForm line n) : Mlock.lockedKb line = some n := by
  obtain ⟨sp, ds, rfl, -, hsp, hne, hds, rfl, hn⟩ := h
  have hws : ∀ c ∈ ds, isWhitespace c = false := fun c hc =>
    isWhitespace_of_numeric (.inl (hds c hc))
  have htrim : trim (sp ++ (ds ++ kbUnit)) = ds ++ kbUnit := by
    rw [trim_spaces (isWhitespace_of_space hsp)]
    refine trim_eq_self (fun c hc => ?_) fun c hc => ?_
    · rw [List.head?_append_of_ne_nil _ hne] at hc
      exact hws c (List.mem_of_head? hc)
    · rw [List.getLast?_append_of_ne_nil ds (by decide)] at hc
      cases hc
      rfl
  unfold Mlock.lockedKb
  rw [stripPrefix_append, Option.bind_eq_bind, Option.bind_some, htrim, stripSuffix_append,
    Option.bind_some, trim_of_forall hws]
  exact parseUnsigned_digits hne hds hn

theorem splitWhitespace_eq (hne : sp ≠ []) (hsp : ∀ c ∈ sp, c = ' ' ∨ c = '\t') (hds : ds ≠ [])
    (hdigit : ∀ c ∈ ds, c.isDigit = true) :
    splitWhitespace (vmLck ++ (sp ++ (ds ++ kbUnit))) = [vmLck, ds, ['k', 'B']] := by
  obtain ⟨c, sp, rfl⟩ := List.exists_cons_of_ne_nil hne
  have hws := isWhitespace_of_space hsp
  have hunit : kbUnit = ' ' :: ['k', 'B'] := rfl
  rw [List.cons_append, splitWhitespace_append_cons (hws c List.mem_cons_self),
    splitWhitespace_spaces fun d hd => hws d (List.mem_cons_of_mem c hd), hunit,
    splitWhitespace_append_cons rfl,
    splitWhitespace_word hds fun d hd => isWhitespace_of_numeric (.inl (hdigit d hd))]
  rfl

theorem lockedLine_eq (h : KernelForm line n) :
    Platforms.lockedLine line = some (decide (0 < n)) := by
  have hpre := h.isPrefixOf_vmLck
  obtain ⟨sp, ds, rfl, hne, hsp, hds, hdigit, rfl, hn⟩ := h
  unfold Platforms.lockedLine
  rw [if_pos hpre, splitWhitespace_eq hne hsp hds hdigit]
  simp only [parseUnsigned_digits hds hdigit hn, Option.map_some]

end KernelForm

/-! ## The first line -/

/-- The line that decides. -/
def firstVmLck (s : Text) : Option Text := (lines s).find? vmLck.isPrefixOf

variable {s : Text}

theorem lockedBytes_toNat {kb : Nat} (h : kb < 2 ^ 54)
    (hs : (lines s).findSome? Mlock.lockedKb = some kb) :
    (Mlock.lockedBytes (some s)).toNat = kb * 1024 := by
  have hunit : (1024 : UInt64).toNat = 1024 := rfl
  simp only [Mlock.lockedBytes, hs]
  rw [UInt64.toNat_mul, UInt64.toNat_ofNat', hunit, Nat.mod_eq_of_lt (by omega : kb < 2 ^ 64)]
  exact Nat.mod_eq_of_lt (by omega)

variable (hform : ∀ l ∈ lines s, vmLck.isPrefixOf l = true → ∃ n, KernelForm l n)

include hform

theorem findSome?_lockedKb :
    (lines s).findSome? Mlock.lockedKb = (firstVmLck s).bind Mlock.lockedKb := by
  refine findSome?_eq_bind (fun l _ hl => ?_) fun l hmem hl => ?_
  · unfold Mlock.lockedKb stripPrefix
    rw [if_neg (by rw [hl]; decide)]
    rfl
  · obtain ⟨n, h⟩ := hform l hmem hl
    rw [h.lockedKb_eq]
    rfl

theorem findSome?_lockedLine :
    (lines s).findSome? Platforms.lockedLine = (firstVmLck s).bind Platforms.lockedLine := by
  refine findSome?_eq_bind (fun l _ hl => ?_) fun l hmem hl => ?_
  · unfold Platforms.lockedLine
    rw [if_neg (by rw [hl]; decide)]
  · obtain ⟨n, h⟩ := hform l hmem hl
    rw [h.lockedLine_eq]
    rfl

/-- **Both readers agree** on a status whose lines have the form of the kernel, and the bytes are
those of the first one. -/
theorem vmLck_readers_agree :
    Mlock.isLocked (some s) = Platforms.isMemoryLocked (some s) ∧
    (∀ l n, firstVmLck s = some l → KernelForm l n →
      (Mlock.lockedBytes (some s)).toNat = n * 1024) ∧
    (firstVmLck s = none → Mlock.lockedBytes (some s) = 0) := by
  have hkb := findSome?_lockedKb hform
  have hline := findSome?_lockedLine hform
  have hnone : firstVmLck s = none → Mlock.lockedBytes (some s) = 0 := by
    intro hfirst
    rw [hfirst, Option.bind_none] at hkb
    simp only [Mlock.lockedBytes, hkb]
  have hsome : ∀ l n, firstVmLck s = some l → KernelForm l n →
      (Mlock.lockedBytes (some s)).toNat = n * 1024 := by
    intro l n hfirst h
    rw [hfirst, Option.bind_some, h.lockedKb_eq] at hkb
    exact lockedBytes_toNat h.lt hkb
  refine ⟨?_, hsome, hnone⟩
  show Mlock.isLocked (some s) = ((lines s).findSome? Platforms.lockedLine).getD false
  rw [hline]
  cases hfirst : firstVmLck s with
  | none =>
    rw [Mlock.isLocked, hnone hfirst]
    rfl
  | some l =>
    obtain ⟨n, h⟩ := hform l (List.mem_of_find?_eq_some hfirst) (List.find?_some hfirst)
    have hbytes := hsome l n hfirst h
    rw [Option.bind_some, h.lockedLine_eq, Option.getD_some, Mlock.isLocked]
    refine decide_eq_decide.2 ?_
    rw [UInt64.lt_iff_toNat_lt, hbytes]
    exact Nat.mul_pos_iff_of_pos_right (by decide)

omit hform

/-- A status with two such lines. -/
def twoVmLcks : Text := "VmPin:\t0 kB\nVmLck:\t   64 kB\nVmLck: 0 kB".toList

theorem two_vmLcks_agree :
    Mlock.isLocked (some twoVmLcks) = Platforms.isMemoryLocked (some twoVmLcks) ∧
    (Mlock.lockedBytes (some twoVmLcks)).toNat = 64 * 1024 := by
  have h64 : KernelForm "VmLck:\t   64 kB".toList 64 :=
    ⟨['\t', ' ', ' ', ' '], ['6', '4'], by decide, by decide, by simp, by decide, by simp,
      by decide, by decide⟩
  have h0 : KernelForm "VmLck: 0 kB".toList 0 :=
    ⟨[' '], ['0'], by decide, by decide, by simp, by decide, by simp, by decide, by decide⟩
  have hlines : lines twoVmLcks =
      ["VmPin:\t0 kB".toList, "VmLck:\t   64 kB".toList, "VmLck: 0 kB".toList] := by decide
  have hform : ∀ l ∈ lines twoVmLcks, vmLck.isPrefixOf l = true → ∃ n, KernelForm l n := by
    rw [hlines]
    intro l hl hpre
    simp only [List.mem_cons, List.not_mem_nil, or_false] at hl
    rcases hl with rfl | rfl | rfl
    · exact absurd hpre (by decide)
    · exact ⟨64, h64⟩
    · exact ⟨0, h0⟩
  have h := vmLck_readers_agree hform
  exact ⟨h.1, h.2.1 _ 64 (by rw [firstVmLck, hlines]; decide) h64⟩

end Duende
