import Duende.Core.Config
import Duende.Decimals
import Duende.Ublk.Cleanup

/-!
# The testable helpers

The helpers that the tests of the control module call in place of its production paths.
`helpers_agree` says that they do the same, `orphans_exact` what the orphan scan of a directory
finds.
-/

namespace Duende.Ublk

open Control

/-- What the scan asks the file system: file names and paths as their bytes decode. -/
structure FileSystem where
  listing : Path → Except Int32 (List (Except Int32 Path))
  pathExists : Path → Bool

/-- Parses a ublk character device name to extract the device ID. -/
def parseCharDeviceId (name : Text) : Option UInt32 :=
  (stripPrefix "ublkc".toList name).bind fun idStr =>
    (parseUnsigned u32Max idStr).map UInt32.ofNat

/-- The file name of a block node. -/
def blockName (devId : UInt32) : Path := Path.ofText ("ublkb".toList ++ decimal devId.toNat)

/-- The loop of `detect_orphans_in_dir`. -/
def scanDir (fs : FileSystem) (devPath : Path) (orphans : List UInt32) :
    List (Except Int32 Path) → Except Error (List UInt32)
  | [] => .ok orphans
  | .error os :: _ => .error (.scanDevDir os)
  | .ok name :: entries =>
    match parseCharDeviceId name.display with
    | none => scanDir fs devPath orphans entries
    | some devId =>
      if !fs.pathExists (devPath.join (blockName devId)) then
        scanDir fs devPath (orphans ++ [devId]) entries
      else scanDir fs devPath orphans entries

/-- Detects orphaned devices in a given directory. -/
def detectOrphansInDir (fs : FileSystem) (devPath : Path) : Except Error (List UInt32) :=
  if !fs.pathExists devPath then .ok []
  else
    match fs.listing devPath with
    | .error os => .error (.scanDevDir os)
    | .ok entries => scanDir fs devPath [] entries

/-- Interprets a command result code. -/
def interpretCommandResult (res : Int32) (devId : UInt32) : Except Error Bool :=
  if 0 ≤ res then .ok true
  else if res = -ENOENT then .ok false
  else if res = -EBUSY then .error (.deviceBusy devId)
  else .error (.fromErrno res)

/-! ## The production paths -/

def devRoot : Path := Path.ofText "/dev".toList

/-- What the production scan sees of `/dev`. -/
def FileSystem.dev (fs : FileSystem) : DevDir where
  listing := (fs.listing devRoot).map fun entries => entries.map fun e => e.map Path.display
  pathExists p := fs.pathExists (Path.ofText p)

/-- The device of a command, if it is one that `send_command_timeout` sends. -/
def Job.timed : Job → Option UInt32
  | .delete d | .stop d | .forceStop d | .forceDelete d => some d
  | .info _ _ => none

/-- A result of `send_command_timeout`. -/
def Ret.of : Except Error Bool → Ret
  | .ok b => .done b
  | .error e => .error e

theorem blockPath_eq (devId : UInt32) :
    devRoot.join (blockName devId) = Path.ofText (blockPath devId) := rfl

theorem orphan_eq (fs : FileSystem) (name : Path) : fs.dev.orphan name.display =
    (parseCharDeviceId name.display).filter fun devId =>
      !fs.pathExists (devRoot.join (blockName devId)) := by
  have hkeep : ∀ found : Option UInt32,
      (match found with
        | none => none
        | some devId => if fs.dev.blockExists devId then none else some devId) =
      found.filter fun devId => !fs.pathExists (devRoot.join (blockName devId)) := by
    intro found
    cases found with
    | none => rfl
    | some devId =>
      have hblock : fs.dev.blockExists devId =
          fs.pathExists (devRoot.join (blockName devId)) := by rw [blockPath_eq]; rfl
      show (if fs.dev.blockExists devId then none else some devId) = _
      rw [hblock]
      cases h : fs.pathExists (devRoot.join (blockName devId)) <;> simp [Option.filter, h]
  unfold DevDir.orphan parseCharDeviceId
  cases stripPrefix "ublkc".toList name.display with
  | none => rfl
  | some idStr => exact hkeep _

theorem scanDir_cons (fs : FileSystem) (devPath : Path) (orphans : List UInt32) (name : Path)
    (entries : List (Except Int32 Path)) :
    scanDir fs devPath orphans (.ok name :: entries) =
      scanDir fs devPath (orphans ++ ((parseCharDeviceId name.display).filter fun devId =>
        !fs.pathExists (devPath.join (blockName devId))).toList) entries := by
  rw [scanDir]
  cases parseCharDeviceId name.display with
  | none => simp
  | some devId =>
    cases h : fs.pathExists (devPath.join (blockName devId)) <;> simp [Option.filter, h]

theorem scan_eq (fs : FileSystem) (entries : List (Except Int32 Path)) (orphans : List UInt32) :
    fs.dev.scan orphans (entries.map fun e => e.map Path.display) =
      scanDir fs devRoot orphans entries := by
  induction entries generalizing orphans with
  | nil => rfl
  | cons e entries ih =>
    cases e with
    | error os => rfl
    | ok name =>
      rw [scanDir_cons, ← ih, ← orphan_eq]
      rfl

theorem answer_eq {j : Job} {devId : UInt32} (h : j.timed = some devId) (res : Int32)
    (buffer : UblkCtrlDevInfo) :
    j.answer res buffer = Ret.of (interpretCommandResult res devId) := by
  have hneg : res < 0 ↔ ¬ 0 ≤ res := Int32.not_le.symm
  unfold interpretCommandResult
  cases j <;> cases h <;> unfold Job.answer <;> simp only [hneg] <;> split_ifs <;> rfl

/-- **The helpers agree** with what they stand for: the orphan scan of `/dev`, on any listing
and with any errors, and what a completed command returns. -/
theorem helpers_agree (fs : FileSystem) :
    detectOrphansInDir fs devRoot = fs.dev.detectOrphanedDevices ∧
    ∀ (s : Control) (j : Job) (q : Sqe) (start : Nat) (e : Cqe) (cq : List Cqe) (devId : UInt32)
      (k : Except Int32 Nat), s.phase = .poll j q start → s.cq = e :: cq →
      j.timed = some devId → ∃ s', s.thread k = some s' ∧
        s'.log = s.log ++
          [⟨j, some q, some e, Ret.of (interpretCommandResult e.result devId)⟩] := by
  constructor
  · unfold detectOrphansInDir DevDir.detectOrphanedDevices
    have hroot : fs.dev.pathExists "/dev".toList = fs.pathExists devRoot := rfl
    rw [hroot]
    cases fs.pathExists devRoot with
    | false => rfl
    | true =>
      have hlisting : fs.dev.listing =
          (fs.listing devRoot).map fun entries => entries.map fun e => e.map Path.display := rfl
      rw [hlisting]
      cases fs.listing devRoot with
      | error os => rfl
      | ok entries => exact (scan_eq fs entries []).symm
  · intro s j q start e cq devId k hp hcq hj
    refine ⟨_, by unfold Control.thread; simp only [hp, hcq]; rfl, ?_⟩
    rw [← answer_eq hj e.result s.buffer]
    rfl

/-- A device is stopped, and the command has completed with `EBUSY`. -/
def busyDevice : Control :=
  { Control.new 0 with
    phase := .poll (.stop 4) ((Job.stop 4).sqe 0) 0
    cq := [⟨1, -EBUSY, (Job.stop 4).sqe 0, {}⟩] }

/-- `/dev` cannot be listed. -/
def deniedDev : FileSystem := ⟨fun _ => .error EPERM, fun _ => true⟩

theorem helpers_agree_busy : detectOrphansInDir deniedDev devRoot = .error (.scanDevDir EPERM) ∧
    ∃ s', busyDevice.thread (.ok 0) = some s' ∧
      s'.log.map Return.result = [.error (.deviceBusy 4)] :=
  ⟨(helpers_agree deniedDev).1.trans rfl,
    have ⟨s', hs, hlog⟩ := (helpers_agree deniedDev).2 busyDevice (.stop 4) _ 0 _ [] 4 (.ok 0)
      rfl rfl rfl
    ⟨s', hs, by rw [hlog]; rfl⟩⟩

/-! ## What the scan of a directory finds -/

/-- A file system with one directory, of distinct file names. -/
def FileSystem.ofDir (dir : Path) (names : List Path) : FileSystem where
  listing p := if p = dir then .ok (names.map .ok) else .error ENOENT
  pathExists p := p = dir || names.any fun name => dir.child name = p

variable {dir : Path} {names : List Path} {devId : UInt32}

/-- The directory has the block node. -/
def hasBlock (names : List Path) (devId : UInt32) : Bool :=
  names.any fun name => name = blockName devId

theorem hasBlock_iff : hasBlock names devId = true ↔ blockName devId ∈ names := by
  simp [hasBlock]

theorem pathExists_ofDir : (FileSystem.ofDir dir names).pathExists
    (dir.join (blockName devId)) = hasBlock names devId := by
  have hjoin : dir.join (blockName devId) = dir.child (blockName devId) := rfl
  have hne : dir.child (blockName devId) ≠ dir := Path.child_ne_self (List.cons_ne_nil _ _)
  unfold FileSystem.ofDir hasBlock
  rw [hjoin]
  simp only [hne, decide_false, Bool.false_or, (Path.child_injective dir).eq_iff]

/-- The device that an entry of the directory adds. -/
def orphanOf (names : List Path) (name : Path) : Option UInt32 :=
  (parseCharDeviceId name.display).filter fun devId => !hasBlock names devId

theorem scanDir_ofDir (entries : List Path) (orphans : List UInt32) :
    scanDir (.ofDir dir names) dir orphans (entries.map .ok) =
      .ok (orphans ++ entries.filterMap (orphanOf names)) := by
  induction entries generalizing orphans with
  | nil => rw [List.filterMap_nil, List.append_nil]; rfl
  | cons name entries ih =>
    have hname : ((parseCharDeviceId name.display).filter fun devId =>
        !(FileSystem.ofDir dir names).pathExists (dir.join (blockName devId))) =
          orphanOf names name := by
      simp only [pathExists_ofDir, orphanOf]
    rw [List.map_cons, scanDir_cons, hname, ih, List.filterMap_cons]
    cases orphanOf names name <;> simp

theorem detectOrphansInDir_ofDir (dir : Path) (names : List Path) :
    detectOrphansInDir (.ofDir dir names) dir = .ok (names.filterMap (orphanOf names)) := by
  have hdir : (FileSystem.ofDir dir names).pathExists dir = true := by
    simp [FileSystem.ofDir]
  have hlisting : (FileSystem.ofDir dir names).listing dir = .ok (names.map .ok) := if_pos rfl
  unfold detectOrphansInDir
  rw [hdir, hlisting]
  exact scanDir_ofDir names []

theorem stripPrefix_eq_some {pre s rest : Text} :
    stripPrefix pre s = some rest ↔ s = pre ++ rest := by
  unfold stripPrefix
  constructor
  · intro h
    split at h
    · cases h
      rename_i hpre
      obtain ⟨t, rfl⟩ := List.isPrefixOf_iff_prefix.1 hpre
      rw [List.drop_left]
    · cases h
  · rintro rfl
    rw [if_pos (List.isPrefixOf_iff_prefix.2 (List.prefix_append _ _)), List.drop_left]

/-- A text without the replacement character is displayed by its own path only. -/
theorem display_eq {p : Path} {s : Text} (h : '\uFFFD' ∉ s) :
    p.display = s ↔ p = Path.ofText s := by
  constructor
  · rintro rfl
    have hutf : p.isUtf8 = true := by
      refine List.all_eq_true.2 fun x hx => ?_
      cases x with
      | inl c => rfl
      | inr bytes => exact absurd (List.mem_map.2 ⟨Sum.inr bytes, hx, rfl⟩) h
    exact (Path.ofText_display.2 hutf).symm
  · rintro rfl
    exact Path.display_ofText s

/-- **Which names are read**: those that spell the number of a device after `ublkc`. -/
theorem parseCharDeviceId_eq_some {name : Path} : parseCharDeviceId name.display = some devId ↔
    ∃ s, Spells devId.toNat s ∧ name = Path.ofText ("ublkc".toList ++ s) := by
  have hplain : ∀ {n : Nat} {s : Text}, Spells n s → '\uFFFD' ∉ "ublkc".toList ++ s := by
    rintro n s ⟨k, hs⟩ hmem
    have hdigits : '\uFFFD' ∉ List.replicate k '0' ++ decimal n := fun hc =>
      absurd (isDigit_of_mem_zeros hc) (by decide)
    have hs' : '\uFFFD' ∉ s := by
      rcases hs with rfl | rfl
      · exact hdigits
      · exact fun hc => hdigits ((List.mem_cons.1 hc).resolve_left (by decide))
    exact (List.mem_append.1 hmem).elim (by decide) hs'
  have hid : ∀ n, n ≤ u32Max → UInt32.ofNat n = devId → n = devId.toNat := by
    rintro n hn rfl
    rw [UInt32.toNat_ofNat']
    unfold u32Max at hn
    exact (Nat.mod_eq_of_lt (by omega)).symm
  have hmax : devId.toNat ≤ u32Max := by
    have := devId.toNat_lt
    unfold u32Max
    omega
  unfold parseCharDeviceId
  rw [Option.bind_eq_some_iff]
  constructor
  · rintro ⟨s, hs, h⟩
    obtain ⟨n, hn, hdev⟩ := Option.map_eq_some_iff.1 h
    obtain ⟨hspell, hle⟩ := parseUnsigned_eq_some.1 hn
    rw [hid n hle hdev] at hspell
    exact ⟨s, hspell, (display_eq (hplain hspell)).1 (stripPrefix_eq_some.1 hs)⟩
  · rintro ⟨s, hspell, rfl⟩
    refine ⟨s, stripPrefix_eq_some.2 (Path.display_ofText _), ?_⟩
    rw [parseUnsigned_eq_some.2 ⟨hspell, hmax⟩, Option.map_some, UInt32.ofNat_toNat]

/-- The file name of a character device. -/
def charName (devId : UInt32) : Path := Path.ofText ("ublkc".toList ++ decimal devId.toNat)

theorem orphanOf_eq_some {name : Path} : orphanOf names name = some devId ↔
    parseCharDeviceId name.display = some devId ∧ blockName devId ∉ names := by
  unfold orphanOf
  rw [Option.filter_eq_some_iff, Bool.not_eq_true', ← hasBlock_iff, Bool.not_eq_true]

theorem count_orphans (listed : List Path) (h : blockName devId ∉ names) :
    (listed.filterMap (orphanOf names)).count devId =
      listed.countP fun name => parseCharDeviceId name.display = some devId := by
  induction listed with
  | nil => rfl
  | cons name listed ih =>
    have hone : orphanOf names name = some devId ↔ parseCharDeviceId name.display = some devId := by
      rw [orphanOf_eq_some, and_iff_left h]
    rw [List.filterMap_cons, List.countP_cons, ← ih]
    by_cases hname : parseCharDeviceId name.display = some devId
    · rw [hone.2 hname]
      simp [hname]
    · cases ho : orphanOf names name with
      | none => simp [hname]
      | some other =>
        have hne : other ≠ devId := fun he => hname (hone.1 (he ▸ ho))
        simp [hname, List.count_cons_of_ne hne]

/-- **What the orphan scan finds**, in a directory of distinct names: the devices with a node
named `ublkc` and a spelling of the number, zeros or a plus sign in front included, and without a
block node, once for every such name; so each once where numbers are spelled as they are printed. -/
theorem orphans_exact (dir : Path) (names : List Path) (hn : names.Nodup) :
    ∃ ids, detectOrphansInDir (.ofDir dir names) dir = .ok ids ∧
      (∀ devId, devId ∈ ids ↔
        (∃ s, Spells devId.toNat s ∧ Path.ofText ("ublkc".toList ++ s) ∈ names) ∧
          blockName devId ∉ names) ∧
      (∀ devId ∈ ids, ids.count devId =
        names.countP fun name => parseCharDeviceId name.display = some devId) ∧
      ((∀ name ∈ names, ∀ devId, parseCharDeviceId name.display = some devId →
        name = charName devId) → ids.Nodup) := by
  refine ⟨_, detectOrphansInDir_ofDir dir names, fun devId => ?_, fun devId hd => ?_, fun hc => ?_⟩
  · rw [List.mem_filterMap]
    constructor
    · rintro ⟨name, hname, ho⟩
      obtain ⟨hp, hb⟩ := orphanOf_eq_some.1 ho
      obtain ⟨s, hs, rfl⟩ := parseCharDeviceId_eq_some.1 hp
      exact ⟨⟨s, hs, hname⟩, hb⟩
    · rintro ⟨⟨s, hs, hname⟩, hb⟩
      exact ⟨_, hname, orphanOf_eq_some.2 ⟨parseCharDeviceId_eq_some.2 ⟨s, hs, rfl⟩, hb⟩⟩
  · obtain ⟨name, -, ho⟩ := List.mem_filterMap.1 hd
    exact count_orphans names (orphanOf_eq_some.1 ho).2
  · refine List.pairwise_filterMap.2 (hn.imp_of_mem fun {a b} ha hb hne id hida id' hidb he => ?_)
    subst he
    exact hne ((hc a ha id (orphanOf_eq_some.1 hida).1).trans
      (hc b hb id (orphanOf_eq_some.1 hidb).1).symm)

/-- A number with a zero in front. -/
def zeroFive : List Path := [Path.ofText "ublkc05".toList]

theorem orphans_exact_five : ∃ ids, detectOrphansInDir (.ofDir devRoot zeroFive) devRoot = .ok ids ∧
    5 ∈ ids :=
  have ⟨ids, hids, hmem, _⟩ := orphans_exact devRoot zeroFive (by decide)
  ⟨ids, hids, (hmem 5).2 ⟨⟨"05".toList, ⟨1, .inl rfl⟩, List.mem_singleton.2 rfl⟩,
    fun h => absurd (List.mem_singleton.1 h) (by decide)⟩⟩

/-- The name of an orphan need not be the printed one. -/
theorem orphan_spelled : zeroFive.Nodup ∧
    ¬ ∃ ids, detectOrphansInDir (.ofDir devRoot zeroFive) devRoot = .ok ids ∧
      (∀ devId, devId ∈ ids ↔ charName devId ∈ zeroFive ∧ blockName devId ∉ zeroFive) ∧
      ids.Nodup := by
  refine ⟨by decide, ?_⟩
  rintro ⟨ids, hids, hmem, -⟩
  have hfive : detectOrphansInDir (.ofDir devRoot zeroFive) devRoot = .ok [5] := rfl
  rw [hfive] at hids
  cases hids
  exact absurd (List.mem_singleton.1 ((hmem 5).1 List.mem_cons_self).1) (by decide)

end Duende.Ublk
