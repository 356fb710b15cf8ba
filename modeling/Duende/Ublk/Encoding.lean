import Duende.Formats.CLayout
import Duende.Ublk.Control

/-!
# The bytes of a control command

A command is a `repr(C)` struct that is transmuted to the bytes of a submission entry. By the
layout of C the kernel finds every field where it looks for it (`ctrl_cmd_encoded`).
-/

namespace Duende.Ublk

open CLayout

/-! ## In memory -/

/-- The types of the fields of `UblkCtrlCmd`. -/
def ctrlCmdFields : List Layout :=
  [.uint 4, .uint 2, .uint 2, .uint 8, .array (.uint 8) 1, .uint 2, .uint 2, .uint 4]

/-- The types of the fields of `UblkCtrlCmdExt`. -/
def ctrlCmdExtFields : List Layout := [.struct ctrlCmdFields, .array (.uint 1) 48]

namespace UblkCtrlCmd

def members (c : UblkCtrlCmd) : List Member :=
  [⟨_, .uint 4 c.devId.toNat⟩, ⟨_, .uint 2 c.queueId.toNat⟩, ⟨_, .uint 2 c.len.toNat⟩,
    ⟨_, .uint 8 c.addr.toNat⟩, ⟨_, .array #v[.uint 8 c.data.toNat]⟩,
    ⟨_, .uint 2 c.devPathLen.toNat⟩, ⟨_, .uint 2 c.pad.toNat⟩, ⟨_, .uint 4 c.reserved.toNat⟩]

/-- The command in memory. -/
def obj (c : UblkCtrlCmd) : Obj (.struct ctrlCmdFields) := .struct c.members

end UblkCtrlCmd

namespace UblkCtrlCmdExt

def members (c : UblkCtrlCmdExt) : List Member :=
  [⟨_, c.cmd.obj⟩, ⟨_, .array (c.padding.map fun b => .uint 1 b.toNat)⟩]

def obj (c : UblkCtrlCmdExt) : Obj (.struct ctrlCmdExtFields) := .struct c.members

/-- Convert to raw bytes for io_uring SQE cmd field: a transmute, which must not meet padding. -/
def toBytes (c : UblkCtrlCmdExt) : Option (List UInt8) := c.obj.bytes

end UblkCtrlCmdExt

theorem ctrlCmd_sizes : (Layout.struct ctrlCmdFields).size = ublkCtrlCmdSize ∧
    (Layout.struct ctrlCmdExtFields).size = 80 := ⟨rfl, rfl⟩

theorem ctrlCmd_offsets : offsetsFrom 0 ctrlCmdFields = [0, 4, 6, 8, 16, 24, 26, 28] ∧
    offsetsFrom 0 ctrlCmdExtFields = [0, 32] := ⟨rfl, rfl⟩

/-! ## As the kernel reads it -/

/-- Where the fields of a command are in the 80 bytes of an entry. -/
structure Placed (c : UblkCtrlCmdExt) (bytes : List UInt8) : Prop where
  length_eq : bytes.length = 80
  devId : slice bytes 0 4 = leBytes 4 c.cmd.devId.toNat
  queueId : slice bytes 4 2 = leBytes 2 c.cmd.queueId.toNat
  len : slice bytes 6 2 = leBytes 2 c.cmd.len.toNat
  addr : slice bytes 8 8 = leBytes 8 c.cmd.addr.toNat
  data : slice bytes 16 8 = leBytes 8 c.cmd.data.toNat
  devPathLen : slice bytes 24 2 = leBytes 2 c.cmd.devPathLen.toNat
  pad : slice bytes 26 2 = leBytes 2 c.cmd.pad.toNat
  reserved : slice bytes 28 4 = leBytes 4 c.cmd.reserved.toNat
  padding : slice bytes 32 48 = c.padding.toList

/-- The command in the first 32 bytes. -/
def UblkCtrlCmd.decode (bytes : List UInt8) : UblkCtrlCmd where
  devId := UInt32.ofNat (ofLe (slice bytes 0 4))
  queueId := UInt16.ofNat (ofLe (slice bytes 4 2))
  len := UInt16.ofNat (ofLe (slice bytes 6 2))
  addr := UInt64.ofNat (ofLe (slice bytes 8 8))
  data := UInt64.ofNat (ofLe (slice bytes 16 8))
  devPathLen := UInt16.ofNat (ofLe (slice bytes 24 2))
  pad := UInt16.ofNat (ofLe (slice bytes 26 2))
  reserved := UInt32.ofNat (ofLe (slice bytes 28 4))

def UblkCtrlCmdExt.decode (bytes : List UInt8) : Option UblkCtrlCmdExt :=
  if h : (slice bytes 32 48).length = 48 then
    some { cmd := .decode bytes, padding := ⟨(slice bytes 32 48).toArray, by simpa using h⟩ }
  else none

theorem ofNat_ofLe_16 (n : UInt16) : UInt16.ofNat (ofLe (leBytes 2 n.toNat)) = n := by
  rw [ofLe_leBytes n.toNat_lt, UInt16.ofNat_toNat]

theorem ofNat_ofLe_32 (n : UInt32) : UInt32.ofNat (ofLe (leBytes 4 n.toNat)) = n := by
  rw [ofLe_leBytes n.toNat_lt, UInt32.ofNat_toNat]

theorem ofNat_ofLe_64 (n : UInt64) : UInt64.ofNat (ofLe (leBytes 8 n.toNat)) = n := by
  rw [ofLe_leBytes n.toNat_lt, UInt64.ofNat_toNat]

namespace Placed

variable {c : UblkCtrlCmdExt} {bytes : List UInt8}

theorem decode_eq (h : Placed c bytes) : UblkCtrlCmdExt.decode bytes = some c := by
  have hlen : (slice bytes 32 48).length = 48 := by rw [h.padding, Vector.length_toList]
  have hcmd : UblkCtrlCmd.decode bytes = c.cmd := by
    simp only [UblkCtrlCmd.decode, h.devId, h.queueId, h.len, h.addr, h.data, h.devPathLen, h.pad,
      h.reserved, ofNat_ofLe_16, ofNat_ofLe_32, ofNat_ofLe_64]
  unfold UblkCtrlCmdExt.decode
  rw [dif_pos hlen, hcmd]
  refine congrArg some (congrArg (UblkCtrlCmdExt.mk c.cmd) (Vector.toList_inj.1 ?_))
  exact h.padding

end Placed

/-! ## The encoding -/

namespace UblkCtrlCmd

/-- The bytes of the fields. -/
def fieldBytes (c : UblkCtrlCmd) : List UInt8 :=
  leBytes 4 c.devId.toNat ++ (leBytes 2 c.queueId.toNat ++ (leBytes 2 c.len.toNat ++
    (leBytes 8 c.addr.toNat ++ (leBytes 8 c.data.toNat ++ (leBytes 2 c.devPathLen.toNat ++
      (leBytes 2 c.pad.toNat ++ leBytes 4 c.reserved.toNat))))))

/-- The `[u64; 1]`. -/
theorem image_data (n : Nat) : (Obj.array #v[Obj.uint 8 n]).image = (leBytes 8 n).map some :=
  List.append_nil _

theorem images (c : UblkCtrlCmd) : (c.members.map fun m => m.2.image) =
    [leBytes 4 c.devId.toNat, leBytes 2 c.queueId.toNat, leBytes 2 c.len.toNat,
      leBytes 8 c.addr.toNat, leBytes 8 c.data.toNat, leBytes 2 c.devPathLen.toNat,
      leBytes 2 c.pad.toNat, leBytes 4 c.reserved.toNat].map (List.map some) := by
  simp [members, image_data]

theorem image_obj (c : UblkCtrlCmd) : c.obj.image = c.fieldBytes.map some := by
  have hpacked : packed (c.members.map Sigma.fst) = true := by
    show packed ctrlCmdFields = true
    decide
  refine (image_struct hpacked).trans ?_
  rw [List.flatMap_def, images]
  simp [fieldBytes]

theorem slice_fieldBytes (c : UblkCtrlCmd) :
    slice c.fieldBytes 0 4 = leBytes 4 c.devId.toNat ∧
    slice c.fieldBytes 4 2 = leBytes 2 c.queueId.toNat ∧
    slice c.fieldBytes 6 2 = leBytes 2 c.len.toNat ∧
    slice c.fieldBytes 8 8 = leBytes 8 c.addr.toNat ∧
    slice c.fieldBytes 16 8 = leBytes 8 c.data.toNat ∧
    slice c.fieldBytes 24 2 = leBytes 2 c.devPathLen.toNat ∧
    slice c.fieldBytes 26 2 = leBytes 2 c.pad.toNat ∧
    slice c.fieldBytes 28 4 = leBytes 4 c.reserved.toNat := by
  have himage : (Obj.struct c.members).image = c.fieldBytes.map some := c.image_obj
  have hfields : c.members.map Sigma.fst = ctrlCmdFields := rfl
  have hread := read_struct hfields ctrlCmd_offsets.1
  have hinj : ∀ a b : UInt8, some a = some b → a = b := fun _ _ => Option.some.inj
  rw [himage, images] at hread
  simpa [ctrlCmdFields, Layout.uint, Layout.array, slice_map, List.map_inj_right hinj] using hread

end UblkCtrlCmd

namespace UblkCtrlCmdExt

theorem leBytes_one (b : UInt8) : leBytes 1 b.toNat = [b] := by
  rw [leBytes, leBytes, UInt8.ofNat_toNat]

theorem image_padding (bs : Vector UInt8 48) :
    (Obj.array (bs.map fun b => Obj.uint 1 b.toNat)).image = bs.toList.map some := by
  have hbyte : (fun b : UInt8 => (Obj.uint 1 b.toNat).image) = fun b => [some b] :=
    funext fun b => by rw [Obj.image_uint, leBytes_one, List.map_singleton]
  rw [Obj.image_array, Vector.toList_map, List.flatMap_map, hbyte, List.map_eq_flatMap]

theorem image_obj (c : UblkCtrlCmdExt) :
    c.obj.image = (c.cmd.fieldBytes ++ c.padding.toList).map some := by
  have hpacked : packed (c.members.map Sigma.fst) = true := by
    show packed ctrlCmdExtFields = true
    decide
  refine (image_struct hpacked).trans ?_
  simp [members, UblkCtrlCmd.image_obj, image_padding]

theorem exists_placed (c : UblkCtrlCmdExt) : ∃ bytes, c.toBytes = some bytes ∧ Placed c bytes := by
  let bytes := c.cmd.fieldBytes ++ c.padding.toList
  have himage : (Obj.struct c.members).image = bytes.map some := c.image_obj
  have hfields : c.members.map Sigma.fst = ctrlCmdExtFields := rfl
  have hread := read_struct hfields ctrlCmd_offsets.2
  have hinj : ∀ a b : UInt8, some a = some b → a = b := fun _ _ => Option.some.inj
  have hmembers : (c.members.map fun m => m.2.image) =
      [c.cmd.fieldBytes.map some, c.padding.toList.map some] := by
    simp [members, UblkCtrlCmd.image_obj, image_padding]
  have hparts : slice bytes 0 32 = c.cmd.fieldBytes ∧ slice bytes 32 48 = c.padding.toList := by
    rw [himage, hmembers] at hread
    simpa [ctrlCmdExtFields, ctrlCmd_sizes.1, ublkCtrlCmdSize, Layout.uint, Layout.array,
      slice_map, List.map_inj_right hinj] using hread
  have hfield : ∀ o n, o + n ≤ 32 → slice bytes o n = slice c.cmd.fieldBytes o n := by
    intro o n h
    rw [← hparts.1, slice_slice h, Nat.zero_add]
  have hlen : bytes.length = 80 := by
    rw [← List.length_map (f := some), ← c.image_obj, c.obj.length_image, ctrlCmd_sizes.2]
  obtain ⟨h1, h2, h3, h4, h5, h6, h7, h8⟩ := c.cmd.slice_fieldBytes
  exact ⟨bytes, Obj.bytes_eq c.image_obj, hlen, (hfield 0 4 (by decide)).trans h1,
    (hfield 4 2 (by decide)).trans h2, (hfield 6 2 (by decide)).trans h3,
    (hfield 8 8 (by decide)).trans h4, (hfield 16 8 (by decide)).trans h5,
    (hfield 24 2 (by decide)).trans h6, (hfield 26 2 (by decide)).trans h7,
    (hfield 28 4 (by decide)).trans h8, hparts.2⟩

end UblkCtrlCmdExt

/-- **The encoding of a control command**: its layout, every field where the kernel reads it, the
way back, and the device of a stop or a delete. -/
theorem ctrl_cmd_encoded :
    (offsetsFrom 0 ctrlCmdFields = [0, 4, 6, 8, 16, 24, 26, 28] ∧
      offsetsFrom 0 ctrlCmdExtFields = [0, 32]) ∧
    (∀ c : UblkCtrlCmdExt, ∃ bytes, c.toBytes = some bytes ∧ Placed c bytes ∧
      UblkCtrlCmdExt.decode bytes = some c) ∧
    (∀ devId, ∃ bytes, (UblkCtrlCmdExt.forDevice devId).toBytes = some bytes ∧
      slice bytes 0 4 = leBytes 4 devId.toNat ∧
      (UblkCtrlCmdExt.decode bytes).map (fun c => c.cmd.devId) = some devId) ∧
    ∀ devId id, ∀ j ∈ [Job.delete devId, .stop devId, .forceStop devId, .forceDelete devId],
      (j.sqe id).cmd = .forDevice devId := by
  refine ⟨ctrlCmd_offsets, fun c => ?_, fun devId => ?_, fun devId id j hj => ?_⟩
  · obtain ⟨bytes, hbytes, hplaced⟩ := c.exists_placed
    exact ⟨bytes, hbytes, hplaced, hplaced.decode_eq⟩
  · obtain ⟨bytes, hbytes, hplaced⟩ := (UblkCtrlCmdExt.forDevice devId).exists_placed
    exact ⟨bytes, hbytes, hplaced.devId, by rw [hplaced.decode_eq]; rfl⟩
  · simp only [List.mem_cons, List.not_mem_nil, or_false] at hj
    rcases hj with rfl | rfl | rfl | rfl <;> rfl

end Duende.Ublk
