import Mathlib.Data.Nat.Notation

/-!
# The ublk kernel interface

Control commands, their opcodes and the errors of the crate. An `io::Error` is its raw OS
error number.
-/

namespace Duende.Ublk

/-! ## Error numbers -/

def EPERM : Int32 := 1
def ENOENT : Int32 := 2
def EBUSY : Int32 := 16
def EEXIST : Int32 := 17
def EINVAL : Int32 := 22
def ENOSPC : Int32 := 28

inductive Error where
  | controlDeviceNotFound
  | openControl (os : Int32)
  | deviceNotFound (devId : UInt32)
  | deviceBusy (devId : UInt32)
  | ioUringCreate (os : Int32)
  | ioUringSubmit (os : Int32)
  | ioUringCommand (errno : Int32) (message : String)
  | scanDevDir (os : Int32)
  | timeout (timeoutMs : Nat)
  deriving DecidableEq, Repr

namespace Error

/-- The error of a command that completed with `errno`, a negated error number. -/
def fromErrno (errno : Int32) : Error :=
  let message :=
    if errno = -ENOENT then "device not found"
    else if errno = -EEXIST then "device already exists"
    else if errno = -EBUSY then "device is busy"
    else if errno = -EPERM then "permission denied"
    else if errno = -EINVAL then "invalid argument"
    else "unknown error (" ++ toString errno.toInt ++ ")"
  .ioUringCommand errno message

end Error

/-! ## Commands -/

/-- The ioctl encodings of the kernel. -/
def ior (ty nr : UInt32) (sz : Nat) : UInt32 :=
  ((2 : UInt32) <<< 30) ||| (UInt32.ofNat sz <<< 16) ||| (ty <<< 8) ||| nr

def iowr (ty nr : UInt32) (sz : Nat) : UInt32 :=
  ((3 : UInt32) <<< 30) ||| (UInt32.ofNat sz <<< 16) ||| (ty <<< 8) ||| nr

/-- `b'u'`. -/
def ublkMagic : UInt32 := 0x75

/-- Control command payload. -/
structure UblkCtrlCmd where
  devId : UInt32 := 0xffffffff
  queueId : UInt16 := 0xffff
  len : UInt16 := 0
  addr : UInt64 := 0
  data : UInt64 := 0
  devPathLen : UInt16 := 0
  pad : UInt16 := 0
  reserved : UInt32 := 0
  deriving DecidableEq, Repr

/-- `size_of::<UblkCtrlCmd>()`. -/
def ublkCtrlCmdSize : Nat := 32

/-- The command and its padding to the 80 bytes of a large submission entry. -/
structure UblkCtrlCmdExt where
  cmd : UblkCtrlCmd := {}
  padding : Vector UInt8 48 := .replicate 48 0
  deriving DecidableEq, Repr

def UblkCtrlCmdExt.forDevice (devId : UInt32) : UblkCtrlCmdExt where
  cmd := { devId := devId, queueId := 0xffff }
  padding := .replicate 48 0

def ublkCmdGetDevInfo : UInt32 := ior ublkMagic 0x02 ublkCtrlCmdSize
def ublkCmdDelDev : UInt32 := iowr ublkMagic 0x05 ublkCtrlCmdSize
def ublkCmdStopDev : UInt32 := iowr ublkMagic 0x07 ublkCtrlCmdSize

/-- Device info, as the kernel writes it. -/
structure UblkCtrlDevInfo where
  nrHwQueues : UInt16 := 0
  queueDepth : UInt16 := 0
  state : UInt16 := 0
  pad0 : UInt16 := 0
  maxIoBufBytes : UInt32 := 0
  devId : UInt32 := 0
  ublksrvPid : Int32 := 0
  pad1 : UInt32 := 0
  flags : UInt64 := 0
  ublksrvFlags : UInt64 := 0
  ownerUid : UInt32 := 0
  ownerGid : UInt32 := 0
  reserved1 : UInt64 := 0
  reserved2 : UInt64 := 0
  deriving DecidableEq, Repr

/-- `size_of::<UblkCtrlDevInfo>()`. -/
def ublkCtrlDevInfoSize : UInt16 := 64

end Duende.Ublk
