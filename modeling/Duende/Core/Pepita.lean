import Duende.Core.Adapter
import Duende.Trans.Interleave
import Mathlib.Data.Finmap

/-!
# Spawning in the pepita adapter of the core

`spawn` step by step: the prerequisites, the CID from the counter that all adapters of the
process share, the `pepita run` command, and the entry in the table of the adapter.
-/

namespace Duende.Core.Pepita

open Trans

inductive VmState where
  | starting
  | running
  | paused
  | stopped
  | failed
  deriving DecidableEq, Repr

/-- Information about a running VM. -/
structure VmInfo where
  vmId : Text
  vsockCid : UInt32
  vmmPid : Option UInt32
  state : VmState
  deriving DecidableEq

/-- The settings of an adapter that spawning reads. -/
structure Settings where
  defaultKernel : Option Text
  defaultRootfs : Option Text
  deriving DecidableEq

def vmId (daemonName : Text) : Text :=
  "duende-vm-".toList ++ replaceChar '_' '-' (replaceChar ' ' '-' daemonName)

def runArgs (kernel rootfs : Text) (vsockCid : UInt32) (vm : Text) : List Text :=
  ["run".toList, "--kernel".toList, kernel, "--rootfs".toList, rootfs, "--vsock-cid".toList,
    decimal vsockCid.toNat, "--memory".toList, "256".toList, "--cpus".toList, "1".toList,
    "--name".toList, vm, "--daemon".toList]

/-- The CID counter of the process, and the tables of its adapters. `allocated` counts the
allocations; the code does not see it. -/
structure World (κ : Type*) where
  nextCid : UInt32
  allocated : Nat
  vms : κ → Finmap fun _ : DaemonId => VmInfo

def World.new {κ : Type*} : World κ where
  nextCid := 3
  allocated := 0
  vms := fun _ => ∅

/-- A daemon to spawn, and the adapter that spawns it. -/
structure Op (κ : Type*) where
  adapter : κ
  id : DaemonId
  name : Text

inductive Pc (κ : Type*) where
  | checkKvm (o : Op κ)
  | checkPepita (o : Op κ)
  | allocateCid (o : Op κ) (kernel rootfs : Text)
  | run (o : Op κ) (args : List Text) (info : VmInfo)
  | store (o : Op κ) (info : VmInfo)

/-- What a step finds: whether `/dev/kvm` exists, and how a command runs. -/
structure Answer where
  kvm : Bool
  ran : Ran

abbrev Res := Except PlatformError DaemonHandle

variable {κ : Type*} [DecidableEq κ]

def exec (settings : κ → Settings) (w : World κ) (p : Pc κ) (k : Answer) :
    World κ × (Pc κ ⊕ Res) :=
  match p with
  | .checkKvm o =>
    if !k.kvm then
      (w, .inr (.error (.spawnFailed "KVM not available: /dev/kvm not found. Ensure KVM is enabled and you have permissions.")))
    else (w, .inl (.checkPepita o))
  | .checkPepita o =>
    let available := match k.ran with
      | .ok output => output.success
      | .error _ => false
    if !available then
      (w, .inr (.error (.spawnFailed "pepita VMM not found. Install pepita or add it to PATH.")))
    else
      match (settings o.adapter).defaultKernel with
      | none => (w, .inr (.error (.config "No kernel image configured. Use with_images() to set kernel path.")))
      | some kernel =>
        match (settings o.adapter).defaultRootfs with
        | none => (w, .inr (.error (.config "No rootfs image configured. Use with_images() to set rootfs path.")))
        | some rootfs => (w, .inl (.allocateCid o kernel rootfs))
  | .allocateCid o kernel rootfs =>
    let vm := vmId o.name
    ({ w with nextCid := w.nextCid + 1, allocated := w.allocated + 1 },
      .inl (.run o (runArgs kernel rootfs w.nextCid vm) ⟨vm, w.nextCid, none, .running⟩))
  | .run o _ info =>
    match k.ran with
    | .error e => (w, .inr (.error (.spawnFailed ("Failed to execute pepita: " ++ e))))
    | .ok output =>
      if !output.success then
        (w, .inr (.error (.spawnFailed ("pepita run failed: " ++ String.ofList output.stderr))))
      else (w, .inl (.store o info))
  | .store o info =>
    ({ w with vms := Function.update w.vms o.adapter ((w.vms o.adapter).insert o.id info) },
      .inr (.ok (.pepita o.id (String.ofList info.vmId) info.vsockCid)))

/-- Spawning as an object; no step waits. -/
def pepitaObj (settings : κ → Settings) : Obj (World κ) (Pc κ) (Op κ) Res Answer Empty where
  start o := .checkKvm o
  exec w p k := some (exec settings w p k)
  env _ e := nomatch e

end Duende.Core.Pepita
