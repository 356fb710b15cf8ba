import Duende.Core.Adapter
import Duende.Core.Config
import Duende.Platform.Wos

/-!
# Spawning in the pepita adapter of the platform crate

`spawn` step by step: the CID from the counter that all adapters of the process share, and
the `pepita run` command.
-/

namespace Duende.Platforms.Pepita

open Trans

/-- The settings of an adapter. -/
structure Settings where
  defaultVcpus : UInt32 := 1
  defaultMemoryMb : UInt64 := 512
  kernelPath : Option Path := none
  rootfsPath : Option Path := none
  vsockPort : UInt32 := 5000
  deriving DecidableEq

/-- `(percent / 100.0).ceil() as u32`, which saturates. -/
def vcpusOf : F64 → Nat
  | .finite q => min ⌈q / 100⌉.toNat u32Max
  | .infinite negative => if negative then 0 else u32Max
  | .nan => 0

def vmName (daemonName : Text) : Text := "duende-vm-".toList ++ replaceChar ' ' '-' daemonName

def buildRunArgs (s : Settings) (config : DaemonConfig) (cid : UInt32) : List Text :=
  let vcpus :=
    if (F64.finite 0).lt config.resources.cpuQuotaPercent then
      max (vcpusOf config.resources.cpuQuotaPercent) 1
    else s.defaultVcpus.toNat
  let memoryMb :=
    if 0 < config.resources.memoryBytes.toNat then
      config.resources.memoryBytes.toNat / (1024 * 1024)
    else s.defaultMemoryMb.toNat
  ["run".toList, "--name".toList, vmName config.name, "--vcpus".toList, decimal vcpus,
    "--memory".toList, decimal memoryMb ++ ['M']] ++
  (match s.kernelPath with
    | some kernel => ["--kernel".toList, kernel.display]
    | none => []) ++
  (match s.rootfsPath with
    | some rootfs => ["--rootfs".toList, rootfs.display]
    | none => []) ++
  ["--vsock".toList,
    "cid=".toList ++ decimal cid.toNat ++ ",port=".toList ++ decimal s.vsockPort.toNat,
    "--exec".toList, config.binaryPath.display] ++ config.args

/-- The CID counter of the process. `allocated` counts the allocations; the code does not
see it. -/
structure World where
  nextCid : UInt32
  allocated : Nat

def World.new : World where
  nextCid := 3
  allocated := 0

/-- A daemon to spawn, and the adapter that spawns it. -/
structure Op (κ : Type*) where
  adapter : κ
  name : Text

inductive Pc (κ : Type*) where
  | allocateCid (o : Op κ)
  | run (o : Op κ) (args : List Text)

/-- The error of a spawn. -/
structure SpawnError where
  msg : String
  deriving DecidableEq, Repr

abbrev Res := Except SpawnError DaemonHandle

variable {κ : Type*}

def exec (settings : κ → Settings) (w : World) (p : Pc κ) (k : Ran) : World × (Pc κ ⊕ Res) :=
  match p with
  | .allocateCid o =>
    let config := DaemonConfig.new o.name (.ofText "/bin/daemon".toList)
    ({ nextCid := w.nextCid + 1, allocated := w.allocated + 1 },
      .inl (.run o (buildRunArgs (settings o.adapter) config w.nextCid)))
  | .run o _ =>
    match k with
    | .error e => (w, .inr (.error ⟨"pepita run failed: " ++ e⟩))
    | .ok output =>
      if !output.success then
        (w, .inr (.error ⟨"pepita run failed: " ++ String.ofList output.stderr⟩))
      else
        let vm := trim output.stdout
        (w, .inr (.ok ⟨.pepitaMicroVM, if vm.isEmpty then vmName o.name else vm, none⟩))

/-- Spawning as an object; no step waits. -/
def pepitaObj (settings : κ → Settings) : Obj World (Pc κ) (Op κ) Res Ran Empty where
  start o := .allocateCid o
  exec w p k := some (exec settings w p k)
  env _ e := nomatch e

end Duende.Platforms.Pepita
