import Duende.System

/-!
# The adapter contract of the core

The errors and tracer handles of the core's adapters, and the constructors and accessors of
a handle.
-/

namespace Duende.Core

/-- The platform errors that the adapters return. -/
inductive PlatformError where
  | notSupported (platform : Platform) (operation : String)
  | spawnFailed (msg : String)
  | signalFailed (msg : String)
  | statusFailed (msg : String)
  | tracerFailed (msg : String)
  | notFound (msg : String)
  | config (msg : String)
  deriving DecidableEq, Repr

inductive TracerType where
  | ptrace
  | ebpf
  | remoteVsock
  | simulated
  deriving DecidableEq, Repr

/-- Handle to an attached tracer. -/
structure TracerHandle where
  daemonId : DaemonId
  tracerType : TracerType
  deriving DecidableEq, Repr

end Duende.Core

namespace Duende

namespace DaemonHandle

def systemd (id : DaemonId) (unitName : String) : DaemonHandle := ⟨id, .linux, .systemd unitName⟩

def launchd (id : DaemonId) (label : String) : DaemonHandle := ⟨id, .macOS, .launchd label⟩

def container (id : DaemonId) (runtime containerId : String) : DaemonHandle :=
  ⟨id, .container, .container runtime containerId⟩

def pepita (id : DaemonId) (vmId : String) (vsockCid : UInt32) : DaemonHandle :=
  ⟨id, .pepitaMicroVM, .pepita vmId vsockCid⟩

def native (id : DaemonId) (pid : UInt32) : DaemonHandle := ⟨id, .native, .native pid⟩

def systemdUnit (h : DaemonHandle) : Option String :=
  match h.handleData with
  | .systemd unitName => some unitName
  | _ => none

def launchdLabel (h : DaemonHandle) : Option String :=
  match h.handleData with
  | .launchd label => some label
  | _ => none

def containerId (h : DaemonHandle) : Option String :=
  match h.handleData with
  | .container _ containerId => some containerId
  | _ => none

def pepitaVmId (h : DaemonHandle) : Option String :=
  match h.handleData with
  | .pepita vmId _ => some vmId
  | _ => none

def vsockCid (h : DaemonHandle) : Option UInt32 :=
  match h.handleData with
  | .pepita _ vsockCid => some vsockCid
  | _ => none

end DaemonHandle

end Duende
