import Duende.Core.Pepita
import Duende.Core.Wos

/-!
# The adapters of the core that run commands

`signal`, `status` and `attach_tracer` of the systemd, launchd, container, pepita and WOS
adapters: the guard on the handle, the command that is run, and what is made of its output.
-/

namespace Duende.Core

/-- What an operation on an adapter with state `σ` does. -/
abbrev Attempt (σ α : Type) := Io (σ × Except PlatformError α)

/-! ## systemd -/

namespace Systemd

structure SystemdAdapter where
  unitDir : Path
  userMode : Bool
  deriving DecidableEq

def signalName : Signal → Text := fun sig => (Duende.signalName sig).toList

def systemctlArgs (a : SystemdAdapter) (args : List Text) : List Text :=
  if a.userMode then "--user".toList :: args else args

def parseStatus (output : Text) (exitCode : Int32) : DaemonStatus :=
  if exitCode = 0 && contains "Active: active (running)".toList output then .running
  else if exitCode = 0 && contains "Active: activating".toList output then .starting
  else if contains "Active: deactivating".toList output then .stopping
  else if contains "Active: inactive".toList output then .stopped
  else if contains "Active: failed".toList output then .failed (.exitCode 1)
  else .stopped

def invalidHandle : PlatformError := .spawnFailed "Invalid handle type for systemd adapter"

def signal (a : SystemdAdapter) (h : DaemonHandle) (sig : Signal) : Attempt SystemdAdapter Unit :=
  match h.systemdUnit with
  | none => .done (a, .error invalidHandle)
  | some unitName =>
    .command "systemctl"
        (systemctlArgs a ["kill".toList, "--signal".toList, signalName sig, unitName.toList])
      fun
      | .error e => .done (a, .error (.spawnFailed s!"Failed to execute systemctl kill: {e}"))
      | .ok output =>
        if !output.success then
          .done (a, .error (.spawnFailed s!"systemctl kill failed: {String.ofList output.stderr}"))
        else .done (a, .ok ())

def status (a : SystemdAdapter) (h : DaemonHandle) : Attempt SystemdAdapter DaemonStatus :=
  match h.systemdUnit with
  | none => .done (a, .error invalidHandle)
  | some unitName =>
    .command "systemctl" (systemctlArgs a ["status".toList, unitName.toList]) fun
      | .error e => .done (a, .error (.spawnFailed s!"Failed to execute systemctl status: {e}"))
      | .ok output => .done (a, .ok (parseStatus output.stdout (output.code.getD 1)))

/-- The main PID of a unit, if `systemctl show` gives one. -/
def mainPid : Ran → Option Nat
  | .error _ => none
  | .ok output => if !output.success then none else parseUnsigned u64Max (trim output.stdout)

def attachTracer (a : SystemdAdapter) (h : DaemonHandle) : Attempt SystemdAdapter TracerHandle :=
  match h.systemdUnit with
  | none => .done (a, .error invalidHandle)
  | some unitName =>
    .command "systemctl" (systemctlArgs a
        ["show".toList, "--property=MainPID".toList, "--value".toList, unitName.toList]) fun ran =>
      match mainPid ran with
      | none => .done (a, .error (.spawnFailed "Cannot attach tracer: failed to get PID"))
      | some pid =>
        if pid = 0 then .done (a, .error (.spawnFailed "Cannot attach tracer: PID unknown"))
        else .done (a, .ok ⟨h.id, .ptrace⟩)

end Systemd

/-! ## launchd -/

namespace Launchd

inductive LaunchdDomain where
  | user
  | system
  deriving DecidableEq, Repr

/-- `uid` is what `getuid` returns. -/
structure LaunchdAdapter where
  plistDir : Path
  domain : LaunchdDomain
  uid : UInt32
  deriving DecidableEq

def target (a : LaunchdAdapter) : Text :=
  match a.domain with
  | .user => "gui/".toList ++ decimal a.uid.toNat
  | .system => "system".toList

def signalNumber : Signal → Nat := macNumber

/-- Parses launchctl list output: the first line that contains the label decides. -/
def parseStatus (output label : Text) : DaemonStatus :=
  let ofLine (line : Text) : Option DaemonStatus :=
    if contains label line then
      match line.splitOn '\t' with
      | pid :: code :: _ =>
        if trim pid ≠ ['-'] then some .running
        else
          match parseI32 (trim code) with
          | some code => some (if code ≠ 0 then .failed (.exitCode code) else .stopped)
          | none => some .stopped
      | _ => none
    else none
  ((lines output).findSome? ofLine).getD .stopped

def invalidHandle : PlatformError := .spawnFailed "Invalid handle type for launchd adapter"

def signal (a : LaunchdAdapter) (h : DaemonHandle) (sig : Signal) : Attempt LaunchdAdapter Unit :=
  match h.launchdLabel with
  | none => .done (a, .error invalidHandle)
  | some label =>
    .command "launchctl"
        ["kill".toList, decimal (signalNumber sig), target a ++ '/' :: label.toList] fun
      | .error e => .done (a, .error (.signalFailed s!"Failed to execute launchctl: {e}"))
      | .ok output =>
        if !output.success then
          .done (a, .error (.signalFailed s!"launchctl kill failed: {String.ofList output.stderr}"))
        else .done (a, .ok ())

def status (a : LaunchdAdapter) (h : DaemonHandle) : Attempt LaunchdAdapter DaemonStatus :=
  match h.launchdLabel with
  | none => .done (a, .error invalidHandle)
  | some label =>
    .command "launchctl" ["list".toList] fun
      | .error e => .done (a, .error (.statusFailed s!"Failed to execute launchctl: {e}"))
      | .ok output => .done (a, .ok (parseStatus output.stdout label.toList))

/-- The PID in the output of `launchctl list`. -/
def pidOf (stdout : Text) : Option Nat :=
  ((lines stdout).find? (contains "PID".toList)).bind fun line =>
    (splitWhitespace line).getLast?.bind (parseUnsigned u32Max)

def attachTracer (a : LaunchdAdapter) (h : DaemonHandle) : Attempt LaunchdAdapter TracerHandle :=
  match h.launchdLabel with
  | none => .done (a, .error invalidHandle)
  | some label =>
    .command "launchctl" ["list".toList, label.toList] fun
      | .error e => .done (a, .error (.tracerFailed s!"Failed to get PID: {e}"))
      | .ok output =>
        if !output.success then .done (a, .error (.tracerFailed "Service not found"))
        else
          match pidOf output.stdout with
          | none => .done (a, .error (.tracerFailed "Could not determine PID"))
          | some pid =>
            if pid = 0 then .done (a, .error (.tracerFailed "Service not running"))
            else .done (a, .ok ⟨h.id, .ptrace⟩)

end Launchd

/-! ## Containers -/

namespace Container

inductive ContainerRuntime where
  | docker
  | podman
  | containerd
  deriving DecidableEq, Repr

def ContainerRuntime.command : ContainerRuntime → String
  | docker => "docker"
  | podman => "podman"
  | containerd => "ctr"

structure ContainerAdapter where
  runtime : ContainerRuntime
  defaultImage : Text
  deriving DecidableEq

def signalName : Signal → Text := fun sig => (Duende.signalName sig).toList

/-- The number after the first of the patterns that is followed by digits. -/
def exitCodeAfter (patterns : List Text) (output : Text) : Option Int32 :=
  let digits (pattern : Text) : Option Text :=
    (after pattern output).bind fun remaining =>
      let num := remaining.takeWhile fun c => c.isDigit || c = '-'
      if num.isEmpty then none else some num
  (patterns.findSome? digits).bind parseI32

def extractExitCode (output : Text) : Option Int32 :=
  exitCodeAfter ["\"ExitCode\": ".toList, "\"ExitCode\":".toList] output

def parseStatus (output : Text) : DaemonStatus :=
  let has (s : String) := contains s.toList output
  if has "\"Running\": true" || has "\"running\": true" then .running
  else if has "\"Restarting\": true" || has "\"restarting\": true" then .starting
  else if has "\"Paused\": true" || has "\"paused\": true" then .paused
  else
    match extractExitCode output with
    | some code => if code ≠ 0 then .failed (.exitCode code) else .stopped
    | none => .stopped

def invalidHandle : PlatformError := .spawnFailed "Invalid handle type for container adapter"

def signal (a : ContainerAdapter) (h : DaemonHandle) (sig : Signal) :
    Attempt ContainerAdapter Unit :=
  match h.containerId with
  | none => .done (a, .error invalidHandle)
  | some containerId =>
    let args := ["kill".toList, "--signal".toList, signalName sig, containerId.toList]
    .command a.runtime.command
        (match a.runtime with
          | .docker | .podman => args
          | .containerd => "task".toList :: args) fun
      | .error e =>
        .done (a, .error (.signalFailed s!"Failed to execute {a.runtime.command}: {e}"))
      | .ok output =>
        if !output.success then
          .done (a, .error (.signalFailed
            s!"{a.runtime.command} kill failed: {String.ofList output.stderr}"))
        else .done (a, .ok ())

def status (a : ContainerAdapter) (h : DaemonHandle) : Attempt ContainerAdapter DaemonStatus :=
  match h.containerId with
  | none => .done (a, .error invalidHandle)
  | some containerId =>
    .command a.runtime.command
        (match a.runtime with
          | .docker | .podman => ["inspect".toList, "--format".toList,
              "\x7b\x7bjson .State\x7d\x7d".toList, containerId.toList]
          | .containerd => ["task".toList, "list".toList, containerId.toList]) fun
      | .error e =>
        .done (a, .error (.statusFailed s!"Failed to execute {a.runtime.command}: {e}"))
      | .ok output =>
        if !output.success then .done (a, .ok .stopped)
        else .done (a, .ok (parseStatus output.stdout))

def attachTracer (a : ContainerAdapter) (h : DaemonHandle) :
    Attempt ContainerAdapter TracerHandle :=
  match h.containerId with
  | none => .done (a, .error invalidHandle)
  | some containerId =>
    match a.runtime with
    | .containerd => .done (a, .error (.tracerFailed "containerd tracer attachment not supported"))
    | .docker | .podman =>
      .command a.runtime.command ["inspect".toList, "--format".toList,
          "\x7b\x7b.State.Pid\x7d\x7d".toList, containerId.toList] fun
        | .error e => .done (a, .error (.tracerFailed s!"Failed to get container PID: {e}"))
        | .ok output =>
          if !output.success then .done (a, .error (.tracerFailed "Container not found"))
          else
            match parseUnsigned u32Max (trim output.stdout) with
            | none => .done (a, .error (.tracerFailed "Invalid PID"))
            | some pid =>
              if pid = 0 then .done (a, .error (.tracerFailed "Container not running"))
              else .done (a, .ok ⟨h.id, .ptrace⟩)

end Container

/-! ## pepita -/

namespace Pepita

/-- The table of an adapter. -/
structure PepitaAdapter where
  vms : Finmap fun _ : DaemonId => VmInfo

def signalNumber : Signal → Nat := linuxNumber

def invalidHandle : PlatformError := .spawnFailed "Invalid handle type for pepita adapter"

/-- The entry of a VM that was told to end. -/
def markStopped (a : PepitaAdapter) (id : DaemonId) (sig : Signal) : PepitaAdapter :=
  match a.vms.lookup id with
  | some info =>
    if sig = .term ∨ sig = .kill then
      { a with vms := a.vms.insert id { info with state := .stopped } }
    else a
  | none => a

def signal (a : PepitaAdapter) (h : DaemonHandle) (sig : Signal) : Attempt PepitaAdapter Unit :=
  match h.pepitaVmId, h.vsockCid with
  | some vmId, some _ =>
    .command "pepita" ["signal".toList, "--name".toList, vmId.toList, "--signal".toList,
        decimal (signalNumber sig)] fun
      | .error e => .done (a, .error (.signalFailed s!"Failed to execute pepita: {e}"))
      | .ok output =>
        if !output.success then
          .done (a, .error (.signalFailed s!"pepita signal failed: {String.ofList output.stderr}"))
        else .done (markStopped a h.id sig, .ok ())
  | _, _ => .done (a, .error invalidHandle)

def parseStatus (stdout : Text) : DaemonStatus :=
  let has (s : String) := contains s.toList stdout
  if has "\"state\": \"running\"" || has "\"state\":\"running\"" then .running
  else if has "\"state\": \"paused\"" then .paused
  else if has "\"state\": \"failed\"" then .failed (.exitCode 1)
  else .stopped

def status (a : PepitaAdapter) (h : DaemonHandle) : Attempt PepitaAdapter DaemonStatus :=
  match h.pepitaVmId with
  | none => .done (a, .error invalidHandle)
  | some vmId =>
    .command "pepita" ["status".toList, "--name".toList, vmId.toList, "--json".toList] fun
      | .error e => .done (a, .error (.statusFailed s!"Failed to execute pepita: {e}"))
      | .ok output =>
        if !output.success then .done (a, .ok .stopped)
        else .done (a, .ok (parseStatus output.stdout))

def attachTracer (a : PepitaAdapter) (h : DaemonHandle) : Attempt PepitaAdapter TracerHandle :=
  match h.vsockCid with
  | none => .done (a, .error invalidHandle)
  | some vsockCid =>
    if vsockCid = 0 then .done (a, .error (.tracerFailed "VM not running"))
    else .done (a, .ok ⟨h.id, .remoteVsock⟩)

end Pepita

/-! ## WOS -/

namespace Wos

def signalNumber : Signal → Nat := linuxNumber

def invalidHandle : Core.PlatformError := .spawnFailed "Invalid handle type for WOS adapter"

def wosCtlAvailable : Ran → Bool
  | .ok output => output.success
  | .error _ => false

def record (a : WosAdapter) (pid : UInt32) (sig : Signal) : WosAdapter :=
  match a.processes.lookup pid with
  | some p => { a with processes := a.processes.insert pid { p with state := p.state.signal sig } }
  | none => a

/-- `signal`, whether or not `wos-ctl` is there. -/
def signalCtl (a : WosAdapter) (h : DaemonHandle) (sig : Signal) : Attempt WosAdapter Unit :=
  match h.pid with
  | none => .done (a, .error invalidHandle)
  | some pid =>
    .command "wos-ctl" ["--version".toList] fun version =>
      if wosCtlAvailable version then
        .command "wos-ctl" ["signal".toList, "--pid".toList, decimal pid.toNat, "--signal".toList,
            decimal (signalNumber sig)] fun
          | .error e => .done (a, .error (.signalFailed s!"Failed to execute wos-ctl: {e}"))
          | .ok output =>
            if !output.success then
              .done (a, .error (.signalFailed
                s!"wos-ctl signal failed: {String.ofList output.stderr}"))
            else .done (record a pid sig, .ok ())
      else .done (record a pid sig, .ok ())

def extractExitCode (output : Text) : Option Int32 :=
  Container.exitCodeAfter ["\"exit_code\": ".toList, "\"exit_code\":".toList] output

/-- The status in the output of `wos-ctl status`, if it has one. -/
def parseStatus (stdout : Text) : Option DaemonStatus :=
  let has (s : String) := contains s.toList stdout
  if has "\"state\": \"running\"" then some .running
  else if has "\"state\": \"ready\"" then some .starting
  else if has "\"state\": \"stopped\"" then some .paused
  else if has "\"state\": \"exited\"" then
    match extractExitCode stdout with
    | some code => if code ≠ 0 then some (.failed (.exitCode code)) else some .stopped
    | none => some .stopped
  else none

def localStatus (a : WosAdapter) (pid : UInt32) : DaemonStatus :=
  match a.processes.lookup pid with
  | some p => p.state.status
  | none => .stopped

/-- `status`, whether or not `wos-ctl` is there. -/
def statusCtl (a : WosAdapter) (h : DaemonHandle) : Attempt WosAdapter DaemonStatus :=
  match h.pid with
  | none => .done (a, .error invalidHandle)
  | some pid =>
    .command "wos-ctl" ["--version".toList] fun version =>
      if wosCtlAvailable version then
        .command "wos-ctl"
            ["status".toList, "--pid".toList, decimal pid.toNat, "--json".toList] fun
          | .error e => .done (a, .error (.statusFailed s!"Failed to execute wos-ctl: {e}"))
          | .ok output =>
            if !output.success then .done (a, .ok .stopped)
            else .done (a, .ok ((parseStatus output.stdout).getD (localStatus a pid)))
      else .done (a, .ok (localStatus a pid))

def attachTracer (a : WosAdapter) (h : DaemonHandle) : Attempt WosAdapter TracerHandle :=
  match h.pid with
  | none => .done (a, .error invalidHandle)
  | some pid =>
    if pid = 0 then .done (a, .error (.tracerFailed "Process not running"))
    else .done (a, .ok ⟨h.id, .simulated⟩)

end Wos

end Duende.Core
