import Duende.Platform.Pepita

/-!
# The adapters of the platform crate

`signal`, `status` and `attach_tracer` of each adapter: the guard on the handle, what is
asked of the system, and what is made of the answer.
-/

namespace Duende.Platforms

/-- What an operation on an adapter with state `σ` does. -/
abbrev Attempt (σ α : Type) := Io (σ × Except PlatformError α)

/-! ## Native processes -/

namespace Native

/-- The adapter keeps nothing. -/
structure NativeAdapter where
  deriving DecidableEq

def signal (a : NativeAdapter) (h : DaemonHandle) (sig : Signal) : Attempt NativeAdapter Unit :=
  match h.pid with
  | none => .done (a, .error (.signal "no PID available"))
  | some pid =>
    .kill pid.toInt32 (some sig) fun
      | .error e => .done (a, .error (.signal
          s!"kill({pid.toNat}, {signalDebug sig}) failed: {e.display}"))
      | .ok () => .done (a, .ok ())

def status (a : NativeAdapter) (h : DaemonHandle) : Attempt NativeAdapter DaemonStatus :=
  match h.pid with
  | none => .done (a, .error (.status "no PID available"))
  | some pid =>
    .kill pid.toInt32 none fun
      | .ok () => .done (a, .ok .running)
      | .error .esrch => .done (a, .ok .stopped)
      | .error e => .done (a, .error (.status s!"failed to check process: {e.display}"))

def attachTracer (a : NativeAdapter) (h : DaemonHandle) : Attempt NativeAdapter TracerHandle :=
  match h.pid with
  | none => .done (a, .error (.tracer "no PID available"))
  | some pid =>
    .kill pid.toInt32 none fun
      | .ok () => .done (a, .ok ⟨.native, "renacer:".toList ++ decimal pid.toNat⟩)
      | .error .esrch => .done (a, .error (.tracer s!"process {pid.toNat} does not exist"))
      | .error e =>
        .done (a, .error (.tracer s!"cannot verify process {pid.toNat}: {e.display}"))

end Native

/-! ## systemd -/

namespace Linux

structure LinuxAdapter where
  unitDir : Path
  deriving DecidableEq

/-- Parse systemctl show output: the first `ActiveState=` line decides. -/
def parseStatus (output : Text) : DaemonStatus :=
  match (lines output).findSome? (stripPrefix "ActiveState=".toList) with
  | none => .created
  | some state =>
    let state := trim state
    let is (s : String) := state = s.toList
    if is "active" || is "running" then .running
    else if is "inactive" || is "dead" then .stopped
    else if is "failed" then .failed (.exitCode 1)
    else if is "activating" || is "reloading" then .starting
    else if is "deactivating" then .stopping
    else .created

def signalName : Signal → Text := fun sig => (Duende.signalName sig).toList

def signal (a : LinuxAdapter) (h : DaemonHandle) (sig : Signal) : Attempt LinuxAdapter Unit :=
  if h.platform ≠ .linux then .done (a, .error (.signal "not a systemd handle"))
  else
    .command "systemctl" ["kill".toList, "--signal".toList, signalName sig, h.id] fun
      | .error e => .done (a, .error (.signal s!"systemctl kill failed: {e}"))
      | .ok output =>
        if !output.success then
          .done (a, .error (.signal s!"systemctl kill failed: {String.ofList output.stderr}"))
        else .done (a, .ok ())

def status (a : LinuxAdapter) (h : DaemonHandle) : Attempt LinuxAdapter DaemonStatus :=
  if h.platform ≠ .linux then .done (a, .error (.status "not a systemd handle"))
  else
    .command "systemctl" ["show".toList, "--property=ActiveState".toList, h.id] fun
      | .error e => .done (a, .error (.status s!"systemctl show failed: {e}"))
      | .ok output => .done (a, .ok (parseStatus output.stdout))

/-- The PID in the first `MainPID=` line. -/
def mainPid (stdout : Text) : Option Nat :=
  ((lines stdout).findSome? (stripPrefix "MainPID=".toList)).bind fun s =>
    parseUnsigned u32Max (trim s)

def attachTracer (a : LinuxAdapter) (h : DaemonHandle) : Attempt LinuxAdapter TracerHandle :=
  if h.platform ≠ .linux then .done (a, .error (.tracer "not a systemd handle"))
  else
    .command "systemctl" ["show".toList, "--property=MainPID".toList, h.id] fun
      | .error e => .done (a, .error (.tracer s!"failed to get MainPID: {e}"))
      | .ok output =>
        match mainPid output.stdout with
        | none => .done (a, .error (.tracer "failed to parse MainPID"))
        | some pid =>
          if pid = 0 then .done (a, .error (.tracer "service not running"))
          else .done (a, .ok ⟨.linux, "ptrace:".toList ++ decimal pid⟩)

end Linux

/-! ## launchd -/

namespace MacOS

structure MacOSAdapter where
  daemonsDir : Path
  userAgent : Bool
  deriving DecidableEq

/-- Parse launchctl list output: the first line whose third column is the label decides. -/
def parseStatus (output label : Text) : DaemonStatus :=
  let ofLine (line : Text) : Option DaemonStatus :=
    match line.splitOn '\t' with
    | pid :: status :: name :: _ =>
      if name = label then
        if trim pid = ['-'] then
          if trim status = ['0'] then some .stopped
          else some (.failed (.exitCode ((parseI32 (trim status)).getD 1)))
        else some .running
      else none
    | _ => none
  ((lines output).findSome? ofLine).getD .created

def signalNumber : Signal → Nat := macNumber

/-- The PID in the output of `launchctl list` for one label. -/
def pidOf (stdout : Text) : Option Int32 :=
  let ofLine (line : Text) : Option Int32 :=
    if contains "\"PID\"".toList line then
      (line.splitOn '=')[1]?.bind fun s => parseI32 (trimEndMatches (· = ';') (trim s))
    else none
  (lines stdout).findSome? ofLine

def signal (a : MacOSAdapter) (h : DaemonHandle) (sig : Signal) : Attempt MacOSAdapter Unit :=
  if h.platform ≠ .macOS then .done (a, .error (.signal "not a launchd handle"))
  else
    .command "launchctl" ["list".toList, h.id] fun
      | .error e => .done (a, .error (.signal s!"launchctl list failed: {e}"))
      | .ok output =>
        match pidOf output.stdout with
        | none => .done (a, .error (.signal "service not running"))
        | some pid =>
          .command "kill" ['-' :: decimal (signalNumber sig), decimalInt pid.toInt] fun
            | .error e => .done (a, .error (.signal s!"kill failed: {e}"))
            | .ok kill =>
              if !kill.success then
                .done (a, .error (.signal s!"kill failed: {String.ofList kill.stderr}"))
              else .done (a, .ok ())

def status (a : MacOSAdapter) (h : DaemonHandle) : Attempt MacOSAdapter DaemonStatus :=
  if h.platform ≠ .macOS then .done (a, .error (.status "not a launchd handle"))
  else
    .command "launchctl" ["list".toList] fun
      | .error e => .done (a, .error (.status s!"launchctl list failed: {e}"))
      | .ok output => .done (a, .ok (parseStatus output.stdout h.id))

def attachTracer (a : MacOSAdapter) (h : DaemonHandle) : Attempt MacOSAdapter TracerHandle :=
  if h.platform ≠ .macOS then .done (a, .error (.tracer "not a launchd handle"))
  else
    .command "launchctl" ["list".toList, h.id] fun
      | .error e => .done (a, .error (.tracer s!"launchctl list failed: {e}"))
      | .ok output =>
        match pidOf output.stdout with
        | none => .done (a, .error (.tracer "service not running"))
        | some pid => .done (a, .ok ⟨.macOS, "ptrace:".toList ++ decimalInt pid.toInt⟩)

end MacOS

/-! ## Containers -/

namespace Container

inductive ContainerRuntime where
  | docker
  | podman
  | containerd
  deriving DecidableEq, Repr

def ContainerRuntime.cliCommand : ContainerRuntime → String
  | docker => "docker"
  | podman => "podman"
  | containerd => "nerdctl"

structure ContainerAdapter where
  runtime : ContainerRuntime
  imagePrefix : Text
  deriving DecidableEq

/-- The number that follows the exit code's key. -/
def exitCode (output : Text) : Option Int32 :=
  (after "\"ExitCode\":".toList output).bind fun rest =>
    parseI32 ((rest.dropWhile isWhitespace).takeWhile fun c => c.isDigit || c = '-')

def parseStatus (output : Text) : DaemonStatus :=
  let has (s : String) := contains s.toList output
  if has "\"running\"" then .running
  else if has "\"exited\"" then
    match exitCode output with
    | some code => if code = 0 then .stopped else .failed (.exitCode code)
    | none => .stopped
  else if has "\"created\"" then .created
  else if has "\"restarting\"" || has "\"starting\"" then .starting
  else if has "\"paused\"" || has "\"removing\"" then .stopping
  else if has "\"dead\"" then .failed (.exitCode 1)
  else .created

def signalName : Signal → Text := fun sig => (Duende.signalName sig).toList

def signal (a : ContainerAdapter) (h : DaemonHandle) (sig : Signal) :
    Attempt ContainerAdapter Unit :=
  if h.platform ≠ .container then .done (a, .error (.signal "not a container handle"))
  else
    let cli := a.runtime.cliCommand
    .command cli ["kill".toList, "--signal".toList, signalName sig, h.id] fun
      | .error e => .done (a, .error (.signal s!"{cli} kill failed: {e}"))
      | .ok output =>
        if !output.success then
          .done (a, .error (.signal s!"{cli} kill failed: {String.ofList output.stderr}"))
        else .done (a, .ok ())

def status (a : ContainerAdapter) (h : DaemonHandle) : Attempt ContainerAdapter DaemonStatus :=
  if h.platform ≠ .container then .done (a, .error (.status "not a container handle"))
  else
    let cli := a.runtime.cliCommand
    .command cli
        ["inspect".toList, "--format".toList, "\x7b\x7bjson .State\x7d\x7d".toList, h.id] fun
      | .error e => .done (a, .error (.status s!"{cli} inspect failed: {e}"))
      | .ok output =>
        if !output.success then .done (a, .ok .stopped)
        else .done (a, .ok (parseStatus output.stdout))

def attachTracer (a : ContainerAdapter) (h : DaemonHandle) :
    Attempt ContainerAdapter TracerHandle :=
  if h.platform ≠ .container then .done (a, .error (.tracer "not a container handle"))
  else
    .command a.runtime.cliCommand
        ["inspect".toList, "--format".toList, "\x7b\x7b.State.Pid\x7d\x7d".toList, h.id] fun
      | .error e => .done (a, .error (.tracer s!"failed to get container PID: {e}"))
      | .ok output =>
        match parseUnsigned u32Max (trim output.stdout) with
        | none => .done (a, .error (.tracer "failed to parse container PID"))
        | some pid =>
          if pid = 0 then .done (a, .error (.tracer "container not running"))
          else .done (a, .ok ⟨.container, "ptrace:".toList ++ decimal pid⟩)

end Container

/-! ## pepita -/

namespace Pepita

structure PepitaAdapter where
  pepitaPath : Path
  settings : Settings
  deriving DecidableEq

/-- Parse pepita status output; `table` answers for lower-case forms beyond ASCII. -/
def parseStatus (table : Char → Text) (output : Text) : DaemonStatus :=
  let has (s : String) := contains s.toList (toLowercase table output)
  if has "running" then .running
  else if has "stopped" || has "shutdown" then .stopped
  else if has "crashed" || has "failed" then .failed (.exitCode 1)
  else if has "booting" || has "starting" then .starting
  else if has "pausing" || has "stopping" then .stopping
  else .created

def signalName : Signal → Text
  | .term => "TERM".toList
  | .kill => "KILL".toList
  | .hup => "HUP".toList
  | .int => "INT".toList
  | .quit => "QUIT".toList
  | .usr1 => "USR1".toList
  | .usr2 => "USR2".toList
  | .stop => "STOP".toList
  | .cont => "CONT".toList

def signal (a : PepitaAdapter) (h : DaemonHandle) (sig : Signal) : Attempt PepitaAdapter Unit :=
  if h.platform ≠ .pepitaMicroVM then .done (a, .error (.signal "not a pepita handle"))
  else
    .commandAt a.pepitaPath
        ["signal".toList, "--vm".toList, h.id, "--signal".toList, signalName sig] fun
      | .error e => .done (a, .error (.signal s!"pepita signal failed: {e}"))
      | .ok output =>
        if !output.success then
          .done (a, .error (.signal s!"pepita signal failed: {String.ofList output.stderr}"))
        else .done (a, .ok ())

def status (table : Char → Text) (a : PepitaAdapter) (h : DaemonHandle) :
    Attempt PepitaAdapter DaemonStatus :=
  if h.platform ≠ .pepitaMicroVM then .done (a, .error (.status "not a pepita handle"))
  else
    .commandAt a.pepitaPath ["status".toList, "--vm".toList, h.id] fun
      | .error e => .done (a, .error (.status s!"pepita status failed: {e}"))
      | .ok output =>
        if !output.success then .done (a, .ok .stopped)
        else .done (a, .ok (parseStatus table output.stdout))

/-- The CID in the output of `pepita info`, 3 if there is none. -/
def cidOf (stdout : Text) : Nat :=
  let ofLine (line : Text) : Option Nat :=
    if contains "\"cid\":".toList line then
      (line.splitOn ':')[1]?.bind fun s =>
        parseUnsigned u32Max (trimMatches (fun c => c = '"' || c = ',') (trim s))
    else none
  ((lines stdout).findSome? ofLine).getD 3

def attachTracer (a : PepitaAdapter) (h : DaemonHandle) : Attempt PepitaAdapter TracerHandle :=
  if h.platform ≠ .pepitaMicroVM then .done (a, .error (.tracer "not a pepita handle"))
  else
    .commandAt a.pepitaPath
        ["info".toList, "--vm".toList, h.id, "--format".toList, "json".toList] fun
      | .error e => .done (a, .error (.tracer s!"failed to get VM info: {e}"))
      | .ok output =>
        if !output.success then .done (a, .error (.tracer "VM not running"))
        else
          .done (a, .ok ⟨.pepitaMicroVM, "vsock:".toList ++ decimal (cidOf output.stdout) ++
            ':' :: decimal a.settings.vsockPort.toNat⟩)

end Pepita

/-! ## WOS -/

namespace Wos

/-- `signal`, both holds of the lock in one. -/
def signal (a : WosAdapter) (h : DaemonHandle) (sig : Signal) : Attempt WosAdapter Unit :=
  if h.platform ≠ .wos then .done (a, .error (.signal "not a WOS handle"))
  else
    match h.process with
    | none => .done (a, .error (.signal "invalid PID"))
    | some pid =>
      match a.processes.lookup pid with
      | none => .done (a, .error (.signal "process not found"))
      | some p =>
        let p := { p with state := applySignal p.state sig }
        if p.state.terminated then
          .done ({ a with processes := (a.processes.insert pid p).erase pid }, .ok ())
        else .done ({ a with processes := a.processes.insert pid p }, .ok ())

def status (a : WosAdapter) (h : DaemonHandle) : Attempt WosAdapter DaemonStatus :=
  if h.platform ≠ .wos then .done (a, .error (.status "not a WOS handle"))
  else
    match h.process with
    | none => .done (a, .error (.status "invalid PID"))
    | some pid =>
      match a.processes.lookup pid with
      | none => .done (a, .ok .stopped)
      | some p => .done (a, .ok (stateToStatus p.state))

def attachTracer (a : WosAdapter) (h : DaemonHandle) : Attempt WosAdapter TracerHandle :=
  if h.platform ≠ .wos then .done (a, .error (.tracer "not a WOS handle"))
  else
    match h.process with
    | none => .done (a, .error (.tracer "invalid PID"))
    | some pid =>
      match a.processes.lookup pid with
      | none => .done (a, .error (.tracer "process not running"))
      | some _ => .done (a, .ok ⟨.wos, "wasm-trace:".toList ++ decimal pid.toNat⟩)

end Wos

end Duende.Platforms
