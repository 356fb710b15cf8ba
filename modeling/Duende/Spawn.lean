import Duende.Core.LaunchdPlist
import Duende.Platform.UnitReading

/-!
# Handing daemons to a service manager

`spawn` of the adapters that run commands (systemd, launchd and containers, in both crates), with
the files that they write for the service manager, and `stop_and_unload` of the core's launchd
adapter.
-/

namespace Duende

open Trans

/-- What an adapter asks of the system: a command, with a file as its last argument or none, or a
change to the files. -/
inductive Deed where
  | command (c : Command) (file : Option Path)
  | createDirAll (dir : Path)
  | write (file : Path) (contents : Text)
  | removeFile (file : Path)
  deriving DecidableEq

abbrev Deed.Answer : Deed → Type
  | .command _ _ => Ran
  | .createDirAll _ | .write _ _ | .removeFile _ => Except String Unit

/-- An operation that asks for deeds. -/
abbrev Doing := Ask Deed Deed.Answer

namespace Doing

variable {α : Type}

def command (program : String) (args : List Text) (k : Ran → Doing α) : Doing α :=
  .ask (.command ⟨.ofText program.toList, args⟩ none) k

/-- A command with a file as its last argument. -/
def commandOn (program : String) (args : List Text) (file : Path) (k : Ran → Doing α) : Doing α :=
  .ask (.command ⟨.ofText program.toList, args⟩ (some file)) k

def createDirAll (dir : Path) (k : Except String Unit → Doing α) : Doing α :=
  .ask (.createDirAll dir) k

def write (file : Path) (contents : Text) (k : Except String Unit → Doing α) : Doing α :=
  .ask (.write file contents) k

def removeFile (file : Path) (k : Except String Unit → Doing α) : Doing α :=
  .ask (.removeFile file) k

end Doing

namespace Core

abbrev Spawning := Doing (Except PlatformError DaemonHandle)

variable (id : DaemonId) (daemonName : Text)

def Systemd.runArgs (a : Systemd.SystemdAdapter) : List Text :=
  Systemd.systemctlArgs a ["--unit".toList, Systemd.unitName daemonName, "--description".toList,
    "Duende daemon: ".toList ++ daemonName, "--remain-after-exit".toList, "--collect".toList,
    "--property=Restart=on-failure".toList, "--property=RestartSec=5".toList, "--".toList,
    "/bin/true".toList]

def Systemd.spawn (a : Systemd.SystemdAdapter) : Spawning :=
  .command "systemd-run" (Systemd.runArgs daemonName a) fun
    | .error e => .done (.error (.spawnFailed s!"Failed to execute systemd-run: {e}"))
    | .ok output =>
      if !output.success then
        .done (.error (.spawnFailed s!"systemd-run failed: {String.ofList output.stderr}"))
      else .done (.ok (.systemd id (String.ofList (Systemd.unitName daemonName))))

namespace Launchd

def plistPath (a : LaunchdAdapter) (label : Text) : Path :=
  a.plistDir.join (.ofText (label ++ ".plist".toList))

def spawn (a : LaunchdAdapter) : Spawning :=
  let label := serviceLabel daemonName
  .createDirAll a.plistDir fun
    | .error e => .done (.error (.spawnFailed s!"Failed to create plist directory: {e}"))
    | .ok () =>
      .write (plistPath a label) (generatePlist label daemonName "/usr/bin/true".toList) fun
        | .error e => .done (.error (.spawnFailed s!"Failed to write plist file: {e}"))
        | .ok () =>
          .commandOn "launchctl" ["bootstrap".toList, target a] (plistPath a label) fun
            | .error e => .done (.error (.spawnFailed s!"Failed to execute launchctl: {e}"))
            | .ok output =>
              if !output.success then
                -- the plist file is cleaned up, whether or not that works
                .removeFile (plistPath a label) fun _ =>
                  .done (.error (.spawnFailed
                    s!"launchctl bootstrap failed: {String.ofList output.stderr}"))
              else .done (.ok (.launchd id (String.ofList label)))

/-- Stops and removes a launchd service: it may be unloaded already, and its file gone. -/
def stopAndUnload (a : LaunchdAdapter) (label : Text) : Doing (Except PlatformError Unit) :=
  .command "launchctl" ["bootout".toList, target a ++ '/' :: label] fun
    | .error e => .done (.error (.spawnFailed s!"Failed to execute launchctl: {e}"))
    | .ok _ => .removeFile (plistPath a label) fun _ => .done (.ok ())

end Launchd

namespace Container

def ContainerRuntime.name : ContainerRuntime → String
  | docker => "docker"
  | podman => "podman"
  | containerd => "containerd"

/-- The command that runs in a container, for the time being. -/
def placeholder : List Text :=
  ["/bin/sh".toList, "-c".toList, "while true; do sleep 1; done".toList]

def runArgs (a : ContainerAdapter) : List Text :=
  match a.runtime with
  | .docker | .podman =>
    ["run".toList, "-d".toList, "--name".toList, containerName daemonName, "--restart".toList,
      "on-failure:5".toList, a.defaultImage] ++ placeholder
  | .containerd =>
    ["run".toList, "-d".toList, a.defaultImage, containerName daemonName] ++ placeholder

def listedId : Ran → Option Text
  | .error _ => none
  | .ok output =>
    if output.success && !(trim output.stdout).isEmpty then some (trim output.stdout) else none

def getContainerId {α : Type} (a : ContainerAdapter) (name : Text) (k : Option Text → Doing α) :
    Doing α :=
  .command a.runtime.command ["ps".toList, "-aq".toList, "--filter".toList,
      "name=^".toList ++ name ++ ['$']] fun ran => k (listedId ran)

def spawn (a : ContainerAdapter) : Spawning :=
  let handle (containerId : Text) : DaemonHandle :=
    .container id a.runtime.name (String.ofList containerId)
  .command a.runtime.command (runArgs daemonName a) fun
    | .error e => .done (.error (.spawnFailed s!"Failed to execute {a.runtime.command}: {e}"))
    | .ok output =>
      if !output.success then
        .done (.error (.spawnFailed
          s!"{a.runtime.command} run failed: {String.ofList output.stderr}"))
      else if (trim output.stdout).isEmpty then
        getContainerId a (containerName daemonName) fun found =>
          .done (.ok (handle (found.getD (containerName daemonName))))
      else .done (.ok (handle (trim output.stdout)))

end Container

end Core

namespace Platforms

abbrev Spawning := Doing (Except Pepita.SpawnError DaemonHandle)

variable (daemonName : Text)

def Linux.spawn (a : Linux.LinuxAdapter) : Spawning :=
  let config := DaemonConfig.new daemonName (.ofText "/bin/false".toList)
  let unitName := Linux.unitName daemonName
  .write (a.unitDir.join (.ofText unitName)) (Linux.generateUnitFile a config) fun
    | .error e => .done (.error ⟨s!"failed to write unit file: {e}"⟩)
    | .ok () =>
      .command "systemctl" ["daemon-reload".toList] fun
        | .error e => .done (.error ⟨s!"daemon-reload failed: {e}"⟩)
        | .ok reload =>
          if !reload.success then .done (.error ⟨"daemon-reload failed"⟩)
          else
            .command "systemctl" ["start".toList, unitName] fun
              | .error e => .done (.error ⟨s!"systemctl start failed: {e}"⟩)
              | .ok start =>
                if !start.success then
                  .done (.error ⟨s!"systemctl start failed: {String.ofList start.stderr}"⟩)
                else .done (.ok ⟨.linux, unitName, none⟩)

def MacOS.plistFilename : Text := MacOS.serviceLabel daemonName ++ ".plist".toList

def MacOS.spawn (a : MacOS.MacOSAdapter) : Spawning :=
  let config := DaemonConfig.new daemonName (.ofText "/bin/false".toList)
  let plistPath := a.daemonsDir.join (.ofText (MacOS.plistFilename daemonName))
  .write plistPath (MacOS.generatePlist a config) fun
    | .error e => .done (.error ⟨s!"failed to write plist: {e}"⟩)
    | .ok () =>
      .commandOn "launchctl" ["load".toList, "-w".toList] plistPath fun
        | .error e => .done (.error ⟨s!"launchctl load failed: {e}"⟩)
        | .ok load =>
          if !load.success then
            .done (.error ⟨s!"launchctl load failed: {String.ofList load.stderr}"⟩)
          else .done (.ok ⟨.macOS, MacOS.serviceLabel daemonName, none⟩)

def Container.spawn (a : Container.ContainerAdapter) : Spawning :=
  let config := DaemonConfig.new daemonName (.ofText "/bin/daemon".toList)
  let cli := a.runtime.cliCommand
  -- an existing container is removed if present
  .command cli ["rm".toList, "-f".toList, Container.containerName daemonName] fun _ =>
    .command cli (Container.buildRunArgs a config) fun
      | .error e => .done (.error ⟨s!"{cli} run failed: {e}"⟩)
      | .ok output =>
        if !output.success then
          .done (.error ⟨s!"{cli} run failed: {String.ofList output.stderr}"⟩)
        else .done (.ok ⟨.container, trim output.stdout, none⟩)

end Platforms

end Duende
