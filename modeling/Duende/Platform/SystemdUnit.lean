import Duende.Platform.Services

/-!
# The unit file of a systemd service

`generate_unit_file`, in the blocks in which the code pushes it.
-/

namespace Duende

namespace Platforms.Linux

/-- The percentage of one processor in a unit file. -/
def cpuQuota (percent : F64) : Nat := (percent.mul 10000).asU64 / 10000

def unitSection (config : DaemonConfig) : Text :=
  "[Unit]\nDescription=".toList ++ config.description ++ "\nAfter=network.target\n\n".toList

def execStart (config : DaemonConfig) : Text :=
  "ExecStart=".toList ++ config.binaryPath.display ++ config.args.flatMap (fun arg => ' ' :: arg)

/-- Working directory, user and group. -/
def identity (config : DaemonConfig) : Text :=
  (match config.workingDir with
    | some workingDir => "WorkingDirectory=".toList ++ workingDir.display ++ ['\n']
    | none => []) ++
  (match config.user with
    | some user => "User=".toList ++ user ++ ['\n']
    | none => []) ++
  (match config.group with
    | some group => "Group=".toList ++ group ++ ['\n']
    | none => [])

def environment (config : DaemonConfig) : Text :=
  config.env.entries.flatMap fun e =>
    "Environment=\"".toList ++ e.1 ++ '=' :: e.2 ++ ['"', '\n']

/-- Resource limits (cgroups). -/
def limits (resources : ResourceConfig) : Text :=
  (if 0 < resources.memoryBytes.toNat then
    "MemoryMax=".toList ++ decimal resources.memoryBytes.toNat ++ ['\n'] else []) ++
  (if (F64.finite 0).lt resources.cpuQuotaPercent &&
      resources.cpuQuotaPercent.lt (.finite 100) then
    "CPUQuota=".toList ++ decimal (cpuQuota resources.cpuQuotaPercent) ++ ['%', '\n'] else []) ++
  (if 0 < resources.pidsMax.toNat then
    "TasksMax=".toList ++ decimal resources.pidsMax.toNat ++ ['\n'] else [])

/-- Restart policy, shutdown timeout, and the last section. -/
def ending (config : DaemonConfig) : Text :=
  "Restart=".toList ++ config.restart.text ++ ['\n'] ++
    ("TimeoutStopSec=".toList ++ decimal (asSecs config.shutdownTimeout) ++ ['\n'] ++
      "\n[Install]\nWantedBy=multi-user.target\n".toList)

/-- What stands before the limits. -/
def fields (config : DaemonConfig) : Text :=
  List.flatten [
    unitSection config,
    "[Service]\nType=simple\n".toList, execStart config, ['\n'],
    identity config, environment config]

def generateUnitFile (_ : LinuxAdapter) (config : DaemonConfig) : Text :=
  fields config ++ (limits config.resources ++ ending config)

end Platforms.Linux

end Duende
