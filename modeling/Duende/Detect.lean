import Duende.Core.Config
import Duende.Search

/-!
# Platform detection

Both crates look for the same platforms in the same order, with their own lists of the markers
of a container. `detectors_agree_iff` says on which hosts they return the same platform.
-/

namespace Duende

/-- `cfg!(target_os = ..)`. -/
inductive Os where
  | linux | macOS | other
  deriving DecidableEq, Repr

/-- What the crates are compiled for. -/
structure Target where
  wasm32 : Bool
  os : Os

/-- What detection looks at: variables of the environment, paths that exist and contents of
files. -/
structure Host where
  env : String → Option Path
  pathExists : String → Bool
  file : String → Option Path

namespace Host

/-- `std::env::var(name).is_ok()`: the variable is set, and UTF-8. -/
def varIsOk (host : Host) (name : String) : Bool := (host.env name).any Path.isUtf8

/-- `std::fs::read_to_string`, which fails on what is not UTF-8. -/
def readToString (host : Host) (path : String) : Option Text :=
  ((host.file path).filter Path.isUtf8).map Path.display

/-- The first control group of the host contains one of the words. -/
def cgroupContains (host : Host) (words : List String) : Bool :=
  match host.readToString "/proc/1/cgroup" with
  | some cgroup => words.any fun word => contains word.toList cgroup
  | none => false

end Host

namespace Core

def isPepitaVm (host : Host) : Bool :=
  if host.varIsOk "PEPITA_VM" then true else host.pathExists "/dev/virtio-ports"

def isContainer (host : Host) : Bool :=
  if host.pathExists "/.dockerenv" then true
  else if host.cgroupContains ["docker", "containerd", "kubepods", "lxc"] then true
  else if host.varIsOk "KUBERNETES_SERVICE_HOST" then true
  else false

def isSystemdAvailable (host : Host) : Bool := host.pathExists "/run/systemd/system"

def detectPlatform (target : Target) (host : Host) : Platform :=
  if target.wasm32 || host.varIsOk "WOS_KERNEL" then .wos
  else if isPepitaVm host then .pepitaMicroVM
  else if isContainer host then .container
  else if target.os = .linux ∧ isSystemdAvailable host then .linux
  else if target.os = .macOS then .macOS
  else .native

end Core

namespace Platforms

def isContainer (host : Host) : Bool :=
  if host.pathExists "/.dockerenv" then true
  else if host.cgroupContains ["docker", "containerd", "lxc"] then true
  else if host.varIsOk "container" then true
  else false

def detectPlatform (target : Target) (host : Host) : Platform :=
  if target.wasm32 || host.varIsOk "WOS_KERNEL" then .wos
  else if host.pathExists "/dev/virtio-ports" || host.varIsOk "PEPITA_VM" then .pepitaMicroVM
  else if isContainer host then .container
  else if target.os = .linux ∧ host.pathExists "/run/systemd/system" then .linux
  else if target.os = .macOS then .macOS
  else .native

end Platforms

/-! ## Where the detectors agree -/

namespace Host

/-- The markers that decide before a container is looked for. -/
def Earlier (target : Target) (host : Host) : Prop :=
  target.wasm32 = true ∨ host.varIsOk "WOS_KERNEL" = true ∨ host.varIsOk "PEPITA_VM" = true ∨
    host.pathExists "/dev/virtio-ports" = true

/-- The markers of a container that both crates know. -/
def Shared (host : Host) : Prop :=
  host.pathExists "/.dockerenv" = true ∨
    host.cgroupContains ["docker", "containerd", "lxc"] = true

/-- The markers of a container that only the core knows. -/
def Kubernetes (host : Host) : Prop :=
  host.cgroupContains ["kubepods"] = true ∨ host.varIsOk "KUBERNETES_SERVICE_HOST" = true

variable {target : Target} {host : Host}

theorem cgroupContains_iff (words : List String) : host.cgroupContains words = true ↔
    ∃ word ∈ words, host.cgroupContains [word] = true := by
  unfold cgroupContains
  cases host.readToString "/proc/1/cgroup" with
  | none => simp
  | some cgroup => simp only [List.any_eq_true, List.mem_singleton, exists_eq_left]

theorem core_isContainer : Core.isContainer host = true ↔ host.Shared ∨ host.Kubernetes := by
  have hwords : host.cgroupContains ["docker", "containerd", "kubepods", "lxc"] = true ↔
      host.cgroupContains ["docker", "containerd", "lxc"] = true ∨
        host.cgroupContains ["kubepods"] = true := by
    rw [cgroupContains_iff, cgroupContains_iff ["docker", "containerd", "lxc"]]
    simp only [List.mem_cons, List.not_mem_nil, or_false, exists_eq_or_imp, exists_eq_left]
    tauto
  unfold Core.isContainer Shared Kubernetes
  rw [or_assoc, ← or_assoc (a := host.cgroupContains _ = true), ← hwords]
  split
  · simp [*]
  · split
    · simp [*]
    · split <;> simp [*]

theorem platforms_isContainer : Platforms.isContainer host = true ↔
    host.Shared ∨ host.varIsOk "container" = true := by
  unfold Platforms.isContainer Shared
  rw [or_assoc]
  split
  · simp [*]
  · split
    · simp [*]
    · split <;> simp [*]

/-- What is left when no container is found. -/
def uncontained (target : Target) (host : Host) : Platform :=
  if target.os = .linux ∧ host.pathExists "/run/systemd/system" then .linux
  else if target.os = .macOS then .macOS
  else .native

theorem uncontained_ne : uncontained target host ≠ .container := by
  unfold uncontained
  split
  · exact nofun
  · split <;> exact nofun

theorem core_detect (he : ¬ host.Earlier target) : Core.detectPlatform target host =
    if Core.isContainer host then .container else uncontained target host := by
  obtain ⟨hw, hv, hp, hd⟩ : target.wasm32 = false ∧ host.varIsOk "WOS_KERNEL" = false ∧
      host.varIsOk "PEPITA_VM" = false ∧ host.pathExists "/dev/virtio-ports" = false := by
    simpa [Earlier] using he
  simp only [Core.detectPlatform, Core.isPepitaVm, hw, hv, hp, hd, Bool.or_self,
    Bool.false_eq_true, if_false]
  rfl

theorem platforms_detect (he : ¬ host.Earlier target) : Platforms.detectPlatform target host =
    if Platforms.isContainer host then .container else uncontained target host := by
  obtain ⟨hw, hv, hp, hd⟩ : target.wasm32 = false ∧ host.varIsOk "WOS_KERNEL" = false ∧
      host.varIsOk "PEPITA_VM" = false ∧ host.pathExists "/dev/virtio-ports" = false := by
    simpa [Earlier] using he
  simp only [Platforms.detectPlatform, hw, hv, hp, hd, Bool.or_self, Bool.false_eq_true, if_false]
  rfl

theorem detect_earlier (he : host.Earlier target) :
    Core.detectPlatform target host = Platforms.detectPlatform target host := by
  by_cases hw : (target.wasm32 || host.varIsOk "WOS_KERNEL") = true
  · simp only [Core.detectPlatform, Platforms.detectPlatform, if_pos hw]
  have hp : host.varIsOk "PEPITA_VM" = true ∨ host.pathExists "/dev/virtio-ports" = true := by
    rw [Bool.or_eq_true] at hw
    unfold Earlier at he
    tauto
  have hcore : Core.isPepitaVm host = true := by
    unfold Core.isPepitaVm
    split
    · rfl
    · exact hp.resolve_left ‹_›
  have hplatforms : (host.pathExists "/dev/virtio-ports" || host.varIsOk "PEPITA_VM") = true :=
    Bool.or_eq_true _ _ ▸ hp.symm
  simp only [Core.detectPlatform, Platforms.detectPlatform, if_neg hw, if_pos hcore,
    if_pos hplatforms]

end Host

open Host

/-- **Both detectors agree** exactly on the hosts with a marker that decides earlier, a marker of
a container that both know, or the markers of a container that one of them knows for both or for
neither. -/
theorem detectors_agree_iff (target : Target) (host : Host) :
    Core.detectPlatform target host = Platforms.detectPlatform target host ↔
      host.Earlier target ∨ host.Shared ∨ (host.Kubernetes ↔ host.varIsOk "container" = true) := by
  by_cases he : host.Earlier target
  · exact iff_of_true (detect_earlier he) (.inl he)
  rw [core_detect he, platforms_detect he]
  have hagree : (if Core.isContainer host then Platform.container else uncontained target host) =
      (if Platforms.isContainer host then .container else uncontained target host) ↔
      (Core.isContainer host = true ↔ Platforms.isContainer host = true) := by
    have hne := @uncontained_ne target host
    cases Core.isContainer host <;> cases Platforms.isContainer host <;> simp [hne, hne.symm]
  rw [hagree, core_isContainer, platforms_isContainer, or_iff_right he]
  by_cases hs : host.Shared
  · simp only [hs, true_or]
  · simp only [hs, false_or]

def kubernetesHost : Host where
  env name := if name = "KUBERNETES_SERVICE_HOST" then some (.ofText "10.0.0.1".toList) else none
  pathExists path := path = "/run/systemd/system"
  file _ := none

/-- The core finds a container, the platform crate systemd. -/
theorem kubernetes_differs : Core.detectPlatform ⟨false, .linux⟩ kubernetesHost = .container ∧
    Platforms.detectPlatform ⟨false, .linux⟩ kubernetesHost = .linux ∧
    ¬ ∀ target host, Core.detectPlatform target host = Platforms.detectPlatform target host := by
  have hcore : Core.detectPlatform ⟨false, .linux⟩ kubernetesHost = .container := by decide
  have hplatforms : Platforms.detectPlatform ⟨false, .linux⟩ kubernetesHost = .linux := by decide
  refine ⟨hcore, hplatforms, fun hall => ?_⟩
  have h := hall ⟨false, .linux⟩ kubernetesHost
  rw [hcore, hplatforms] at h
  cases h

end Duende
