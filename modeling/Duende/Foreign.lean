import Duende.Core.Native
import Duende.Core.Services
import Duende.Platform.Services

/-!
# Handles of another platform

Every adapter of the two crates under its operations that take a handle.
`foreign_rejected_iff` says which of them reject a handle whose platform is not theirs.
-/

namespace Duende

open Trans

/-- The operations of an adapter that take a handle. -/
inductive HandleOp where
  | signal (sig : Signal)
  | status
  | attachTracer
  deriving DecidableEq, Repr

/-- What they return. -/
inductive Reply (τ : Type) where
  | signalled
  | status (s : DaemonStatus)
  | tracer (t : τ)

variable {σ ρ α β ε τ : Type} {x : Io (σ × Except ε α)} {s : σ} {f : σ → ρ} {g : α → β}

/-- An operation of one adapter as one of the adapters `ρ`. -/
def lift (f : σ → ρ) (g : α → β) (x : Io (σ × Except ε α)) : Io (ρ × Except ε β) :=
  x.map fun r => (f r.1, r.2.map g)

theorem Rejects.lift (h : Rejects x s) : Rejects (Duende.lift f g x) (f s) := by
  refine Ask.all_map.2 (h.mono (fun _ hq => hq) ?_)
  rintro ⟨s', r⟩ ⟨rfl, e, rfl⟩
  exact ⟨rfl, e, rfl⟩

theorem MaySucceed.lift (h : MaySucceed x) : MaySucceed (Duende.lift f g x) := by
  obtain ⟨s', r, hg⟩ := h
  exact ⟨f s', g r, hg.map fun r : σ × Except ε α => (f r.1, r.2.map g)⟩

/-- An operation rejects exactly under `p`, and so does its lift. -/
theorem rejects_lift_iff {p : Prop} (hr : p → Rejects x s) (hs : ¬ p → MaySucceed x) :
    Rejects (lift f g x) (f s) ↔ p := by
  constructor
  · intro h
    by_contra hp
    exact (hs hp).lift.not_rejects h
  · exact fun hp => (hr hp).lift

/-- An operation that is guarded by an accessor of the handle, and can go through. -/
theorem guard_iff {γ : Type} {o : Option γ} (e : ε) (hn : o = none → x = .done (s, .error e))
    (hs : ∀ v, o = some v → MaySucceed x) : Rejects (lift f g x) (f s) ↔ o = none := by
  refine rejects_lift_iff (fun h => ?_) fun h => ?_
  · rw [hn h]; exact rejects_done e
  · obtain ⟨v, hv⟩ := Option.ne_none_iff_exists'.1 h
    exact hs v hv

theorem rejects_if {p : Prop} [Decidable p] {e : ε} (hp : p) :
    Rejects (lift f g (if p then .done (s, .error e) else x)) (f s) := by
  rw [if_pos hp]; exact (rejects_done e).lift

/-- A command that ends with code 0 and prints `stdout`. -/
def printed (stdout : String) : Output := ⟨some 0, stdout.toList, []⟩

/-! ## The adapters of the core -/

namespace Core

namespace Native

/-- `signal`, with the answer of `kill` as that of the system. -/
def signal (a : NativeAdapter) (h : DaemonHandle) (sig : Signal) : Attempt NativeAdapter Unit :=
  match a.processes.lookup h.id, h.pid with
  | some _, some pid =>
    .kill pid.toInt32 (some sig) fun k => .done (a.signal h sig (k.mapError Errno.display))
  | _, _ => .done (a.signal h sig (.ok ()))

/-- `status`, with the answer of `try_wait` as that of the system. -/
def status (a : NativeAdapter) (h : DaemonHandle) : Attempt NativeAdapter DaemonStatus :=
  match a.processes.lookup h.id with
  | some _ => .tryWait fun k => .done (a.status h k)
  | none => .done (a.status h (.ok ()))

def attachTracer (a : NativeAdapter) (h : DaemonHandle) : Attempt NativeAdapter TracerHandle :=
  .done (a, a.attachTracer h)

end Native

/-- An adapter of the core. A stub stands in for systemd or launchd where that is missing. -/
inductive Adapter where
  | native (a : Native.NativeAdapter)
  | systemd (a : Systemd.SystemdAdapter)
  | systemdStub
  | launchd (a : Launchd.LaunchdAdapter)
  | launchdStub
  | container (a : Container.ContainerAdapter)
  | pepita (a : Pepita.PepitaAdapter)
  | wos (a : Wos.WosAdapter)

namespace Adapter

def platform : Adapter → Platform
  | native _ => .native
  | systemd _ | systemdStub => .linux
  | launchd _ | launchdStub => .macOS
  | container _ => .container
  | pepita _ => .pepitaMicroVM
  | wos _ => .wos

def signal (sig : Signal) (h : DaemonHandle) : Adapter → Attempt Adapter (Reply TracerHandle)
  | native a => lift native (fun _ => .signalled) (Native.signal a h sig)
  | systemd a => lift systemd (fun _ => .signalled) (Systemd.signal a h sig)
  | systemdStub => .done (systemdStub, .error (.notSupported .linux "signal"))
  | launchd a => lift launchd (fun _ => .signalled) (Launchd.signal a h sig)
  | launchdStub => .done (launchdStub, .error (.notSupported .macOS "signal"))
  | container a => lift container (fun _ => .signalled) (Container.signal a h sig)
  | pepita a => lift pepita (fun _ => .signalled) (Pepita.signal a h sig)
  | wos a => lift wos (fun _ => .signalled) (Wos.signalCtl a h sig)

def status (h : DaemonHandle) : Adapter → Attempt Adapter (Reply TracerHandle)
  | native a => lift native .status (Native.status a h)
  | systemd a => lift systemd .status (Systemd.status a h)
  | systemdStub => .done (systemdStub, .error (.notSupported .linux "status"))
  | launchd a => lift launchd .status (Launchd.status a h)
  | launchdStub => .done (launchdStub, .error (.notSupported .macOS "status"))
  | container a => lift container .status (Container.status a h)
  | pepita a => lift pepita .status (Pepita.status a h)
  | wos a => lift wos .status (Wos.statusCtl a h)

def attachTracer (h : DaemonHandle) : Adapter → Attempt Adapter (Reply TracerHandle)
  | native a => lift native .tracer (Native.attachTracer a h)
  | systemd a => lift systemd .tracer (Systemd.attachTracer a h)
  | systemdStub => .done (systemdStub, .error (.notSupported .linux "attach_tracer"))
  | launchd a => lift launchd .tracer (Launchd.attachTracer a h)
  | launchdStub => .done (launchdStub, .error (.notSupported .macOS "attach_tracer"))
  | container a => lift container .tracer (Container.attachTracer a h)
  | pepita a => lift pepita .tracer (Pepita.attachTracer a h)
  | wos a => lift wos .tracer (Wos.attachTracer a h)

def call (a : Adapter) (h : DaemonHandle) : HandleOp → Attempt Adapter (Reply TracerHandle)
  | .signal sig => a.signal sig h
  | .status => a.status h
  | .attachTracer => a.attachTracer h

/-- What the operation looks at refuses the handle: the entry of its daemon is missing, or it
holds no data of the kind that the adapter reads. -/
def Refuses (h : DaemonHandle) : HandleOp → Adapter → Prop
  | .signal _, native a => a.processes.lookup h.id = none ∨ h.pid = none
  | .status, native _ => False
  | .attachTracer, native a => a.processes.lookup h.id = none
  | _, systemd _ => h.systemdUnit = none
  | _, launchd _ => h.launchdLabel = none
  | .attachTracer, container a => h.containerId = none ∨ a.runtime = .containerd
  | _, container _ => h.containerId = none
  | .attachTracer, pepita _ => h.vsockCid = none ∨ h.vsockCid = some 0
  | _, pepita _ => h.pepitaVmId = none
  | .attachTracer, wos _ => h.pid = none ∨ h.pid = some 0
  | _, wos _ => h.pid = none
  | _, systemdStub | _, launchdStub => True

/-- A handle of another platform is rejected. -/
def RejectsForeign (a : Adapter) (op : HandleOp) (h : DaemonHandle) : Prop :=
  h.platform ≠ a.platform → Rejects (a.call h op) a

end Adapter

variable {h : DaemonHandle} {sig : Signal}

theorem native_signal (a : Native.NativeAdapter) : Rejects ((Adapter.native a).signal sig h)
    (.native a) ↔ a.processes.lookup h.id = none ∨ h.pid = none := by
  refine rejects_lift_iff (fun hn => ?_) fun hn => ?_
  · unfold Native.signal Native.NativeAdapter.signal
    cases hl : a.processes.lookup h.id with
    | none => exact rejects_done _
    | some i =>
      have hp : h.pid = none := hn.resolve_left (by simp [hl])
      simp only [hp]
      exact rejects_done _
  · obtain ⟨hl, hp⟩ := not_or.1 hn
    obtain ⟨i, hl⟩ := Option.ne_none_iff_exists'.1 hl
    obtain ⟨pid, hp⟩ := Option.ne_none_iff_exists'.1 hp
    unfold Native.signal
    simp only [hl, hp]
    refine maySucceed_ask (.ok ()) ?_
    have hok : (a.signal h sig (.ok ())).2 = .ok () := by
      simp only [Native.NativeAdapter.signal, hl, hp]
      split <;> rfl
    show MaySucceed (.done ((a.signal h sig (.ok ())).1, (a.signal h sig (.ok ())).2))
    rw [hok]
    exact maySucceed_done ()

theorem native_status (a : Native.NativeAdapter) :
    ¬ Rejects ((Adapter.native a).status h) (.native a) := by
  obtain ⟨s, hok⟩ : ∃ s, (a.status h (.ok ())).2 = .ok s := by
    rcases Native.status_cases a h (.ok ()) with
      ⟨-, hx⟩ | ⟨i, -, ⟨e, he, -⟩ | ⟨-, -, hx⟩ | ⟨e, -, -, hx⟩⟩
    · exact ⟨_, by rw [hx]⟩
    · cases he
    · exact ⟨_, by rw [hx]⟩
    · exact ⟨_, by rw [hx]⟩
  have hdone : MaySucceed (.done (a.status h (.ok ())) : Attempt Native.NativeAdapter _) := by
    show MaySucceed (.done ((a.status h (.ok ())).1, (a.status h (.ok ())).2))
    rw [hok]
    exact maySucceed_done s
  refine (MaySucceed.lift ?_).not_rejects
  unfold Native.status
  split
  · exact maySucceed_ask (.ok ()) hdone
  · exact hdone

theorem native_call (a : Native.NativeAdapter) (op : HandleOp) :
    Rejects ((Adapter.native a).call h op) (.native a) ↔ (Adapter.native a).Refuses h op := by
  cases op with
  | signal sig => exact native_signal a
  | status => exact iff_of_false (native_status a) not_false
  | attachTracer =>
    refine guard_iff (.notFound h.id.display) (fun hn => ?_) fun i hl => ?_ <;>
      unfold Native.attachTracer Native.NativeAdapter.attachTracer
    · rw [hn]
    · rw [hl]; exact maySucceed_done _

theorem systemd_call (a : Systemd.SystemdAdapter) (op : HandleOp) :
    Rejects ((Adapter.systemd a).call h op) (.systemd a) ↔ h.systemdUnit = none := by
  cases op with
  | signal sig =>
    refine guard_iff Systemd.invalidHandle (fun hn => ?_) fun u hu => ?_ <;> unfold Systemd.signal
    · rw [hn]
    · rw [hu]; exact maySucceed_ask (.ok (printed "")) (maySucceed_done _)
  | status =>
    refine guard_iff Systemd.invalidHandle (fun hn => ?_) fun u hu => ?_ <;> unfold Systemd.status
    · rw [hn]
    · rw [hu]; exact maySucceed_ask (.ok (printed "")) (maySucceed_done _)
  | attachTracer =>
    refine guard_iff Systemd.invalidHandle (fun hn => ?_) fun u hu => ?_ <;>
      unfold Systemd.attachTracer
    · rw [hn]
    · rw [hu]; exact maySucceed_ask (.ok (printed "1")) (maySucceed_done _)

theorem launchd_call (a : Launchd.LaunchdAdapter) (op : HandleOp) :
    Rejects ((Adapter.launchd a).call h op) (.launchd a) ↔ h.launchdLabel = none := by
  cases op with
  | signal sig =>
    refine guard_iff Launchd.invalidHandle (fun hn => ?_) fun l hl => ?_ <;> unfold Launchd.signal
    · rw [hn]
    · rw [hl]; exact maySucceed_ask (.ok (printed "")) (maySucceed_done _)
  | status =>
    refine guard_iff Launchd.invalidHandle (fun hn => ?_) fun l hl => ?_ <;> unfold Launchd.status
    · rw [hn]
    · rw [hl]; exact maySucceed_ask (.ok (printed "")) (maySucceed_done _)
  | attachTracer =>
    refine guard_iff Launchd.invalidHandle (fun hn => ?_) fun l hl => ?_ <;>
      unfold Launchd.attachTracer
    · rw [hn]
    · rw [hl]; exact maySucceed_ask (.ok (printed "PID 1")) (maySucceed_done _)

theorem container_call (a : Container.ContainerAdapter) (op : HandleOp) :
    Rejects ((Adapter.container a).call h op) (.container a) ↔
      (Adapter.container a).Refuses h op := by
  cases op with
  | signal sig =>
    refine guard_iff Container.invalidHandle (fun hn => ?_) fun c hc => ?_ <;>
      unfold Container.signal
    · rw [hn]
    · rw [hc]; exact maySucceed_ask (.ok (printed "")) (maySucceed_done _)
  | status =>
    refine guard_iff Container.invalidHandle (fun hn => ?_) fun c hc => ?_ <;>
      unfold Container.status
    · rw [hn]
    · rw [hc]; exact maySucceed_ask (.ok (printed "")) (maySucceed_done _)
  | attachTracer =>
    refine rejects_lift_iff (fun hn => ?_) fun hn => ?_ <;> unfold Container.attachTracer
    · cases hc : h.containerId with
      | none => exact rejects_done _
      | some c =>
        have hr : a.runtime = .containerd := hn.resolve_left (by simp [hc])
        simp only [hr]
        exact rejects_done _
    · obtain ⟨hc, hr⟩ := not_or.1 hn
      obtain ⟨c, hc⟩ := Option.ne_none_iff_exists'.1 hc
      rw [hc]
      have hok : MaySucceed (.done (a, .ok ⟨h.id, .ptrace⟩) :
          Attempt Container.ContainerAdapter TracerHandle) := maySucceed_done _
      cases hrt : a.runtime with
      | containerd => exact absurd hrt hr
      | docker => exact maySucceed_ask (.ok (printed "1")) hok
      | podman => exact maySucceed_ask (.ok (printed "1")) hok

/-- An accessor of a VM handle fails when the other does. -/
theorem pepitaVmId_eq_none : h.pepitaVmId = none ↔ h.vsockCid = none := by
  unfold DaemonHandle.pepitaVmId DaemonHandle.vsockCid
  cases h.handleData <;> simp

theorem pepita_call (a : Pepita.PepitaAdapter) (op : HandleOp) :
    Rejects ((Adapter.pepita a).call h op) (.pepita a) ↔ (Adapter.pepita a).Refuses h op := by
  cases op with
  | signal sig =>
    refine guard_iff Pepita.invalidHandle (fun hn => ?_) fun v hv => ?_ <;> unfold Pepita.signal
    · rw [hn]
    · have hc : h.vsockCid ≠ none := fun hc => by rw [pepitaVmId_eq_none.2 hc] at hv; cases hv
      obtain ⟨cid, hc⟩ := Option.ne_none_iff_exists'.1 hc
      rw [hv, hc]; exact maySucceed_ask (.ok (printed "")) (maySucceed_done _)
  | status =>
    refine guard_iff Pepita.invalidHandle (fun hn => ?_) fun v hv => ?_ <;> unfold Pepita.status
    · rw [hn]
    · rw [hv]; exact maySucceed_ask (.ok (printed "")) (maySucceed_done _)
  | attachTracer =>
    refine rejects_lift_iff (fun hn => ?_) fun hn => ?_ <;> unfold Pepita.attachTracer
    · rcases hn with hn | hn <;> rw [hn] <;> exact rejects_done _
    · obtain ⟨hc, hz⟩ := not_or.1 hn
      obtain ⟨cid, hc⟩ := Option.ne_none_iff_exists'.1 hc
      have hne : cid ≠ 0 := by rintro rfl; exact hz hc
      simp only [hc, if_neg hne]
      exact maySucceed_done _

theorem wos_call (a : Wos.WosAdapter) (op : HandleOp) :
    Rejects ((Adapter.wos a).call h op) (.wos a) ↔ (Adapter.wos a).Refuses h op := by
  cases op with
  | signal sig =>
    refine guard_iff Wos.invalidHandle (fun hn => ?_) fun pid hp => ?_ <;> unfold Wos.signalCtl
    · rw [hn]
    · rw [hp]; exact maySucceed_ask (.error "not found") (maySucceed_done _)
  | status =>
    refine guard_iff Wos.invalidHandle (fun hn => ?_) fun pid hp => ?_ <;> unfold Wos.statusCtl
    · rw [hn]
    · rw [hp]; exact maySucceed_ask (.error "not found") (maySucceed_done _)
  | attachTracer =>
    refine rejects_lift_iff (fun hn => ?_) fun hn => ?_ <;> unfold Wos.attachTracer
    · rcases hn with hn | hn <;> rw [hn] <;> exact rejects_done _
    · obtain ⟨hp, hz⟩ := not_or.1 hn
      obtain ⟨pid, hp⟩ := Option.ne_none_iff_exists'.1 hp
      have hne : pid ≠ 0 := by rintro rfl; exact hz hp
      simp only [hp, if_neg hne]
      exact maySucceed_done _

/-- **The adapters of the core** reject what their guards refuse, whatever its platform. -/
theorem rejects_call_iff (a : Adapter) (op : HandleOp) :
    Rejects (a.call h op) a ↔ a.Refuses h op := by
  cases a with
  | native a => exact native_call a op
  | systemd a => rw [systemd_call]; cases op <;> exact Iff.rfl
  | systemdStub => cases op <;> exact iff_of_true (rejects_done _) trivial
  | launchd a => rw [launchd_call]; cases op <;> exact Iff.rfl
  | launchdStub => cases op <;> exact iff_of_true (rejects_done _) trivial
  | container a => exact container_call a op
  | pepita a => exact pepita_call a op
  | wos a => exact wos_call a op

end Core

/-! ## The adapters of the platform crate -/

namespace Platforms

/-- An adapter of the platform crate. -/
inductive Adapter where
  | native (a : Native.NativeAdapter)
  | linux (a : Linux.LinuxAdapter)
  | macOS (a : MacOS.MacOSAdapter)
  | container (a : Container.ContainerAdapter)
  | pepita (a : Pepita.PepitaAdapter)
  | wos (a : WosAdapter)

namespace Adapter

def platform : Adapter → Platform
  | native _ => .native
  | linux _ => .linux
  | macOS _ => .macOS
  | container _ => .container
  | pepita _ => .pepitaMicroVM
  | wos _ => .wos

def signal (sig : Signal) (h : DaemonHandle) : Adapter → Attempt Adapter (Reply TracerHandle)
  | native a => lift native (fun _ => .signalled) (Native.signal a h sig)
  | linux a => lift linux (fun _ => .signalled) (Linux.signal a h sig)
  | macOS a => lift macOS (fun _ => .signalled) (MacOS.signal a h sig)
  | container a => lift container (fun _ => .signalled) (Container.signal a h sig)
  | pepita a => lift pepita (fun _ => .signalled) (Pepita.signal a h sig)
  | wos a => lift wos (fun _ => .signalled) (Wos.signal a h sig)

def status (table : Char → Text) (h : DaemonHandle) :
    Adapter → Attempt Adapter (Reply TracerHandle)
  | native a => lift native .status (Native.status a h)
  | linux a => lift linux .status (Linux.status a h)
  | macOS a => lift macOS .status (MacOS.status a h)
  | container a => lift container .status (Container.status a h)
  | pepita a => lift pepita .status (Pepita.status table a h)
  | wos a => lift wos .status (Wos.status a h)

def attachTracer (h : DaemonHandle) : Adapter → Attempt Adapter (Reply TracerHandle)
  | native a => lift native .tracer (Native.attachTracer a h)
  | linux a => lift linux .tracer (Linux.attachTracer a h)
  | macOS a => lift macOS .tracer (MacOS.attachTracer a h)
  | container a => lift container .tracer (Container.attachTracer a h)
  | pepita a => lift pepita .tracer (Pepita.attachTracer a h)
  | wos a => lift wos .tracer (Wos.attachTracer a h)

def call (table : Char → Text) (a : Adapter) (h : DaemonHandle) :
    HandleOp → Attempt Adapter (Reply TracerHandle)
  | .signal sig => a.signal sig h
  | .status => a.status table h
  | .attachTracer => a.attachTracer h

/-- What the operation looks at refuses the handle: it has no pid, or the platform of
another adapter. -/
def Refuses (h : DaemonHandle) : Adapter → Prop
  | native _ => h.pid = none
  | a => h.platform ≠ a.platform

/-- A handle of another platform is rejected. -/
def RejectsForeign (table : Char → Text) (a : Adapter) (op : HandleOp) (h : DaemonHandle) : Prop :=
  h.platform ≠ a.platform → Rejects (a.call table h op) a

end Adapter

variable {h : DaemonHandle} {table : Char → Text}

theorem native_call (a : Native.NativeAdapter) (op : HandleOp) :
    Rejects ((Adapter.native a).call table h op) (.native a) ↔ h.pid = none := by
  cases op with
  | signal sig =>
    refine guard_iff (.signal "no PID available") (fun hn => ?_) fun pid hp => ?_ <;>
      unfold Native.signal
    · rw [hn]
    · rw [hp]; exact maySucceed_ask (.ok ()) (maySucceed_done _)
  | status =>
    refine guard_iff (.status "no PID available") (fun hn => ?_) fun pid hp => ?_ <;>
      unfold Native.status
    · rw [hn]
    · rw [hp]; exact maySucceed_ask (.ok ()) (maySucceed_done _)
  | attachTracer =>
    refine guard_iff (.tracer "no PID available") (fun hn => ?_) fun pid hp => ?_ <;>
      unfold Native.attachTracer
    · rw [hn]
    · rw [hp]; exact maySucceed_ask (.ok ()) (maySucceed_done _)

theorem rejects_of_platform_ne (a : Adapter) (op : HandleOp) (hn : ∀ b, a ≠ .native b)
    (hp : h.platform ≠ a.platform) : Rejects (a.call table h op) a := by
  cases a with
  | native b => exact absurd rfl (hn b)
  | linux b => cases op <;> exact rejects_if hp
  | macOS b => cases op <;> exact rejects_if hp
  | container b => cases op <;> exact rejects_if hp
  | pepita b => cases op <;> exact rejects_if hp
  | wos b => cases op <;> exact rejects_if hp

theorem rejectsForeign_iff (a : Adapter) (op : HandleOp) :
    a.RejectsForeign table op h ↔ (h.platform ≠ a.platform → a.Refuses h) := by
  unfold Adapter.RejectsForeign
  cases a with
  | native a => rw [native_call]; exact Iff.rfl
  | _ a => exact iff_of_true (rejects_of_platform_ne _ op (by rintro b ⟨⟩)) id

end Platforms

/-- **Foreign handles**: an operation rejects the handles of other platforms exactly where
what it looks at refuses them: the accessors of the handle data or the table in the core,
the platform of the handle or, in the native adapter, its pid in the platform crate. -/
theorem foreign_rejected_iff (table : Char → Text) :
    (∀ (a : Core.Adapter) (op : HandleOp) (h : DaemonHandle),
      a.RejectsForeign op h ↔ (h.platform ≠ a.platform → a.Refuses h op)) ∧
    ∀ (a : Platforms.Adapter) (op : HandleOp) (h : Platforms.DaemonHandle),
      a.RejectsForeign table op h ↔ (h.platform ≠ a.platform → a.Refuses h) :=
  ⟨fun a op _ => imp_congr_right fun _ => Core.rejects_call_iff a op,
    fun a op _ => Platforms.rejectsForeign_iff a op⟩

/-- The WOS adapter signals through the handle of a native process. -/
theorem wos_accepts_native :
    ¬ (Core.Adapter.wos Core.Wos.WosAdapter.new).RejectsForeign (.signal .kill)
      (.native ⟨1⟩ 4242) := by
  intro hr
  have href := (Core.rejects_call_iff _ _).1 (hr (by decide))
  cases href

end Duende
