import Duende.Core.Manager
import Duende.Trans.Run

/-!
# The lifecycle of a daemon

`DaemonStatus.edge` is the state machine documented on `DaemonStatus`. `update_status`
stores whatever it is given, so `lifecycle_iff` says that a run keeps to the state machine
exactly when its callers do.
-/

namespace Duende

/-- The transitions of the documented state machine. -/
def DaemonStatus.edge : DaemonStatus → DaemonStatus → Bool
  | created, starting => true
  | starting, running => true
  | running, paused | paused, running => true
  | running, stopping | paused, stopping => true
  | stopping, stopped => true
  | starting, failed _ | running, failed _ | paused, failed _ | stopping, failed _ => true
  | _, _ => false

namespace DaemonStatus

variable {s t : DaemonStatus}

theorem edge_terminal (h : s.isTerminal = true) : s.edge t = false := by
  cases s <;> simp [isTerminal] at h <;> rfl

theorem edge_created : s.edge created = false := by cases s <;> rfl

end DaemonStatus

namespace Core

open Trans

/-! ## Runs of the manager -/

/-- What happens to a manager, one call after the other: its own calls, and signals that the
contexts receive. -/
inductive Call where
  | job (j : Job) (order : List DaemonId)
  | shutdownAll (ids : List DaemonId)
  | recv (c : ChanId)
  deriving DecidableEq

namespace World

/-- The state after a call; `none` when the call waits, or could not list these ids. -/
def call (w : World) : Call → Option World
  | .job j order => (w.eval order j).map Prod.fst
  | .shutdownAll ids => if w.Listing ids then some (w.shutdownAll ids).1.world else none
  | .recv c => some (w.setChan c (w.chans c).tryRecv.1)

variable {w w' w1 w2 : World} {id : DaemonId} {d d' : ManagedDaemon} {c : Call}

theorem signalAll_daemons : ∀ {ids : List DaemonId} {w : World},
    (w.signalAll ids).world.daemons = w.daemons
  | [], _ => rfl
  | e :: ids, w => by
    unfold signalAll
    split
    · rfl
    · rename_i w' r hx
      have hx' : w.eval [] (.signal e .term) = some (w', r) := hx
      refine signalAll_daemons.trans ?_
      cases effect_of_eval hx' with
      | failed => rfl
      | signalled _ _ _ same => exact same
      | read _ _ query => rcases query with h | h <;> cases h

end World

def Call.asks (id : DaemonId) : Call → Option DaemonStatus
  | .job (.entry id' (.updateStatus s)) _ => if id' = id then some s else none
  | _ => none

def Call.unregisters (id : DaemonId) : Call → Bool
  | .job (.unregister id') _ => id' = id
  | _ => false

namespace World

variable {w w' w1 w2 : World} {id : DaemonId} {d d' : ManagedDaemon} {c : Call} {as : List Call}

/-- Of the calls on one entry, `update_status` alone sets its status. -/
theorem body_status {o : EntryOp} : (o.body d).1.status =
    match o with
    | .updateStatus s => s
    | _ => d.status := by
  cases o <;> rfl

/-- **What a call does to the status of a daemon** that it does not unregister. -/
theorem call_status (h : w.call c = some w') (hd : w.daemons.lookup id = some d)
    (hu : c.unregisters id = false) :
    ∃ d', w'.daemons.lookup id = some d' ∧ d'.status = (c.asks id).getD d.status := by
  cases c with
  | shutdownAll ids =>
    simp only [call, Option.ite_none_right_eq_some] at h
    cases h.2
    exact ⟨d, by simpa [shutdownAll, signalAll_daemons] using hd, rfl⟩
  | recv c => cases h; exact ⟨d, hd, rfl⟩
  | job j order =>
    obtain ⟨⟨w', r⟩, hx, rfl⟩ := Option.map_eq_some_iff.1 h
    cases effect_of_eval hx with
    | failed j e why =>
      refine ⟨d, hd, ?_⟩
      cases j with
      | entry id' o =>
        have hne : id' ≠ id := by rintro rfl; rw [why] at hd; cases hd
        cases o <;> simp [Call.asks, hne]
      | _ => rfl
    | registered id' name policy absent =>
      have hne : id ≠ id' := by rintro rfl; rw [absent] at hd; cases hd
      exact ⟨d, by simpa [Finmap.lookup_insert_of_ne _ hne] using hd, rfl⟩
    | unregistered id' =>
      have hne : id ≠ id' := by rintro rfl; simp [Call.unregisters] at hu
      exact ⟨d, by simpa [Finmap.lookup_erase_ne hne] using hd, rfl⟩
    | entry id' o d' found =>
      by_cases he : id = id'
      · subst he
        cases hd.symm.trans found
        refine ⟨_, Finmap.lookup_insert _, ?_⟩
        rw [body_status]
        cases o <;> simp [Call.asks]
      · refine ⟨d, by simpa [Finmap.lookup_insert_of_ne _ he] using hd, ?_⟩
        cases o <;> simp [Call.asks, Ne.symm he]
    | signalled id' sig _ same => exact ⟨d, by rw [same]; exact hd, rfl⟩
    | read j v query => rcases query with rfl | rfl <;> exact ⟨d, hd, rfl⟩

/-- The status a daemon has after a call is the one it had, or the one asked for. -/
theorem call_status_eq (h : w.call c = some w') (hd : w.daemons.lookup id = some d)
    (hd' : w'.daemons.lookup id = some d') : d'.status = (c.asks id).getD d.status := by
  cases hu : c.unregisters id with
  | false =>
    obtain ⟨d1, h1, hs⟩ := call_status h hd hu
    cases h1.symm.trans hd'; exact hs
  | true =>
    -- the call fails, or the daemon is gone afterwards
    cases c with
    | job j order =>
      obtain ⟨⟨w', r⟩, hx, rfl⟩ := Option.map_eq_some_iff.1 h
      cases effect_of_eval hx with
      | failed j e why =>
        cases hd.symm.trans hd'
        cases j <;> first | rfl | cases hu
      | unregistered id' =>
        have : id' = id := by simpa [Call.unregisters] using hu
        subst this
        simp at hd'
      | read j v query => rcases query with rfl | rfl <;> cases hu
      | _ => simp [Call.unregisters] at hu
    | _ => cases hu

/-! ## Runs that keep to the state machine -/

/-- A call that asks for a transition of the state machine, or for the status the daemon
has. -/
def Asks (w : World) (c : Call) : Prop :=
  ∀ id d s, w.daemons.lookup id = some d → c.asks id = some s →
    s = d.status ∨ d.status.edge s = true

/-- A call that changes the status of no daemon but along an edge. -/
def Steps (w : World) (c : Call) : Prop :=
  ∀ w', w.call c = some w' → ∀ id d d', w.daemons.lookup id = some d →
    w'.daemons.lookup id = some d' → d'.status = d.status ∨ d.status.edge d'.status = true

/-- What the state machine says about a run: every change of a status is an edge, and
between two points of the run between which a daemon stays registered a terminal status is
not left and `Created` not entered. -/
structure Lawful (w : World) (as : List Call) : Prop where
  edges : Meets call Steps w as
  stays : ∀ pre mid post w1 w2 id d d', as = pre ++ (mid ++ post) → run call w pre = some w1 →
    run call w1 mid = some w2 → (∀ c ∈ mid, c.unregisters id = false) →
    w1.daemons.lookup id = some d → w2.daemons.lookup id = some d' →
    (d.status.isTerminal = true → d'.status = d.status) ∧
      (d'.status = .created → d.status = .created)

theorem steps_iff_asks : Steps w c ↔ Asks w c := by
  constructor
  · intro h id d s hd hs
    cases c with
    | job j order =>
      cases j with
      | entry id' o =>
        have hx : w.call (.job (.entry id' o) order) = some (w.entry id' o).1 := rfl
        obtain ⟨d', hd', hst⟩ := call_status hx hd rfl
        have := h _ hx id d d' hd hd'
        rwa [hst, hs] at this
      | _ => cases hs
    | _ => cases hs
  · intro h w' hx id d d' hd hd'
    have hst := call_status_eq hx hd hd'
    cases hs : c.asks id with
    | none => rw [hs] at hst; exact .inl hst
    | some s => rw [hs] at hst; rw [hst]; exact h id d s hd hs

/-- A daemon that stays registered keeps a terminal status, and does not become created,
when nobody asks for what is not an edge. -/
theorem stays_of_asks (hm : Meets call Asks w1 as)
    (hu : ∀ c ∈ as, c.unregisters id = false) (hr : run call w1 as = some w2)
    (hd : w1.daemons.lookup id = some d) :
    ∃ d', w2.daemons.lookup id = some d' ∧
      (d.status.isTerminal = true → d'.status = d.status) ∧
      (d'.status = .created → d.status = .created) := by
  have hboth : Meets call (fun w c => Asks w c ∧ c.unregisters id = false) w1 as :=
    meets_iff.2 fun pre c post w has hpre =>
      ⟨meets_iff.1 hm pre c post w has hpre, hu c (by rw [has]; simp)⟩
  refine Meets.run_inv (P := fun w : World => ∃ d', w.daemons.lookup id = some d' ∧
      (d.status.isTerminal = true → d'.status = d.status) ∧
      (d'.status = .created → d.status = .created))
    (fun w c w' hp hC hx => ?_) hboth ⟨d, hd, fun _ => rfl, fun h => h⟩ hr
  obtain ⟨d1, h1, hterm, hcre⟩ := hp
  obtain ⟨d', hd', hst⟩ := call_status hx h1 hC.2
  refine ⟨d', hd', ?_⟩
  cases hs : c.asks id with
  | none =>
    rw [hs] at hst
    exact ⟨fun ht => hst.trans (hterm ht), fun hc => hcre (hst.symm.trans hc)⟩
  | some s =>
    rw [hs, Option.getD_some] at hst
    rcases hC.1 id d1 s h1 hs with he | he
    · exact ⟨fun ht => (hst.trans he).trans (hterm ht), fun hc => hcre (he.symm.trans (hst.symm.trans hc))⟩
    · refine ⟨fun ht => ?_, fun hc => ?_⟩
      · rw [DaemonStatus.edge_terminal (by rw [hterm ht]; exact ht)] at he; cases he
      · rw [← hst, hc, DaemonStatus.edge_created] at he; cases he

/-- **The lifecycle of every daemon**: a run keeps to the documented state machine exactly
when every `update_status` call asks for an edge of it. -/
theorem lifecycle_iff : Lawful w as ↔ Meets call Asks w as := by
  have hsteps : Meets call Steps w as ↔ Meets call Asks w as := by
    have : (Steps : World → Call → Prop) = Asks := by
      funext w c; exact propext steps_iff_asks
    rw [this]
  refine ⟨fun h => hsteps.1 h.edges, fun h => ⟨hsteps.2 h, ?_⟩⟩
  rintro pre mid post w1 w2 id d d' rfl hpre hmid hu hd hd'
  have hm := (Meets.append ((Meets.append h).2 w1 hpre)).1
  obtain ⟨d2, h2, hlaw⟩ := stays_of_asks hm hu hmid hd
  cases h2.symm.trans hd'
  exact hlaw

def empty : World := ⟨∅, fun _ => .new⟩

/-- A daemon is registered and said to have stopped. -/
def registerStopped : List Call :=
  [.job (.register ⟨1⟩ "daemon" .never) [], .job (.entry ⟨1⟩ (.updateStatus .stopped)) []]

/-- Said to run, it runs again. -/
theorem stopped_runs_again : ¬ Lawful empty
    (registerStopped ++ [.job (.entry ⟨1⟩ (.updateStatus .running)) []]) := by
  intro h
  have hlaw := h.stays registerStopped [.job (.entry ⟨1⟩ (.updateStatus .running)) []] [] _ _ ⟨1⟩ _ _
    rfl rfl rfl (by simp [Call.unregisters]) rfl rfl
  exact absurd (hlaw.1 rfl) (by decide)

end World

end Core

end Duende
