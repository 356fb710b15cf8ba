import Duende.Core.NativeStatus

/-!
# Handles of the native adapter

The table is keyed by the daemon, while `signal` uses the pid of the handle.
`handles_separate_iff` says when signals, statuses and entries of different processes do not
mix.
-/

namespace Duende.Core.Native

open Trans

/-- A stored child that no `status` found ended and that was sent no SIGKILL. -/
def Proc.Managed (p : Proc) : Prop := p.tracked = true ∧ p.observed = false ∧ p.killed = false

/-- A child that is forked and not yet stored. -/
def Proc.Fresh (p : Proc) : Prop :=
  p.tracked = false ∧ p.observed = false ∧ p.killed = false ∧ p.reaped = false

namespace NativeAdapter

/-- Every managed child is in the table. -/
def Kept (a : NativeAdapter) : Prop :=
  ∀ i < a.count, (a.procs i).Managed → ∃ id, a.processes.lookup id = some i

/-- If `signal` returns `Ok`, every `kill` it ran names the process of the handle alone. -/
def SignalsOnly (a : NativeAdapter) (h : DaemonHandle) (sig : Signal) (k : OsResult) : Prop :=
  (a.signal h sig k).2 = .ok () → ∃ pid news, h.pid = some pid ∧ 0 < pid.toInt32 ∧
    (a.signal h sig k).1.sent = a.sent ++ news ∧ ∀ e ∈ news, e.1 = pid.toInt32

/-- If `status` returns `Ok`, the child it looked at is the managed child that has the pid of
the handle. -/
def ReportsOn (a : NativeAdapter) (h : DaemonHandle) (k : OsResult) : Prop :=
  ∀ s, (a.status h k).2 = .ok s → ∀ i < a.count, (a.procs i).Managed →
    (h.pid = some (a.procs i).pid ↔ a.processes.lookup h.id = some i)

end NativeAdapter

variable {ι : Type}

/-- The call of `signal` an action runs, with the answer of the system. -/
def signalled (c : NConf ι) : NAct ι → Option (DaemonHandle × Signal × OsResult)
  | .step i (.os k) => ((c.pc i).bind Pc.signals).map fun s => (s.1, s.2, k)
  | _ => none

def polled (c : NConf ι) : NAct ι → Option (DaemonHandle × OsResult)
  | .step i (.os k) => ((c.pc i).bind Pc.asks).map fun h => (h, k)
  | _ => none

variable [DecidableEq ι]

/-- The action keeps handles apart. -/
def SeparateStep (c : NConf ι) (a : NAct ι) : Prop :=
  (∀ h sig k, signalled c a = some (h, sig, k) → c.shared.SignalsOnly h sig k) ∧
  (∀ h k, polled c a = some (h, k) → c.shared.ReportsOn h k) ∧
  ∀ c', nativeObj.act c a = some c' → c'.shared.Kept

omit [DecidableEq ι] in
/-- A child is stored only for a daemon that has none. A `kill` that succeeds is given one
process, for a SIGKILL that of the stored child. A status is answered through a handle with
the pid of the child stored for its daemon, and of no other. -/
def OneProcess (c : NConf ι) (a : NAct ι) : Prop :=
  (∀ id, stored c a = some id → c.shared.processes.lookup id = none) ∧
  (∀ h sig pid i, signalled c a = some (h, sig, .ok ()) → h.pid = some pid →
    c.shared.processes.lookup h.id = some i →
    0 < pid.toInt32 ∧ (sig = .kill → (c.shared.procs i).pid = pid)) ∧
  ∀ h k, polled c a = some (h, k) → (c.shared.processes.lookup h.id = none ∨ k = .ok ()) →
    ∀ id i, c.shared.processes.lookup id = some i →
      (h.pid = some (c.shared.procs i).pid ↔ id = h.id)

/-! ## The invariant -/

/-- What holds of the table and the processes. -/
structure TableInv (a : NativeAdapter) : Prop where
  live : ∀ id i, a.processes.lookup id = some i →
    i < a.count ∧ (a.procs i).Managed ∧ (a.procs i).reaped = false
  inj : ∀ id id' i, a.processes.lookup id = some i → a.processes.lookup id' = some i → id = id'
  kept : a.Kept
  unique : ∀ i j, i < a.count → j < a.count → (a.procs i).reaped = false →
    (a.procs j).reaped = false → (a.procs i).pid = (a.procs j).pid → i = j

structure Inv (c : NConf ι) : Prop where
  table : TableInv c.shared
  pending : ∀ t id i, (c.pc t).bind Pc.stores = some (id, i) →
    i < c.shared.count ∧ (c.shared.procs i).Fresh
  apart : ∀ t t' id id' i, (c.pc t).bind Pc.stores = some (id, i) →
    (c.pc t').bind Pc.stores = some (id', i) → t = t'

variable {c c' : NConf ι} {act : NAct ι} {as : List (NAct ι)} {a a' : NativeAdapter}
  {h : DaemonHandle} {id : DaemonId} {i j : Nat} {k : OsResult} {sig : Signal} {raw : Int32}

/-- The table stays as it is, and the processes change in what the invariant does not use. -/
theorem TableInv.frame (hi : TableInv a) (hp : a'.processes = a.processes)
    (hc : a'.count = a.count)
    (hpr : ∀ i < a.count, (a'.procs i).pid = (a.procs i).pid ∧
      ((a'.procs i).Managed ↔ (a.procs i).Managed) ∧
      ((a'.procs i).reaped = false → (a.procs i).reaped = false))
    (hr : ∀ id i, a.processes.lookup id = some i → (a'.procs i).reaped = false) :
    TableInv a' where
  live := by
    intro id i hl
    rw [hp] at hl
    obtain ⟨hlt, hm, -⟩ := hi.live id i hl
    exact ⟨by omega, (hpr i hlt).2.1.2 hm, hr id i hl⟩
  inj := by rw [hp]; exact hi.inj
  kept := by
    intro i hlt hm
    rw [hc] at hlt
    rw [hp]
    exact hi.kept i hlt ((hpr i hlt).2.1.1 hm)
  unique := by
    intro i j hi' hj' hri hrj he
    rw [hc] at hi' hj'
    rw [(hpr i hi').1, (hpr j hj').1] at he
    exact hi.unique i j hi' hj' ((hpr i hi').2.2 hri) ((hpr j hj').2.2 hrj) he

/-- An entry is removed whose child is no longer managed. -/
theorem TableInv.erase (hi : TableInv a) (hl : a.processes.lookup id = some j)
    (hp : a'.processes = a.processes.erase id) (hc : a'.count = a.count)
    (hpr : ∀ i < a.count, i ≠ j → a'.procs i = a.procs i)
    (hj : (a'.procs j).pid = (a.procs j).pid ∧ ¬ (a'.procs j).Managed) : TableInv a' := by
  have hlook : ∀ id' i, a'.processes.lookup id' = some i →
      id' ≠ id ∧ a.processes.lookup id' = some i := by
    intro id' i hl'
    rw [hp] at hl'
    by_cases he : id' = id
    · subst he; rw [Finmap.lookup_erase] at hl'; cases hl'
    · rw [Finmap.lookup_erase_ne he] at hl'; exact ⟨he, hl'⟩
  have hlive : ∀ i < a.count, (a'.procs i).reaped = false →
      (a'.procs i).pid = (a.procs i).pid ∧ (a.procs i).reaped = false := by
    intro i hlt hr
    by_cases he : i = j
    · subst he; exact ⟨hj.1, (hi.live id i hl).2.2⟩
    · rw [hpr i hlt he] at hr ⊢; exact ⟨rfl, hr⟩
  refine ⟨fun id' i hl' => ?_, fun id1 id2 i h1 h2 => ?_, fun i hlt hm => ?_,
    fun i i' hlt hlt' hr hr' he => ?_⟩
  · obtain ⟨hne, hl'⟩ := hlook id' i hl'
    have hij : i ≠ j := by rintro rfl; exact hne (hi.inj id' id i hl' hl)
    have := hi.live id' i hl'
    rw [hc, hpr i this.1 hij]
    exact this
  · exact hi.inj id1 id2 i (hlook id1 i h1).2 (hlook id2 i h2).2
  · rw [hc] at hlt
    have hij : i ≠ j := by rintro rfl; exact hj.2 hm
    rw [hpr i hlt hij] at hm
    obtain ⟨id', hl'⟩ := hi.kept i hlt hm
    refine ⟨id', ?_⟩
    rw [hp, Finmap.lookup_erase_ne, hl']
    rintro rfl
    exact hij (Option.some.inj (hl'.symm.trans hl))
  · rw [hc] at hlt hlt'
    obtain ⟨hp1, hr1⟩ := hlive i hlt hr
    obtain ⟨hp2, hr2⟩ := hlive i' hlt' hr'
    exact hi.unique i i' hlt hlt' hr1 hr2 (by rw [← hp1, ← hp2, he])

theorem TableInv.fork {pid : UInt32} (hi : TableInv a) (hfree : a.PidFree pid) :
    TableInv (a.fork pid) := by
  have hold : ∀ i < a.count, (a.fork pid).procs i = a.procs i := fun i hlt =>
    Function.update_of_ne (by omega) _ _
  have hnew : (a.fork pid).procs a.count = { pid := pid } := Function.update_self ..
  refine ⟨fun id i hl => ?_, hi.inj, fun i hlt hm => ?_, fun i j hlt hlt' hr hr' he => ?_⟩
  · have := hi.live id i hl
    rw [hold i this.1]
    exact ⟨Nat.lt_succ_of_lt this.1, this.2⟩
  · rcases Nat.lt_succ_iff_lt_or_eq.1 hlt with hlt | rfl
    · rw [hold i hlt] at hm; exact hi.kept i hlt hm
    · rw [hnew] at hm; cases hm.1
  · rcases Nat.lt_succ_iff_lt_or_eq.1 hlt with hlt | rfl <;>
      rcases Nat.lt_succ_iff_lt_or_eq.1 hlt' with hlt' | rfl
    · rw [hold i hlt] at hr he
      rw [hold j hlt'] at hr' he
      exact hi.unique i j hlt hlt' hr hr' he
    · rw [hold i hlt] at hr he
      rw [hnew] at he
      exact absurd he (hfree i hlt hr)
    · rw [hold j hlt'] at hr' he
      rw [hnew] at he
      exact absurd he.symm (hfree j hlt' hr')
    · rfl

theorem TableInv.insert (hi : TableInv a) (hl : a.processes.lookup id = none) (hlt : i < a.count)
    (hf : (a.procs i).Fresh) : TableInv (a.insert id i) := by
  have hself : (a.insert id i).processes.lookup id = some i := Finmap.lookup_insert _
  have hother : ∀ id', id' ≠ id →
      (a.insert id i).processes.lookup id' = a.processes.lookup id' :=
    fun id' hne => Finmap.lookup_insert_of_ne _ hne
  have hproc : (a.insert id i).procs i = { a.procs i with tracked := true } :=
    Function.update_self ..
  have hprocs : ∀ j, j ≠ i → (a.insert id i).procs j = a.procs j := fun j hne =>
    Function.update_of_ne hne _ _
  -- the child was in no entry before
  have hnew : ∀ id', a.processes.lookup id' ≠ some i := fun id' he => by
    have := (hi.live id' i he).2.1.1
    rw [hf.1] at this; cases this
  have hflags : ∀ j, ((a.insert id i).procs j).pid = (a.procs j).pid ∧
      ((a.insert id i).procs j).reaped = (a.procs j).reaped := by
    intro j
    by_cases he : j = i
    · subst he; rw [hproc]; exact ⟨rfl, rfl⟩
    · rw [hprocs j he]; exact ⟨rfl, rfl⟩
  refine ⟨fun id' j hl' => ?_, fun id1 id2 j h1 h2 => ?_, fun j hj hm => ?_,
    fun j j' hj hj' hr hr' he => ?_⟩
  · by_cases he : id' = id
    · subst he
      cases hself.symm.trans hl'
      rw [hproc]
      exact ⟨hlt, ⟨rfl, hf.2.1, hf.2.2.1⟩, hf.2.2.2⟩
    · rw [hother id' he] at hl'
      have hji : j ≠ i := by rintro rfl; exact hnew id' hl'
      rw [hprocs j hji]
      exact hi.live id' j hl'
  · by_cases e1 : id1 = id <;> by_cases e2 : id2 = id
    · rw [e1, e2]
    · subst e1
      cases hself.symm.trans h1
      rw [hother id2 e2] at h2
      exact absurd h2 (hnew id2)
    · subst e2
      cases hself.symm.trans h2
      rw [hother id1 e1] at h1
      exact absurd h1 (hnew id1)
    · rw [hother id1 e1] at h1
      rw [hother id2 e2] at h2
      exact hi.inj id1 id2 j h1 h2
  · by_cases he : j = i
    · subst he; exact ⟨id, hself⟩
    · rw [hprocs j he] at hm
      obtain ⟨id', hl'⟩ := hi.kept j hj hm
      refine ⟨id', ?_⟩
      rw [hother id', hl']
      rintro rfl
      rw [hl] at hl'; cases hl'
  · rw [(hflags j).1, (hflags j').1] at he
    exact hi.unique j j' hj hj' ((hflags j).2 ▸ hr) ((hflags j').2 ▸ hr') he

/-! ## What the calls do -/

theorem deliver_of_ne_kill (hs : sig ≠ .kill) : (a.deliver raw sig).procs = a.procs := by
  funext i
  simp [NativeAdapter.deliver, hs]

theorem deliver_unhit (hno : (a.addressed raw (a.procs i) && !(a.procs i).reaped) = false) :
    (a.deliver raw sig).procs i = a.procs i := by
  simp only [NativeAdapter.deliver, Bool.and_assoc, hno, Bool.and_false, Bool.or_false]

/-- A SIGKILL for one process is meant for no other. -/
theorem unhit (hi : TableInv a) (hlt : i < a.count) (hj : j < a.count) (hne : i ≠ j)
    (hr : (a.procs j).reaped = false) (hpos : 0 < (a.procs j).pid.toInt32) :
    (a.addressed (a.procs j).pid.toInt32 (a.procs i) && !(a.procs i).reaped) = false := by
  by_contra hc
  obtain ⟨hadr, hri⟩ : (a.procs i).pid.toInt32 = (a.procs j).pid.toInt32 ∧
      (a.procs i).reaped = false := by
    simpa [NativeAdapter.addressed, hpos] using hc
  have hpid : (a.procs i).pid = (a.procs j).pid := congrArg Int32.toUInt32 hadr
  exact hne (hi.unique i j hlt hj hri hr hpid)

/-- The state after the stored child was killed, through its own pid both times. -/
def killed (a : NativeAdapter) (id : DaemonId) (j : Nat) : NativeAdapter :=
  { (a.deliver (a.procs j).pid.toInt32 .kill).deliver (a.procs j).pid.toInt32 .kill with
    processes := a.processes.erase id }

theorem killed_other (hi : TableInv a) (hl : a.processes.lookup id = some j)
    (hpos : 0 < (a.procs j).pid.toInt32) (hlt : i < a.count) (hne : i ≠ j) :
    (killed a id j).procs i = a.procs i := by
  obtain ⟨hj, -, hr⟩ := hi.live id j hl
  have hno := unhit hi hlt hj hne hr hpos
  have h1 : (a.deliver (a.procs j).pid.toInt32 .kill).procs i = a.procs i := deliver_unhit hno
  exact (deliver_unhit (by rw [h1]; exact hno)).trans h1

theorem TableInv.killed (hi : TableInv a) (hl : a.processes.lookup id = some j)
    (hpos : 0 < (a.procs j).pid.toInt32) : TableInv (killed a id j) := by
  obtain ⟨-, -, hr⟩ := hi.live id j hl
  refine hi.erase hl rfl rfl (fun i hlt hne => killed_other hi hl hpos hlt hne) ⟨rfl, fun hm => ?_⟩
  have hk : ((Native.killed a id j).procs j).killed = true := by
    simp [Native.killed, NativeAdapter.deliver, NativeAdapter.addressed, hpos, hr]
  rw [hm.2.2] at hk
  cases hk

theorem TableInv.remove {e : ExitStatus} (hi : TableInv a) (hl : a.processes.lookup h.id = some j) :
    TableInv (a.remove h j e) := by
  have hself : (a.remove h j e).procs j = { a.procs j with observed := true, reaped := true } :=
    Function.update_self ..
  refine hi.erase hl rfl rfl (fun i _ hne => Function.update_of_ne hne _ _) ⟨?_, fun hm => ?_⟩
  · rw [hself]
  · rw [hself] at hm; cases hm.2.1

/-- What the table uses of one process stays as it is, but for a reaped child in no entry. -/
theorem TableInv.set {p : Proc} (hi : TableInv a) (hpid : p.pid = (a.procs i).pid)
    (hm : p.Managed ↔ (a.procs i).Managed)
    (hr : p.reaped = (a.procs i).reaped ∨ (p.reaped = true ∧ Dropped a i)) :
    TableInv (a.set i p) := by
  have hself : (a.set i p).procs i = p := Function.update_self ..
  have hother : ∀ j, j ≠ i → (a.set i p).procs j = a.procs j := fun j hne =>
    Function.update_of_ne hne _ _
  refine hi.frame rfl rfl (fun j _ => ?_) (fun id j hl => ?_)
  · by_cases he : j = i
    · subst he
      rw [hself]
      refine ⟨hpid, hm, fun hf => ?_⟩
      rcases hr with hr | ⟨hr, -⟩
      · rw [← hr]; exact hf
      · rw [hr] at hf; cases hf
    · rw [hother j he]
      exact ⟨rfl, Iff.rfl, fun hf => hf⟩
  · by_cases he : j = i
    · subst he
      rcases hr with hr | ⟨-, hd⟩
      · rw [hself, hr]; exact (hi.live id j hl).2.2
      · exact absurd hl (hd id (Finmap.mem_of_lookup_eq_some hl))
    · rw [hother j he]; exact (hi.live id j hl).2.2

theorem TableInv.env {e : Env} (hi : TableInv a) (he : env a e = some a') : TableInv a' := by
  rcases env_cases he with ⟨i, e, rfl⟩ | ⟨i, -, hd, rfl⟩
  · exact hi.set rfl Iff.rfl (.inl rfl)
  · exact hi.set rfl Iff.rfl (.inr ⟨rfl, hd⟩)

/-! ## The steps -/

theorem TableInv.fresh_ne (hi : TableInv a) (hl : a.processes.lookup id = some j)
    (hf : (a.procs i).Fresh) : i ≠ j := by
  rintro rfl
  have := (hi.live id i hl).2.1.1
  rw [hf.1] at this; cases this

/-- A caller moves to a point where it stores nothing; the other callers' children stay
fresh. -/
theorem Inv.move {t : ι} {q : Option Pc} (hi : Inv c) (ht : TableInv a')
    (hq : q.bind Pc.stores = none)
    (hp : ∀ i < c.shared.count, (c.shared.procs i).Fresh →
      (∀ id, (c.pc t).bind Pc.stores ≠ some (id, i)) → i < a'.count ∧ (a'.procs i).Fresh) :
    Inv ⟨a', Function.update c.pc t q⟩ := by
  have hpc : ∀ t' x, (Function.update c.pc t q t').bind Pc.stores = some x →
      t' ≠ t ∧ (c.pc t').bind Pc.stores = some x := by
    intro t' x hx
    by_cases he : t' = t
    · subst he; rw [Function.update_self, hq] at hx; cases hx
    · rw [Function.update_of_ne he] at hx; exact ⟨he, hx⟩
  refine ⟨ht, fun t' id i hx => ?_, fun t1 t2 id1 id2 i h1 h2 => ?_⟩
  · obtain ⟨hne, hx⟩ := hpc t' _ hx
    obtain ⟨hlt, hf⟩ := hi.pending t' id i hx
    exact hp i hlt hf fun id' hx' => hne (hi.apart t' t id id' i hx hx')
  · exact hi.apart t1 t2 id1 id2 i (hpc t1 _ h1).2 (hpc t2 _ h2).2

theorem Inv.fork {t : ι} {pid : UInt32} (hi : Inv c) (hfree : c.shared.PidFree pid) :
    Inv ⟨c.shared.fork pid, Function.update c.pc t (some (.insert id c.shared.count pid))⟩ := by
  have hpc : ∀ t' id' i,
      (Function.update c.pc t (some (.insert id c.shared.count pid)) t').bind Pc.stores =
        some (id', i) →
      (t' = t ∧ i = c.shared.count) ∨ (t' ≠ t ∧ (c.pc t').bind Pc.stores = some (id', i)) := by
    intro t' id' i hx
    by_cases he : t' = t
    · subst he; rw [Function.update_self] at hx; cases hx; exact .inl ⟨rfl, rfl⟩
    · rw [Function.update_of_ne he] at hx; exact .inr ⟨he, hx⟩
  refine ⟨hi.table.fork hfree, fun t' id' i hx => ?_, fun t1 t2 id1 id2 i h1 h2 => ?_⟩
  · rcases hpc t' id' i hx with ⟨-, rfl⟩ | ⟨-, hx⟩
    · refine ⟨Nat.lt_succ_self _, ?_⟩
      rw [show (c.shared.fork pid).procs c.shared.count = { pid := pid } from
        Function.update_self ..]
      exact ⟨rfl, rfl, rfl, rfl⟩
    · obtain ⟨hlt, hf⟩ := hi.pending t' id' i hx
      refine ⟨Nat.lt_succ_of_lt hlt, ?_⟩
      rw [show (c.shared.fork pid).procs i = c.shared.procs i from
        Function.update_of_ne (by omega) _ _]
      exact hf
  · rcases hpc t1 id1 i h1 with ⟨e1, he⟩ | ⟨-, g1⟩ <;>
      rcases hpc t2 id2 i h2 with ⟨e2, he'⟩ | ⟨-, g2⟩
    · rw [e1, e2]
    · have := (hi.pending t2 id2 i g2).1; omega
    · have := (hi.pending t1 id1 i g1).1; omega
    · exact hi.apart t1 t2 id1 id2 i g1 g2

omit [DecidableEq ι] in
theorem stored_eq {t : ι} {p : Pc} {k : Answer} (hp : c.pc t = some p) :
    stored c (.step t k) = p.stores.map Prod.fst := by
  simp only [stored, hp, Option.bind_some]

omit [DecidableEq ι] in
theorem signalled_eq {t : ι} {p : Pc} (hp : c.pc t = some p) (hs : p.signals = some (h, sig)) :
    signalled c (.step t (.os k)) = some (h, sig, k) := by
  simp only [signalled, hp, Option.bind_some, hs, Option.map_some]

/-- **Step lemma.** -/
theorem Inv.step (hi : Inv c) (ho : OneProcess c act) (hs : nativeObj.act c act = some c') :
    Inv c' := by
  rcases Obj.act_cases hs with ⟨t, o, rfl, hpc, rfl⟩ | ⟨t, k, p, a', q, rfl, hp, hx, rfl⟩ |
    ⟨e, a', rfl, he, rfl⟩
  · exact hi.move hi.table (by cases o <;> rfl) fun i hlt hf _ => ⟨hlt, hf⟩
  · rcases exec_cases hx with ⟨id, pid, rfl, hfree, rfl, rfl⟩ | ⟨id, j, pid, rfl, rfl, hq⟩ |
      ⟨h, sig, k, hsig, -, rfl, rfl, hq⟩ | ⟨h, k, hasks, -, rfl, rfl, hq⟩ | ⟨-, -, -, rfl, hq⟩
    · exact hi.fork hfree
    · have hst : (c.pc t).bind Pc.stores = some (id, j) := by rw [hp]; rfl
      obtain ⟨hlt, hf⟩ := hi.pending t id j hst
      have hl := ho.1 id (by rw [stored_eq hp]; rfl)
      refine hi.move (hi.table.insert hl hlt hf) (by rw [hq]; rfl) fun i hlt' hf' hne => ⟨hlt', ?_⟩
      have hij : i ≠ j := by rintro rfl; exact hne id hst
      rw [show (c.shared.insert id j).procs i = c.shared.procs i from Function.update_of_ne hij _ _]
      exact hf'
    · rcases signal_cases c.shared h sig k with
        ⟨e, hx⟩ | ⟨j, pid, hl, hpid, rfl, ⟨hne, hx⟩ | ⟨rfl, hx⟩⟩ <;> rw [hx]
      · exact hi.move hi.table hq fun i hlt hf _ => ⟨hlt, hf⟩
      · have hprocs : (c.shared.deliver pid.toInt32 sig).procs = c.shared.procs :=
          deliver_of_ne_kill hne
        refine hi.move (hi.table.frame rfl rfl (fun i _ => ?_) fun id i hl => ?_) hq
          fun i hlt hf _ => ⟨hlt, ?_⟩
        · rw [hprocs]; exact ⟨rfl, Iff.rfl, fun hr => hr⟩
        · rw [hprocs]; exact (hi.table.live id i hl).2.2
        · rw [hprocs]; exact hf
      · obtain ⟨hpos, hj⟩ := ho.2.1 h .kill pid j (signalled_eq hp hsig) hpid hl
        obtain rfl := hj rfl
        refine hi.move (hi.table.killed hl hpos) hq fun i hlt hf _ => ⟨hlt, ?_⟩
        have hij := hi.table.fresh_ne hl hf
        rw [← killed_other hi.table hl hpos hlt hij] at hf
        exact hf
    · rcases status_cases c.shared h k with
        ⟨-, hx⟩ | ⟨j, hl, ⟨e, -, hx⟩ | ⟨-, -, hx⟩ | ⟨e, -, -, hx⟩⟩ <;> rw [hx]
      · exact hi.move hi.table hq fun i hlt hf _ => ⟨hlt, hf⟩
      · exact hi.move hi.table hq fun i hlt hf _ => ⟨hlt, hf⟩
      · exact hi.move hi.table hq fun i hlt hf _ => ⟨hlt, hf⟩
      · refine hi.move (hi.table.remove hl) hq fun i hlt hf _ => ⟨hlt, ?_⟩
        have hij := hi.table.fresh_ne hl hf
        rw [show (c.shared.remove h j e).procs i = c.shared.procs i from
          Function.update_of_ne hij _ _]
        exact hf
    · exact hi.move hi.table hq fun i hlt hf _ => ⟨hlt, hf⟩
  · refine ⟨hi.table.env he, fun t id i hx => ?_, hi.apart⟩
    obtain ⟨hlt, hf⟩ := hi.pending t id i hx
    rcases env_cases he with ⟨j, e, rfl⟩ | ⟨j, htr, -, rfl⟩
    · refine ⟨hlt, ?_⟩
      by_cases hij : i = j
      · subst hij
        rw [show (c.shared.set i _).procs i = _ from Function.update_self ..]
        exact hf
      · rw [show (c.shared.set j _).procs i = _ from Function.update_of_ne hij _ _]
        exact hf
    · refine ⟨hlt, ?_⟩
      have hij : i ≠ j := by
        rintro rfl
        rw [hf.1] at htr; cases htr
      rw [show (c.shared.set j _).procs i = _ from Function.update_of_ne hij _ _]
      exact hf

omit [DecidableEq ι] in
theorem Inv.init (group : Int32) : Inv (Obj.init (NativeAdapter.new group) : NConf ι) where
  table :=
    { live := fun _ _ hl => nomatch hl
      inj := fun _ _ _ hl => nomatch hl
      kept := fun _ hlt => absurd hlt (Nat.not_lt_zero _)
      unique := fun _ _ hlt => absurd hlt (Nat.not_lt_zero _) }
  pending := fun _ _ _ hx => nomatch hx
  apart := fun _ _ _ _ _ hx => nomatch hx

/-! ## The exact condition -/

theorem Inv.separate (hi : Inv c) (ho : OneProcess c act) : SeparateStep c act := by
  refine ⟨fun h sig k hsig hok => ?_, fun h k hpoll s hok i hlt hm => ?_,
    fun c' hs => (hi.step ho hs).table.kept⟩
  · rcases signal_cases c.shared h sig k with
      ⟨e, hx⟩ | ⟨j, pid, hl, hpid, rfl, ⟨hne, hx⟩ | ⟨rfl, hx⟩⟩ <;> rw [hx] at hok ⊢
    · cases hok
    · obtain ⟨hpos, -⟩ := ho.2.1 h sig pid j hsig hpid hl
      exact ⟨pid, [(pid.toInt32, sig)], hpid, hpos, rfl, by simp⟩
    · obtain ⟨hpos, hj⟩ := ho.2.1 h .kill pid j hsig hpid hl
      refine ⟨pid, [(pid.toInt32, .kill), ((c.shared.procs j).pid.toInt32, .kill)], hpid, hpos,
        by simp [NativeAdapter.deliver], ?_⟩
      simp [hj rfl]
  · have hans : c.shared.processes.lookup h.id = none ∨ k = .ok () := by
      rcases status_cases c.shared h k with
        ⟨hl, -⟩ | ⟨j, -, ⟨e, -, hx⟩ | ⟨hk, -, -⟩ | ⟨e, hk, -, -⟩⟩
      · exact .inl hl
      · rw [hx] at hok; cases hok
      · exact .inr hk
      · exact .inr hk
    obtain ⟨id, hl⟩ := hi.table.kept i hlt hm
    rw [ho.2.2 h k hpoll hans id i hl]
    constructor
    · rintro rfl; exact hl
    · intro hl'; exact hi.table.inj id h.id i hl hl'

theorem Inv.oneProcess (hi : Inv c) (hsep : SeparateStep c act) : OneProcess c act := by
  refine ⟨fun id hst => ?_, fun h sig pid j hsig hpid hl => ?_, fun h k hpoll hans id j hl => ?_⟩
  · -- a child that is replaced stays managed and is in no entry
    cases act with
    | call t o => cases hst
    | env e => cases hst
    | step t k =>
      cases hp : c.pc t with
      | none => simp [stored, hp] at hst
      | some p =>
        rw [stored_eq hp, Option.map_eq_some_iff] at hst
        obtain ⟨⟨id', i⟩, hst, rfl⟩ := hst
        obtain ⟨pid, rfl⟩ : ∃ pid, p = .insert id' i pid := by
          cases p <;> cases hst; exact ⟨_, rfl⟩
        cases hl : c.shared.processes.lookup id' with
        | none => rfl
        | some j =>
          have hf := (hi.pending t id' i (by rw [hp]; rfl)).2
          have hne := hi.table.fresh_ne hl hf
          obtain ⟨hlt, hm, -⟩ := hi.table.live id' j hl
          have hk := hsep.2.2 ⟨c.shared.insert id' i, _⟩ (Obj.act_step.2 ⟨_, _, _, hp, rfl, rfl⟩)
          obtain ⟨id, hl'⟩ := hk j hlt (by
            rw [show (c.shared.insert id' i).procs j = c.shared.procs j from
              Function.update_of_ne hne.symm _ _]
            exact hm)
          by_cases he : id = id'
          · subst he
            rw [show (c.shared.insert id i).processes.lookup id = some i from
              Finmap.lookup_insert _] at hl'
            exact absurd (Option.some.inj hl') hne
          · rw [show (c.shared.insert id' i).processes.lookup id = c.shared.processes.lookup id from
              Finmap.lookup_insert_of_ne _ he] at hl'
            exact absurd (hi.table.inj id id' j hl' hl) he
  · have hone := hsep.1 h sig (.ok ()) hsig
    rcases signal_cases c.shared h sig (.ok ()) with
      ⟨e, hx⟩ | ⟨j', pid', hl', hpid', -, ⟨hne, hx⟩ | ⟨rfl, hx⟩⟩
    · have hok := congrArg Prod.snd hx
      simp only [NativeAdapter.signal, hl, hpid] at hok
      split at hok <;> cases hok
    · obtain ⟨pid1, news, hpid1, hpos, -, -⟩ := hone (by rw [hx])
      cases hpid.symm.trans hpid1
      exact ⟨hpos, fun hs => absurd hs hne⟩
    · cases hl.symm.trans hl'
      cases hpid.symm.trans hpid'
      obtain ⟨pid1, news, hpid1, hpos, hsent, hnews⟩ := hone (by rw [hx])
      cases hpid.symm.trans hpid1
      rw [hx] at hsent
      simp only [NativeAdapter.deliver, List.append_assoc, List.append_cancel_left_eq] at hsent
      subst hsent
      refine ⟨hpos, fun _ => ?_⟩
      exact congrArg Int32.toUInt32 (hnews ((c.shared.procs j).pid.toInt32, .kill) (by simp))
  · obtain ⟨s, hok⟩ : ∃ s, (c.shared.status h k).2 = .ok s := by
      rcases status_cases c.shared h k with
        ⟨-, hx⟩ | ⟨i, hl', ⟨e, rfl, -⟩ | ⟨-, -, hx⟩ | ⟨e, -, -, hx⟩⟩
      · exact ⟨_, by rw [hx]⟩
      · rcases hans with hn | hk
        · rw [hn] at hl'; cases hl'
        · cases hk
      · exact ⟨_, by rw [hx]⟩
      · exact ⟨_, by rw [hx]⟩
    obtain ⟨hlt, hm, -⟩ := hi.table.live id j hl
    rw [hsep.2.1 h k hpoll s hok j hlt hm]
    constructor
    · intro hl'; exact hi.table.inj id h.id j hl hl'
    · rintro rfl; exact hl

/-- **Handles stay separate** in a run exactly when every step of it keeps to one process. -/
theorem handles_separate_iff (group : Int32) :
    Meets nativeObj.act SeparateStep (Obj.init (NativeAdapter.new group)) as ↔
      Meets nativeObj.act OneProcess (Obj.init (NativeAdapter.new group)) as :=
  ⟨Meets.imp_inv (P := Inv) (fun _ _ _ hi (hsep : SeparateStep _ _) hs =>
        hi.step (hi.oneProcess hsep) hs) (fun _ _ hi hsep => hi.oneProcess hsep) (.init group),
    Meets.imp_inv (P := Inv) (fun _ _ _ hi (ho : OneProcess _ _) hs => hi.step ho hs)
      (fun _ _ hi ho => hi.separate ho) (.init group)⟩

/-- A daemon is spawned as process 7 and, under the same id, as process 8. -/
def respawned : List (NAct Unit) :=
  [.call () (.spawn ⟨1⟩), .step () (.forked 7), .step () (.os (.ok ())),
    .call () (.spawn ⟨1⟩), .step () (.forked 8), .step () (.os (.ok ()))]

/-- Process 7 still runs and is in no entry. -/
theorem respawn_drops :
    ¬ Meets nativeObj.act SeparateStep (Obj.init (NativeAdapter.new 5)) respawned := by
  intro hm
  have hsep := meets_iff.1 hm (respawned.take 5) (.step () (.os (.ok ()))) [] _ rfl rfl
  obtain ⟨id, hl⟩ := hsep.2.2 _ rfl 0 (by decide) ⟨rfl, rfl, rfl⟩
  by_cases he : id = ⟨1⟩
  · subst he; cases hl
  · have hl1 := (Finmap.lookup_insert_of_ne _ he).symm.trans hl
    have hl2 := (Finmap.lookup_insert_of_ne _ he).symm.trans hl1
    cases hl2

end Duende.Core.Native
