import Duende.Core.Pepita
import Duende.Platform.Pepita
import Duende.Trans.Ticket

/-!
# Process ids and CIDs

The WOS adapters of the platform crate take pids from one counter, and the pepita adapters of
each crate take CIDs from another. `allocation_iff` says how many of each a process may hand
out before one is reserved or names a process that is still in its table.
-/

namespace Duende.Platforms

open Trans

/-! ## Spawning in the WOS adapter -/

/-- The settings of a WOS adapter that spawning reads. -/
structure WosSettings where
  defaultPriority : Priority := .normal
  memoryLimit : UInt64 := 64 * 1024 * 1024
  deriving DecidableEq

/-- Map the CPU quota to a process priority. -/
def configToPriority (config : DaemonConfig) : Priority :=
  let quota := config.resources.cpuQuotaPercent
  if (F64.finite 90).le quota then .realTime
  else if (F64.finite 75).le quota then .veryHigh
  else if (F64.finite 60).le quota then .high
  else if (F64.finite 45).le quota then .aboveNormal
  else if (F64.finite 30).le quota then .normal
  else if (F64.finite 15).le quota then .belowNormal
  else if (F64.finite 0).lt quota then .low
  else .normal

def processInfo (s : WosSettings) (name : Text) (pid : UInt32) : ProcessInfo :=
  let config := DaemonConfig.new name (.ofText "/wasm/daemon.wasm".toList)
  let priority :=
    if (F64.finite 0).lt config.resources.cpuQuotaPercent then configToPriority config
    else s.defaultPriority
  let memoryLimit :=
    if 0 < config.resources.memoryBytes then config.resources.memoryBytes else s.memoryLimit
  { pid := pid
    name := String.ofList name
    state := .running
    priority := priority
    basePriority := priority
    parentPid := 1
    memoryLimit := memoryLimit }

def DaemonHandle.wos (pid : UInt32) : DaemonHandle := ⟨.wos, decimal pid.toNat, some pid⟩

/-- The pid counter of the process, and the tables of its adapters. `allocated` counts the
allocations; the code does not see it. -/
structure WosWorld (κ : Type*) where
  nextPid : UInt32
  allocated : Nat
  tables : κ → WosAdapter

def WosWorld.new {κ : Type*} : WosWorld κ where
  nextPid := 2
  allocated := 0
  tables := fun _ => ⟨∅⟩

inductive WosOp (κ : Type*) where
  | spawn (adapter : κ) (name : Text)
  | other (adapter : κ) (o : Op)

inductive WosPc (κ : Type*) where
  | allocatePid (adapter : κ) (name : Text)
  | insert (adapter : κ) (info : ProcessInfo)
  | other (adapter : κ) (p : Pc)

inductive WosRes where
  | spawned (h : DaemonHandle)
  | other (r : Res)

variable {κ : Type*} [DecidableEq κ]

def execWos (settings : κ → WosSettings) (w : WosWorld κ) :
    WosPc κ → WosWorld κ × (WosPc κ ⊕ WosRes)
  | .allocatePid a name =>
    ({ w with nextPid := w.nextPid + 1, allocated := w.allocated + 1 },
      .inl (.insert a (processInfo (settings a) name w.nextPid)))
  | .insert a info =>
    ({ w with tables :=
        Function.update w.tables a ⟨(w.tables a).processes.insert info.pid info⟩ },
      .inr (.spawned (.wos info.pid)))
  | .other a p =>
    ({ w with tables := Function.update w.tables a (exec (w.tables a) p).1 },
      match (exec (w.tables a) p).2 with
      | .inl p => .inl (.other a p)
      | .inr r => .inr (.other r))

/-- All WOS adapters of the process as one object; no step waits. -/
def spawnObj (settings : κ → WosSettings) :
    Obj (WosWorld κ) (WosPc κ) (WosOp κ) WosRes Unit Empty where
  start
    | .spawn a name => .allocatePid a name
    | .other a (.signal h sig) => .other a (.apply h sig)
    | .other a (.status h) => .other a (.status h)
  exec w p _ := some (execWos settings w p)
  env _ e := nomatch e

abbrev SpawnConf (ι κ : Type*) := Conf ι (WosWorld κ) (WosPc κ)

abbrev SpawnAct (ι κ : Type*) := Act ι (WosOp κ) Unit Empty

section Wos

variable {ι : Type*} [DecidableEq ι] {settings : κ → WosSettings} {w w' : WosWorld κ}
  {p : WosPc κ} {q : WosPc κ ⊕ WosRes} {c c' : SpawnConf ι κ} {a : SpawnAct ι κ}
  {as : List (SpawnAct ι κ)}

def AllocatesPid (c : SpawnConf ι κ) (a : SpawnAct ι κ) : Prop :=
  ∃ i k name, a = .step i () ∧ c.pc i = some (.allocatePid k name)

/-- A pid is at least 2 and not that of a process in the adapter's table, both when it is
allocated and when its entry is inserted. -/
def HandsOutFresh (c : SpawnConf ι κ) (a : SpawnAct ι κ) : Prop :=
  ∀ i, a = .step i () →
    (∀ k name, c.pc i = some (.allocatePid k name) →
      2 ≤ c.shared.nextPid ∧ (c.shared.tables k).processes.lookup c.shared.nextPid = none) ∧
    ∀ k info, c.pc i = some (.insert k info) →
      2 ≤ info.pid ∧ (c.shared.tables k).processes.lookup info.pid = none

/-- **What a step of a spawn does**: a pid is allocated, an entry inserted, or one table is
stepped as `signal` and `status` do. -/
theorem execWos_cases (hx : execWos settings w p = (w', q)) :
    (∃ k name, p = .allocatePid k name ∧
      w' = { w with nextPid := w.nextPid + 1, allocated := w.allocated + 1 } ∧
      q = .inl (.insert k (processInfo (settings k) name w.nextPid))) ∨
    (∃ k info, p = .insert k info ∧ q = .inr (.spawned (.wos info.pid)) ∧
      w' = { w with tables :=
        Function.update w.tables k ⟨(w.tables k).processes.insert info.pid info⟩ }) ∨
    ∃ k p0, p = .other k p0 ∧ (∀ k' info, q ≠ .inl (.insert k' info)) ∧
      w' = { w with tables := Function.update w.tables k (exec (w.tables k) p0).1 } := by
  cases p with
  | allocatePid k name => cases hx; exact .inl ⟨k, name, rfl, rfl, rfl⟩
  | insert k info => cases hx; exact .inr (.inl ⟨k, info, rfl, rfl, rfl⟩)
  | other k p0 =>
    refine .inr (.inr ⟨k, p0, rfl, ?_, ?_⟩)
    · rintro k' info rfl
      have := congrArg Prod.snd hx
      simp only [execWos] at this
      split at this <;> cases this
    · cases hx; rfl

def pidDraws (settings : κ → WosSettings) : Draws (Obj.act (ι := ι) (spawnObj settings)) where
  counter c := c.shared.nextPid
  drawn c := c.shared.allocated
  draws := AllocatesPid
  draw := by
    rintro c a c' ha ⟨i, k, name, rfl, hp⟩
    obtain ⟨p, w', q, hp', hx, rfl⟩ := Obj.act_step.1 ha
    cases hp.symm.trans hp'
    cases hx
    exact ⟨rfl, rfl⟩
  keep := by
    intro c a c' ha hn
    rcases Obj.shared_cases ha with hsame | ⟨i, k, p, q, rfl, hp, hx⟩
    · rw [hsame]
      exact ⟨rfl, rfl⟩
    · rcases execWos_cases (Option.some.inj hx) with ⟨k', name, rfl, -, -⟩ |
        ⟨k', info, rfl, -, hw⟩ | ⟨k', p0, rfl, -, hw⟩
      · exact absurd ⟨i, k', name, rfl, hp⟩ hn
      · rw [hw]
        exact ⟨rfl, rfl⟩
      · rw [hw]
        exact ⟨rfl, rfl⟩

theorem lookup_exec {m : WosAdapter} {p0 : Pc} {pid : UInt32}
    (h : (exec m p0).1.processes.lookup pid ≠ none) : m.processes.lookup pid ≠ none := by
  obtain ⟨m', q, hx⟩ : ∃ m' q, exec m p0 = (m', q) := ⟨_, _, rfl⟩
  rw [hx] at h
  rcases exec_cases hx with rfl | ⟨h', sig, pid', i, -, -, hi, rfl⟩ | ⟨pid', -, rfl⟩
  · exact h
  · by_cases hp : pid = pid'
    · subst hp; rw [hi]; exact Option.some_ne_none i
    · rwa [Finmap.lookup_insert_of_ne _ hp] at h
  · by_cases hp : pid = pid'
    · subst hp; exact absurd (Finmap.lookup_erase _ _) h
    · rwa [Finmap.lookup_erase_ne hp] at h

/-- Every pid in a table was allocated, and a pid whose entry is still to be inserted is in no
table and belongs to one spawn only. -/
structure Accounted (c : SpawnConf ι κ) : Prop where
  table : ∀ k pid, (c.shared.tables k).processes.lookup pid ≠ none →
    pid.toNat < 2 + c.shared.allocated
  pending : ∀ i k info, c.pc i = some (.insert k info) → 2 ≤ info.pid.toNat ∧
    info.pid.toNat < 2 + c.shared.allocated ∧
    ∀ k', (c.shared.tables k').processes.lookup info.pid = none
  distinct : ∀ i j k k' info info', c.pc i = some (.insert k info) →
    c.pc j = some (.insert k' info') → info.pid = info'.pid → i = j

omit [DecidableEq κ] [DecidableEq ι] in
theorem accounted_init : Accounted (Obj.init WosWorld.new : SpawnConf ι κ) where
  table := fun _ _ h => absurd (Finmap.lookup_empty _) h
  pending := fun _ _ _ h => by cases h
  distinct := fun _ _ _ _ _ _ h => by cases h

omit [DecidableEq κ] in
theorem Accounted.of_quiet (h : Accounted c) {i : ι} {q : Option (WosPc κ)} {w : WosWorld κ}
    (hq : ∀ k info, q ≠ some (.insert k info)) (hn : w.allocated = c.shared.allocated)
    (ht : ∀ k pid, (w.tables k).processes.lookup pid ≠ none →
      (c.shared.tables k).processes.lookup pid ≠ none) :
    Accounted ⟨w, Function.update c.pc i q⟩ := by
  have hold : ∀ j k info, Function.update c.pc i q j = some (.insert k info) →
      c.pc j = some (.insert k info) := by
    intro j k info hj
    rcases Conf.pc_update_cases hj with ⟨-, hj⟩ | ⟨-, hj⟩
    · exact absurd hj (hq k info)
    · exact hj
  refine ⟨fun k pid hl => ?_, fun j k info hj => ?_, fun j j' k k' info info' hj hj' => ?_⟩
  · show _ < 2 + w.allocated
    rw [hn]; exact h.table k pid (ht k pid hl)
  · obtain ⟨h1, h2, h3⟩ := h.pending j k info (hold j k info hj)
    refine ⟨h1, ?_, fun k' => ?_⟩
    · show _ < 2 + w.allocated
      rw [hn]; exact h2
    · by_contra hne
      exact ht k' _ hne (h3 k')
  · exact h.distinct j j' k k' info info' (hold j k info hj) (hold j' k' info' hj')

/-- The pid counter has not wrapped, and what it gave is accounted for. -/
def Sound (settings : κ → WosSettings) (c : SpawnConf ι κ) : Prop :=
  (pidDraws settings).Unwrapped 2 c ∧ Accounted c

theorem Sound.allocate {i : ι} {k : κ} {name : Text} (h : Sound settings c)
    (hlt : c.shared.allocated < 2 ^ 32 - 2) :
    Accounted ⟨{ c.shared with
        nextPid := c.shared.nextPid + 1, allocated := c.shared.allocated + 1 },
      Function.update c.pc i
        (some (.insert k (processInfo (settings k) name c.shared.nextPid)))⟩ := by
  obtain ⟨hu, ha⟩ := h
  have hpid : c.shared.nextPid.toNat = 2 + c.shared.allocated := hu.toNat hlt
  -- an insertion that is pending now was pending before, or is the new one
  have hcases : ∀ j k' info, Function.update c.pc i
      (some (.insert k (processInfo (settings k) name c.shared.nextPid))) j =
        some (.insert k' info) →
      (j = i ∧ info.pid = c.shared.nextPid) ∨ c.pc j = some (.insert k' info) := by
    intro j k' info hj
    rcases Conf.pc_update_cases hj with ⟨hi, he⟩ | ⟨-, hold⟩
    · cases he; exact .inl ⟨hi, rfl⟩
    · exact .inr hold
  have hold : ∀ j k' info, c.pc j = some (.insert k' info) → info.pid ≠ c.shared.nextPid := by
    intro j k' info hj he
    have := (ha.pending j k' info hj).2.1
    rw [he] at this; omega
  refine ⟨fun k' pid hl => ?_, fun j k' info hj => ?_, fun j j' k1 k2 info info' hj hj' he => ?_⟩
  · exact Nat.lt_succ_of_lt (ha.table k' pid hl)
  · rcases hcases j k' info hj with ⟨-, he⟩ | hj
    · rw [he, hpid]
      refine ⟨by omega, Nat.lt_succ_self _, fun k'' => ?_⟩
      by_contra hne
      have := ha.table k'' _ hne
      omega
    · obtain ⟨h1, h2, h3⟩ := ha.pending j k' info hj
      exact ⟨h1, Nat.lt_succ_of_lt h2, h3⟩
  · rcases hcases j k1 info hj with ⟨hi, e1⟩ | hjold
    · rcases hcases j' k2 info' hj' with ⟨hi', -⟩ | hjold'
      · exact hi.trans hi'.symm
      · exact absurd (he.symm.trans e1) (hold j' k2 info' hjold')
    · rcases hcases j' k2 info' hj' with ⟨-, e2⟩ | hjold'
      · exact absurd (he.trans e2) (hold j k1 info hjold)
      · exact ha.distinct j j' k1 k2 info info' hjold hjold' he

theorem Accounted.insert {i : ι} {k : κ} {info : ProcessInfo} (h : Accounted c)
    (hp : c.pc i = some (.insert k info)) :
    Accounted ⟨{ c.shared with
        tables := Function.update c.shared.tables k
          ⟨(c.shared.tables k).processes.insert info.pid info⟩ },
      Function.update c.pc i none⟩ := by
  -- a process in a table is the new one, or was there
  have htable : ∀ k' pid, ((Function.update c.shared.tables k
      (⟨(c.shared.tables k).processes.insert info.pid info⟩ : WosAdapter) k').processes.lookup
        pid ≠ none) → pid = info.pid ∨ (c.shared.tables k').processes.lookup pid ≠ none := by
    intro k' pid hl
    by_cases hk : k' = k
    · subst hk
      rw [Function.update_self] at hl
      by_cases hpid : pid = info.pid
      · exact .inl hpid
      · rw [Finmap.lookup_insert_of_ne _ hpid] at hl; exact .inr hl
    · rw [Function.update_of_ne hk] at hl; exact .inr hl
  have hold : ∀ j k' info', Function.update c.pc i none j = some (.insert k' info') →
      j ≠ i ∧ c.pc j = some (.insert k' info') := by
    intro j k' info' hj
    rcases Conf.pc_update_cases hj with ⟨-, hj⟩ | hj
    · cases hj
    · exact hj
  refine ⟨fun k' pid hl => ?_, fun j k' info' hj => ?_, fun j j' k1 k2 info1 info2 hj hj' => ?_⟩
  · rcases htable k' pid hl with rfl | hl
    · exact (h.pending i k info hp).2.1
    · exact h.table k' pid hl
  · obtain ⟨hne, hj⟩ := hold j k' info' hj
    obtain ⟨h1, h2, h3⟩ := h.pending j k' info' hj
    refine ⟨h1, h2, fun k'' => ?_⟩
    by_contra hl
    rcases htable k'' _ hl with he | hl
    · exact hne (h.distinct j i k' k info' info hj hp he)
    · exact hl (h3 k'')
  · exact h.distinct j j' k1 k2 info1 info2 (hold j k1 info1 hj).2 (hold j' k2 info2 hj').2

/-- **A step with pids left** keeps the account. -/
theorem Sound.act (h : Sound settings c) (hc : (pidDraws settings).Few 2 c a)
    (ha : (spawnObj settings).act c a = some c') : Sound settings c' := by
  refine ⟨h.1.after hc ha, ?_⟩
  rcases Obj.act_cases ha with ⟨i, o, rfl, -, rfl⟩ | ⟨i, k, p, w', q, rfl, hp, hx, rfl⟩ |
    ⟨e, -, -, -, -⟩
  · refine h.2.of_quiet (fun k info => ?_) rfl fun _ _ hl => hl
    cases o with
    | spawn k' name => exact fun he => by cases he
    | other k' o => cases o <;> exact fun he => by cases he
  · rcases execWos_cases (Option.some.inj hx) with ⟨k', name, rfl, rfl, rfl⟩ |
      ⟨k', info, rfl, rfl, rfl⟩ | ⟨k', p0, rfl, hq, rfl⟩
    · exact h.allocate (hc ⟨i, k', name, rfl, hp⟩)
    · exact h.2.insert hp
    · refine h.2.of_quiet (fun k'' info he => ?_) rfl fun k'' pid hl => ?_
      · cases q with
        | inl p' => cases he; exact hq k'' info rfl
        | inr r => cases he
      · by_cases hk : k'' = k'
        · subst hk
          have hl : (Function.update c.shared.tables k'' _ k'').processes.lookup pid ≠ none := hl
          rw [Function.update_self] at hl
          exact lookup_exec hl
        · have hl : (Function.update c.shared.tables k' _ k'').processes.lookup pid ≠ none := hl
          rwa [Function.update_of_ne hk] at hl
  · exact isEmptyElim e

theorem Sound.fresh (h : Sound settings c) (hc : (pidDraws settings).Few 2 c a) :
    HandsOutFresh c a := by
  rintro i rfl
  refine ⟨fun k name hp => ?_, fun k info hp => ?_⟩
  · have hlt := hc ⟨i, k, name, rfl, hp⟩
    have hpid : c.shared.nextPid.toNat = 2 + c.shared.allocated := h.1.toNat hlt
    refine ⟨(h.1.reserves_iff (by decide)).2 hlt, ?_⟩
    by_contra hne
    have := h.2.table k _ hne
    omega
  · obtain ⟨h1, -, h3⟩ := h.2.pending i k info hp
    exact ⟨UInt32.le_iff_toNat_le.2 h1, h3 k⟩

/-- Every pid of a run is fresh exactly when there are pids left at every allocation. -/
theorem pids_fresh_iff :
    Meets (spawnObj settings).act HandsOutFresh (Obj.init WosWorld.new : SpawnConf ι κ) as ↔
      Meets (spawnObj settings).act ((pidDraws settings).Few 2) (Obj.init WosWorld.new) as := by
  have hstart : (pidDraws settings).Unwrapped 2 (Obj.init WosWorld.new : SpawnConf ι κ) :=
    .start rfl rfl
  constructor
  · intro hm
    refine (Draws.reserved_iff (show 0 < (2 : UInt32).toNat by decide) rfl rfl).1
      (Meets.imp_inv (P := fun _ => True) (fun _ _ _ _ _ _ => trivial)
        (fun c a _ (hf : HandsOutFresh c a) => ?_) trivial hm)
    rintro ⟨i, k, name, rfl, hp⟩
    exact ((hf i rfl).1 k name hp).1
  · exact Meets.imp_inv (P := Sound settings) (fun _ _ _ h hc ha => h.act hc ha)
      (fun _ _ h hc => h.fresh hc) ⟨hstart, accounted_init⟩

end Wos

/-! ## CIDs -/

section Cids

variable {ι : Type*} [DecidableEq ι]

theorem exec_vms (settings : κ → Core.Pepita.Settings) (w : Core.Pepita.World κ)
    (k : Core.Pepita.Answer) {p : Core.Pepita.Pc κ}
    (hp : ∀ o kernel rootfs, p ≠ .allocateCid o kernel rootfs) :
    ∃ vms, (Core.Pepita.exec settings w p k).1 = { w with vms := vms } := by
  unfold Core.Pepita.exec
  cases p with
  | checkKvm o => simp only; split <;> exact ⟨_, rfl⟩
  | checkPepita o =>
    rcases k with ⟨kvm, e | output⟩
    · exact ⟨_, rfl⟩
    · cases hs : output.success with
      | false => simp only [hs]; exact ⟨_, rfl⟩
      | true =>
        simp only [hs, Bool.not_true, Bool.false_eq_true, if_false]
        cases (settings o.adapter).defaultKernel with
        | none => exact ⟨_, rfl⟩
        | some kernel =>
          cases (settings o.adapter).defaultRootfs with
          | none => exact ⟨_, rfl⟩
          | some rootfs => exact ⟨_, rfl⟩
  | allocateCid o kernel rootfs => exact absurd rfl (hp o kernel rootfs)
  | run o args info =>
    simp only
    split
    · exact ⟨_, rfl⟩
    · split <;> exact ⟨_, rfl⟩
  | store o info => exact ⟨_, rfl⟩

omit [DecidableEq κ] in
theorem exec_run (settings : κ → Pepita.Settings) (w : Pepita.World) (k : Ran) {o : Pepita.Op κ}
    {args : List Text} : (Pepita.exec settings w (.run o args) k).1 = w := by
  unfold Pepita.exec
  simp only
  split
  · rfl
  · split <;> rfl

/-- The action calls `allocate_cid` of the core. -/
def AllocatesCid (c : Conf ι (Core.Pepita.World κ) (Core.Pepita.Pc κ))
    (a : Act ι (Core.Pepita.Op κ) Core.Pepita.Answer Empty) : Prop :=
  ∃ i k o kernel rootfs, a = .step i k ∧ c.pc i = some (.allocateCid o kernel rootfs)

/-- The CID counter of the core. -/
def cidDraws (settings : κ → Core.Pepita.Settings) :
    Draws (Obj.act (ι := ι) (Core.Pepita.pepitaObj settings)) where
  counter c := c.shared.nextCid
  drawn c := c.shared.allocated
  draws := AllocatesCid
  draw := by
    rintro c a c' ha ⟨i, k, o, kernel, rootfs, rfl, hp⟩
    obtain ⟨p, w', q, hp', hx, rfl⟩ := Obj.act_step.1 ha
    cases hp.symm.trans hp'
    cases hx
    exact ⟨rfl, rfl⟩
  keep := by
    intro c a c' ha hn
    rcases Obj.shared_cases ha with hsame | ⟨i, k, p, q, rfl, hp, hx⟩
    · rw [hsame]
      exact ⟨rfl, rfl⟩
    · have hkeep := exec_vms settings c.shared k (p := p) fun o kernel rootfs he =>
        hn ⟨i, k, o, kernel, rootfs, rfl, by rw [hp, he]⟩
      rw [Option.some.inj hx] at hkeep
      obtain ⟨vms, hvms⟩ := hkeep
      rw [show c'.shared = _ from hvms]
      exact ⟨rfl, rfl⟩

/-- The action calls `allocate_cid` of the platform crate. -/
def AllocatesVmCid (c : Conf ι Pepita.World (Pepita.Pc κ))
    (a : Act ι (Pepita.Op κ) Ran Empty) : Prop :=
  ∃ i k o, a = .step i k ∧ c.pc i = some (.allocateCid o)

/-- The CID counter of the platform crate. -/
def vmCidDraws (settings : κ → Pepita.Settings) :
    Draws (Obj.act (ι := ι) (Pepita.pepitaObj settings)) where
  counter c := c.shared.nextCid
  drawn c := c.shared.allocated
  draws := AllocatesVmCid
  draw := by
    rintro c a c' ha ⟨i, k, o, rfl, hp⟩
    obtain ⟨p, w', q, hp', hx, rfl⟩ := Obj.act_step.1 ha
    cases hp.symm.trans hp'
    cases hx
    exact ⟨rfl, rfl⟩
  keep := by
    intro c a c' ha hn
    rcases Obj.shared_cases ha with hsame | ⟨i, k, p, q, rfl, hp, hx⟩
    · rw [hsame]
      exact ⟨rfl, rfl⟩
    · cases p with
      | allocateCid o => exact absurd ⟨i, k, o, rfl, hp⟩ hn
      | run o args =>
        have hkeep := @exec_run κ settings c.shared k o args
        rw [Option.some.inj hx] at hkeep
        rw [show c'.shared = c.shared from hkeep]
        exact ⟨rfl, rfl⟩

end Cids

/-- **Identifiers**: in every run of spawns and other calls, every pid is at least 2 and not
that of a process in the adapter's table exactly when each was allocated after less than
`2 ^ 32 - 2` others; and every CID of either crate is at least 3 exactly when each was
allocated after less than `2 ^ 32 - 3` others. -/
theorem allocation_iff {ι : Type*} [DecidableEq ι] (wos : κ → WosSettings)
    (core : κ → Core.Pepita.Settings) (pepita : κ → Pepita.Settings) :
    (∀ as : List (SpawnAct ι κ),
      Meets (spawnObj wos).act HandsOutFresh (Obj.init .new) as ↔
        Meets (spawnObj wos).act (fun c a => AllocatesPid c a → c.shared.allocated < 2 ^ 32 - 2)
          (Obj.init .new) as) ∧
    (∀ as : List (Act ι (Core.Pepita.Op κ) Core.Pepita.Answer Empty),
      Meets (Core.Pepita.pepitaObj core).act (fun c a => AllocatesCid c a → 3 ≤ c.shared.nextCid)
          (Obj.init .new) as ↔
        Meets (Core.Pepita.pepitaObj core).act
          (fun c a => AllocatesCid c a → c.shared.allocated < 2 ^ 32 - 3) (Obj.init .new) as) ∧
    ∀ as : List (Act ι (Pepita.Op κ) Ran Empty),
      Meets (Pepita.pepitaObj pepita).act (fun c a => AllocatesVmCid c a → 3 ≤ c.shared.nextCid)
          (Obj.init .new) as ↔
        Meets (Pepita.pepitaObj pepita).act
          (fun c a => AllocatesVmCid c a → c.shared.allocated < 2 ^ 32 - 3) (Obj.init .new) as := by
  have hpos : 0 < (3 : UInt32).toNat := by decide
  refine ⟨fun as => pids_fresh_iff, fun as => ?_, fun as => ?_⟩
  · exact (cidDraws core).reserved_iff hpos rfl rfl
  · exact (vmCidDraws pepita).reserved_iff hpos rfl rfl

def spawns : Nat → List (SpawnAct Unit Unit)
  | 0 => []
  | n + 1 => spawns n ++ Obj.alone () (.spawn () []) [(), ()]

theorem run_spawns (n : Nat) : ∃ w, run (spawnObj fun _ => {}).act (Obj.init .new) (spawns n) =
    some ⟨w, fun _ => none⟩ ∧ w.nextPid = ticket 2 n := by
  induction n with
  | zero => exact ⟨_, rfl, rfl⟩
  | succ n ih =>
    obtain ⟨w, hr, hw⟩ := ih
    refine ⟨_, run_append_some.2 ⟨_, hr, Obj.run_alone rfl rfl⟩, ?_⟩
    rw [ticket_succ, ← hw]

theorem not_fresh_of_wrap {n : Nat} (hn : 2 + n = 2 ^ 32) :
    ¬ Meets (spawnObj fun _ => {}).act HandsOutFresh (Obj.init .new)
      (spawns n ++ [.call () (.spawn () [])] ++ [.step () ()]) := by
  intro h
  obtain ⟨w, hr, hw⟩ := run_spawns n
  have hstep : run (spawnObj fun _ => {}).act (Obj.init .new)
      (spawns n ++ [.call () (.spawn () [])]) =
        some ⟨w, Function.update (fun _ => none) () (some (.allocatePid () []))⟩ :=
    run_append_some.2 ⟨_, hr, rfl⟩
  have hfresh := meets_iff.1 h _ _ [] _ rfl hstep () rfl
  have hpid := UInt32.le_iff_toNat_le.1 (hfresh.1 () [] rfl).1
  have hzero : w.nextPid.toNat = 0 := by rw [hw]; exact toNat_ticket_wrap hn
  rw [show (Conf.shared ⟨w, _⟩).nextPid.toNat = 0 from hzero] at hpid
  exact absurd hpid (by decide)

/-- The spawn after `2 ^ 32 - 2` others is given pid 0. -/
theorem pids_wrap : ¬ ∀ as : List (SpawnAct Unit Unit),
    Meets (spawnObj fun _ => {}).act HandsOutFresh (Obj.init .new) as :=
  fun h => @not_fresh_of_wrap (2 ^ 32 - 2) (by norm_num) (h _)

end Duende.Platforms
