import Duende.Core.Locked
import Duende.Trans.Simulation

/-!
# The manager refines a finite map

`atomicObj` runs every job of a call in a single step on the registry. `refines_map` says
that whatever any number of callers see of the locked manager, calls and results in the same
order, they could have seen of `atomicObj`, and says what its steps keep: failed calls change
nothing, entries stay under their ids and while they are active, and the restart count of a
daemon is the number of increments since it was registered.
-/

namespace Duende.Core

open Trans

def Job.own : Job → Option DaemonId
  | .register id .. | .unregister id | .entry id _ | .signal id _ => some id
  | .count | .list => none

namespace Atomic

/-- Before a job takes effect, and after it. -/
inductive Pc where
  | todo (j : Job) (k : Locked.Cont)
  | done (r : Res) (k : Locked.Cont)
  | recv (c : ChanId)
  deriving DecidableEq

def start : Locked.Op → Pc
  | .job j => .todo j .done
  | .shutdownAll => .todo .list .listed
  | .recv c => .recv c

/-- Every job is one step, and so is the return of its result. -/
def exec (w : World) : Pc → List DaemonId → Option (World × (Pc ⊕ Locked.Out))
  | .todo j k, order => (w.eval order j).map fun r => (r.1, .inl (.done r.2 k))
  | .done r k, _ =>
    some (w,
      match k.next r with
      | .inl (j', k') => .inl (.todo j' k')
      | .inr r' => .inr (.returned r'))
  | .recv c, _ =>
    (w.chans c).recv.map fun r => (w.setChan c r.1, .inr (.received r.2))

/-- The manager whose jobs nobody interrupts. -/
def atomicObj : Obj World Pc Locked.Op Locked.Out (List DaemonId) Empty where
  start := start
  exec := exec
  env _ e := e.elim

abbrev AConf (ι : Type*) := Conf ι World Pc

abbrev AAct (ι : Type*) := Act ι Locked.Op (List DaemonId) Empty

def effect {ι : Type*} (e : AConf ι × AAct ι) : Option (Job × Res) :=
  match e.2 with
  | .step i order =>
    match e.1.pc i with
    | some (.todo j _) => (e.1.shared.eval order j).map fun r => (j, r.2)
    | _ => none
  | _ => none

def effects {ι : Type*} [DecidableEq ι] (c : AConf ι) (as : List (AAct ι)) : List (Job × Res) :=
  (trace atomicObj.act c as).filterMap effect

/-! ## What the map keeps -/

abbrev Registry := Finmap fun _ : DaemonId => ManagedDaemon

/-- What a job may do to the registry. -/
structure Law (m : Registry) (j : Job) (r : Res) (m' : Registry) : Prop where
  /-- A call that returns an error changes nothing. -/
  failed : ∀ e, r = .error e → m' = m
  /-- An entry is registered where there is none. -/
  fresh : ∀ id name policy v, j = .register id name policy → r = .ok v → m.lookup id = none
  /-- An entry that is removed is not active. -/
  removal : ∀ id d, m.lookup id = some d → m'.lookup id = none → d.status.isActive = false
  /-- The entries of other daemons stay as they are. -/
  frame : ∀ id, j.own ≠ some id → m'.lookup id = m.lookup id

/-- The values that increments of `id` returned since it was last registered. -/
def increment (id : DaemonId) (vs : List Nat) : Job × Res → List Nat
  | (.register id' _ _, .ok _) => if id' = id then [] else vs
  | (.entry id' .incrementRestartCount, .ok (.count n)) => if id' = id then vs ++ [n] else vs
  | _ => vs

def increments (id : DaemonId) (ops : List (Job × Res)) : List Nat :=
  ops.foldl (increment id) []

/-- The first `n` values of a counter that wraps. -/
def counter (n : Nat) : List Nat := (List.range n).map fun v => (v + 1) % 2 ^ 32

/-- What the jobs carried out so far say about the registry. -/
structure Accounts (ops : List (Job × Res)) (m : Registry) : Prop where
  keyed : ∀ id d, m.lookup id = some d → d.id = id
  values : ∀ id, increments id ops = counter (increments id ops).length
  counts : ∀ id d, m.lookup id = some d →
    d.restartCount = (increments id ops).length % 2 ^ 32

section

variable {w w' : World} {j : Job} {r : Res} {ops : List (Job × Res)} {id : DaemonId}

theorem lookup_insert_cases {m : Registry} {id' : DaemonId} {d d' : ManagedDaemon}
    (h : (m.insert id d).lookup id' = some d') :
    (id' = id ∧ d' = d) ∨ (id' ≠ id ∧ m.lookup id' = some d') := by
  by_cases e : id' = id
  · subst e; rw [Finmap.lookup_insert] at h; exact .inl ⟨rfl, (Option.some.inj h).symm⟩
  · exact .inr ⟨e, by rw [← Finmap.lookup_insert_of_ne _ e]; exact h⟩

theorem lookup_insert_none {m : Registry} {id' : DaemonId} {d : ManagedDaemon}
    (h : (m.insert id d).lookup id' = none) : m.lookup id' = none := by
  by_cases e : id' = id
  · subst e; rw [Finmap.lookup_insert] at h; cases h
  · rw [← Finmap.lookup_insert_of_ne m e]; exact h

/-- A job that leaves the registry as it is, and registers nothing. -/
theorem law_same {m : Registry} (h : ∀ id name policy v, j = .register id name policy → r ≠ .ok v) :
    Law m j r m where
  failed _ _ := rfl
  fresh id name policy v hj hr := absurd hr (h id name policy v hj)
  removal id d hd hn := by rw [hd] at hn; cases hn
  frame _ _ := rfl

theorem law_of_effect (h : World.Effect w j w' r) : Law w.daemons j r w'.daemons := by
  cases h with
  | failed j e why => exact law_same fun _ _ _ _ _ hr => by cases hr
  | signalled id sig w' same =>
    rw [same]
    exact law_same fun _ _ _ _ hj => by cases hj
  | read j v query =>
    refine law_same ?_
    rintro id name policy v' rfl
    rcases query with h | h <;> cases h
  | registered id name policy absent =>
    refine ⟨(fun e he => by cases he), ?_, ?_, ?_⟩
    · intro id' name' policy' v hj _
      cases hj; exact absent
    · intro id' d hd hn
      rw [lookup_insert_none hn] at hd; cases hd
    · intro id' ho
      have hne : id' ≠ id := by rintro rfl; exact ho rfl
      exact Finmap.lookup_insert_of_ne _ hne
  | unregistered id d found inactive =>
    refine ⟨(fun e he => by cases he), (fun _ _ _ _ hj => by cases hj), ?_, ?_⟩
    · intro id' d' hd hn
      by_cases e : id' = id
      · subst e; cases found.symm.trans hd; exact inactive
      · rw [Finmap.lookup_erase_ne e, hd] at hn; cases hn
    · intro id' ho
      have hne : id' ≠ id := by rintro rfl; exact ho rfl
      exact Finmap.lookup_erase_ne hne
  | entry id o d found =>
    refine ⟨(fun e he => by cases he), (fun _ _ _ _ hj => by cases hj), ?_, ?_⟩
    · intro id' d' hd hn
      rw [lookup_insert_none hn] at hd; cases hd
    · intro id' ho
      have hne : id' ≠ id := by rintro rfl; exact ho rfl
      exact Finmap.lookup_insert_of_ne _ hne

theorem counter_succ {n : Nat} : counter (n + 1) = counter n ++ [(n + 1) % 2 ^ 32] := by
  simp [counter, List.range_succ]

/-- Below `2 ^ 32` the counter does not return to a value. -/
theorem nodup_counter {n : Nat} (h : n < 2 ^ 32) : (counter n).Nodup := by
  refine List.Nodup.map_on ?_ List.nodup_range
  intro a ha b hb hab
  have ha' := List.mem_range.1 ha
  have hb' := List.mem_range.1 hb
  rw [Nat.mod_eq_of_lt (by omega), Nat.mod_eq_of_lt (by omega)] at hab
  omega

theorem increments_snoc {e : Job × Res} :
    increments id (ops ++ [e]) = increment id (increments id ops) e := by
  simp [increments]

/-- A job that does not register or increment anything leaves the accounts as they are. -/
theorem Accounts.same {m' : Registry} (h : Accounts ops w.daemons)
    (hi : ∀ id, increment id (increments id ops) (j, r) = increments id ops)
    (hm : ∀ id d', m'.lookup id = some d' → ∃ d, w.daemons.lookup id = some d ∧
      d'.id = d.id ∧ d'.restartCount = d.restartCount) :
    Accounts (ops ++ [(j, r)]) m' where
  keyed id d' hd' := by
    obtain ⟨d, hd, he, -⟩ := hm id d' hd'
    rw [he]; exact h.keyed id d hd
  values id := by rw [increments_snoc, hi]; exact h.values id
  counts id d' hd' := by
    obtain ⟨d, hd, -, he⟩ := hm id d' hd'
    rw [increments_snoc, hi, he]; exact h.counts id d hd

theorem Accounts.effect (h : Accounts ops w.daemons) (he : World.Effect w j w' r) :
    Accounts (ops ++ [(j, r)]) w'.daemons := by
  cases he with
  | failed j e why =>
    refine h.same (fun id => ?_) fun id d hd => ⟨d, hd, rfl, rfl⟩
    cases j with
    | entry id' o => cases o <;> rfl
    | _ => rfl
  | registered id' name policy absent =>
    refine ⟨fun id d hd => ?_, fun id => ?_, fun id d hd => ?_⟩
    · rcases lookup_insert_cases hd with ⟨rfl, rfl⟩ | ⟨-, hd⟩
      · rfl
      · exact h.keyed id d hd
    · rw [increments_snoc]
      by_cases e : id' = id
      · simp [increment, e, counter]
      · simp only [increment, e, ↓reduceIte]; exact h.values id
    · rw [increments_snoc]
      rcases lookup_insert_cases hd with ⟨rfl, rfl⟩ | ⟨e, hd⟩
      · simp [increment, ManagedDaemon.new, ManagedDaemon.withRestartPolicy]
      · simp only [increment, Ne.symm e, ↓reduceIte]; exact h.counts id d hd
  | unregistered id' d found inactive =>
    refine h.same (fun id => rfl) fun id d' hd' => ?_
    by_cases e : id = id'
    · subst e; rw [Finmap.lookup_erase] at hd'; cases hd'
    · rw [Finmap.lookup_erase_ne e] at hd'
      exact ⟨d', hd', rfl, rfl⟩
  | entry id' o d found =>
    by_cases ho : o = .incrementRestartCount
    · subst ho
      have hnew : u32Add d.restartCount 1 = ((increments id' ops).length + 1) % 2 ^ 32 := by
        rw [u32Add, h.counts id' d found, Nat.mod_add_mod]
      refine ⟨fun id d' hd => ?_, fun id => ?_, fun id d' hd => ?_⟩
      · rcases lookup_insert_cases hd with ⟨rfl, rfl⟩ | ⟨-, hd⟩
        · exact h.keyed id d found
        · exact h.keyed id d' hd
      · rw [increments_snoc]
        by_cases e : id' = id
        · subst e
          simp only [increment, EntryOp.body, ↓reduceIte, List.length_append, List.length_singleton,
            counter_succ, hnew]
          rw [← h.values id']
        · simp only [increment, EntryOp.body, e, ↓reduceIte]; exact h.values id
      · rw [increments_snoc]
        rcases lookup_insert_cases hd with ⟨rfl, rfl⟩ | ⟨e, hd⟩
        · simpa [increment, EntryOp.body] using hnew
        · simp only [increment, EntryOp.body, Ne.symm e, ↓reduceIte]; exact h.counts id d' hd
    · refine h.same (fun id => ?_) fun id d' hd' => ?_
      · cases o <;> first | rfl | exact absurd rfl ho
      · rcases lookup_insert_cases hd' with ⟨rfl, rfl⟩ | ⟨-, hd'⟩
        · refine ⟨d, found, ?_⟩
          cases o <;> first | exact ⟨rfl, rfl⟩ | exact absurd rfl ho
        · exact ⟨d', hd', rfl, rfl⟩
  | signalled id' sig w' same =>
    rw [same]
    exact h.same (fun id => rfl) fun id d hd => ⟨d, hd, rfl, rfl⟩
  | read j v query =>
    refine h.same (fun id => ?_) fun id d hd => ⟨d, hd, rfl, rfl⟩
    rcases query with rfl | rfl <;> rfl

variable {ι : Type*} [DecidableEq ι] {c c' : AConf ι} {a : AAct ι} {as : List (AAct ι)}

/-- **What an action can do to the registry**: carry out one job, or nothing. -/
theorem effect_of_act (h : atomicObj.act c a = some c') :
    (∃ j r, effect (c, a) = some (j, r) ∧ World.Effect c.shared j c'.shared r) ∨
      (effect (c, a) = none ∧ c'.shared.daemons = c.shared.daemons) := by
  rcases Obj.act_cases h with ⟨i, o, rfl, -, rfl⟩ | ⟨i, order, p, w, q, rfl, hp, hx, rfl⟩ |
    ⟨e, _, _, _⟩
  · exact .inr ⟨rfl, rfl⟩
  · cases p with
    | todo j k =>
      obtain ⟨⟨w', r⟩, he, hq⟩ := Option.map_eq_some_iff.1 hx
      cases hq
      exact .inl ⟨j, r, by simp [effect, hp, he], World.effect_of_eval he⟩
    | done r k => cases hx; exact .inr ⟨by simp [effect, hp], rfl⟩
    | recv ch =>
      obtain ⟨r, -, hq⟩ := Option.map_eq_some_iff.1 hx
      cases hq; exact .inr ⟨by simp [effect, hp], rfl⟩
  · exact e.elim

/-- Every action that carries out a job keeps to the law, and the others leave the registry
alone. -/
def Lawful (c : AConf ι) (a : AAct ι) : Prop :=
  ∀ c', atomicObj.act c a = some c' →
    match effect (c, a) with
    | some (j, r) => Law c.shared.daemons j r c'.shared.daemons
    | none => c'.shared.daemons = c.shared.daemons

theorem lawful : Lawful c a := by
  intro c' h
  rcases effect_of_act h with ⟨j, r, he, hw⟩ | ⟨he, hd⟩
  · rw [he]; exact law_of_effect hw
  · rw [he]; exact hd

theorem accounts_run {chans : ChanId → SignalChan}
    (h : run atomicObj.act (Obj.init ⟨∅, chans⟩) as = some c) :
    Accounts (effects (Obj.init ⟨∅, chans⟩) as) c.shared.daemons := by
  refine run_trace (P := fun t c => Accounts (t.filterMap effect) c.shared.daemons) (t := [])
    (fun t c a c' ht ha => ?_) ?_ h
  · rw [List.filterMap_append]
    rcases effect_of_act ha with ⟨j, r, he, hw⟩ | ⟨he, hd⟩
    · simpa [he] using ht.effect hw
    · simpa [he, hd] using ht
  · exact ⟨(fun id d h => by cases h), fun id => rfl, (fun id d h => by cases h)⟩

end

end Atomic

/-! ## The simulation -/

namespace Locked

/-- A job has taken effect when it starts to leave. -/
def Pc.abs : Pc → Atomic.Pc
  | .call (.leaveEntry r) _ k | .call (.leave r) _ k => .done r k
  | .call _ j k => .todo j k
  | .recv c => .recv c

section

variable {ι : Type*} [DecidableEq ι] {m m' : Mem ι} {i : ι} {p : Pc} {q : Pc ⊕ Out}
  {c c' : MConf ι} {a : MAct ι} {as : List (MAct ι)}

/-- **A move of the locked manager** is a stutter, or one step of the atomic one. -/
theorem Move.simulates (h : Move m i p m' q) (hf : p.Fits m.world.daemons) :
    (m'.world = m.world ∧ q.map Pc.abs id = .inl p.abs) ∨
      ∃ order, Atomic.exec m.world p.abs order = some (m'.world, q.map Pc.abs id) := by
  cases h with
  | received c r taken =>
    exact .inr ⟨[], by simp [Pc.abs, Atomic.exec, taken]⟩
  | answered j k r order answer whole =>
    exact .inr ⟨order, by simp [Pc.abs, Atomic.exec, answer]⟩
  | registered id name policy k absent =>
    exact .inr ⟨[], rfl⟩
  | refused j k e refusal =>
    exact .inr ⟨[], by simp [Pc.abs, Atomic.exec, refusal]⟩
  | written id o k d lookup =>
    exact .inr ⟨[], by simp [Pc.abs, Atomic.exec, World.eval, World.entry, lookup]⟩
  | sent id signal k handle r offered =>
    obtain ⟨id', signal', d, he, hl, ht⟩ := hf
    cases he
    exact .inr ⟨[], by simp [Pc.abs, Atomic.exec, World.eval, World.signal, hl, ht, offered]⟩
  | removed j k id target =>
    obtain ⟨id', d, rfl, hl, ha⟩ := hf
    cases target
    exact .inr ⟨[], by simp [Pc.abs, Atomic.exec, World.eval, World.unregister, hl, ha]⟩
  | next j j' k k' r more => exact .inr ⟨[], by simp [Pc.abs, Atomic.exec, more]⟩
  | returned j k r r' ends => exact .inr ⟨[], by simp [Pc.abs, Atomic.exec, ends]⟩
  | _ => exact .inl ⟨rfl, rfl⟩

def abs (c : MConf ι) : Atomic.AConf ι := Obj.mapConf Mem.world Pc.abs c

/-- What an action shows: a call, or the return of one with its result. -/
def event (c : MConf ι) (a : MAct ι) : Option (ι × (Op ⊕ Out)) := managerObj.event c a.act

theorem act_simulates (hi : Inv c) (h : mact c a = some c') :
    (abs c' = abs c ∧ event c a = none) ∨
      ∃ b, Atomic.atomicObj.act (abs c) b = some (abs c') ∧
        Atomic.atomicObj.event (abs c) b = event c a := by
  refine Obj.act_simulates (fun o => ?_) (fun i k p s' q ha hp hx => ?_) h
  · cases o <;> rfl
  · cases a with
    | call => cases ha
    | step i' order =>
      cases ha
      exact (move_of_exec hx).simulates (hi.fits i p hp)

/-- **The locked manager refines a finite map.** Over every interleaving of any number of
callers, from an empty registry: there is a run of the atomic manager with the same calls and
results in the same order that ends in the same registry. Its jobs keep to the law of the map,
every entry stands under its own id, and below `2 ^ 32` the increments of a daemon since it was
registered returned distinct values, as many as its restart count says. -/
theorem refines_map {chans : ChanId → SignalChan}
    (h : run mact (Obj.init (Mem.init ⟨∅, chans⟩)) as = some c) :
    ∃ bs : List (Atomic.AAct ι),
      run Atomic.atomicObj.act (Obj.init ⟨∅, chans⟩) bs = some (abs c) ∧
      observe Atomic.atomicObj.act Atomic.atomicObj.event (Obj.init ⟨∅, chans⟩) bs =
        observe mact event (Obj.init (Mem.init ⟨∅, chans⟩)) as ∧
      Meets Atomic.atomicObj.act Atomic.Lawful (Obj.init ⟨∅, chans⟩) bs ∧
      (∀ id d, c.shared.world.daemons.lookup id = some d → d.id = id) ∧
      ∀ id, (Atomic.increments id (Atomic.effects (Obj.init ⟨∅, chans⟩) bs)).length < 2 ^ 32 →
        (Atomic.increments id (Atomic.effects (Obj.init ⟨∅, chans⟩) bs)).Nodup ∧
        ∀ d, c.shared.world.daemons.lookup id = some d → d.restartCount =
          (Atomic.increments id (Atomic.effects (Obj.init ⟨∅, chans⟩) bs)).length := by
  obtain ⟨bs, hb, ho⟩ := run_simulates (f := abs) (fun c a c' hi ha =>
    ⟨Inv.act hi ha, act_simulates hi ha⟩) inv_init h
  have hacc : Atomic.Accounts (Atomic.effects (Obj.init ⟨∅, chans⟩) bs) (abs c).shared.daemons :=
    Atomic.accounts_run hb
  refine ⟨bs, hb, ho, meets_iff.2 fun _ _ _ _ _ _ => Atomic.lawful, hacc.keyed, fun id hn => ?_⟩
  constructor
  · rw [hacc.values id]; exact Atomic.nodup_counter hn
  · intro d hd
    exact (hacc.counts id d hd).trans (Nat.mod_eq_of_lt hn)

/-- One caller registers a daemon; then both increment its restart count, the second one at the
mutex while the first one holds it. -/
def twoIncrements : List (MAct Bool) :=
  let first i : MAct Bool := .step i []
  [.call true (.job (.register ⟨1⟩ "d" .always)), first true, first true, first true, first true,
    .call true (.job (.entry ⟨1⟩ .incrementRestartCount)),
    .call false (.job (.entry ⟨1⟩ .incrementRestartCount)),
    first true, first false, first true, first false, first true, first false,
    first true, first false, first true, first true, first true, first false,
    first true, first false, first false, first false]

/-- The two callers get the counts 1 and 2, as from the atomic manager. -/
theorem refines_map_two : ∃ c : MConf Bool,
    run mact (Obj.init (Mem.init ⟨∅, fun _ => .new⟩)) twoIncrements = some c ∧
    ∃ bs : List (Atomic.AAct Bool),
      run Atomic.atomicObj.act (Obj.init ⟨∅, fun _ => .new⟩) bs = some (abs c) ∧
      observe Atomic.atomicObj.act Atomic.atomicObj.event (Obj.init ⟨∅, fun _ => .new⟩) bs =
        [(true, .inl (.job (.register ⟨1⟩ "d" .always))),
          (true, .inr (.returned (.ok (.id ⟨1⟩)))),
          (true, .inl (.job (.entry ⟨1⟩ .incrementRestartCount))),
          (false, .inl (.job (.entry ⟨1⟩ .incrementRestartCount))),
          (true, .inr (.returned (.ok (.count 1)))),
          (false, .inr (.returned (.ok (.count 2))))] := by
  have h : run mact (Obj.init (Mem.init ⟨∅, fun _ => .new⟩) : MConf Bool) twoIncrements =
    some _ := rfl
  obtain ⟨bs, hb, ho, -⟩ := refines_map h
  exact ⟨_, h, bs, hb, ho⟩

end

end Locked

end Duende.Core
