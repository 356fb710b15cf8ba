import Duende.Core.Manager
import Duende.Trans.Interleave
import Duende.Trans.Lock

/-!
# The manager, one lock acquisition at a time

The registry stands behind an `RwLock`, each entry behind a `Mutex` of its own. A call
takes the lock of the registry in the mode of its job and, where it looks a daemon up, that
daemon's mutex inside it; `shutdown_all` is a loop of such jobs. Every acquisition, every
access under a guard and every release is an atomic step, and a caller that cannot go on is
blocked: on a lock, on a full queue (`signal` sends while it holds both guards) or, at the
other end of the channels, on an empty one.
-/

namespace Duende.Core

open Trans

def Job.mode : Job → Mode
  | .register .. | .unregister _ => .exclusive
  | _ => .shared

def Job.target : Job → Option DaemonId
  | .unregister id | .entry id _ | .signal id _ => some id
  | _ => none

namespace Locked

/-- What the function that runs a job does next: return its result, or go on as
`shutdown_all` does after its `list`, a `signal` or its `count`. -/
inductive Cont where
  | done
  | listed
  | each (ids : List DaemonId)
  | counted
  deriving DecidableEq

/-- The loop of `shutdown_all` over the ids it has left. -/
def Cont.loop : List DaemonId → Job × Cont
  | id :: ids => (.signal id .term, .each ids)
  | [] => (.count, .counted)

def Cont.next : Cont → Res → (Job × Cont) ⊕ Res
  | .done, r => .inr r
  | .listed, .ok (.ids ids) => .inl (loop ids)
  | .listed, _ => .inl (loop [])
  | .each ids, _ => .inl (loop ids)
  | .counted, _ => .inr (.ok .unit)

/-- How far a job is. From `run` to `leave` it holds the guard of the registry, and from
`body` to `leaveEntry` the guard of its entry too. -/
inductive Stage where
  | ask
  | enter
  | run
  | askEntry
  | enterEntry
  | body
  | send (handle : DaemonContextHandle)
  | dropGuard
  | remove
  | leaveEntry (r : Res)
  | leave (r : Res)
  deriving DecidableEq

/-- The next atomic step of a task: one of a manager call, or `recv_signal` on a context. -/
inductive Pc where
  | call (s : Stage) (j : Job) (k : Cont)
  | recv (c : ChanId)
  deriving DecidableEq

inductive Op where
  | job (j : Job)
  | shutdownAll
  | recv (c : ChanId)
  deriving DecidableEq

inductive Out where
  | returned (r : Res)
  | received (signal : Option Signal)
  deriving DecidableEq

/-- The locks, and what they protect. -/
structure Mem (ι : Type*) where
  registry : Lock ι
  entry : DaemonId → Lock ι
  world : World

variable {ι : Type*}

def Mem.init (w : World) : Mem ι := ⟨.free, fun _ => .free, w⟩

def Mem.setEntry (m : Mem ι) (id : DaemonId) (l : Lock ι) : Mem ι :=
  { m with entry := Function.update m.entry id l }

def start : Op → Pc
  | .job j => .call .ask j .done
  | .shutdownAll => .call .ask .list .listed
  | .recv c => .recv c

/-- With the guard of the registry: the whole job, or the lookup of its entry. -/
def lookUp (m : Mem ι) (order : List DaemonId) : Job → Option (Mem ι × Stage)
  | .register id name policy =>
    let r := m.world.register id name policy
    -- an entry that is inserted comes with a mutex of its own
    if id ∈ m.world.daemons then some (m, .leave r.2)
    else some ({ m.setEntry id .free with world := r.1 }, .leave r.2)
  | .count => some (m, .leave (.ok (.count m.world.count)))
  | .list => if m.world.Listing order then some (m, .leave (.ok (.ids order))) else none
  | .unregister id | .entry id _ | .signal id _ =>
    if id ∈ m.world.daemons then some (m, .askEntry)
    else some (m, .leave (.error (.notFound id.display)))

/-- With the guard of the entry `d` as well. -/
def body (m : Mem ι) (d : ManagedDaemon) : Job → Option (Mem ι × Stage)
  | .unregister id =>
    if d.status.isActive then
      some (m, .leaveEntry (.error (.state s!"cannot unregister active daemon {id.display}")))
    else some (m, .dropGuard)
  | .entry id o =>
    some ({ m with world.daemons := m.world.daemons.insert id (o.body d).1 },
      .leaveEntry (.ok (o.body d).2))
  | .signal id _ =>
    match d.signalTarget id with
    | .error e => some (m, .leaveEntry (.error e))
    | .ok handle => some (m, .send handle)
  | _ => none

/-- The atomic steps. The choice is the caller, who queues at the locks under its name, and
the order in which `list` sees the ids. -/
def exec [DecidableEq ι] (m : Mem ι) : Pc → ι × List DaemonId → Option (Mem ι × (Pc ⊕ Out))
  | .recv c, _ =>
    (m.world.chans c).recv.map fun r =>
      ({ m with world := m.world.setChan c r.1 }, .inr (.received r.2))
  | .call s j k, (i, order) =>
    match s with
    | .ask => some ({ m with registry := m.registry.ask i j.mode }, .inl (.call .enter j k))
    | .enter =>
      (m.registry.grant i).map fun l => ({ m with registry := l }, .inl (.call .run j k))
    | .run => (lookUp m order j).map fun r => (r.1, .inl (.call r.2 j k))
    | .askEntry =>
      j.target.map fun id =>
        (m.setEntry id ((m.entry id).ask i .exclusive), .inl (.call .enterEntry j k))
    | .enterEntry =>
      j.target.bind fun id => ((m.entry id).grant i).map fun l =>
        (m.setEntry id l, .inl (.call .body j k))
    | .body =>
      (j.target.bind m.world.daemons.lookup).bind fun d =>
        (body m d j).map fun r => (r.1, .inl (.call r.2 j k))
    | .send handle =>
      match j with
      | .signal _ signal =>
        (m.world.send handle signal).map fun r =>
          ({ m with world := r.1 }, .inl (.call (.leaveEntry r.2) j k))
      | _ => none
    | .dropGuard =>
      j.target.map fun id =>
        (m.setEntry id ((m.entry id).release i), .inl (.call .remove j k))
    | .remove =>
      j.target.map fun id =>
        ({ m with world.daemons := m.world.daemons.erase id },
          .inl (.call (.leave (.ok .unit)) j k))
    | .leaveEntry r =>
      j.target.map fun id =>
        (m.setEntry id ((m.entry id).release i), .inl (.call (.leave r) j k))
    | .leave r =>
      some ({ m with registry := m.registry.release i },
        match k.next r with
        | .inl (j', k') => .inl (.call .ask j' k')
        | .inr r' => .inr (.returned r'))

/-- The manager and the receiving ends of the contexts, under any number of callers. -/
def managerObj [DecidableEq ι] : Obj (Mem ι) Pc Op Out (ι × List DaemonId) Empty where
  start := start
  exec := exec
  env _ e := e.elim

/-- One action: caller `i` starts a call, or takes its next atomic step. -/
inductive MAct (ι : Type*) where
  | call (i : ι) (o : Op)
  | step (i : ι) (order : List DaemonId)
  deriving DecidableEq

def MAct.act : MAct ι → Act ι Op (ι × List DaemonId) Empty
  | .call i o => .call i o
  | .step i order => .step i (i, order)

abbrev MConf (ι : Type*) := Conf ι (Mem ι) Pc

def mact [DecidableEq ι] (c : MConf ι) (a : MAct ι) : Option (MConf ι) := managerObj.act c a.act

/-! ## What an atomic step does -/

/-- **What an atomic step of caller `i` can do.** -/
inductive Move [DecidableEq ι] (m : Mem ι) (i : ι) : Pc → Mem ι → Pc ⊕ Out → Prop where
  | received (c : ChanId) (r : SignalChan × Option Signal)
      (taken : (m.world.chans c).recv = some r) :
    Move m i (.recv c) { m with world := m.world.setChan c r.1 } (.inr (.received r.2))
  | ask (j : Job) (k : Cont) :
    Move m i (.call .ask j k) { m with registry := m.registry.ask i j.mode }
      (.inl (.call .enter j k))
  | enter (j : Job) (k : Cont) (l : Lock ι) (served : m.registry.grant i = some l) :
    Move m i (.call .enter j k) { m with registry := l } (.inl (.call .run j k))
  | answered (j : Job) (k : Cont) (r : Res) (order : List DaemonId)
      (answer : m.world.eval order j = some (m.world, r))
      (whole : j.target.bind m.world.daemons.lookup = none) :
    Move m i (.call .run j k) m (.inl (.call (.leave r) j k))
  | registered (id : DaemonId) (name : String) (policy : RestartPolicy) (k : Cont)
      (absent : id ∉ m.world.daemons) :
    Move m i (.call .run (.register id name policy) k)
      { m.setEntry id .free with world := (m.world.register id name policy).1 }
      (.inl (.call (.leave (m.world.register id name policy).2) (.register id name policy) k))
  | found (j : Job) (k : Cont) (id : DaemonId) (d : ManagedDaemon) (target : j.target = some id)
      (lookup : m.world.daemons.lookup id = some d) :
    Move m i (.call .run j k) m (.inl (.call .askEntry j k))
  | askEntry (j : Job) (k : Cont) (id : DaemonId) (target : j.target = some id) :
    Move m i (.call .askEntry j k) (m.setEntry id ((m.entry id).ask i .exclusive))
      (.inl (.call .enterEntry j k))
  | enterEntry (j : Job) (k : Cont) (id : DaemonId) (l : Lock ι) (target : j.target = some id)
      (served : (m.entry id).grant i = some l) :
    Move m i (.call .enterEntry j k) (m.setEntry id l) (.inl (.call .body j k))
  | refused (j : Job) (k : Cont) (e : DaemonError)
      (refusal : m.world.eval [] j = some (m.world, .error e)) :
    Move m i (.call .body j k) m (.inl (.call (.leaveEntry (.error e)) j k))
  | written (id : DaemonId) (o : EntryOp) (k : Cont) (d : ManagedDaemon)
      (lookup : m.world.daemons.lookup id = some d) :
    Move m i (.call .body (.entry id o) k)
      { m with world.daemons := m.world.daemons.insert id (o.body d).1 }
      (.inl (.call (.leaveEntry (.ok (o.body d).2)) (.entry id o) k))
  | dropping (id : DaemonId) (k : Cont) (d : ManagedDaemon)
      (lookup : m.world.daemons.lookup id = some d) (inactive : d.status.isActive = false) :
    Move m i (.call .body (.unregister id) k) m (.inl (.call .dropGuard (.unregister id) k))
  | sending (id : DaemonId) (signal : Signal) (k : Cont) (d : ManagedDaemon)
      (handle : DaemonContextHandle) (lookup : m.world.daemons.lookup id = some d)
      (ready : d.signalTarget id = .ok handle) :
    Move m i (.call .body (.signal id signal) k) m
      (.inl (.call (.send handle) (.signal id signal) k))
  | sent (id : DaemonId) (signal : Signal) (k : Cont) (handle : DaemonContextHandle)
      (r : World × Res) (offered : m.world.send handle signal = some r) :
    Move m i (.call (.send handle) (.signal id signal) k) { m with world := r.1 }
      (.inl (.call (.leaveEntry r.2) (.signal id signal) k))
  | dropGuard (j : Job) (k : Cont) (id : DaemonId) (target : j.target = some id) :
    Move m i (.call .dropGuard j k) (m.setEntry id ((m.entry id).release i))
      (.inl (.call .remove j k))
  | removed (j : Job) (k : Cont) (id : DaemonId) (target : j.target = some id) :
    Move m i (.call .remove j k) { m with world.daemons := m.world.daemons.erase id }
      (.inl (.call (.leave (.ok .unit)) j k))
  | leaveEntry (j : Job) (k : Cont) (r : Res) (id : DaemonId) (target : j.target = some id) :
    Move m i (.call (.leaveEntry r) j k) (m.setEntry id ((m.entry id).release i))
      (.inl (.call (.leave r) j k))
  | next (j j' : Job) (k k' : Cont) (r : Res) (more : k.next r = .inl (j', k')) :
    Move m i (.call (.leave r) j k) { m with registry := m.registry.release i }
      (.inl (.call .ask j' k'))
  | returned (j : Job) (k : Cont) (r r' : Res) (ends : k.next r = .inr r') :
    Move m i (.call (.leave r) j k) { m with registry := m.registry.release i }
      (.inr (.returned r'))

section

variable [DecidableEq ι] {m m' : Mem ι} {i : ι} {order : List DaemonId} {j : Job} {k : Cont}
  {s : Stage} {p : Pc} {q : Pc ⊕ Out}

theorem eval_notFound {w : World} {id : DaemonId} (ht : j.target = some id)
    (hl : w.daemons.lookup id = none) :
    w.eval [] j = some (w, .error (.notFound id.display)) := by
  cases j with
  | register | count | list => cases ht
  | unregister => cases ht; simp [World.eval, World.unregister, hl]
  | entry => cases ht; simp [World.eval, World.entry, hl]
  | signal => cases ht; simp [World.eval, World.signal, hl]

theorem move_of_find {id : DaemonId} (ht : j.target = some id)
    (h : (if id ∈ m.world.daemons then some (m, Stage.askEntry)
      else some (m, .leave (.error (.notFound id.display)))) = some (m', s)) :
    Move m i (.call .run j k) m' (.inl (.call s j k)) := by
  split at h
  · rename_i hp
    obtain ⟨d, hd⟩ := Finmap.mem_iff.1 hp
    cases h; exact .found j k id d ht hd
  · rename_i hn
    cases h
    have hl := Finmap.lookup_eq_none.2 hn
    exact .answered j k _ [] (eval_notFound ht hl) (by rw [ht]; exact hl)

theorem move_of_lookUp (h : lookUp m order j = some (m', s)) :
    Move m i (.call .run j k) m' (.inl (.call s j k)) := by
  cases j with
  | register id name policy =>
    simp only [lookUp] at h
    split at h
    · rename_i hp
      cases h
      exact .answered _ k _ [] (by simp [World.eval, World.register, hp]) rfl
    · rename_i hn
      cases h; exact .registered id name policy k hn
  | count => cases h; exact .answered _ k _ [] rfl rfl
  | list =>
    simp only [lookUp, Option.ite_none_right_eq_some] at h
    obtain ⟨hl, he⟩ := h
    cases he
    exact .answered _ k _ order (by simp [World.eval, hl]) rfl
  | unregister id => exact move_of_find rfl h
  | entry id o => exact move_of_find rfl h
  | signal id sig => exact move_of_find rfl h

theorem move_of_body {id : DaemonId} {d : ManagedDaemon} (ht : j.target = some id)
    (hd : m.world.daemons.lookup id = some d) (h : body m d j = some (m', s)) :
    Move m i (.call .body j k) m' (.inl (.call s j k)) := by
  cases j with
  | register | count | list => cases h
  | unregister id' =>
    cases ht
    simp only [body] at h
    split at h
    · rename_i ha
      cases h
      exact .refused _ k _ (by simp [World.eval, World.unregister, hd, ha])
    · rename_i ha
      cases h; exact .dropping id k d hd (by simpa using ha)
  | entry id' o => cases ht; cases h; exact .written id o k d hd
  | signal id' sig =>
    cases ht
    simp only [body] at h
    split at h
    · rename_i e he
      cases h
      exact .refused _ k _ (by simp [World.eval, World.signal, hd, he])
    · rename_i handle hh
      cases h; exact .sending id sig k d handle hd hh

theorem move_of_exec (h : exec m p (i, order) = some (m', q)) : Move m i p m' q := by
  cases p with
  | recv c =>
    obtain ⟨r, hr, he⟩ := Option.map_eq_some_iff.1 h
    cases he; exact .received c r hr
  | call s j k =>
    cases s with
    | ask => cases h; exact .ask j k
    | enter =>
      obtain ⟨l, hl, he⟩ := Option.map_eq_some_iff.1 h
      cases he; exact .enter j k l hl
    | run =>
      obtain ⟨r, hr, he⟩ := Option.map_eq_some_iff.1 h
      cases he; exact move_of_lookUp hr
    | askEntry =>
      obtain ⟨id, ht, he⟩ := Option.map_eq_some_iff.1 h
      cases he; exact .askEntry j k id ht
    | enterEntry =>
      obtain ⟨id, ht, hg⟩ := Option.bind_eq_some_iff.1 h
      obtain ⟨l, hl, he⟩ := Option.map_eq_some_iff.1 hg
      cases he; exact .enterEntry j k id l ht hl
    | body =>
      obtain ⟨d, hd, hb⟩ := Option.bind_eq_some_iff.1 h
      obtain ⟨id, ht, hd⟩ := Option.bind_eq_some_iff.1 hd
      obtain ⟨r, hr, he⟩ := Option.map_eq_some_iff.1 hb
      cases he; exact move_of_body ht hd hr
    | send handle =>
      cases j with
      | signal id sig =>
        obtain ⟨r, hr, he⟩ := Option.map_eq_some_iff.1 h
        cases he; exact .sent id sig k handle r hr
      | _ => cases h
    | dropGuard =>
      obtain ⟨id, ht, he⟩ := Option.map_eq_some_iff.1 h
      cases he; exact .dropGuard j k id ht
    | remove =>
      obtain ⟨id, ht, he⟩ := Option.map_eq_some_iff.1 h
      cases he; exact .removed j k id ht
    | leaveEntry r =>
      obtain ⟨id, ht, he⟩ := Option.map_eq_some_iff.1 h
      cases he; exact .leaveEntry j k r id ht
    | leave r =>
      cases h
      cases hn : k.next r with
      | inl jk => exact .next j jk.1 k jk.2 r hn
      | inr r' => exact .returned j k r r' hn

/-- **What an action can do**: a call is started, or a caller makes a move. -/
theorem mact_cases {c c' : MConf ι} {a : MAct ι} (h : mact c a = some c') :
    (∃ i o, a = .call i o ∧ c.pc i = none ∧
      c' = ⟨c.shared, Function.update c.pc i (some (start o))⟩) ∨
    (∃ i order p m q, a = .step i order ∧ c.pc i = some p ∧ Move c.shared i p m q ∧
      c' = ⟨m, Function.update c.pc i q.getLeft?⟩) := by
  cases a with
  | call i o =>
    obtain ⟨hi, hc⟩ := Obj.act_call.1 h
    exact .inl ⟨i, o, rfl, hi, hc⟩
  | step i order =>
    obtain ⟨p, m, q, hp, hx, hc⟩ := Obj.act_step.1 h
    exact .inr ⟨i, order, p, m, q, rfl, hp, move_of_exec hx, hc⟩

end

/-! ## Who is where -/

/-- In the queue of the registry, with the mode asked for. -/
def Pc.asks : Pc → Option Mode
  | .call .enter j _ => some j.mode
  | _ => none

def Stage.inside : Stage → Bool
  | .ask | .enter => false
  | _ => true

def Pc.holds : Pc → Option Mode
  | .call s j _ => if s.inside then some j.mode else none
  | .recv _ => none

/-- In the queue of the mutex of `id`. -/
def Pc.asksEntry (id : DaemonId) : Pc → Option Mode
  | .call .enterEntry j _ => if j.target = some id then some .exclusive else none
  | _ => none

def Stage.guarding : Stage → Bool
  | .body | .send _ | .dropGuard | .leaveEntry _ => true
  | _ => false

def Pc.holdsEntry (id : DaemonId) : Pc → Option Mode
  | .call s j _ => if s.guarding ∧ j.target = some id then some .exclusive else none
  | .recv _ => none

/-- What a job that is at a stage has seen in the registry; nobody changes it meanwhile. -/
def Stage.Fits (daemons : Finmap fun _ : DaemonId => ManagedDaemon) (j : Job) : Stage → Prop
  | .askEntry | .enterEntry | .body => ∃ id d, j.target = some id ∧ daemons.lookup id = some d
  | .send handle => ∃ id signal d, j = .signal id signal ∧ daemons.lookup id = some d ∧
      d.signalTarget id = .ok handle
  | .dropGuard | .remove => ∃ id d, j = .unregister id ∧ daemons.lookup id = some d ∧
      d.status.isActive = false
  | _ => True

def Pc.Fits (daemons : Finmap fun _ : DaemonId => ManagedDaemon) : Pc → Prop
  | .call s j _ => s.Fits daemons j
  | .recv _ => True

/-- The invariant of the manager: the locks know where the tasks are, and what a task has
seen still holds. -/
structure Inv (c : MConf ι) : Prop where
  registry : c.shared.registry.Tracks (fun i => (c.pc i).bind Pc.asks)
    (fun i => (c.pc i).bind Pc.holds)
  entry : ∀ id, (c.shared.entry id).Tracks (fun i => (c.pc i).bind (Pc.asksEntry id))
    (fun i => (c.pc i).bind (Pc.holdsEntry id))
  fits : ∀ i p, c.pc i = some p → p.Fits c.shared.world.daemons

theorem inv_init {w : World} : Inv (Obj.init (Mem.init w) : MConf ι) where
  registry := Lock.tracks_free
  entry _ := Lock.tracks_free
  fits i p h := by cases h

section

variable [DecidableEq ι] {m m' : Mem ι} {i : ι} {p : Pc} {q : Pc ⊕ Out}

theorem bind_update {α β : Type*} {f : α → Option β} {g : ι → Option α} {x : Option α} :
    (fun j => (Function.update g i x j).bind f) =
      Function.update (fun j => (g j).bind f) i (x.bind f) := by
  funext j
  by_cases e : j = i
  · subst e; simp
  · simp [e]

theorem Move.registry (h : Move m i p m' q) :
    m.registry.Moves i m'.registry p.asks p.holds (q.getLeft?.bind Pc.asks)
      (q.getLeft?.bind Pc.holds) := by
  cases h with
  | ask j k => exact .ask j.mode
  | enter j k l served => exact .grant served
  | next => exact .release
  | returned => exact .release
  | _ => exact .keep

theorem moves_setEntry (id : DaemonId) {id' : DaemonId} {l : Lock ι} {a h a' h' : Option Mode}
    (hl : (m.entry id').Moves i l a h a' h') :
    (m.entry id).Moves i ((m.setEntry id' l).entry id) (if id' = id then a else none)
      (if id' = id then h else none) (if id' = id then a' else none)
      (if id' = id then h' else none) := by
  by_cases e : id' = id
  · subst e; simpa [Mem.setEntry] using hl
  · simp only [Mem.setEntry, Function.update_of_ne (Ne.symm e), e, ↓reduceIte]
    exact .keep

/-- What a move does to the mutex of `id`: the moves of a lock, or `register` makes a new
one. -/
theorem Move.entry (id : DaemonId) (h : Move m i p m' q) :
    (m.entry id).Moves i (m'.entry id) (p.asksEntry id) (p.holdsEntry id)
      (q.getLeft?.bind (Pc.asksEntry id)) (q.getLeft?.bind (Pc.holdsEntry id)) ∨
    (m'.entry id = .free ∧ p.holds = some .exclusive ∧
      q.getLeft?.bind (Pc.asksEntry id) = none ∧ q.getLeft?.bind (Pc.holdsEntry id) = none) := by
  cases h with
  | registered id' name policy k absent =>
    by_cases e : id = id'
    · subst e
      exact .inr ⟨Function.update_self .., rfl, rfl, rfl⟩
    · left
      simp only [Mem.setEntry, Function.update_of_ne e]
      exact .keep
  | askEntry j k id' target =>
    left
    have := moves_setEntry id (.ask .exclusive : (m.entry id').Moves i _ none none _ _)
    simpa [Pc.asksEntry, Pc.holdsEntry, Stage.guarding, target] using this
  | enterEntry j k id' l target served =>
    left
    have := moves_setEntry id (.grant served : (m.entry id').Moves i l (some .exclusive) _ _ _)
    simpa [Pc.asksEntry, Pc.holdsEntry, Stage.guarding, target] using this
  | dropGuard j k id' target =>
    left
    have := moves_setEntry id (.release : (m.entry id').Moves i _ none (some .exclusive) _ _)
    simpa [Pc.asksEntry, Pc.holdsEntry, Stage.guarding, target] using this
  | leaveEntry j k r id' target =>
    left
    have := moves_setEntry id (.release : (m.entry id').Moves i _ none (some .exclusive) _ _)
    simpa [Pc.asksEntry, Pc.holdsEntry, Stage.guarding, target] using this
  | _ => exact .inl .keep

/-! ## The invariant -/

theorem Pc.holds_of_asksEntry {id : DaemonId} (h : (p.asksEntry id).isSome) : p.holds.isSome := by
  cases p with
  | recv c => cases h
  | call s j k =>
    cases s with
    | enterEntry => rfl
    | _ => cases h

theorem Pc.holds_of_holdsEntry {id : DaemonId} (h : (p.holdsEntry id).isSome) :
    p.holds.isSome := by
  cases p with
  | recv c => cases h
  | call s j k =>
    cases s with
    | body | send | dropGuard | leaveEntry => rfl
    | _ => simp [holdsEntry, Stage.guarding] at h

/-- Outside the lock of the registry nothing has been seen. -/
theorem Pc.fits_of_outside {daemons : Finmap fun _ : DaemonId => ManagedDaemon}
    (h : p.holds = none) : p.Fits daemons := by
  cases p with
  | recv c => trivial
  | call s j k =>
    cases s with
    | ask | enter => trivial
    | _ => cases h

theorem send_daemons {w : World} {handle : DaemonContextHandle} {signal : Signal} {r : World × Res}
    (h : w.send handle signal = some r) : r.1.daemons = w.daemons := by
  rcases World.send_cases h with ⟨-, -, _, hr⟩ | ⟨-, -, hr⟩ <;> rw [hr]
  rfl

/-- A move leaves the registry as it is, holds it exclusively, or writes one entry. -/
theorem Move.daemons (h : Move m i p m' q) (hf : p.Fits m.world.daemons) :
    m'.world.daemons = m.world.daemons ∨ p.holds = some .exclusive ∨
      ∃ id o k d, p = .call .body (.entry id o) k ∧ m.world.daemons.lookup id = some d ∧
        m'.world.daemons = m.world.daemons.insert id (o.body d).1 := by
  cases h with
  | registered => exact .inr (.inl rfl)
  | removed j k id target =>
    obtain ⟨id', d, rfl, -⟩ := hf
    exact .inr (.inl rfl)
  | written id o k d lookup => exact .inr (.inr ⟨id, o, k, d, rfl, lookup, rfl⟩)
  | sent id signal k handle r offered => exact .inl (send_daemons offered)
  | _ => exact .inl rfl

theorem Move.fits (h : Move m i p m' q) (hf : p.Fits m.world.daemons) {p' : Pc}
    (hq : q.getLeft? = some p') : p'.Fits m'.world.daemons := by
  cases h with
  | received | returned => cases hq
  | found j k id d target lookup => cases hq; exact ⟨id, d, target, lookup⟩
  | askEntry => cases hq; exact hf
  | enterEntry => cases hq; exact hf
  | dropping id k d lookup inactive => cases hq; exact ⟨id, d, rfl, lookup, inactive⟩
  | sending id signal k d handle lookup ready =>
    cases hq; exact ⟨id, signal, d, rfl, lookup, ready⟩
  | dropGuard => cases hq; exact hf
  | _ => cases hq; trivial

variable {c c' : MConf ι} {i' : ι} {p' : Pc}

omit [DecidableEq ι] in
theorem Inv.alone (h : Inv c) (hp : c.pc i = some p) (he : p.holds = some .exclusive)
    (hp' : c.pc i' = some p') (hh : p'.holds.isSome) : i = i' := by
  obtain ⟨n, hn⟩ := Option.isSome_iff_exists.1 hh
  refine h.registry.exclusive (show (c.pc i).bind Pc.holds = some _ by rw [hp]; exact he)
    (show (c.pc i').bind Pc.holds = some n by rw [hp']; exact hn) ?_
  cases n <;> rfl

omit [DecidableEq ι] in
theorem Inv.guard {id : DaemonId} (h : Inv c) (hp : c.pc i = some p)
    (he : p.holdsEntry id = some .exclusive) (hp' : c.pc i' = some p')
    (he' : p'.holdsEntry id = some .exclusive) : i = i' :=
  (h.entry id).exclusive (show (c.pc i).bind (Pc.holdsEntry id) = some _ by rw [hp]; exact he)
    (show (c.pc i').bind (Pc.holdsEntry id) = some _ by rw [hp']; exact he') rfl

/-- What a task has seen is not changed by the move of another one. -/
theorem Inv.fits_other (h : Inv c) (hp : c.pc i = some p) (hm : Move c.shared i p m' q)
    (hp' : c.pc i' = some p') (hne : i ≠ i') : p'.Fits m'.world.daemons := by
  have hf' := h.fits i' p' hp'
  rcases hm.daemons (h.fits i p hp) with hd | he | ⟨id, o, k, d, rfl, hl, hd⟩
  · rw [hd]; exact hf'
  · refine Pc.fits_of_outside ?_
    by_contra hh
    exact hne (h.alone hp he hp' (Option.isSome_iff_ne_none.2 hh))
  · rw [hd]
    cases p' with
    | recv => trivial
    | call s j k' =>
      cases s with
      | askEntry | enterEntry | body =>
        -- an entry that is written stays registered
        obtain ⟨id', d', ht, hl'⟩ := hf'
        by_cases e : id' = id
        · subst e; exact ⟨id', _, ht, Finmap.lookup_insert _⟩
        · exact ⟨id', d', ht, by rw [Finmap.lookup_insert_of_ne _ e]; exact hl'⟩
      | send handle =>
        obtain ⟨id', signal, d', rfl, hl', ht⟩ := hf'
        have e : id' ≠ id := by
          rintro rfl
          exact hne (h.guard hp (if_pos ⟨rfl, rfl⟩) hp' (if_pos ⟨rfl, rfl⟩))
        exact ⟨id', signal, d', rfl, by rw [Finmap.lookup_insert_of_ne _ e]; exact hl', ht⟩
      | dropGuard | remove =>
        obtain ⟨id', d', rfl, -⟩ := hf'
        exact absurd (h.alone hp' rfl hp rfl) (Ne.symm hne)
      | _ => trivial

theorem Inv.call {o : Op} (h : Inv c) (hi : c.pc i = none) :
    Inv ⟨c.shared, Function.update c.pc i (some (start o))⟩ where
  registry := by
    have hs : (start o).asks = none ∧ (start o).holds = none := by cases o <;> exact ⟨rfl, rfl⟩
    have hk : c.shared.registry.Moves i c.shared.registry ((c.pc i).bind Pc.asks)
        ((c.pc i).bind Pc.holds) (start o).asks (start o).holds := by
      rw [hi, hs.1, hs.2]; exact .keep
    simpa only [bind_update, Option.bind_some] using h.registry.moves hk
  entry := by
    intro id
    have hs : (start o).asksEntry id = none ∧ (start o).holdsEntry id = none := by
      cases o <;> exact ⟨rfl, rfl⟩
    have hk : (c.shared.entry id).Moves i (c.shared.entry id) ((c.pc i).bind (Pc.asksEntry id))
        ((c.pc i).bind (Pc.holdsEntry id)) ((start o).asksEntry id)
        ((start o).holdsEntry id) := by
      rw [hi, hs.1, hs.2]; exact .keep
    simpa only [bind_update, Option.bind_some] using (h.entry id).moves hk
  fits := by
    intro i' p' hp'
    rcases Conf.pc_update_cases hp' with ⟨-, hs⟩ | ⟨-, hp'⟩
    · cases hs; cases o <;> trivial
    · exact h.fits i' p' hp'

theorem Inv.move (h : Inv c) (hp : c.pc i = some p) (hm : Move c.shared i p m' q) :
    Inv ⟨m', Function.update c.pc i q.getLeft?⟩ where
  registry := by
    have hk : c.shared.registry.Moves i m'.registry ((c.pc i).bind Pc.asks)
        ((c.pc i).bind Pc.holds) (q.getLeft?.bind Pc.asks) (q.getLeft?.bind Pc.holds) := by
      rw [hp]; exact hm.registry
    simpa only [bind_update, Option.bind_some] using h.registry.moves hk
  entry := by
    intro id
    rcases hm.entry id with hk | ⟨hnew, he, ha, hh⟩
    · have hk' : (c.shared.entry id).Moves i (m'.entry id) ((c.pc i).bind (Pc.asksEntry id))
          ((c.pc i).bind (Pc.holdsEntry id)) (q.getLeft?.bind (Pc.asksEntry id))
          (q.getLeft?.bind (Pc.holdsEntry id)) := by
        rw [hp]; exact hk
      simpa only [bind_update] using (h.entry id).moves hk'
    · -- nobody else is inside the registry, so nobody waits for the new mutex or holds it
      have hout : ∀ f : Pc → Option Mode, (∀ p, (f p).isSome → p.holds.isSome) →
          q.getLeft?.bind f = none →
          (fun i' => (Function.update c.pc i q.getLeft? i').bind f) = fun _ => none := by
        intro f hf hq
        funext i'
        cases hu : Function.update c.pc i q.getLeft? i' with
        | none => rfl
        | some p' =>
          rcases Conf.pc_update_cases hu with ⟨-, hs⟩ | ⟨e, hp'⟩
          · rw [← hs]; exact hq
          · by_contra hne
            exact e (h.alone hp he hp' (hf p' (Option.isSome_iff_ne_none.2 hne))).symm
      show (m'.entry id).Tracks _ _
      rw [hnew, hout _ (fun _ => Pc.holds_of_asksEntry) ha,
        hout _ (fun _ => Pc.holds_of_holdsEntry) hh]
      exact Lock.tracks_free
  fits := by
    intro i' p' hp'
    rcases Conf.pc_update_cases hp' with ⟨-, hq⟩ | ⟨e, hp'⟩
    · exact hm.fits (h.fits i p hp) hq
    · exact h.fits_other hp hm hp' (Ne.symm e)

theorem Inv.act {a : MAct ι} (h : Inv c) (ha : mact c a = some c') : Inv c' := by
  rcases mact_cases ha with ⟨i, o, -, hi, rfl⟩ | ⟨i, order, p, m, q, -, hp, hm, rfl⟩
  · exact h.call hi
  · exact h.move hp hm

theorem inv_run {w : World} {as : List (MAct ι)}
    (h : run mact (Obj.init (Mem.init w)) as = some c) : Inv c :=
  run_inv (fun _ _ _ hi ha => hi.act ha) inv_init h

end

end Locked

end Duende.Core
