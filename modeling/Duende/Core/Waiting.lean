import Duende.Core.Locked
import Duende.Core.Shutdown

/-!
# Who waits for whom

The callers of the manager are tasks. A task that runs a daemon receives from the channel of
its context and updates its own entry; all others make any calls. `WaitsOn` says whose turn a
task is waiting for: that of the tasks before it at a lock, or of the receiver of a full queue.
-/

namespace Duende.Core.Locked

open Trans

variable {ι : Type*}

/-! ## Tasks and what they wait for -/

/-- The tasks that run daemons: which daemon, and the channel of its context. -/
abbrev Roles (ι : Type*) := ι → Option (DaemonId × ChanId)

def Op.isRecv : Op → Bool
  | .recv _ => true
  | _ => false

/-- What the task of a daemon calls: `recv_signal`, and updates of its own entry. -/
def Op.ofDaemon (id : DaemonId) (ch : ChanId) : Op → Bool
  | .recv ch' => ch' = ch
  | .job (.entry id' (.updateStatus _)) => id' = id
  | .job (.entry id' (.updateHealth _)) => id' = id
  | _ => false

def Allowed (role : Roles ι) : MAct ι → Prop
  | .call i o =>
    match role i with
    | some (id, ch) => o.ofDaemon id ch = true
    | none => o.isRecv = false
  | .step .. => True

def callsOf [DecidableEq ι] (i : ι) (as : List (MAct ι)) : List Op :=
  as.filterMap fun
    | .call i' o => if i' = i then some o else none
    | .step .. => none

/-- The tasks of the daemons alternate `recv_signal` with updates of their own entries; all
other callers make any calls of the manager. -/
structure Scenario [DecidableEq ι] (role : Roles ι) (as : List (MAct ι)) : Prop where
  allowed : ∀ a ∈ as, Allowed role a
  turns : ∀ i, (role i).isSome → (callsOf i as).IsChain fun o o' => o.isRecv ≠ o'.isRecv

def Pc.sendsTo : Pc → Option ChanId
  | .call (.send handle) _ _ => some handle.signalTx
  | _ => none

/-- The channel a signal is about to send to, once it has the entry of its daemon. -/
def Pc.comesTo (w : World) : Pc → Option ChanId
  | .call .body (.signal id _) _ => w.target id
  | _ => none

/-- The task `i` stands at its send to `ch`, with both its guards. -/
def Sending (c : MConf ι) (ch : ChanId) (i : ι) : Prop := (c.pc i).bind Pc.sendsTo = some ch

def Full (c : MConf ι) (ch : ChanId) : Prop := (c.shared.world.chans ch).Full

/-- `t` waits for `u`: for the lock of the registry, for a mutex, or for a slot of the queue
that `u` receives from. -/
inductive WaitsOn (role : Roles ι) (c : MConf ι) (t u : ι) : Prop where
  | registry (blocks : c.shared.registry.Blocks t u)
  | entry (id : DaemonId) (blocks : (c.shared.entry id).Blocks t u)
  | slot (ch : ChanId) (full : Full c ch) (sends : Sending c ch t)
      (receives : (role u).map Prod.snd = some ch)

/-- A call that does not have its entry yet. -/
def Pc.early : Pc → Bool
  | .call .ask .. | .call .enter .. | .call .run .. | .call .askEntry .. | .call .enterEntry .. =>
    true
  | _ => false

instance (c : MConf ι) (ch : ChanId) : Decidable (Full c ch) :=
  inferInstanceAs (Decidable (Chan.Full _))

instance (c : MConf ι) (ch : ChanId) (i : ι) : Decidable (Sending c ch i) :=
  inferInstanceAs (Decidable (_ = _))

instance (role : Roles ι) : DecidablePred (Allowed role)
  | .call i o =>
    match h : role i with
    | some (id, ch) => decidable_of_iff (o.ofDaemon id ch = true) (by simp [Allowed, h])
    | none => decidable_of_iff (o.isRecv = false) (by simp [Allowed, h])
  | .step .. => isTrue trivial

/-! ## Where tasks wait -/

section

variable {role : Roles ι} {c : MConf ι} {ch : ChanId} {p : Pc}

theorem Inv.enter_of_queue {t : ι} {n : Mode} (hi : Inv c)
    (h : (t, n) ∈ c.shared.registry.queue) : ∃ j k, c.pc t = some (.call .enter j k) := by
  obtain ⟨p, hp, ha⟩ := Option.bind_eq_some_iff.1 ((hi.registry.queue t n).1 h)
  cases p with
  | recv => cases ha
  | call s j k =>
    cases s with
    | enter => exact ⟨j, k, hp⟩
    | _ => cases ha

theorem Inv.enterEntry_of_queue {t : ι} {n : Mode} {id : DaemonId} (hi : Inv c)
    (h : (t, n) ∈ (c.shared.entry id).queue) :
    ∃ j k, j.target = some id ∧ c.pc t = some (.call .enterEntry j k) := by
  obtain ⟨p, hp, ha⟩ := Option.bind_eq_some_iff.1 (((hi.entry id).queue t n).1 h)
  cases p with
  | recv => cases ha
  | call s j k =>
    cases s with
    | enterEntry =>
      simp only [Pc.asksEntry, Option.ite_none_right_eq_some] at ha
      exact ⟨j, k, ha.1, hp⟩
    | _ => cases ha

theorem Sending.stage {t : ι} (h : Sending c ch t) :
    ∃ handle j k, c.pc t = some (.call (.send handle) j k) := by
  obtain ⟨p, hp, hs⟩ := Option.bind_eq_some_iff.1 h
  cases p with
  | recv => cases hs
  | call s j k =>
    cases s with
    | send handle => exact ⟨handle, j, k, hp⟩
    | _ => cases hs

def entryCall (id : DaemonId) : Job → Cont → Bool
  | .entry id' _, .done => id' = id
  | _, _ => false

/-- A task keeps to its role: a daemon receives from its channel or updates its entry, and the
other tasks receive nothing. -/
def Pc.plays (r : Option (DaemonId × ChanId)) : Pc → Bool
  | .recv ch => r.map Prod.snd = some ch
  | .call _ j k =>
    match r with
    | some (id, _) => entryCall id j k
    | none => true

def Tame (role : Roles ι) (c : MConf ι) : Prop := ∀ i p, c.pc i = some p → p.plays (role i) = true

theorem exists_of_snd {r : Option (DaemonId × ChanId)} (h : r.map Prod.snd = some ch) :
    ∃ id, r = some (id, ch) := by
  obtain ⟨⟨id, ch'⟩, hr, rfl⟩ := Option.map_eq_some_iff.1 h
  exact ⟨id, hr⟩

theorem Tame.not_sending {u : ι} {ch' : ChanId} (ht : Tame role c) (hi : Inv c)
    (hu : (role u).map Prod.snd = some ch) : ¬ Sending c ch' u := by
  intro h
  obtain ⟨handle, j, k, hp⟩ := h.stage
  obtain ⟨id, signal, d, rfl, -⟩ := hi.fits u _ hp
  obtain ⟨id', hr⟩ := exists_of_snd hu
  have := ht u _ hp
  rw [hr] at this; cases this

end

section

variable [DecidableEq ι] {m m' : Mem ι} {i t u : ι} {p : Pc} {q : Pc ⊕ Out} {role : Roles ι}
  {c c' : MConf ι} {a : MAct ι} {ch : ChanId} {order : List DaemonId}

theorem mact_step_none (hp : c.pc t = some p) :
    mact c (.step t order) = none ↔ exec c.shared p (t, order) = none := by
  simp [mact, MAct.act, Obj.act, hp, managerObj]

theorem WaitsOn.blocked (h : WaitsOn role c t u) (hi : Inv c) :
    mact c (.step t order) = none := by
  cases h with
  | registry blocks =>
    obtain ⟨n, hn⟩ := blocks.queued
    obtain ⟨j, k, hp⟩ := hi.enter_of_queue hn
    have hg := (hi.registry.ok.grant_eq_none hn).2 ⟨u, blocks⟩
    rw [mact_step_none hp]
    simp [exec, hg]
  | entry id blocks =>
    obtain ⟨n, hn⟩ := blocks.queued
    obtain ⟨j, k, hj, hp⟩ := hi.enterEntry_of_queue hn
    have hg := ((hi.entry id).ok.grant_eq_none hn).2 ⟨u, blocks⟩
    rw [mact_step_none hp]
    simp [exec, hj, hg]
  | slot ch full sends receives =>
    obtain ⟨handle, j, k, hp⟩ := sends.stage
    obtain ⟨id, signal, d, rfl, -⟩ := hi.fits t _ hp
    have hch : handle.signalTx = ch := by simpa [Sending, hp, Pc.sendsTo] using sends
    have hs : c.shared.world.send handle signal = none :=
      World.send_eq_none.2 (by rw [hch]; exact full)
    rw [mact_step_none hp]
    simp [exec, hs]

theorem Inv.waits_of_blocked {s : Stage} {j : Job} {k : Cont} (hi : Inv c)
    (hp : c.pc t = some (.call s j k)) (hs : s = .enter ∨ s = .enterEntry)
    (h : mact c (.step t order) = none) : ∃ u, WaitsOn role c t u := by
  rw [mact_step_none hp] at h
  rcases hs with rfl | rfl
  · have hq : (t, j.mode) ∈ c.shared.registry.queue :=
      (hi.registry.queue t _).2 (by rw [hp]; rfl)
    obtain ⟨u, hu⟩ := (hi.registry.ok.grant_eq_none hq).1 (by simpa [exec] using h)
    exact ⟨u, .registry hu⟩
  · obtain ⟨id, d, hj, -⟩ := hi.fits t _ hp
    have hq : (t, Mode.exclusive) ∈ (c.shared.entry id).queue :=
      ((hi.entry id).queue t _).2 (by rw [hp]; exact if_pos hj)
    obtain ⟨u, hu⟩ := ((hi.entry id).ok.grant_eq_none hq).1 (by simpa [exec, hj] using h)
    exact ⟨u, .entry id hu⟩

omit [DecidableEq ι] in
theorem plays_start {o : Op} (h : Allowed role (.call i o)) : (start o).plays (role i) = true := by
  simp only [Allowed] at h
  cases hr : role i with
  | none =>
    rw [hr] at h
    cases o with
    | recv => cases h
    | _ => rfl
  | some x =>
    obtain ⟨id, ch⟩ := x
    rw [hr] at h
    cases o with
    | recv ch' =>
      have : ch' = ch := by simpa [Op.ofDaemon] using h
      simp [start, Pc.plays, this]
    | shutdownAll => cases h
    | job j =>
      cases j with
      | entry id' o =>
        cases o with
        | updateStatus | updateHealth => exact h
        | _ => cases h
      | _ => cases h

theorem Move.plays {r : Option (DaemonId × ChanId)} (h : Move m i p m' q)
    (ht : p.plays r = true) {p' : Pc} (hq : q.getLeft? = some p') : p'.plays r = true := by
  cases h with
  | received | returned => cases hq
  | next j j' k k' r' more =>
    cases hq
    cases r with
    | none => rfl
    | some x =>
      -- an update returns its result at once
      cases j with
      | entry =>
        cases k with
        | done => cases more
        | _ => cases ht
      | _ => cases ht
  | _ => cases hq; exact ht

theorem Tame.act (h : Tame role c) (ha : Allowed role a) (hx : mact c a = some c') :
    Tame role c' := by
  intro i' p' hp'
  rcases mact_cases hx with ⟨i, o, rfl, hi, rfl⟩ | ⟨i, order, p, m, q, rfl, hp, hm, rfl⟩
  · rcases Conf.pc_update_cases hp' with ⟨rfl, hs⟩ | ⟨-, hp'⟩
    · cases hs; exact plays_start ha
    · exact h i' p' hp'
  · rcases Conf.pc_update_cases hp' with ⟨rfl, hq⟩ | ⟨-, hp'⟩
    · exact hm.plays (h i' p hp) hq
    · exact h i' p' hp'

/-! ## What a move does to queues and places -/

theorem Move.early {x : DaemonId × ChanId} (h : Move m i p m' q) (ht : p.plays (some x) = true)
    (hq : q.getLeft?.any Pc.early = true) : p.early = true ∧ m'.world = m.world := by
  cases h with
  | next j j' k k' r more =>
    cases j with
    | entry =>
      cases k with
      | done => cases more
      | _ => cases ht
    | _ => cases ht
  | ask | enter | found | askEntry => exact ⟨rfl, rfl⟩
  | _ => cases hq

theorem Move.sendsTo (h : Move m i p m' q) (hq : q.getLeft?.bind Pc.sendsTo = some ch) :
    p.comesTo m.world = some ch ∧ m'.world = m.world := by
  cases h with
  | sending id signal k d handle lookup ready =>
    cases hq
    exact ⟨by simp [Pc.comesTo, World.target, lookup, ready], rfl⟩
  | _ => cases hq

/-- A queue becomes full by a send that takes its last slot. -/
theorem Move.fills (h : Move m i p m' q) (hn : ¬ (m.world.chans ch).Full)
    (hf : (m'.world.chans ch).Full) :
    p.sendsTo = some ch ∧ (m.world.chans ch).queue.length = 15 := by
  cases h with
  | received c r taken =>
    by_cases e : ch = c
    · subst e
      have hr : (m.world.chans ch).tryRecv = (r.1, r.2) := Chan.tryRecv_of_recv taken
      have hf' : r.1.Full := by simpa [World.setChan] using hf
      rcases Chan.tryRecv_cases hr with ⟨-, he, -⟩ | ⟨s, -, hq, -, hrec⟩
      · rw [he] at hf'; exact absurd hf' hn
      · have hb := (m.world.chans ch).bounded
        have hl := hf'.2
        rw [hq, List.length_cons] at hb
        omega
    · exact absurd (by simpa [World.setChan, e] using hf) hn
  | sent id signal k handle r offered =>
    rcases World.send_cases offered with ⟨-, hrec, hroom, hr⟩ | ⟨-, -, hr⟩
    · by_cases e : ch = handle.signalTx
      · subst e
        refine ⟨rfl, ?_⟩
        have hl : 16 ≤ (m.world.chans handle.signalTx).queue.length + 1 := by
          simpa [hr, World.setChan] using hf.2
        omega
      · exact absurd (by simpa [hr, World.setChan, e] using hf) hn
    · exact absurd (by simpa [hr] using hf) hn
  | registered id name policy k absent =>
    have : (m.world.register id name policy).1.chans = m.world.chans := by
      simp [World.register, absent]
    exact absurd (by simpa [this] using hf) hn
  | _ => exact absurd hf hn

theorem Pc.sendsTo_of_early (h : p.early = true) : p.sendsTo = none := by
  cases p with
  | recv => rfl
  | call s j k =>
    cases s with
    | send => cases h
    | _ => rfl

/-- A queue stays full until its own receiver takes a signal. -/
theorem Move.stays_full (h : Move m i p m' q) (hf : (m.world.chans ch).Full)
    (hp : p ≠ .recv ch) : (m'.world.chans ch).Full := by
  cases h with
  | received c r taken =>
    have e : ch ≠ c := by rintro rfl; exact hp rfl
    simpa [World.setChan, e] using hf
  | sent id signal k handle r offered =>
    rcases World.send_cases offered with ⟨-, -, hroom, hr⟩ | ⟨-, -, hr⟩
    · have e : ch ≠ handle.signalTx := by
        rintro rfl
        exact absurd hf.2 (by omega)
      simpa [hr, World.setChan, e] using hf
    · simpa [hr] using hf
  | registered id name policy k absent =>
    have : (m.world.register id name policy).1.chans = m.world.chans := by
      simp [World.register, absent]
    simpa [this] using hf
  | _ => exact hf

end

end Duende.Core.Locked
