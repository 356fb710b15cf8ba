import Duende.Core.Waiting

/-!
# Deadlocks of the manager

`signal` awaits a slot of the daemon's queue while it holds the lock of the registry and the
daemon's mutex, and the daemon that would free the slot may be waiting for that mutex:
`update_in_full_queue` is such a run. `deadlock_free` says that nothing else goes wrong: a
run is free of deadlocks when no signal comes to a full queue while its daemon is about to
update its own entry, and no daemon starts an update while a signal waits for its queue.
Where every daemon has a channel of its own, what this excludes is never resolved
(`Clash.stays`).
-/

namespace Duende.Core.Locked

open Trans

variable {ι : Type*}

/-- Some tasks wait, and only on one another. -/
def Deadlock (role : Roles ι) (c : MConf ι) : Prop :=
  ∃ T : Set ι, T.Nonempty ∧
    ∀ t ∈ T, (∃ u, WaitsOn role c t u) ∧ ∀ u, WaitsOn role c t u → u ∈ T

/-! ## The condition -/

/-- The task that receives from `ch` is in a call of the manager and has not got its entry. -/
def Busy (role : Roles ι) (c : MConf ι) (ch : ChanId) : Prop :=
  ∃ u, (role u).map Prod.snd = some ch ∧ (c.pc u).any Pc.early = true

/-- The step keeps out of the way of a signal that waits for a slot: a daemon starts no update
while one stands at its full queue; no signal comes to a full queue, and none takes the last
slot before another one, while the daemon is about to get its entry. -/
def Clear (role : Roles ι) (c : MConf ι) : MAct ι → Prop
  | .call i o => ∀ ch, (role i).map Prod.snd = some ch → o.isRecv = false → Full c ch →
      ∀ i', ¬ Sending c ch i'
  | .step i _ => ∀ ch, Busy role c ch →
      ((c.pc i).bind (Pc.comesTo c.shared.world) = some ch → ¬ Full c ch) ∧
      (Sending c ch i → (c.shared.world.chans ch).queue.length = 15 →
        ∀ i', i' ≠ i → ¬ Sending c ch i')

/-- A signal waits for a slot, and the daemon that would free one is about to get its entry. -/
def Clash (role : Roles ι) (c : MConf ι) : Prop :=
  ∃ ch, Busy role c ch ∧ Full c ch ∧ ∃ i, Sending c ch i

/-! ## No clash, no deadlock -/

section

variable {role : Roles ι} {c : MConf ι}

/-- Without a clash, tasks that wait only on one another all stand before a lock. -/
theorem before_lock {T : Set ι} {t : ι} (hi : Inv c) (htame : Tame role c)
    (hclash : ¬ Clash role c)
    (hT : ∀ t ∈ T, (∃ u, WaitsOn role c t u) ∧ ∀ u, WaitsOn role c t u → u ∈ T) (ht : t ∈ T) :
    (∃ j k, c.pc t = some (.call .enter j k) ∧ ∃ u, c.shared.registry.Blocks t u) ∨
      ∃ id j k, j.target = some id ∧ c.pc t = some (.call .enterEntry j k) ∧
        ∃ u, (c.shared.entry id).Blocks t u := by
  obtain ⟨u, hu⟩ := (hT t ht).1
  cases hu with
  | registry blocks =>
    obtain ⟨n, hn⟩ := blocks.queued
    obtain ⟨j, k, hp⟩ := hi.enter_of_queue hn
    exact .inl ⟨j, k, hp, u, blocks⟩
  | entry id blocks =>
    obtain ⟨n, hn⟩ := blocks.queued
    obtain ⟨j, k, hj, hp⟩ := hi.enterEntry_of_queue hn
    exact .inr ⟨id, j, k, hj, hp, u, blocks⟩
  | slot ch full sends receives =>
    -- the daemon waits as well, and not for a slot: it is about to get its entry
    refine absurd ⟨ch, ⟨u, receives, ?_⟩, full, t, sends⟩ hclash
    obtain ⟨v, hv⟩ := (hT u ((hT t ht).2 u (.slot ch full sends receives))).1
    cases hv with
    | registry blocks =>
      obtain ⟨n, hn⟩ := blocks.queued
      obtain ⟨j, k, hp⟩ := hi.enter_of_queue hn
      rw [hp]; rfl
    | entry id blocks =>
      obtain ⟨n, hn⟩ := blocks.queued
      obtain ⟨j, k, -, hp⟩ := hi.enterEntry_of_queue hn
      rw [hp]; rfl
    | slot ch' full' sends' receives' => exact absurd sends' (htame.not_sending hi receives)

end

section

variable [DecidableEq ι] {i : ι} {role : Roles ι} {c c' : MConf ι} {a : MAct ι}
  {as : List (MAct ι)} {ch : ChanId}

/-- Steps that are clear lead to no clash. -/
theorem clash_of_act (ht : Tame role c) (hc : Clear role c a) (h : mact c a = some c')
    (hclash : Clash role c') : Clash role c := by
  obtain ⟨ch, ⟨u, hru, heu⟩, hfull, i, hsi⟩ := hclash
  rcases mact_cases h with ⟨x, o, rfl, hx, rfl⟩ | ⟨x, order, p, m, q, rfl, hp, hm, rfl⟩
  · -- nobody comes to a send by starting a call, so `i` was there
    have hi : i ≠ x := by
      rintro rfl
      have : (start o).sendsTo = some ch := by simpa [Sending] using hsi
      cases o <;> cases this
    have hsend : Sending c ch i := by simpa [Sending, hi] using hsi
    by_cases e : u = x
    · subst e
      have ho : o.isRecv = false := by
        cases o with
        | recv => simp [start, Pc.early] at heu
        | _ => rfl
      exact (hc ch hru ho hfull i hsend).elim
    · exact ⟨ch, ⟨u, hru, by simpa [e] using heu⟩, hfull, i, hsend⟩
  · by_cases eu : u = x
    · -- the daemon goes on before it has its entry, and changes no queue
      subst eu
      have htame := ht u p hp
      obtain ⟨id, hr⟩ := exists_of_snd hru
      rw [hr] at htame
      obtain ⟨he, hw⟩ := hm.early htame (by simpa using heu)
      have hi : i ≠ u := by
        rintro rfl
        simp only [Sending, Function.update_self] at hsi
        simp only [Function.update_self] at heu
        obtain ⟨p', hq, hs⟩ := Option.bind_eq_some_iff.1 hsi
        rw [hq] at heu
        rw [Pc.sendsTo_of_early heu] at hs; cases hs
      refine ⟨ch, ⟨u, hru, by rw [hp]; exact he⟩, ?_, i, by simpa [Sending, hi] using hsi⟩
      simpa [Full, hw] using hfull
    · have hbusy : Busy role c ch := ⟨u, hru, by simpa [eu] using heu⟩
      obtain ⟨hreach, hfill⟩ := hc ch hbusy
      by_cases ei : i = x
      · -- the signal comes to its send, and the queue is full already
        subst ei
        obtain ⟨hcome, hw⟩ := hm.sendsTo (by simpa [Sending] using hsi)
        exact absurd (by simpa [Full, hw] using hfull) (hreach (by rw [hp]; exact hcome))
      · have hsi : Sending c ch i := by simpa [Sending, ei] using hsi
        by_cases hf : Full c ch
        · exact ⟨ch, hbusy, hf, i, hsi⟩
        · -- the last slot is taken by another signal
          obtain ⟨hsend, hlast⟩ := hm.fills hf hfull
          exact absurd hsi (hfill (by rw [Sending, hp]; exact hsend) hlast i ei)

theorem no_clash_run {w : World} (ha : ∀ a ∈ as, Allowed role a)
    (hc : Meets mact (Clear role) (Obj.init (Mem.init w)) as)
    (h : run mact (Obj.init (Mem.init w)) as = some c) : Tame role c ∧ ¬ Clash role c := by
  have hm := Meets.and (meets_of_forall ha) hc
  refine Meets.run_inv (P := fun c => Tame role c ∧ ¬ Clash role c)
    (fun c a c' hi hca hx => ⟨hi.1.act hca.1 hx, fun hclash =>
      hi.2 (clash_of_act hi.1 hca.2 hx hclash)⟩) hm ⟨(fun i p hp => by cases hp), ?_⟩ h
  rintro ⟨ch, -, -, i, hi⟩
  cases hi

/-- **Freedom from deadlock**: in a run whose steps are all clear, no reached state has tasks
that wait only on one another. -/
theorem deadlock_free {w : World} (hs : Scenario role as)
    (hc : Meets mact (Clear role) (Obj.init (Mem.init w)) as)
    (h : run mact (Obj.init (Mem.init w)) as = some c) : ¬ Deadlock role c := by
  obtain ⟨htame, hclash⟩ := no_clash_run hs.allowed hc h
  have hi := inv_run h
  rintro ⟨T, ⟨t, ht⟩, hT⟩
  have hstage := fun t ht => before_lock (t := t) hi htame hclash hT ht
  -- a task that has a mutex does not stand before a lock, so nobody stands before a mutex
  have hentry : ∀ id, ∀ t ∈ T, ∀ n, (t, n) ∉ (c.shared.entry id).queue := by
    intro id
    refine (hi.entry id).ok.not_queued (fun t ht u hb => (hT t ht).2 u (.entry id hb)) ?_ ?_
    · intro t ht n hn
      obtain ⟨j, k, hj, hp⟩ := hi.enterEntry_of_queue hn
      rcases hstage t ht with ⟨_, _, hp', -⟩ | ⟨id', _, _, hj', hp', hb⟩
      · rw [hp] at hp'; cases hp'
      · cases hp.symm.trans hp'
        cases hj.symm.trans hj'
        exact hb
    · intro t ht n hn
      have hh := ((hi.entry id).held t n).1 hn
      rcases hstage t ht with ⟨_, _, hp, -⟩ | ⟨_, _, _, -, hp, -⟩ <;> rw [hp] at hh <;> cases hh
  -- nor does one that has the registry then, so nobody stands before that
  have hregistry : ∀ t ∈ T, ∀ n, (t, n) ∉ c.shared.registry.queue := by
    refine hi.registry.ok.not_queued (fun t ht u hb => (hT t ht).2 u (.registry hb)) ?_ ?_
    · intro t ht n hn
      obtain ⟨j, k, hp⟩ := hi.enter_of_queue hn
      rcases hstage t ht with ⟨_, _, -, hb⟩ | ⟨_, _, _, -, hp', -⟩
      · exact hb
      · rw [hp] at hp'; cases hp'
    · intro t ht n hn
      have hh := (hi.registry.held t n).1 hn
      rcases hstage t ht with ⟨_, _, hp, -⟩ | ⟨id, _, _, -, -, v, hv⟩
      · rw [hp] at hh; cases hh
      · obtain ⟨n', hn'⟩ := hv.queued
        exact hentry id t ht n' hn'
  rcases hstage t ht with ⟨_, _, -, v, hv⟩ | ⟨id, _, _, -, -, v, hv⟩
  · obtain ⟨n, hn⟩ := hv.queued
    exact hregistry t ht n hn
  · obtain ⟨n, hn⟩ := hv.queued
    exact hentry id t ht n hn

/-! ## A clash is for ever -/

/-- What leads to the channel of a daemon's task is the entry of that daemon. -/
def OwnChannel (role : Roles ι) (c : MConf ι) (ch : ChanId) : Prop :=
  (∀ u u', (role u).map Prod.snd = some ch → (role u').map Prod.snd = some ch → u = u') ∧
    ∀ id d, c.shared.world.daemons.lookup id = some d → d.contextHandle = some ⟨ch⟩ →
      ∀ u id', role u = some (id', ch) → id' = id

/-- The task `i` waits for a slot with the guards of `id`, and the task `u`, which alone would
free one, has to get the entry of `id` first. -/
structure Stuck (c : MConf ι) (id : DaemonId) (ch : ChanId) (i u : ι) : Prop where
  full : Full c ch
  sender : ∃ handle signal k, c.pc i = some (.call (.send handle) (.signal id signal) k) ∧
    handle.signalTx = ch
  daemon : ∃ s o k, c.pc u = some (.call s (.entry id o) k) ∧
    (Pc.call s (.entry id o) k).early = true

theorem Stuck.act {id : DaemonId} {u : ι} (h : Stuck c id ch i u) (hi : Inv c)
    (hu : ∀ u', c.pc u' = some (.recv ch) → u' = u) (hx : mact c a = some c') :
    Stuck c' id ch i u := by
  obtain ⟨hfull, ⟨handle, signal, k, hpi, rfl⟩, ⟨s, o, k', hpu, hearly⟩⟩ := h
  rcases mact_cases hx with ⟨x, o', rfl, hidle, rfl⟩ | ⟨x, order, p, m, q, rfl, hp, hm, rfl⟩
  · have hxi : i ≠ x := by rintro rfl; rw [hidle] at hpi; cases hpi
    have hxu : u ≠ x := by rintro rfl; rw [hidle] at hpu; cases hpu
    exact ⟨hfull, ⟨handle, signal, k, by simpa [hxi] using hpi, rfl⟩,
      ⟨s, o, k', by simpa [hxu] using hpu, hearly⟩⟩
  · have hxi : i ≠ x := by
      rintro rfl
      cases hpi.symm.trans hp
      cases hm with
      | sent _ _ _ _ r offered =>
        rw [World.send_eq_none.2 hfull] at offered; cases offered
    have hrecv : p ≠ .recv handle.signalTx := by
      rintro rfl
      rw [hu x hp, hpu] at hp; cases hp
    refine ⟨hm.stays_full hfull hrecv, ⟨handle, signal, k, by simpa [hxi] using hpi, rfl⟩, ?_⟩
    by_cases hxu : u = x
    · subst hxu
      cases hpu.symm.trans hp
      cases s with
      | ask => cases hm; exact ⟨.enter, o, k', by simp, rfl⟩
      | enter => cases hm; exact ⟨.run, o, k', by simp, rfl⟩
      | run =>
        cases hm with
        | found => exact ⟨.askEntry, o, k', by simp, rfl⟩
        | answered _ _ r order answer whole =>
          -- the signal has seen the entry
          obtain ⟨id', signal', d, hj, hl, -⟩ := hi.fits i _ hpi
          cases hj
          have : c.shared.world.daemons.lookup id = none := whole
          rw [hl] at this; cases this
      | askEntry => cases hm; exact ⟨.enterEntry, o, k', by simp, rfl⟩
      | enterEntry =>
        cases hm with
        | enterEntry _ _ id' l target served =>
          -- the signal holds the mutex
          cases target
          obtain ⟨n, q, -, hfree, -⟩ := Lock.grant_some served
          have hheld : (i, Mode.exclusive) ∈ (c.shared.entry id).held :=
            ((hi.entry id).held i .exclusive).2 (by rw [hpi]; exact if_pos ⟨rfl, rfl⟩)
          have := hfree _ hheld
          cases n <;> cases this
      | _ => cases hearly
    · exact ⟨s, o, k', by simpa [hxu] using hpu, hearly⟩

omit [DecidableEq ι] in
/-- In a clash over the channel of a daemon of its own, the signal and the update are those of
one daemon. -/
theorem Clash.stuck (h : Clash role c) (hi : Inv c) (ht : Tame role c)
    (hown : ∀ ch, OwnChannel role c ch) :
    ∃ id ch i u, (role u).map Prod.snd = some ch ∧ Stuck c id ch i u := by
  obtain ⟨ch, ⟨u, hru, heu⟩, hfull, i, hsi⟩ := h
  obtain ⟨id, hr⟩ := exists_of_snd hru
  obtain ⟨handle, j, k, hpi⟩ := hsi.stage
  obtain ⟨id', signal, d, rfl, hl, htarget⟩ := hi.fits i _ hpi
  have hch : handle.signalTx = ch := by simpa [Sending, hpi, Pc.sendsTo] using hsi
  have hid : id = id' := by
    refine (hown ch).2 id' d hl ?_ u id hr
    rw [(ManagedDaemon.signalTarget_eq_ok.1 htarget).2, ← hch]
  refine ⟨id', ch, i, u, hru, hfull, ⟨handle, signal, k, hpi, hch⟩, ?_⟩
  cases hpu : c.pc u with
  | none => rw [hpu] at heu; cases heu
  | some p =>
    rw [hpu] at heu
    have hplay := ht u p hpu
    rw [hr] at hplay
    cases p with
    | recv => cases heu
    | call s j k =>
      cases j with
      | entry id2 o =>
        cases k with
        | done =>
          have : id2 = id := by simpa [Pc.plays, entryCall] using hplay
          rw [this, hid] at heu ⊢
          exact ⟨s, o, .done, rfl, heu⟩
        | _ => cases hplay
      | _ => cases hplay

omit [DecidableEq ι] in
theorem Stuck.clash {id : DaemonId} {u : ι} (h : Stuck c id ch i u)
    (hu : (role u).map Prod.snd = some ch) : Clash role c := by
  obtain ⟨hfull, ⟨handle, signal, k, hpi, hch⟩, ⟨s, o, k', hpu, hearly⟩⟩ := h
  refine ⟨ch, ⟨u, hu, by rw [hpu]; exact hearly⟩, hfull, i, ?_⟩
  rw [Sending, hpi]
  simp [Pc.sendsTo, hch]

/-- **A clash is for ever**: where every daemon has a channel of its own, whatever happens after
a clash, the signal waits for its slot and the daemon does not get its entry. -/
theorem Clash.stays (h : Clash role c) (hi : Inv c) (ht : Tame role c)
    (hown : ∀ ch, OwnChannel role c ch) (ha : ∀ a ∈ as, Allowed role a)
    (hr : run mact c as = some c') : Clash role c' := by
  obtain ⟨id, ch, i, u, hu, hstuck⟩ := h.stuck hi ht hown
  have hm : Meets mact (fun _ a => Allowed role a) c as := meets_of_forall ha
  refine (Meets.run_inv (P := fun c => Inv c ∧ Tame role c ∧ Stuck c id ch i u)
    (fun c a c' ⟨hi, ht, hstuck⟩ ha hx => ⟨hi.act hx, ht.act ha hx, ?_⟩) hm ⟨hi, ht, hstuck⟩
    hr).2.2.clash hu
  refine hstuck.act hi (fun u' hp => (hown ch).1 u' u ?_ hu) hx
  simpa [Pc.plays] using ht u' _ hp

end

/-! ## Two runs -/

instance [Fintype ι] [DecidableEq ι] (role : Roles ι) (c : MConf ι) : DecidablePred (Clear role c)
  | .call i o =>
    decidable_of_iff (∀ ch ∈ (role i).map Prod.snd, o.isRecv = false → Full c ch →
      ∀ i', ¬ Sending c ch i') Iff.rfl
  | .step i _ =>
    decidable_of_iff (∀ u, ∀ ch ∈ (role u).map Prod.snd, (c.pc u).any Pc.early = true →
      ((c.pc i).bind (Pc.comesTo c.shared.world) = some ch → ¬ Full c ch) ∧
      (Sending c ch i → (c.shared.world.chans ch).queue.length = 15 →
        ∀ i', i' ≠ i → ¬ Sending c ch i'))
      ⟨fun h ch ⟨u, hu, he⟩ => h u ch hu he, fun h u ch hu he => h ch ⟨u, hu, he⟩⟩

/-- `true` runs the one daemon, `false` calls the manager. -/
def oneDaemon : Roles Bool
  | true => some (⟨1⟩, 0)
  | false => none

/-- The first `n` steps of a signal. -/
def signalling (n : Nat) : List (MAct Bool) :=
  .call false (.job (.signal ⟨1⟩ .usr1)) :: List.replicate n (.step false [])

/-- The daemon receives a signal; while another one stands at its send, the daemon updates its
status. -/
def updateDuringSignal : List (MAct Bool) :=
  signalling 9 ++ [.call true (.recv 0), .step true []] ++ signalling 6 ++
    .call true (.job (.entry ⟨1⟩ (.updateStatus .running))) :: List.replicate 4 (.step true [])

theorem scenario_updateDuringSignal : Scenario oneDaemon updateDuringSignal where
  allowed := by decide +kernel
  turns i hi := by
    cases i with
    | false => cases hi
    | true => decide +kernel

theorem run_updateDuringSignal :
    (run mact (Obj.init (Mem.init (.single (some ⟨0⟩)))) updateDuringSignal).isSome := by
  decide +kernel

/-- The daemon waits for the mutex, and the signal that has it can go on. -/
theorem deadlock_free_signal : ∃ c,
    run mact (Obj.init (Mem.init (.single (some ⟨0⟩)))) updateDuringSignal = some c ∧
      (∃ k, c.pc true = some (.call .enterEntry (.entry ⟨1⟩ (.updateStatus .running)) k)) ∧
      ¬ Deadlock oneDaemon c :=
  ⟨_, (Option.some_get run_updateDuringSignal).symm, ⟨.done, by decide +kernel⟩,
    deadlock_free scenario_updateDuringSignal (by decide +kernel)
      (Option.some_get run_updateDuringSignal).symm⟩


/-- The daemon receives a signal, 16 more fill its queue and another one waits for a slot;
then the daemon updates its status. -/
def updateInFullQueue : List (MAct Bool) :=
  signalling 9 ++ [.call true (.recv 0), .step true []] ++
    (List.replicate 16 (signalling 9)).flatten ++ signalling 6 ++
    .call true (.job (.entry ⟨1⟩ (.updateStatus .running))) :: List.replicate 4 (.step true [])

theorem scenario_updateInFullQueue : Scenario oneDaemon updateInFullQueue where
  allowed := by decide +kernel
  turns i hi := by
    cases i with
    | false => cases hi
    | true => decide +kernel

theorem run_updateInFullQueue :
    (run mact (Obj.init (Mem.init (.single (some ⟨0⟩)))) updateInFullQueue).isSome := by
  decide +kernel

/-- The signal holds the mutex of the daemon and waits for a slot; the daemon waits for the
mutex. -/
theorem update_in_full_queue : Scenario oneDaemon updateInFullQueue ∧
    ∃ c, run mact (Obj.init (Mem.init (.single (some ⟨0⟩)))) updateInFullQueue = some c ∧
      Deadlock oneDaemon c := by
  refine ⟨scenario_updateInFullQueue, _, (Option.some_get run_updateInFullQueue).symm, Set.univ,
    ⟨true, trivial⟩, fun t _ => ⟨?_, fun _ _ => trivial⟩⟩
  cases t with
  | false => exact ⟨true, .slot 0 (by decide +kernel) (by decide +kernel) rfl⟩
  | true =>
    refine ⟨false, .entry ⟨1⟩ ⟨[], .exclusive, [], ?_, .inr ⟨.exclusive, ?_, rfl⟩⟩⟩
    · decide +kernel
    · decide +kernel

end Duende.Core.Locked
