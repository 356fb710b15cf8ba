import Duende.Core.Manager

/-!
# Shutting all daemons down

`shutdown_all` awaits one send after the other and only logs their errors.
`shutdown_reaches_iff`: a daemon whose queue is full holds back all that are listed after
it. `shutdown_reports_iff`: the call returns `Ok` whatever became of its signals.
-/

namespace Duende.Core

open Trans

/-- The Term the loop sent to `id` was accepted by the channel. -/
def Sweep.Accepted (s : Sweep) (id : DaemonId) : Prop := (id, .ok .unit) ∈ s.results

namespace World

variable {w w' : World} {id e : DaemonId} {ids : List DaemonId} {c : ChanId} {sig : Signal} {r : Res}

/-- The channel that a signal to `id` goes to, if the daemon can receive one. -/
def target (w : World) (id : DaemonId) : Option ChanId :=
  (w.daemons.lookup id).bind fun d =>
    match d.signalTarget id with
    | .ok handle => some handle.signalTx
    | .error _ => none

theorem target_eq_some : w.target id = some c ↔ ∃ d, w.daemons.lookup id = some d ∧
    d.status.canSignal = true ∧ d.contextHandle = some ⟨c⟩ := by
  simp only [target, Option.bind_eq_some_iff]
  refine exists_congr fun d => and_congr_right fun _ => ?_
  constructor
  · intro h
    split at h
    · rename_i handle ht
      cases h; exact ManagedDaemon.signalTarget_eq_ok.1 ht
    · cases h
  · intro h
    rw [ManagedDaemon.signalTarget_eq_ok.2 h]

/-- A signal to `id` waits: its channel is alive and full. -/
def stuck (w : World) (id : DaemonId) : Bool :=
  match w.target id with
  | some c => decide (w.chans c).Full
  | none => false

theorem stuck_iff : w.stuck id = true ↔ ∃ c, w.target id = some c ∧ (w.chans c).Full := by
  unfold stuck
  cases h : w.target id <;> simp

/-- A signal to `id` is accepted at once by the channel `c`. -/
def Ready (w : World) (id : DaemonId) (c : ChanId) : Prop :=
  w.target id = some c ∧ (w.chans c).receiver = true ∧ (w.chans c).queue.length < 16

/-- Handles of different daemons lead to different channels. -/
def OwnQueues (w : World) : Prop :=
  ∀ id id' d d' handle, w.daemons.lookup id = some d → w.daemons.lookup id' = some d' →
    d.contextHandle = some handle → d'.contextHandle = some handle → id = id'

/-! ## What one signal does -/

/-- What a signal that does not wait does. -/
inductive Sent (w : World) (id : DaemonId) (sig : Signal) : World → Res → Prop where
  | unsent (e : DaemonError) (no_target : w.target id = none) : Sent w id sig w (.error e)
  | closed (c : ChanId) (aims : w.target id = some c) (dead : (w.chans c).receiver = false) :
    Sent w id sig w (.error (.signal "daemon context closed"))
  | accepted (c : ChanId) (aims : w.target id = some c) (live : (w.chans c).receiver = true)
      (room : (w.chans c).queue.length < 16) :
    Sent w id sig (w.setChan c ((w.chans c).push sig room)) (.ok .unit)

theorem sent_of_signal (h : w.signal id sig = some (w', r)) : Sent w id sig w' r := by
  unfold signal at h
  split at h
  · rename_i hl
    cases h; exact .unsent _ (by simp [target, hl])
  · rename_i d hl
    split at h
    · rename_i e ht
      cases h; exact .unsent _ (by simp [target, hl, ht])
    · rename_i handle ht
      have aims : w.target id = some handle.signalTx := by simp [target, hl, ht]
      rcases send_cases h with ⟨rfl, live, room, rfl⟩ | ⟨rfl, dead, rfl⟩
      · exact .accepted _ aims live room
      · exact .closed _ aims dead

theorem signal_eq_none : w.signal id sig = none ↔ w.stuck id = true := by
  rw [stuck_iff]
  unfold signal target
  cases hl : w.daemons.lookup id with
  | none => simp
  | some d => cases ht : d.signalTarget id <;> simp [ht, send_eq_none]

theorem Sent.daemons (h : Sent w id sig w' r) : w'.daemons = w.daemons := by
  cases h <;> rfl

theorem Sent.target (h : Sent w id sig w' r) (e : DaemonId) : w'.target e = w.target e := by
  unfold World.target; rw [h.daemons]

theorem Sent.receiver (h : Sent w id sig w' r) (c : ChanId) :
    (w'.chans c).receiver = (w.chans c).receiver := by
  cases h with
  | unsent | closed => rfl
  | accepted c' =>
    by_cases hc : c = c'
    · subst hc; simp [setChan, Chan.push]
    · simp [setChan, hc]

theorem Sent.chans (h : Sent w id sig w' r) (hc : w.target id ≠ some c) :
    w'.chans c = w.chans c := by
  cases h with
  | unsent | closed => rfl
  | accepted c' aims =>
    have : c ≠ c' := by rintro rfl; exact hc aims
    simp [setChan, this]

/-! ## What the loop does -/

/-- The ids the loop comes past: those listed before the first one that waits. -/
def reached (w : World) (ids : List DaemonId) : List DaemonId := ids.takeWhile fun id => !w.stuck id

theorem reached_cons (hs : w.stuck e = false) : w.reached (e :: ids) = e :: w.reached ids := by
  unfold reached; rw [List.takeWhile_cons]; simp [hs]

/-- Listed daemons send to different channels. -/
def OwnOn (w : World) (ids : List DaemonId) : Prop :=
  ids.Pairwise fun a b => ∀ c, w.target a = some c → w.target b ≠ some c

theorem ownOn_of_ownQueues (ho : w.OwnQueues) (hn : ids.Nodup) : w.OwnOn ids := by
  refine hn.imp fun {a b} hne c ha hb => ?_
  obtain ⟨d, hd, -, hh⟩ := target_eq_some.1 ha
  obtain ⟨d', hd', -, hh'⟩ := target_eq_some.1 hb
  exact hne (ho a b d d' ⟨c⟩ hd hd' hh hh')

theorem Sent.ownOn (h : Sent w e sig w' r) (ho : w.OwnOn ids) : w'.OwnOn ids := by
  unfold OwnOn; simp only [h.target]; exact ho

theorem Sent.stuck (h : Sent w e sig w' r)
    (ho : ∀ c, w.target e = some c → w.target id ≠ some c) : w'.stuck id = w.stuck id := by
  rw [Bool.eq_iff_iff, stuck_iff, stuck_iff]
  refine exists_congr fun c => ?_
  rw [h.target]
  refine and_congr_right fun hc => ?_
  rw [h.chans fun he => ho c he hc]

theorem Sent.reached (h : Sent w e sig w' r) :
    ∀ {ids : List DaemonId}, (∀ id ∈ ids, ∀ c, w.target e = some c → w.target id ≠ some c) →
      w'.reached ids = w.reached ids
  | [], _ => rfl
  | id :: ids, ho => by
    have ih := Sent.reached h fun b hb => ho b (List.mem_cons_of_mem _ hb)
    unfold World.reached at ih ⊢
    rw [List.takeWhile_cons, List.takeWhile_cons, h.stuck (ho id List.mem_cons_self), ih]

theorem signalAll_cons_stuck (h : w.stuck e = true) :
    w.signalAll (e :: ids) = ⟨w, [], e :: ids⟩ := by
  unfold signalAll; rw [signal_eq_none.2 h]

theorem signalAll_cons_sent (h : w.signal e .term = some (w', r)) :
    w.signalAll (e :: ids) =
      { w'.signalAll ids with results := (e, r) :: (w'.signalAll ids).results } := by
  rw [signalAll, h]

theorem stuck_or_sent (w : World) (e : DaemonId) : w.stuck e = true ∨
    (w.stuck e = false ∧ ∃ w' r, w.signal e .term = some (w', r)) := by
  cases hs : w.stuck e with
  | true => exact .inl rfl
  | false =>
    cases hx : w.signal e .term with
    | none => rw [signal_eq_none.1 hx] at hs; cases hs
    | some p => exact .inr ⟨rfl, p.1, p.2, rfl⟩

theorem signalAll_chans : ∀ {ids : List DaemonId} {w : World}, w.OwnOn ids →
    (∀ id ∈ w.reached ids, w.target id ≠ some c) → (w.signalAll ids).world.chans c = w.chans c
  | [], _, _, _ => rfl
  | e :: ids, w, ho, hc => by
    rcases stuck_or_sent w e with hs | ⟨hs, w', r, hx⟩
    · rw [signalAll_cons_stuck hs]
    · have hsent := sent_of_signal hx
      rw [reached_cons hs] at hc
      have ih := @signalAll_chans ids w' (hsent.ownOn (List.pairwise_cons.1 ho).2) fun id hid => by
        rw [hsent.reached (List.pairwise_cons.1 ho).1] at hid
        rw [hsent.target]; exact hc id (List.mem_cons_of_mem _ hid)
      rw [signalAll_cons_sent hx]
      exact ih.trans (hsent.chans (hc e List.mem_cons_self))

theorem signalAll_queue : ∀ {ids : List DaemonId} {w : World}, w.OwnOn ids →
    id ∈ w.reached ids → w.Ready id c →
      ((w.signalAll ids).world.chans c).queue = (w.chans c).queue ++ [.term]
  | [], _, _, h, _ => by cases h
  | e :: ids, w, ho, hid, hready => by
    obtain ⟨hfirst, hrest⟩ := List.pairwise_cons.1 ho
    rcases stuck_or_sent w e with hs | ⟨hs, w', r, hx⟩
    · unfold World.reached at hid; rw [List.takeWhile_cons] at hid; simp [hs] at hid
    · have hsent := sent_of_signal hx
      rw [reached_cons hs, List.mem_cons] at hid
      rw [signalAll_cons_sent hx]
      rcases hid with rfl | hid
      · -- its own turn: the rest of the loop leaves its channel alone
        have hlater : ((w'.signalAll ids).world.chans c) = w'.chans c :=
          signalAll_chans (hsent.ownOn hrest) fun b hb => by
            rw [hsent.target]
            exact hfirst b ((List.takeWhile_sublist _).subset hb) c hready.1
        cases hsent with
        | unsent _ hno => have := hno.symm.trans hready.1; cases this
        | closed c' aims dead =>
          cases Option.some.inj (aims.symm.trans hready.1)
          rw [hready.2.1] at dead; cases dead
        | accepted c' aims live room =>
          cases Option.some.inj (aims.symm.trans hready.1)
          simp only [hlater]
          simp [setChan]
      · have hne : w.target e ≠ some c := fun he =>
          hfirst id ((List.takeWhile_sublist _).subset hid) c he hready.1
        have hch := hsent.chans hne
        have hready' : w'.Ready id c := by
          unfold Ready; rw [hsent.target, hch]; exact hready
        have hid' : id ∈ w'.reached ids := by rw [hsent.reached hfirst]; exact hid
        exact (signalAll_queue (hsent.ownOn hrest) hid' hready').trans (by rw [hch])

theorem reached_append_stuck {pre post : List DaemonId} (h : w.stuck e = true) :
    w.reached (pre ++ e :: post) = w.reached pre := by
  unfold reached
  induction pre with
  | nil => simp [h]
  | cons b pre ih => simp only [List.cons_append, List.takeWhile_cons, ih]

/-- A listed daemon that the loop does not come past is listed at or after one that
waits. -/
theorem exists_stuck : ∀ {ids : List DaemonId}, id ∈ ids → id ∉ w.reached ids →
    ∃ pre e post, ids = pre ++ e :: post ∧ w.stuck e = true ∧ (id = e ∨ id ∈ post)
  | [], h, _ => by cases h
  | e :: ids, h, hn => by
    cases hs : w.stuck e with
    | true => exact ⟨[], e, ids, rfl, hs, List.mem_cons.1 h⟩
    | false =>
      rw [reached_cons hs, List.mem_cons, not_or] at hn
      obtain ⟨pre, b, post, rfl, hb, hid⟩ :=
        exists_stuck ((List.mem_cons.1 h).resolve_left hn.1) hn.2
      exact ⟨e :: pre, b, post, rfl, hb, hid⟩

theorem Ready.not_stuck (h : w.Ready id c) : w.stuck id = false := by
  rw [Bool.eq_false_iff, Ne, stuck_iff]
  rintro ⟨c', hc, hfull⟩
  cases Option.some.inj (hc.symm.trans h.1)
  have := hfull.2
  have := h.2.2
  omega

/-- **Who `shutdown_all` reaches**: every daemon with a handle to a live context and a free
slot in its own queue gets exactly one Term, when the call has run as far as it can alone,
if and only if none of them is listed after a daemon whose queue is full. -/
theorem shutdown_reaches_iff (hl : w.Listing ids) (ho : w.OwnQueues) :
    (∀ id d handle, w.daemons.lookup id = some d → d.status.canSignal = true →
        d.contextHandle = some handle → (w.chans handle.signalTx).receiver = true →
        (w.chans handle.signalTx).queue.length < 16 →
        ((w.shutdownAll ids).1.world.chans handle.signalTx).queue =
          (w.chans handle.signalTx).queue ++ [.term]) ↔
      ∀ pre e post, ids = pre ++ e :: post → w.stuck e = true →
        ∀ id ∈ post, ∀ c, ¬ w.Ready id c := by
  have hown := ownOn_of_ownQueues ho hl.1
  constructor
  · rintro h pre e post rfl hs id hid c hready
    obtain ⟨d, hd, hsig, hh⟩ := target_eq_some.1 hready.1
    have hterm := h id d ⟨c⟩ hd hsig hh hready.2.1 hready.2.2
    obtain ⟨-, htail, hpre⟩ := List.pairwise_append.1 hown
    have hsame : ((w.signalAll (pre ++ e :: post)).world.chans c) = w.chans c := by
      refine signalAll_chans hown fun b hb hbc => ?_
      rw [reached_append_stuck hs] at hb
      exact hpre b ((List.takeWhile_sublist _).subset hb) id (List.mem_cons_of_mem _ hid) c hbc
        hready.1
    have : (w.chans c).queue = (w.chans c).queue ++ [.term] := by
      rw [← hterm]; exact congrArg Chan.queue hsame.symm
    simp at this
  · intro h id d handle hd hsig hh hlive hroom
    have hready : w.Ready id handle.signalTx := ⟨target_eq_some.2 ⟨d, hd, hsig, hh⟩, hlive, hroom⟩
    refine signalAll_queue hown ?_ hready
    by_contra hn
    obtain ⟨pre, e, post, has, hs, hid⟩ := exists_stuck (hl.mem hd) hn
    rcases hid with rfl | hid
    · rw [hready.not_stuck] at hs; cases hs
    · exact h pre e post has hs id hid _ hready

/-! ## What the caller learns -/

/-- How many of the daemons send to the channel `c`. -/
def load (w : World) (ids : List DaemonId) (c : ChanId) : Nat :=
  ids.countP fun id => decide (w.target id = some c)

theorem Sent.load (h : Sent w e sig w' r) : w'.load ids c = w.load ids c := by
  unfold World.load; simp only [h.target]

/-- The loop comes past all daemons exactly when every live channel has room for the Terms
addressed to it. -/
theorem signalAll_waiting : ∀ {ids : List DaemonId} {w : World}, (w.signalAll ids).waiting = [] ↔
    ∀ c, (w.chans c).receiver = true → (w.chans c).queue.length + w.load ids c ≤ 16
  | [], w => by simpa [signalAll, World.load] using fun c _ => (w.chans c).bounded
  | e :: ids, w => by
    rcases stuck_or_sent w e with hs | ⟨-, w', r, hx⟩
    · rw [signalAll_cons_stuck hs]
      obtain ⟨c, hc, hfull⟩ := stuck_iff.1 hs
      refine iff_of_false (by simp) fun h => ?_
      have := h c hfull.1
      have := hfull.2
      have : w.load (e :: ids) c = w.load ids c + 1 := by simp [World.load, hc]
      omega
    · have hsent := sent_of_signal hx
      rw [signalAll_cons_sent hx]
      refine (@signalAll_waiting ids w').trans (forall_congr' fun c => ?_)
      rw [hsent.receiver, hsent.load]
      refine imp_congr_right fun hlive => ?_
      suffices (w'.chans c).queue.length + w.load ids c =
          (w.chans c).queue.length + w.load (e :: ids) c by rw [this]
      by_cases hc : w.target e = some c
      · have hload : w.load (e :: ids) c = w.load ids c + 1 := by simp [World.load, hc]
        cases hsent with
        | unsent _ hno => rw [hno] at hc; cases hc
        | closed c' aims dead =>
          cases Option.some.inj (aims.symm.trans hc)
          rw [dead] at hlive; cases hlive
        | accepted c' aims live room =>
          cases Option.some.inj (aims.symm.trans hc)
          simp [setChan]; omega
      · have hload : w.load (e :: ids) c = w.load ids c := by simp [World.load, hc]
        rw [hsent.chans hc, hload]

/-- A signal is accepted exactly when it has a live channel to go to. -/
theorem Sent.ok_iff (h : Sent w e sig w' r) :
    r = .ok .unit ↔ ∃ c, w.target e = some c ∧ (w.chans c).receiver = true := by
  cases h with
  | unsent _ hno => simp [hno]
  | closed c aims dead => simp [aims, dead]
  | accepted c aims live => simp [aims, live]

/-- When the loop comes past all daemons, those with a handle to a live context accept
their Term, and no others. -/
theorem signalAll_accepted : ∀ {ids : List DaemonId} {w : World},
    (w.signalAll ids).waiting = [] → ((w.signalAll ids).Accepted id ↔
      id ∈ ids ∧ ∃ c, w.target id = some c ∧ (w.chans c).receiver = true)
  | [], w, _ => by simp [Sweep.Accepted, signalAll]
  | e :: ids, w, hw => by
    rcases stuck_or_sent w e with hs | ⟨-, w', r, hx⟩
    · rw [signalAll_cons_stuck hs] at hw; cases hw
    · have hsent := sent_of_signal hx
      rw [signalAll_cons_sent hx] at hw ⊢
      have ih := @signalAll_accepted ids w' hw
      simp only [hsent.target, hsent.receiver, Sweep.Accepted] at ih
      simp only [Sweep.Accepted, List.mem_cons, Prod.mk.injEq, ih]
      by_cases he : id = e
      · subst he
        rw [eq_comm (b := r), hsent.ok_iff]
        simp only [true_and, true_or]
        exact ⟨fun h => h.elim (fun h => h) fun h => h.2, .inl⟩
      · simp [he]

/-- **What `shutdown_all` reports**: a call that returns `Ok` had its Term accepted by every
daemon that can receive signals, if and only if each of these has a handle to a live
context, or the call never returns because a live channel lacks room for its Terms. -/
theorem shutdown_reports_iff (hl : w.Listing ids) :
    ((w.shutdownAll ids).2 = some (.ok .unit) →
        ∀ id d, w.daemons.lookup id = some d → d.status.canSignal = true →
          (w.shutdownAll ids).1.Accepted id) ↔
      (∀ id d, w.daemons.lookup id = some d → d.status.canSignal = true →
        ∃ handle, d.contextHandle = some handle ∧
          (w.chans handle.signalTx).receiver = true) ∨
      ∃ c, (w.chans c).receiver = true ∧ 16 < (w.chans c).queue.length + w.load ids c := by
  have hw := @signalAll_waiting ids w
  by_cases hwait : (w.signalAll ids).waiting = []
  · have hroom := hw.1 hwait
    have hacc : ∀ id d, w.daemons.lookup id = some d → d.status.canSignal = true →
        ((w.signalAll ids).Accepted id ↔ ∃ handle, d.contextHandle = some handle ∧
          (w.chans handle.signalTx).receiver = true) := by
      intro id d hd hsig
      rw [signalAll_accepted hwait]
      constructor
      · rintro ⟨-, c, hc, hlive⟩
        obtain ⟨d', hd', -, hh⟩ := target_eq_some.1 hc
        cases hd.symm.trans hd'
        exact ⟨⟨c⟩, hh, hlive⟩
      · rintro ⟨handle, hh, hlive⟩
        exact ⟨hl.mem hd, _, target_eq_some.2 ⟨d, hd, hsig, hh⟩, hlive⟩
    have hnot : ¬ ∃ c, (w.chans c).receiver = true ∧
        16 < (w.chans c).queue.length + w.load ids c := by
      rintro ⟨c, hlive, hlt⟩
      have := hroom c hlive; omega
    rw [or_iff_left hnot]
    simp only [shutdownAll, if_pos hwait, true_imp_iff]
    exact forall_congr' fun id => forall_congr' fun d => forall_congr' fun hd =>
      forall_congr' fun hsig => hacc id d hd hsig
  · have hfull : ∃ c, (w.chans c).receiver = true ∧
        16 < (w.chans c).queue.length + w.load ids c := by
      by_contra hn
      exact hwait (hw.2 fun c hlive => by by_contra hlt; exact hn ⟨c, hlive, by omega⟩)
    refine iff_of_true (fun h => ?_) (.inr hfull)
    simp [shutdownAll, hwait] at h

/-! ## One daemon spoils it -/

def runningDaemon (id : DaemonId) (handle : Option DaemonContextHandle) : ManagedDaemon :=
  { ManagedDaemon.new id "daemon" with status := .running, contextHandle := handle }

def fullChan : SignalChan := ⟨List.replicate 16 .usr1, 1, true, by simp⟩

/-- Two running daemons; the queue of the first one is full. -/
def fullAndFree : World where
  daemons := ((∅ : Finmap _).insert ⟨1⟩ (runningDaemon ⟨1⟩ (some ⟨0⟩))).insert ⟨2⟩
    (runningDaemon ⟨2⟩ (some ⟨1⟩))
  chans c := if c = 0 then fullChan else .new

theorem lookup_fullAndFree {id : DaemonId} {d : ManagedDaemon}
    (h : fullAndFree.daemons.lookup id = some d) :
    id = ⟨1⟩ ∧ d = runningDaemon ⟨1⟩ (some ⟨0⟩) ∨ id = ⟨2⟩ ∧ d = runningDaemon ⟨2⟩ (some ⟨1⟩) := by
  unfold fullAndFree at h
  by_cases h2 : id = ⟨2⟩
  · subst h2
    rw [Finmap.lookup_insert] at h; cases h; exact .inr ⟨rfl, rfl⟩
  · rw [Finmap.lookup_insert_of_ne _ h2] at h
    by_cases h1 : id = ⟨1⟩
    · subst h1
      rw [Finmap.lookup_insert] at h; cases h; exact .inl ⟨rfl, rfl⟩
    · rw [Finmap.lookup_insert_of_ne _ h1, Finmap.lookup_empty] at h; cases h

theorem fullAndFree_ownQueues : fullAndFree.OwnQueues := by
  intro id id' d d' handle h h' hh hh'
  rcases lookup_fullAndFree h with ⟨rfl, rfl⟩ | ⟨rfl, rfl⟩ <;>
    rcases lookup_fullAndFree h' with ⟨rfl, rfl⟩ | ⟨rfl, rfl⟩ <;> cases hh <;> first
      | rfl
      | cases hh'

/-- Listed first, the daemon with a free queue gets its Term. -/
theorem free_first :
    ((fullAndFree.shutdownAll [⟨2⟩, ⟨1⟩]).1.world.chans 1).queue = [] ++ [.term] := by
  have hl : fullAndFree.Listing [⟨2⟩, ⟨1⟩] := by decide
  refine (shutdown_reaches_iff hl fullAndFree_ownQueues).2 ?_ ⟨2⟩
    (runningDaemon ⟨2⟩ (some ⟨1⟩)) ⟨1⟩ rfl rfl rfl rfl (by decide)
  rintro (_ | ⟨b, _ | ⟨b', pre⟩⟩) e post h hs id hid
  · cases h; exact absurd hs (by decide)
  · cases h; cases hid
  · cases pre <;> cases h

/-- Listed second, it gets nothing: the call waits for the daemon with the full queue. -/
theorem full_first : fullAndFree.Listing [⟨1⟩, ⟨2⟩] ∧ fullAndFree.OwnQueues ∧
    ¬ ∀ id d handle, fullAndFree.daemons.lookup id = some d → d.status.canSignal = true →
        d.contextHandle = some handle → (fullAndFree.chans handle.signalTx).receiver = true →
        (fullAndFree.chans handle.signalTx).queue.length < 16 →
        ((fullAndFree.shutdownAll [⟨1⟩, ⟨2⟩]).1.world.chans handle.signalTx).queue =
          (fullAndFree.chans handle.signalTx).queue ++ [.term] := by
  refine ⟨by decide, fullAndFree_ownQueues, fun h => ?_⟩
  have := h ⟨2⟩ (runningDaemon ⟨2⟩ (some ⟨1⟩)) ⟨1⟩ rfl rfl rfl rfl (by decide)
  exact absurd this (by decide)

def single (handle : Option DaemonContextHandle) : World where
  daemons := (∅ : Finmap _).insert ⟨1⟩ (runningDaemon ⟨1⟩ handle)
  chans _ := .new

/-- With a handle to a live context, the Term is accepted. -/
theorem reports_single : (((single (some ⟨0⟩)).shutdownAll [⟨1⟩]).1).Accepted ⟨1⟩ := by
  have hl : (single (some ⟨0⟩)).Listing [⟨1⟩] := by decide
  refine (shutdown_reports_iff hl).2 (.inl fun id d hd hsig => ?_) rfl ⟨1⟩
    (runningDaemon ⟨1⟩ (some ⟨0⟩)) rfl rfl
  by_cases h1 : id = ⟨1⟩
  · subst h1; cases hd; exact ⟨⟨0⟩, rfl, rfl⟩
  · simp only [single, Finmap.lookup_insert_of_ne _ h1, Finmap.lookup_empty, reduceCtorEq] at hd

/-- Without a handle the call still returns `Ok`. -/
theorem silent_failure : (single none).Listing [⟨1⟩] ∧
    ¬ (((single none).shutdownAll [⟨1⟩]).2 = some (.ok .unit) →
      ∀ id d, (single none).daemons.lookup id = some d → d.status.canSignal = true →
        ((single none).shutdownAll [⟨1⟩]).1.Accepted id) := by
  refine ⟨by decide, fun h => ?_⟩
  have := h rfl ⟨1⟩ (runningDaemon ⟨1⟩ none) rfl rfl
  simp [Sweep.Accepted, shutdownAll, signalAll, signal, single, ManagedDaemon.signalTarget,
    runningDaemon, DaemonStatus.canSignal, ManagedDaemon.new] at this

end World

end Duende.Core
