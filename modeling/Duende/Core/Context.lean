import Duende.Core.Types
import Duende.Trans.Channel
import Duende.Trans.Interleave

/-!
# The daemon context and its signal channel

A `DaemonContext` owns the receiving end of a channel of 16 signals and a shutdown flag;
any number of clones of its handle send to the channel. `contextObj` interleaves the calls
of both sides. `delivery` is what the channel keeps over every interleaving.
`poll_visible_iff` says when a run loop that only polls `should_shutdown` sees that it is
to stop: only the receive functions set the flag, so a signal alone never shows.
-/

namespace Duende.Core

open Trans

abbrev SignalChan := Chan Signal 16

def shutdownSignal : Signal → Bool
  | .term | .int | .quit => true
  | _ => false

/-- Runtime context for a daemon: the receiving end of its channel and the flag. -/
structure DaemonContext where
  signalRx : SignalChan
  shutdown : Bool
  deriving DecidableEq

namespace DaemonContext

def new : DaemonContext where
  signalRx := .new
  shutdown := false

def shouldShutdown (ctx : DaemonContext) : Bool := ctx.shutdown

def requestShutdown (ctx : DaemonContext) : DaemonContext := { ctx with shutdown := true }

/-- What both receive functions do with what the channel gave them. -/
def received (ctx : DaemonContext) : SignalChan × Option Signal → DaemonContext × Option Signal
  | (ch, some signal) =>
    ({ ctx with signalRx := ch, shutdown := ctx.shutdown || shutdownSignal signal }, some signal)
  | (ch, none) => ({ ctx with signalRx := ch }, none)

def tryRecvSignal (ctx : DaemonContext) : DaemonContext × Option Signal :=
  ctx.received ctx.signalRx.tryRecv

/-- `none` while it waits for a signal. -/
def recvSignal (ctx : DaemonContext) : Option (DaemonContext × Option Signal) :=
  ctx.signalRx.recv.map ctx.received

end DaemonContext

/-- `DaemonContextHandle::send_signal` on the channel of the handle; `none` while it waits
for a free slot. -/
def sendSignal (ch : SignalChan) (signal : Signal) :
    Option (SignalChan × Except DaemonError Unit) :=
  (ch.offer signal).map fun r =>
    (r.1, if r.2 then .ok () else .error (.signal "daemon context closed"))

/-! ## Both sides interleaved -/

namespace Context

/-- The calls of the handles, then the calls of the context. -/
inductive Op where
  | sendSignal (signal : Signal)
  | shutdown
  | clone
  | drop
  | tryRecvSignal
  | recvSignal
  | requestShutdown
  | shouldShutdown
  deriving DecidableEq, Repr

inductive Res where
  | sent (r : Except DaemonError Unit)
  | received (signal : Option Signal)
  | flag (shutdown : Bool)
  | unit
  deriving DecidableEq

/-- Every call is one atomic step; a call on a handle needs a handle. -/
def exec (ctx : DaemonContext) : Op → Option (DaemonContext × Res)
  | .sendSignal signal =>
    if ctx.signalRx.senders = 0 then none
    else (sendSignal ctx.signalRx signal).map fun r => ({ ctx with signalRx := r.1 }, .sent r.2)
  | .shutdown =>
    if ctx.signalRx.senders = 0 then none
    else (sendSignal ctx.signalRx .term).map fun r => ({ ctx with signalRx := r.1 }, .sent r.2)
  | .clone =>
    if ctx.signalRx.senders = 0 then none
    else some ({ ctx with signalRx := ctx.signalRx.cloneSender }, .unit)
  | .drop =>
    if ctx.signalRx.senders = 0 then none
    else some ({ ctx with signalRx := ctx.signalRx.dropSender }, .unit)
  | .tryRecvSignal => some (ctx.tryRecvSignal.1, .received ctx.tryRecvSignal.2)
  | .recvSignal => ctx.recvSignal.map fun r => (r.1, .received r.2)
  | .requestShutdown => some (ctx.requestShutdown, .unit)
  | .shouldShutdown => some (ctx, .flag ctx.shouldShutdown)

/-- The context as an object: the environment may drop it, with its receiver. -/
def contextObj : Obj DaemonContext Op Op Res Unit Unit where
  start := id
  exec ctx o _ := (exec ctx o).map fun r => (r.1, .inr r.2)
  env ctx _ := some { ctx with signalRx := ctx.signalRx.close }

abbrev CConf (ι : Type*) := Conf ι DaemonContext Op

abbrev CAct (ι : Type*) := Act ι Op Unit Unit

def Op.signal : Op → Option Signal
  | .sendSignal signal => some signal
  | .shutdown => some .term
  | _ => none

/-- What one action ends: a call with its result. -/
def ended {ι : Type*} [DecidableEq ι] (e : CConf ι × CAct ι) : Option (Op × Res) :=
  match e.2 with
  | .step i k => (e.1.pc i).bind fun o => (contextObj.result e.1 (.step i k)).map fun r => (o, r)
  | _ => none

/-- The signal the channel accepts when a call ends. -/
def accepts : Op × Res → Option Signal
  | (o, .sent (.ok ())) => o.signal
  | _ => none

/-- The signal a receive function returns when a call ends. -/
def returns : Op × Res → Option Signal
  | (_, .received signal) => signal
  | _ => none

/-- The calls of a run that have ended, in order, with their results. -/
def callsOf {ι : Type*} [DecidableEq ι] (t : List (CConf ι × CAct ι)) : List (Op × Res) :=
  t.filterMap ended

def accepted {ι : Type*} [DecidableEq ι] (t : List (CConf ι × CAct ι)) : List Signal :=
  (callsOf t).filterMap accepts

def returned {ι : Type*} [DecidableEq ι] (t : List (CConf ι × CAct ι)) : List Signal :=
  (callsOf t).filterMap returns

/-! ## What one call does -/

variable {ctx ctx' : DaemonContext} {o : Op} {r : Res}

/-- A call that neither puts a signal into the queue nor takes one out. -/
structure Inert (ctx ctx' : DaemonContext) (o : Op) (r : Res) : Prop where
  accepts : accepts (o, r) = none
  returns : returns (o, r) = none
  queue : ctx'.signalRx.queue = ctx.signalRx.queue
  receiver : ctx'.signalRx.receiver = ctx.signalRx.receiver
  shutdown : ctx'.shutdown = (ctx.shutdown || decide (o = .requestShutdown))

/-- What a call can do to the queue and the flag. -/
inductive Move (ctx ctx' : DaemonContext) (o : Op) (r : Res) : Prop where
  | accept (signal : Signal) (sends : o.signal = some signal) (ok : r = .sent (.ok ()))
      (alive : ctx.signalRx.receiver = true ∧ ctx'.signalRx.receiver = true)
      (queue : ctx'.signalRx.queue = ctx.signalRx.queue ++ [signal])
      (shutdown : ctx'.shutdown = ctx.shutdown)
  | take (signal : Signal) (receives : o = .tryRecvSignal ∨ o = .recvSignal)
      (got : r = .received (some signal))
      (queue : ctx.signalRx.queue = signal :: ctx'.signalRx.queue)
      (receiver : ctx'.signalRx.receiver = ctx.signalRx.receiver)
      (shutdown : ctx'.shutdown = (ctx.shutdown || shutdownSignal signal))
  | inert (i : Inert ctx ctx' o r)

theorem move_send {signal : Signal} {q : SignalChan × Except DaemonError Unit}
    (hs : o.signal = some signal) (h : sendSignal ctx.signalRx signal = some q) :
    Move ctx { ctx with signalRx := q.1 } o (.sent q.2) := by
  obtain ⟨⟨ch, ok⟩, ho, rfl⟩ := Option.map_eq_some_iff.1 h
  rcases Chan.offer_cases ho with ⟨rfl, halive, hroom, rfl⟩ | ⟨rfl, -, rfl⟩
  · exact .accept signal hs rfl ⟨halive, halive⟩ rfl rfl
  · have hne : o ≠ .requestShutdown := by rintro rfl; cases hs
    exact .inert ⟨rfl, rfl, rfl, rfl, by simp [hne]⟩

theorem move_received {q : SignalChan × Option Signal}
    (ho : o = .tryRecvSignal ∨ o = .recvSignal) (h : ctx.signalRx.tryRecv = q) :
    Move ctx (ctx.received q).1 o (.received (ctx.received q).2) := by
  obtain ⟨ch, s⟩ := q
  rcases Chan.tryRecv_cases h with ⟨rfl, rfl, -⟩ | ⟨signal, rfl, hq, -, hr⟩
  · refine .inert ⟨?_, rfl, rfl, rfl, ?_⟩ <;> rcases ho with rfl | rfl <;>
      simp [accepts, DaemonContext.received]
  · exact .take signal ho rfl hq hr rfl

theorem move_of_exec (h : exec ctx o = some (ctx', r)) : Move ctx ctx' o r := by
  cases o with
  | sendSignal signal =>
    simp only [exec, Option.ite_none_left_eq_some, Option.map_eq_some_iff] at h
    obtain ⟨-, q, hq, he⟩ := h
    cases he; exact move_send rfl hq
  | shutdown =>
    simp only [exec, Option.ite_none_left_eq_some, Option.map_eq_some_iff] at h
    obtain ⟨-, q, hq, he⟩ := h
    cases he; exact move_send rfl hq
  | clone =>
    simp only [exec, Option.ite_none_left_eq_some] at h
    cases h.2; exact .inert ⟨rfl, rfl, rfl, rfl, by simp⟩
  | drop =>
    simp only [exec, Option.ite_none_left_eq_some] at h
    cases h.2; exact .inert ⟨rfl, rfl, rfl, rfl, by simp⟩
  | tryRecvSignal => cases h; exact move_received (.inl rfl) rfl
  | recvSignal =>
    simp only [exec, DaemonContext.recvSignal, Option.map_map, Option.map_eq_some_iff] at h
    obtain ⟨q, hq, he⟩ := h
    cases he; exact move_received (.inr rfl) (Chan.tryRecv_of_recv hq)
  | requestShutdown =>
    cases h; exact .inert ⟨rfl, rfl, rfl, rfl, by simp [DaemonContext.requestShutdown]⟩
  | shouldShutdown => cases h; exact .inert ⟨rfl, rfl, rfl, rfl, by simp⟩

section Runs

variable {ι : Type*} [DecidableEq ι] {c c' : CConf ι} {t : List (CConf ι × CAct ι)} {a : CAct ι}

theorem callsOf_snoc : callsOf (t ++ [(c, a)]) = callsOf t ++ (ended (c, a)).toList := by
  simp only [callsOf, List.filterMap_append]
  cases h : ended (c, a) <;> simp [h]

/-- **What an action can do**: end a call, drop the context, or neither. -/
theorem cact_cases (h : contextObj.act c a = some c') :
    (∃ o r, ended (c, a) = some (o, r) ∧ exec c.shared o = some (c'.shared, r)) ∨
      (ended (c, a) = none ∧ (c'.shared = c.shared ∨
        c'.shared = { c.shared with signalRx := c.shared.signalRx.close })) := by
  rcases Obj.act_cases h with ⟨i, o, rfl, -, rfl⟩ | ⟨i, k, o, s', q, rfl, hp, hx, rfl⟩ |
    ⟨e, s', rfl, hx, rfl⟩
  · exact .inr ⟨rfl, .inl rfl⟩
  · have hx' := hx
    simp only [contextObj, Option.map_eq_some_iff] at hx'
    obtain ⟨⟨s1, r⟩, he, hq⟩ := hx'
    cases hq
    exact .inl ⟨o, r, by simp [ended, Obj.result, hp, hx], he⟩
  · cases hx; exact .inr ⟨rfl, .inr rfl⟩

/-! ## Delivery -/

/-- What the calls so far say about the context: the signals returned and the signals
queued make up the signals accepted, and the flag shows a request or a returned signal. -/
structure Delivered (h : List (Op × Res)) (ctx : DaemonContext) : Prop where
  fifo : ∃ lost, h.filterMap accepts = h.filterMap returns ++ (ctx.signalRx.queue ++ lost) ∧
    (ctx.signalRx.receiver = true → lost = [])
  flag : ctx.shutdown = true ↔ (∃ r, (Op.requestShutdown, r) ∈ h) ∨
    ∃ signal ∈ h.filterMap returns, shutdownSignal signal = true

theorem delivered_new : Delivered [] .new where
  fifo := ⟨[], rfl, fun _ => rfl⟩
  flag := by simp [DaemonContext.new]

/-- Dropping the context loses what is queued, and nothing can be accepted after it. -/
theorem Delivered.close {h : List (Op × Res)} (hd : Delivered h ctx) :
    Delivered h { ctx with signalRx := ctx.signalRx.close } where
  fifo := by
    obtain ⟨lost, hf, -⟩ := hd.fifo
    exact ⟨ctx.signalRx.queue ++ lost, by simpa using hf, fun hr => by cases hr⟩
  flag := hd.flag

theorem Delivered.exec {h : List (Op × Res)} (hd : Delivered h ctx)
    (hx : exec ctx o = some (ctx', r)) : Delivered (h ++ [(o, r)]) ctx' := by
  obtain ⟨lost, hf, hl⟩ := hd.fifo
  rcases move_of_exec hx with ⟨signal, hs, rfl, halive, hq, hsh⟩ | ⟨signal, ho, rfl, hq, hr, hsh⟩ |
    ⟨ha, hb, hq, hr, hsh⟩
  · -- an accepted signal goes last, and nothing is lost while the receiver is alive
    have ha : accepts (o, .sent (.ok ())) = some signal := hs
    have hne : o ≠ .requestShutdown := by rintro rfl; cases hs
    refine ⟨⟨[], ?_, fun _ => rfl⟩, ?_⟩
    · simp [ha, returns, hf, hl halive.1, hq]
    · rw [hsh, hd.flag]
      simp [returns, Ne.symm hne]
  · -- a returned signal is the one queued first
    have hne : o ≠ .requestShutdown := by rcases ho with rfl | rfl <;> simp
    refine ⟨⟨lost, ?_, fun h => hl (by rw [← hr]; exact h)⟩, ?_⟩
    · have ha : accepts (o, .received (some signal)) = none := rfl
      simp [ha, returns, hf, hq]
    · rw [hsh, Bool.or_eq_true, hd.flag]
      simp [returns, Ne.symm hne, or_and_right, exists_or, or_assoc]
  · refine ⟨⟨lost, ?_, fun h => hl (by rw [← hr]; exact h)⟩, ?_⟩
    · simp [ha, hb, hf, hq]
    · rw [hsh, Bool.or_eq_true, hd.flag, decide_eq_true_eq]
      by_cases ho : o = .requestShutdown
      · simp [ho]
      · simp [ho, Ne.symm ho, hb]

theorem delivered_run {as : List (CAct ι)}
    (h : run contextObj.act (Obj.init .new) as = some c) :
    Delivered (callsOf (trace contextObj.act (Obj.init .new) as)) c.shared := by
  refine run_trace (P := fun t c => Delivered (callsOf t) c.shared) (t := [])
    (fun t c a c' hd ha => ?_) delivered_new h
  rw [callsOf_snoc]
  rcases cact_cases ha with ⟨o, r, he, hx⟩ | ⟨he, hs | hs⟩
  · rw [he]; exact hd.exec hx
  · rw [he, hs]; simpa using hd
  · rw [he, hs]; simpa using hd.close

/-- **Delivery**: over every interleaving of any number of handles with the context, the
signals returned are a prefix of the signals accepted, those still missing are queued as
long as the context lives, at most 16 are queued, and `should_shutdown` is true exactly
when a shutdown was requested or a Term, Int or Quit returned. -/
theorem delivery {as : List (CAct ι)} (h : run contextObj.act (Obj.init .new) as = some c) :
    returned (trace contextObj.act (Obj.init .new) as) <+:
        accepted (trace contextObj.act (Obj.init .new) as) ∧
      (c.shared.signalRx.receiver = true →
        accepted (trace contextObj.act (Obj.init .new) as) =
          returned (trace contextObj.act (Obj.init .new) as) ++ c.shared.signalRx.queue) ∧
      c.shared.signalRx.queue.length ≤ 16 ∧
      (c.shared.shouldShutdown = true ↔
        (∃ r, (Op.requestShutdown, r) ∈ callsOf (trace contextObj.act (Obj.init .new) as)) ∨
        ∃ signal ∈ returned (trace contextObj.act (Obj.init .new) as),
          shutdownSignal signal = true) := by
  have hd := delivered_run h
  obtain ⟨lost, hf, hl⟩ := hd.fifo
  refine ⟨⟨_, hf.symm⟩, fun hr => ?_, c.shared.signalRx.bounded, hd.flag⟩
  rw [hl hr, List.append_nil] at hf
  exact hf

/-- Two senders, one of them a clone; one signal is returned and one still queued. -/
theorem delivery_two : ∃ c : CConf Bool,
    run contextObj.act (Obj.init .new)
      [.call true .clone, .step true (), .call true (.sendSignal .usr1),
        .call false (.sendSignal .term), .step true (), .step false (), .call true .tryRecvSignal,
        .step true ()] = some c ∧
      c.shared.signalRx.queue = [.term] ∧ [Signal.usr1] <+: [.usr1, .term] := by
  have h : run contextObj.act (Obj.init .new : CConf Bool)
      [.call true .clone, .step true (), .call true (.sendSignal .usr1),
        .call false (.sendSignal .term), .step true (), .step false (), .call true .tryRecvSignal,
        .step true ()] = some _ := rfl
  exact ⟨_, h, rfl, (delivery h).1⟩

/-! ## A run loop that only polls -/

/-- The calls of a loop that only polls, and those of the handles. -/
def Op.polling : Op → Bool
  | .tryRecvSignal | .recvSignal | .requestShutdown => false
  | _ => true

/-- The only context operation of the run is `should_shutdown`. -/
def PollingRun (as : List (CAct ι)) : Prop := ∀ i o, .call i o ∈ as → o.polling = true

/-- A poll that comes after these actions, in the state `c'`. -/
def PollAt (c : CConf ι) (as pre : List (CAct ι)) (i : ι) (c' : CConf ι) : Prop :=
  (∃ post, as = pre ++ .step i () :: post) ∧ run contextObj.act c pre = some c' ∧
    c'.pc i = some .shouldShutdown

/-- Every poll made after a shutdown signal was accepted returns true. -/
def PollVisible (c : CConf ι) (as : List (CAct ι)) : Prop :=
  ∀ pre i c', PollAt c as pre i c' →
    (∃ signal ∈ accepted (trace contextObj.act c pre), shutdownSignal signal = true) →
    contextObj.result c' (.step i ()) = some (.flag true)

/-- In a polling run no receive function is ever called, so the flag stays as it was. -/
theorem polling_flag {as : List (CAct ι)} {ctx : DaemonContext} (hp : PollingRun as)
    (h : run contextObj.act (Obj.init ctx) as = some c) : c.shared.shutdown = ctx.shutdown := by
  have hm : Meets contextObj.act (fun _ a => ∀ i o, a = .call i o → o.polling = true)
      (Obj.init ctx) as :=
    meets_of_forall fun a ha i o e => hp i o (e ▸ ha)
  refine (Meets.run_inv (P := fun c : CConf ι => c.shared.shutdown = ctx.shutdown ∧
    ∀ i o, c.pc i = some o → o.polling = true) (fun c a c' hc hC ha => ?_) hm
    ⟨rfl, fun i o hi => by cases hi⟩ h).1
  rcases Obj.act_cases ha with ⟨i, o, rfl, hi, rfl⟩ | ⟨i, k, o, s', q, rfl, hi, hx, rfl⟩ |
    ⟨e, s', rfl, hx, rfl⟩
  · refine ⟨hc.1, fun j o' hj => ?_⟩
    rcases Conf.pc_update_cases hj with ⟨-, hs⟩ | ⟨-, hj⟩
    · cases hs; exact hC _ _ rfl
    · exact hc.2 j o' hj
  · simp only [contextObj, Option.map_eq_some_iff] at hx
    obtain ⟨⟨s1, r⟩, he, hq⟩ := hx
    cases hq
    have ho := hc.2 i o hi
    refine ⟨?_, fun j o' hj => ?_⟩
    · rcases move_of_exec he with ⟨-, -, -, -, -, hsh⟩ | ⟨-, hr, -⟩ | ⟨-, -, -, -, hsh⟩
      · exact hsh.trans hc.1
      · rcases hr with rfl | rfl <;> cases ho
      · have hne : o ≠ .requestShutdown := by rintro rfl; cases ho
        rw [hsh, hc.1]; simp [hne]
    · rcases Conf.pc_update_cases hj with ⟨-, hs⟩ | ⟨-, hj⟩
      · cases hs
      · exact hc.2 j o' hj
  · cases hx; exact hc

/-- **What a polling loop sees**: every poll after an accepted shutdown signal returns true
exactly when there is no such poll, or the flag was set when the loop started. -/
theorem poll_visible_iff {as : List (CAct ι)} {ctx : DaemonContext} (hp : PollingRun as) :
    PollVisible (Obj.init ctx) as ↔ ctx.shutdown = true ∨
      ∀ pre i c', PollAt (Obj.init ctx) as pre i c' →
        ∀ signal ∈ accepted (trace contextObj.act (Obj.init ctx) pre),
          shutdownSignal signal = false := by
  have hres : ∀ pre i c', PollAt (Obj.init ctx) as pre i c' →
      contextObj.result c' (.step i ()) = some (.flag ctx.shutdown) := by
    rintro pre i c' ⟨⟨post, has⟩, hr, hi⟩
    have hpre : PollingRun pre := fun j o hj => hp j o (by rw [has]; simp [hj])
    have hs := polling_flag hpre hr
    simp [Obj.result, hi, contextObj, exec, DaemonContext.shouldShutdown, hs]
  constructor
  · intro hv
    by_cases hs : ctx.shutdown = true
    · exact .inl hs
    · refine .inr fun pre i c' hat signal hm => ?_
      by_contra hne
      have := hv pre i c' hat ⟨signal, hm, by simpa using hne⟩
      rw [hres pre i c' hat] at this
      simp [hs] at this
  · rintro (hs | hn) pre i c' hat ⟨signal, hm, ht⟩
    · rw [hres pre i c' hat, hs]
    · rw [hn pre i c' hat signal hm] at ht; cases ht

/-- Another task sends Term, then the loop polls. -/
def termThenPoll : List (CAct Bool) :=
  [.call false (.sendSignal .term), .step false (), .call true .shouldShutdown, .step true ()]

theorem pollingRun_termThenPoll : PollingRun termThenPoll := by
  intro i o h
  simp only [termThenPoll, List.mem_cons, Act.call.injEq, List.not_mem_nil, or_false,
    reduceCtorEq, false_or] at h
  rcases h with ⟨-, rfl⟩ | ⟨-, rfl⟩ <;> rfl

/-- A loop that starts with the flag set. -/
theorem poll_visible_requested : PollVisible (Obj.init ⟨.new, true⟩) termThenPoll :=
  (poll_visible_iff pollingRun_termThenPoll).2 (.inl rfl)

/-- The Term is accepted, and the poll after it returns false. -/
theorem term_then_poll : PollingRun termThenPoll ∧
    ¬ PollVisible (Obj.init .new) termThenPoll := by
  refine ⟨pollingRun_termThenPoll, fun hv => ?_⟩
  have hat : PollAt (Obj.init .new) termThenPoll (termThenPoll.take 3) true _ :=
    ⟨⟨[], rfl⟩, rfl, rfl⟩
  have := hv _ _ _ hat ⟨.term, by decide, rfl⟩
  exact absurd this (by decide)

end Runs

end Context

end Duende.Core
