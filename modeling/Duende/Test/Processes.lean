import Duende.Platform.NativePids
import Duende.Test.Harness
import Duende.Trans.Dialogue

/-!
# The test harness and the processes of the system

The harness always works with the native adapter. Here its `shutdown` runs against a table of
processes that other programs, and the daemon itself, change at any time: processes exit, are
waited for and forked, and a pid is taken again once it is free. `shutdown_of_process` says what
`Ok` and the error stand for there, and whom the signals reach.
-/

namespace Duende.Test

open Trans Platforms

/-! ## Processes -/

/-- A process; its serial number tells it from every other one, also from those that have had its
pid before. -/
structure Process where
  serial : Nat
  /-- It has exited and was not waited for yet. -/
  zombie : Bool
  /-- It belongs to a user whom the harness may not send signals. -/
  foreign : Bool
  deriving DecidableEq, Repr

/-- The processes, by their pids, the next serial number, and the signals that were delivered. -/
structure Processes where
  table : Nat → Option Process
  next : Nat
  delivered : List (Nat × Signal)

/-- What happens to a process. -/
inductive Change where
  | fork (pid : Nat) (foreign : Bool)
  | setuid (pid : Nat) (foreign : Bool)
  | exit (pid : Nat)
  | wait (pid : Nat)
  deriving DecidableEq, Repr

namespace Processes

/-- The process with this pid becomes another one. -/
def set (k : Processes) (pid : Nat) (p : Option Process) : Processes :=
  { k with table := Function.update k.table pid p }

def change (k : Processes) : Change → Option Processes
  | .fork pid foreign =>
    if k.table pid = none then
      some { k.set pid (some ⟨k.next, false, foreign⟩) with next := k.next + 1 }
    else none
  | .setuid pid foreign =>
    (k.table pid).bind fun p =>
      if p.zombie then none else some (k.set pid (some { p with foreign := foreign }))
  | .exit pid =>
    (k.table pid).bind fun p =>
      if p.zombie then none else some (k.set pid (some { p with zombie := true }))
  | .wait pid =>
    (k.table pid).bind fun p => if p.zombie then some (k.set pid none) else none

/-- `kill(2)`; a zombie still takes signals. Pids that name a group are left out. -/
def kill (k : Processes) (raw : Int32) (sig : Option Signal) :
    Option (Processes × Except Errno Unit) :=
  match Native.target raw with
  | .process pid =>
    match k.table pid with
    | none => some (k, .error .esrch)
    | some p =>
      if p.foreign then some (k, .error (.other "EPERM: Operation not permitted"))
      else
        some ({ k with delivered := k.delivered ++ (sig.map fun s => (p.serial, s)).toList },
          .ok ())
  | _ => none

/-- How the system answers a question; the native adapter asks for nothing but `kill`. -/
def answer (k : Processes) : (q : Question) → Option (Processes × q.Answer)
  | .kill raw sig => k.kill raw sig
  | _ => none

end Processes

/-! ## The harness at work -/

/-- A `shutdown` in progress among the processes. -/
structure Scene where
  processes : Processes
  shutdown : Shutdown

/-- What happens next: a process changes, `shutdown` calls its adapter or looks at the clock. -/
inductive Happening where
  | change (c : Change)
  | call
  | clock (elapsed : Nat)
  deriving DecidableEq, Repr

namespace Shutdown

/-- The call of the adapter that a phase makes. -/
def nextCall (h : Platforms.DaemonHandle) : Phase → Option (Io Answer)
  | .term => some ((Native.signal ⟨⟩ h .term).map fun r => .signalled r.2)
  | .kill => some ((Native.signal ⟨⟩ h .kill).map fun r => .signalled r.2)
  | .poll | .verify => some ((Native.status ⟨⟩ h).map fun r => .status r.2)
  | _ => none

end Shutdown

namespace Scene

def step (h : Platforms.DaemonHandle) (timeout : Nat) (w : Scene) : Happening → Option Scene
  | .change c => (w.processes.change c).map fun k => { w with processes := k }
  | .call =>
    (Shutdown.nextCall h w.shutdown.phase).bind fun x =>
      (x.serve Processes.answer w.processes).bind fun r =>
        (Shutdown.step (h.pid.getD 0) timeout w.shutdown r.2).map fun s => ⟨r.1, s⟩
  | .clock elapsed =>
    (Shutdown.step (h.pid.getD 0) timeout w.shutdown (.elapsed elapsed)).map fun s =>
      { w with shutdown := s }

def start (h : Platforms.DaemonHandle) (k : Processes) : Scene := ⟨k, Shutdown.start h⟩

end Scene

/-! ## What a call does -/

namespace Processes

variable {k k' : Processes} {h : Platforms.DaemonHandle} {pid : UInt32} {sig : Signal} {a : Answer}

theorem kill_eq (hpos : 0 < pid.toNat) (hlt : pid.toNat < 2 ^ 31) (s : Option Signal) :
    k.kill pid.toInt32 s = match k.table pid.toNat with
      | none => some (k, .error .esrch)
      | some p =>
        if p.foreign then some (k, .error (.other "EPERM: Operation not permitted"))
        else some ({ k with delivered := k.delivered ++ (s.map fun x => (p.serial, x)).toList },
          .ok ()) := by
  have htarget : Native.target pid.toInt32 = .process pid.toNat :=
    Native.target_eq_process.2 (Native.cast_iff.2 ⟨hpos, hlt⟩)
  rw [kill, htarget]

/-- What a call of `signal` can find. -/
inductive Signalled (k : Processes) (n : Nat) (sig : Signal) : Processes → Answer → Prop where
  | free (e : PlatformError) (hn : k.table n = none) : Signalled k n sig k (.signalled (.error e))
  | denied (p : Process) (e : PlatformError) (hp : k.table n = some p) (hf : p.foreign = true) :
    Signalled k n sig k (.signalled (.error e))
  | sent (p : Process) (hp : k.table n = some p) (hf : p.foreign = false) :
    Signalled k n sig { k with delivered := k.delivered ++ [(p.serial, sig)] }
      (.signalled (.ok ()))

theorem signal_cases (hp : h.pid = some pid) (hpos : 0 < pid.toNat) (hlt : pid.toNat < 2 ^ 31)
    (hs : ((Native.signal ⟨⟩ h sig).map fun r => Answer.signalled r.2).serve answer k =
      some (k', a)) : Signalled k pid.toNat sig k' a := by
  simp only [Native.signal, hp] at hs
  obtain ⟨r, hr, hk⟩ := Ask.serve_ask.1 hs
  have hr' : k.kill pid.toInt32 (some sig) = some r := hr
  rw [kill_eq hpos hlt] at hr'
  cases hn : k.table pid.toNat with
  | none =>
    rw [hn] at hr'
    cases hr'
    cases hk
    exact .free _ hn
  | some p =>
    rw [hn] at hr'
    simp only at hr'
    cases hf : p.foreign with
    | true =>
      rw [if_pos hf] at hr'
      cases hr'
      cases hk
      exact .denied p _ hn hf
    | false =>
      rw [if_neg (by rw [hf]; decide)] at hr'
      cases hr'
      cases hk
      exact .sent p hn hf

/-- What a call of `status` can find; it changes nothing. -/
inductive Queried (k : Processes) (n : Nat) : Answer → Prop where
  | free (hn : k.table n = none) : Queried k n (.status (.ok .stopped))
  | denied (p : Process) (e : PlatformError) (hp : k.table n = some p) (hf : p.foreign = true) :
    Queried k n (.status (.error e))
  | running (p : Process) (hp : k.table n = some p) : Queried k n (.status (.ok .running))

theorem status_cases (hp : h.pid = some pid) (hpos : 0 < pid.toNat) (hlt : pid.toNat < 2 ^ 31)
    (hs : ((Native.status ⟨⟩ h).map fun r => Answer.status r.2).serve answer k = some (k', a)) :
    k' = k ∧ Queried k pid.toNat a := by
  simp only [Native.status, hp] at hs
  obtain ⟨r, hr, hk⟩ := Ask.serve_ask.1 hs
  have hr' : k.kill pid.toInt32 none = some r := hr
  rw [kill_eq hpos hlt] at hr'
  cases hn : k.table pid.toNat with
  | none =>
    rw [hn] at hr'
    cases hr'
    cases hk
    exact ⟨rfl, .free hn⟩
  | some p =>
    rw [hn] at hr'
    simp only at hr'
    cases hf : p.foreign with
    | true =>
      rw [if_pos hf] at hr'
      cases hr'
      cases hk
      exact ⟨rfl, .denied p _ hn hf⟩
    | false =>
      rw [if_neg (by rw [hf]; decide)] at hr'
      cases hr'
      cases hk
      exact ⟨by rw [Option.map_none, Option.toList_none, List.append_nil], .running p hn⟩

/-- A status query finds the daemon stopped when nobody has its pid. -/
theorem status_of_free (hp : h.pid = some pid) (hpos : 0 < pid.toNat) (hlt : pid.toNat < 2 ^ 31)
    (hn : k.table pid.toNat = none) :
    ((Native.status ⟨⟩ h).map fun r => Answer.status r.2).serve answer k =
      some (k, .status (.ok .stopped)) := by
  simp only [Native.status, hp]
  refine Ask.serve_ask.2 ⟨(k, .error .esrch), ?_, rfl⟩
  exact (kill_eq hpos hlt none).trans (by simp only [hn]; rfl)

/-- What a change can do. -/
inductive Changed (k : Processes) : Change → Processes → Prop where
  | forked (m : Nat) (f : Bool) (hm : k.table m = none) :
    Changed k (.fork m f) { k.set m (some ⟨k.next, false, f⟩) with next := k.next + 1 }
  | altered (c : Change) (m : Nat) (p p' : Process) (hm : k.table m = some p)
    (hser : p'.serial = p.serial) (hfor : p'.foreign = p.foreign ∨ c = .setuid m p'.foreign) :
    Changed k c (k.set m (some p'))
  | waited (m : Nat) : Changed k (.wait m) (k.set m none)

theorem change_cases {c : Change} (h : k.change c = some k') : Changed k c k' := by
  cases c with
  | fork m f =>
    simp only [change, Option.ite_none_right_eq_some, Option.some.injEq] at h
    obtain ⟨hm, rfl⟩ := h
    exact .forked m f hm
  | setuid m f =>
    simp only [change, Option.bind_eq_some_iff, Option.ite_none_left_eq_some,
      Option.some.injEq] at h
    obtain ⟨p, hm, -, rfl⟩ := h
    exact .altered _ m p _ hm rfl (.inr rfl)
  | exit m =>
    simp only [change, Option.bind_eq_some_iff, Option.ite_none_left_eq_some,
      Option.some.injEq] at h
    obtain ⟨p, hm, -, rfl⟩ := h
    exact .altered _ m p _ hm rfl (.inl rfl)
  | wait m =>
    simp only [change, Option.bind_eq_some_iff, Option.ite_none_right_eq_some,
      Option.some.injEq] at h
    obtain ⟨p, hm, -, rfl⟩ := h
    exact .waited m

/-! ## The process of the daemon -/

/-- The process was waited for. -/
def Gone (k : Processes) (d : Nat) : Prop := ∀ m p, k.table m = some p → p.serial ≠ d

/-- The process `d` is one of the harness's user and has no pid but `n`. -/
structure Kept (k : Processes) (n d : Nat) : Prop where
  own : ∀ m p, k.table m = some p → p.serial = d → m = n ∧ p.foreign = false
  fresh : ∀ m p, k.table m = some p → p.serial < k.next
  old : d < k.next

/-- The daemon does not change to another user. -/
def Loyal (k : Processes) (d : Nat) : Change → Prop
  | .setuid m true => ∀ p, k.table m = some p → p.serial ≠ d
  | _ => True

theorem Kept.gone_of_other {n d : Nat} {p : Process} (h : Kept k n d) (hp : k.table n = some p)
    (hd : p.serial ≠ d) : k.Gone d := by
  intro m p' hm hd'
  obtain ⟨rfl, -⟩ := h.own m p' hm hd'
  cases hp.symm.trans hm
  exact hd hd'

theorem Kept.gone_of_free {n d : Nat} (h : Kept k n d) (hn : k.table n = none) : k.Gone d := by
  intro m p hm hd
  obtain ⟨rfl, -⟩ := h.own m p hm hd
  cases hn.symm.trans hm

theorem set_some {m j : Nat} {v : Option Process} {p : Process}
    (h : (k.set m v).table j = some p) : (j = m ∧ v = some p) ∨ (j ≠ m ∧ k.table j = some p) := by
  by_cases hj : j = m
  · subst hj
    have hv : (k.set j v).table j = v := Function.update_self ..
    exact .inl ⟨rfl, hv.symm.trans h⟩
  · have hv : (k.set m v).table j = k.table j := Function.update_of_ne hj ..
    exact .inr ⟨hj, hv.symm.trans h⟩

/-- **Step lemma** for the processes. -/
theorem Kept.change {n d : Nat} {c : Change} (h : Kept k n d) (hc : k.Loyal d c)
    (hs : k.change c = some k') : Kept k' n d ∧ (k.Gone d → k'.Gone d) := by
  cases change_cases hs with
  | forked m f hm =>
    have hsplit : ∀ j p, (k.set m (some ⟨k.next, false, f⟩)).table j = some p →
        p.serial = k.next ∨ k.table j = some p := fun j p hj => by
      rcases set_some hj with ⟨-, hv⟩ | ⟨-, hj⟩
      · cases hv
        exact .inl rfl
      · exact .inr hj
    refine ⟨⟨fun j p hj hd => ?_, fun j p hj => ?_, Nat.lt_succ_of_lt h.old⟩, fun hg j p hj => ?_⟩
    · rcases hsplit j p hj with hnew | hj
      · exact absurd h.old (by rw [← hd, hnew]; exact Nat.lt_irrefl _)
      · exact h.own j p hj hd
    · rcases hsplit j p hj with hnew | hj
      · exact hnew ▸ Nat.lt_succ_self _
      · exact Nat.lt_succ_of_lt (h.fresh j p hj)
    · rcases hsplit j p hj with hnew | hj
      · exact fun hd => absurd h.old (by rw [← hd, hnew]; exact Nat.lt_irrefl _)
      · exact hg j p hj
  | altered _ m p p' hm hser hfor =>
    refine ⟨⟨fun j q hj hd => ?_, fun j q hj => ?_, h.old⟩, fun hg j q hj => ?_⟩
    · rcases set_some hj with ⟨rfl, hv⟩ | ⟨-, hj⟩
      · cases hv
        obtain ⟨hn, hown⟩ := h.own j p hm (hser.symm.trans hd)
        refine ⟨hn, ?_⟩
        rcases hfor with hfor | rfl
        · exact hfor.trans hown
        · cases hf : p'.foreign with
          | false => rfl
          | true =>
            rw [hf] at hc
            exact absurd (hser.symm.trans hd) (hc p hm)
      · exact h.own j q hj hd
    · rcases set_some hj with ⟨rfl, hv⟩ | ⟨-, hj⟩
      · cases hv
        exact hser ▸ h.fresh j p hm
      · exact h.fresh j q hj
    · rcases set_some hj with ⟨rfl, hv⟩ | ⟨-, hj⟩
      · cases hv
        exact hser ▸ hg j p hm
      · exact hg j q hj
  | waited m =>
    have hold : ∀ j p, (k.set m none).table j = some p → k.table j = some p := fun j p hj => by
      rcases set_some hj with ⟨-, hv⟩ | ⟨-, hj⟩
      · cases hv
      · exact hj
    exact ⟨⟨fun j p hj => h.own j p (hold j p hj), fun j p hj => h.fresh j p (hold j p hj), h.old⟩,
      fun hg j p hj => hg j p (hold j p hj)⟩

end Processes

/-! ## Runs of a shutdown -/

namespace Scene

/-- The signals that `shutdown` has sent, by its phase. -/
def Sent : Phase → List Signal → Prop
  | .term, sigs => sigs = []
  | .poll, sigs | .clock, sigs | .kill, sigs => sigs.Sublist [.term]
  | .verify, sigs | .returned (.error _), sigs => ∃ l, l.Sublist [.term] ∧ sigs = l ++ [.kill]
  | .returned (.ok ()), sigs => sigs.Sublist [.term, .kill]

/-- The timeout was found to have passed. -/
def Due (timeout : Nat) (past : List Happening) : Prop :=
  ∃ elapsed, timeout ≤ elapsed ∧ .clock elapsed ∈ past

/-- The pid was taken by another process once the daemon had gone. -/
def Taken (n d : Nat) (past : List Happening) (k : Processes) : Prop :=
  k.Gone d ∧ ∃ f, .change (.fork n f) ∈ past

/-- What holds of a `shutdown` of the process `d` with pid `n`, after what has happened so far. -/
structure Watched (timeout n d : Nat) (past : List Happening) (w : Scene) : Prop where
  kept : w.processes.Kept n d
  holder : ∀ p, w.processes.table n = some p → p.serial = d ∨ Taken n d past w.processes
  sent : Sent w.shutdown.phase (w.processes.delivered.map Prod.snd)
  due : w.shutdown.phase = .kill ∨ Signal.kill ∈ w.processes.delivered.map Prod.snd →
    Due timeout past
  gone : w.shutdown.phase = .returned (.ok ()) → w.processes.Gone d
  reached : ∀ e ∈ w.processes.delivered, e.1 = d ∨ Taken n d past w.processes

theorem Sent.sublist {p : Phase} {sigs : List Signal} (h : Sent p sigs) :
    sigs.Sublist [.term, .kill] := by
  have hboth : ∀ {l : List Signal}, l.Sublist [.term] →
      (l ++ [Signal.kill]).Sublist [.term, .kill] := fun hl =>
    hl.append (List.Sublist.refl [Signal.kill])
  have hone : sigs.Sublist [.term] → sigs.Sublist [.term, .kill] := fun hl =>
    hl.trans (List.sublist_append_left [Signal.term] [.kill])
  cases p with
  | term =>
    obtain rfl : sigs = [] := h
    exact List.nil_sublist _
  | poll | clock | kill => exact hone h
  | verify =>
    obtain ⟨l, hl, rfl⟩ := h
    exact hboth hl
  | returned r =>
    cases r with
    | ok u => exact h
    | error e =>
      obtain ⟨l, hl, rfl⟩ := h
      exact hboth hl

variable {timeout n d : Nat} {past : List Happening} {w w' : Scene} {k : Processes} {c : Change}
  {a : Happening} {s : Shutdown}

theorem Due.later (h : Due timeout past) : Due timeout (past ++ [a]) := by
  obtain ⟨elapsed, hle, hmem⟩ := h
  exact ⟨elapsed, hle, List.mem_append_left _ hmem⟩

theorem Taken.later {k' : Processes} (h : Taken n d past k) (hg : k.Gone d → k'.Gone d) :
    Taken n d (past ++ [a]) k' := by
  obtain ⟨hgone, f, hmem⟩ := h
  exact ⟨hg hgone, f, List.mem_append_left _ hmem⟩

namespace Watched

theorem change (h : Watched timeout n d past w) (hc : w.processes.Loyal d c)
    (hs : w.processes.change c = some k) :
    Watched timeout n d (past ++ [.change c]) { w with processes := k } := by
  obtain ⟨hkept, hgone⟩ := h.kept.change hc hs
  have hdel : k.delivered = w.processes.delivered := by
    cases Processes.change_cases hs <;> rfl
  refine ⟨hkept, fun p hp => ?_, hdel ▸ h.sent, fun hd => (h.due (hdel ▸ hd)).later,
    fun hr => hgone (h.gone hr), fun e he => ?_⟩
  · by_cases hser : p.serial = d
    · exact .inl hser
    refine .inr ?_
    have hg : k.Gone d := hkept.gone_of_other hp hser
    cases Processes.change_cases hs with
    | forked m f hm =>
      rcases Processes.set_some hp with ⟨rfl, -⟩ | ⟨-, hp⟩
      · exact ⟨hg, f, List.mem_append_right _ List.mem_cons_self⟩
      · exact ((h.holder p hp).resolve_left hser).later fun _ => hg
    | altered _ m q q' hm hq hf =>
      rcases Processes.set_some hp with ⟨rfl, hv⟩ | ⟨-, hp⟩
      · cases hv
        exact ((h.holder q hm).resolve_left fun hd => hser (hq.trans hd)).later fun _ => hg
      · exact ((h.holder p hp).resolve_left hser).later fun _ => hg
    | waited m =>
      rcases Processes.set_some hp with ⟨-, hv⟩ | ⟨-, hp⟩
      · cases hv
      · exact ((h.holder p hp).resolve_left hser).later fun _ => hg
  · rcases h.reached e (hdel ▸ he) with hd | ht
    · exact .inl hd
    · exact .inr (ht.later hgone)

theorem quiet (h : Watched timeout n d past w)
    (hsent : Sent s.phase (w.processes.delivered.map Prod.snd))
    (hdue : s.phase = .kill → Due timeout (past ++ [a]))
    (hgone : s.phase = .returned (.ok ()) → w.processes.Gone d) :
    Watched timeout n d (past ++ [a]) ⟨w.processes, s⟩ where
  kept := h.kept
  holder p hp := (h.holder p hp).imp_right fun ht => ht.later id
  sent := hsent
  due hd := hd.elim hdue fun hk => (h.due (.inr hk)).later
  gone := hgone
  reached e he := (h.reached e he).imp_right fun ht => ht.later id

theorem sends {p : Process} {sig : Signal} (h : Watched timeout n d past w)
    (hp : w.processes.table n = some p)
    (hsent : Sent s.phase (w.processes.delivered.map Prod.snd ++ [sig]))
    (hdue : s.phase = .kill ∨ sig = .kill → Due timeout past)
    (hret : s.phase ≠ .returned (.ok ())) :
    Watched timeout n d (past ++ [a])
      ⟨{ w.processes with delivered := w.processes.delivered ++ [(p.serial, sig)] }, s⟩ where
  kept := ⟨h.kept.own, h.kept.fresh, h.kept.old⟩
  holder q hq := (h.holder q hq).imp_right fun ht => ht.later id
  sent := by
    rw [List.map_append]
    exact hsent
  due hd := by
    rw [List.map_append, List.mem_append] at hd
    rcases hd with hd | hd | hd
    · exact (hdue (.inl hd)).later
    · exact (h.due (.inr hd)).later
    · exact (hdue (.inr (List.mem_singleton.1 hd).symm)).later
  gone hg := absurd hg hret
  reached e he := by
    rcases List.mem_append.1 he with he | he
    · exact (h.reached e he).imp_right fun ht => ht.later id
    · obtain rfl := List.mem_singleton.1 he
      exact (h.holder p hp).imp_right fun ht => ht.later id

/-- A query that does not find the daemon's process running shows that it has gone. -/
theorem gone_of_denied {p : Process} (h : Watched timeout n d past w)
    (hp : w.processes.table n = some p) (hf : p.foreign = true) : w.processes.Gone d :=
  h.kept.gone_of_other hp fun hd => by
    rw [(h.kept.own n p hp hd).2] at hf
    cases hf

/-- Once the daemon's process has gone, `shutdown` may return `Ok`. -/
theorem returns {calls : List Call} (h : Watched timeout n d past w)
    (hg : w.processes.Gone d) :
    Watched timeout n d (past ++ [a]) ⟨w.processes, .returned (.ok ()), calls⟩ :=
  h.quiet h.sent.sublist (fun e => by cases e) fun _ => hg

theorem call {h : Platforms.DaemonHandle} {pid : UInt32} (hw : Watched timeout pid.toNat d past w)
    (hp : h.pid = some pid) (hpos : 0 < pid.toNat) (hlt : pid.toNat < 2 ^ 31)
    (hs : step h timeout w .call = some w') :
    Watched timeout pid.toNat d (past ++ [.call]) w' := by
  obtain ⟨k, s⟩ := w
  obtain ⟨phase, calls⟩ := s
  obtain ⟨x, hx, hs⟩ := Option.bind_eq_some_iff.1 hs
  obtain ⟨⟨k', ans⟩, hserve, hs⟩ := Option.bind_eq_some_iff.1 hs
  obtain ⟨s', hstep, rfl⟩ := Option.map_eq_some_iff.1 hs
  have hsent := hw.sent
  cases phase with
  | term =>
    cases hx
    cases Processes.signal_cases hp hpos hlt hserve with
    | free e hn =>
      cases hstep
      refine hw.quiet ?_ (fun e => by cases e) (fun e => by cases e)
      exact hsent ▸ List.nil_sublist _
    | denied p e hn hf =>
      cases hstep
      refine hw.quiet ?_ (fun e => by cases e) (fun e => by cases e)
      exact hsent ▸ List.nil_sublist _
    | sent p hn hf =>
      cases hstep
      refine hw.sends hn ?_ ?_ ?_
      · have hnil : k.delivered.map Prod.snd = [] := hsent
        rw [hnil]
        exact List.Sublist.refl [Signal.term]
      · rintro (e | e) <;> cases e
      · exact fun e => by cases e
  | kill =>
    cases hx
    cases Processes.signal_cases hp hpos hlt hserve with
    | free e hn =>
      cases hstep
      exact hw.returns (hw.kept.gone_of_free hn)
    | denied p e hn hf =>
      cases hstep
      exact hw.returns (hw.gone_of_denied hn hf)
    | sent p hn hf =>
      cases hstep
      refine hw.sends hn ?_ ?_ ?_
      · exact ⟨_, hsent, rfl⟩
      · exact fun _ => hw.due (.inl rfl)
      · exact fun e => by cases e
  | poll =>
    cases hx
    obtain ⟨rfl, hq⟩ := Processes.status_cases hp hpos hlt hserve
    cases hq with
    | free hn =>
      cases hstep
      exact hw.returns (hw.kept.gone_of_free hn)
    | denied p e hn hf =>
      cases hstep
      exact hw.returns (hw.gone_of_denied hn hf)
    | running p hn =>
      cases hstep
      refine hw.quiet ?_ (fun e => by cases e) (fun e => by cases e)
      exact hsent
  | verify =>
    cases hx
    obtain ⟨rfl, hq⟩ := Processes.status_cases hp hpos hlt hserve
    cases hq with
    | free hn =>
      cases hstep
      exact hw.returns (hw.kept.gone_of_free hn)
    | denied p e hn hf =>
      cases hstep
      exact hw.returns (hw.gone_of_denied hn hf)
    | running p hn =>
      cases hstep
      refine hw.quiet ?_ (fun e => by cases e) (fun e => by cases e)
      exact hsent
  | clock => cases hx
  | returned r => cases hx

theorem clock {h : Platforms.DaemonHandle} {elapsed : Nat} (hw : Watched timeout n d past w)
    (hs : step h timeout w (.clock elapsed) = some w') :
    Watched timeout n d (past ++ [.clock elapsed]) w' := by
  obtain ⟨k, s⟩ := w
  obtain ⟨phase, calls⟩ := s
  obtain ⟨s', hstep, rfl⟩ := Option.map_eq_some_iff.1 hs
  have hsent := hw.sent
  cases phase with
  | clock =>
    cases hstep
    by_cases hle : timeout ≤ elapsed
    · rw [if_pos hle]
      exact hw.quiet hsent (fun _ => ⟨elapsed, hle, List.mem_append_right _ List.mem_cons_self⟩)
        (fun e => by cases e)
    · rw [if_neg hle]
      exact hw.quiet hsent (fun e => by cases e) (fun e => by cases e)
  | _ => cases hstep

end Watched

theorem call_of_free {h : Platforms.DaemonHandle} {pid : UInt32} (hp : h.pid = some pid)
    (hpos : 0 < pid.toNat) (hlt : pid.toNat < 2 ^ 31)
    (hphase : w.shutdown.phase = .poll ∨ w.shutdown.phase = .verify)
    (hn : w.processes.table pid.toNat = none) :
    ∃ w', step h timeout w .call = some w' ∧ w'.shutdown.phase = .returned (.ok ()) := by
  obtain ⟨k, phase, calls⟩ := w
  have hserve := Processes.status_of_free hp hpos hlt hn
  rcases hphase with rfl | rfl
  · exact ⟨_, by simp only [step, Shutdown.nextCall, Option.bind_some, hserve]; rfl, rfl⟩
  · exact ⟨_, by simp only [step, Shutdown.nextCall, Option.bind_some, hserve]; rfl, rfl⟩

/-- The harness has spawned the process `d` with pid `n`, and sent nothing yet. -/
structure Started (k : Processes) (n d : Nat) : Prop where
  kept : k.Kept n d
  holder : ∀ p, k.table n = some p → p.serial = d
  delivered_eq : k.delivered = []

/-- A change of user that the daemon does not make. -/
def Loyal (d : Nat) (w : Scene) : Happening → Prop
  | .change c => w.processes.Loyal d c
  | _ => True

theorem watched_start {h : Platforms.DaemonHandle} {pid : UInt32} (hp : h.pid = some pid)
    (hk : Started k n d) : Watched timeout n d [] (start h k) := by
  have hphase : (start h k).shutdown.phase = .term := by
    rw [start, Shutdown.start, hp]
  refine ⟨hk.kept, fun p hn => .inl (hk.holder p hn), ?_, fun hd => ?_, fun hr => ?_,
    fun e he => ?_⟩
  · rw [hphase]
    exact congrArg (List.map Prod.snd) hk.delivered_eq
  · rw [hphase, start, hk.delivered_eq] at hd
    rcases hd with hd | hd <;> cases hd
  · rw [hphase] at hr
    cases hr
  · rw [start, hk.delivered_eq] at he
    cases he

/-- **Shutting a process down.** A harness shuts down the process that it spawned, while other
processes, and this one, do what they like (it keeps its user). `Ok` means that the process has
gone: it was waited for. The error means that SIGKILL was delivered. At most one SIGTERM and then
one SIGKILL are delivered, this only once the timeout has passed, and both to the process itself,
or else to one that has taken its pid after it had gone. A query once it has gone, with its pid
free, returns `Ok`. -/
theorem shutdown_of_process {h : Platforms.DaemonHandle} {pid : UInt32} {es : List Happening}
    (hp : h.pid = some pid) (hpos : 0 < pid.toNat) (hlt : pid.toNat < 2 ^ 31)
    (hk : Started k pid.toNat d) (hloyal : Meets (step h timeout) (Loyal d) (start h k) es)
    (hr : run (step h timeout) (start h k) es = some w) :
    (w.shutdown.phase = .returned (.ok ()) → w.processes.Gone d) ∧
      (∀ e, w.shutdown.phase = .returned (.error e) →
        Signal.kill ∈ w.processes.delivered.map Prod.snd) ∧
      (w.processes.delivered.map Prod.snd).Sublist [.term, .kill] ∧
      (Signal.kill ∈ w.processes.delivered.map Prod.snd →
        ∃ elapsed, timeout ≤ elapsed ∧ .clock elapsed ∈ es) ∧
      (∀ e ∈ w.processes.delivered, e.1 = d ∨
        w.processes.Gone d ∧ ∃ f, .change (.fork pid.toNat f) ∈ es) ∧
      (w.shutdown.phase = .poll ∨ w.shutdown.phase = .verify →
        w.processes.table pid.toNat = none →
          ∃ w', step h timeout w .call = some w' ∧ w'.shutdown.phase = .returned (.ok ())) := by
  have hw : Watched timeout pid.toNat d es w := by
    have hrun := Meets.run_hist (P := Watched timeout pid.toNat d) ?_ hloyal
      (watched_start hp hk) hr
    · exact hrun
    intro past w a w' hw hc hs
    cases a with
    | change c =>
      obtain ⟨k, hk, rfl⟩ := Option.map_eq_some_iff.1 hs
      exact hw.change hc hk
    | call => exact hw.call hp hpos hlt hs
    | clock elapsed => exact hw.clock hs
  refine ⟨hw.gone, fun e he => ?_, hw.sent.sublist, fun hkill => hw.due (.inr hkill), hw.reached,
    call_of_free hp hpos hlt⟩
  have hsent := hw.sent
  rw [he] at hsent
  obtain ⟨l, -, hsigs⟩ := hsent
  rw [hsigs]
  exact List.mem_append_right _ List.mem_cons_self

/-- The harness has spawned a process with pid 7. -/
def spawnedSeven : Processes := ⟨fun m => if m = 7 then some ⟨0, false, false⟩ else none, 1, []⟩

theorem started_seven : Started spawnedSeven 7 0 where
  kept := by
    have hsome : ∀ {m p}, spawnedSeven.table m = some p → m = 7 ∧ p = ⟨0, false, false⟩ := by
      intro m p hm
      obtain ⟨h7, hp⟩ := Option.ite_none_right_eq_some.1 hm
      exact ⟨h7, (Option.some.inj hp).symm⟩
    refine ⟨fun m p hm _ => ?_, fun m p hm => ?_, Nat.one_pos⟩
    · obtain ⟨h7, rfl⟩ := hsome hm
      exact ⟨h7, rfl⟩
    · obtain ⟨-, rfl⟩ := hsome hm
      exact Nat.one_pos
  holder p hp := by cases hp; rfl
  delivered_eq := rfl

/-- The process exits on SIGTERM, and is waited for after the first query. -/
def exitsOnTerm : List Happening :=
  [.call, .change (.exit 7), .call, .clock 0, .change (.wait 7), .call]

theorem loyal_exitsOnTerm {h : Platforms.DaemonHandle} :
    Meets (step h timeout) (Loyal 0) (start h spawnedSeven) exitsOnTerm :=
  ⟨trivial, fun _ _ => ⟨trivial, fun _ _ => ⟨trivial, fun _ _ => ⟨trivial, fun _ _ =>
    ⟨trivial, fun _ _ => ⟨trivial, fun _ _ => trivial⟩⟩⟩⟩⟩⟩

theorem shutdown_of_process_seven :
    ∃ w, run (step ⟨.native, "7".toList, some 7⟩ 100) (start ⟨.native, "7".toList, some 7⟩
        spawnedSeven) exitsOnTerm = some w ∧
      w.shutdown.phase = .returned (.ok ()) ∧ w.processes.Gone 0 := by
  have hr : ∃ w, run (step ⟨.native, "7".toList, some 7⟩ 100) (start ⟨.native, "7".toList, some 7⟩
      spawnedSeven) exitsOnTerm = some w ∧ w.shutdown.phase = .returned (.ok ()) := ⟨_, rfl, rfl⟩
  obtain ⟨w, hr, hret⟩ := hr
  exact ⟨w, hr, hret, (shutdown_of_process rfl (by decide) (by decide) started_seven
    loyal_exitsOnTerm hr).1 hret⟩

end Scene

end Duende.Test
