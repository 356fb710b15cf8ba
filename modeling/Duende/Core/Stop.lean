import Duende.Delivery
import Duende.Trans.Run

/-!
# The default `stop`

`PlatformAdapter::stop`, which every adapter of the core but the native one inherits: SIGTERM, then
a status query every tenth of a second until the daemon has ended or the timeout has passed. A
call of the adapter is one action here, with its dialogue with the system. `stop_contract` says
what a `stop` has sent, what its result stands for and that it ends.
-/

namespace Duende

open Trans

/-! ## Status queries send nothing -/

theorem sends_user (p : Path) (ws : List Text) :
    (Command.mk p ("--user".toList :: ws)).sends = (Command.mk p ws).sends := by
  have hf : ("--user".toList :: ws).filter (· ≠ "--user".toList) =
      ws.filter (· ≠ "--user".toList) := List.filter_cons_of_neg (by simp)
  unfold Command.sends
  rw [hf]

theorem sends_task {p : Path} {w : Text} (ws : List Text) (hp : p ≠ .ofText "kill".toList)
    (hw : w ∉ ["--user".toList, "kill".toList]) :
    (Command.mk p ("task".toList :: w :: ws)).sends = false := by
  simp only [List.mem_cons, List.not_mem_nil, or_false, not_or] at hw
  have hf : ("task".toList :: w :: ws).filter (· ≠ "--user".toList) =
      "task".toList :: w :: ws.filter (· ≠ "--user".toList) := by
    have hkeep : ∀ {v : Text} (vs : List Text), v ≠ "--user".toList →
        (v :: vs).filter (· ≠ "--user".toList) = v :: vs.filter (· ≠ "--user".toList) :=
      fun vs hv => List.filter_cons_of_pos (decide_eq_true hv)
    rw [hkeep _ (by decide), hkeep _ hw.1]
  have hkill : "task".toList ≠ "kill".toList := by decide
  have hsignal : "task".toList ≠ "signal".toList := by decide
  unfold Command.sends
  rw [hf]
  simp only [Bool.or_eq_false_iff, decide_eq_false_iff_not]
  exact ⟨⟨⟨hp, fun h => hkill (Option.some.inj h)⟩, fun h => hsignal (Option.some.inj h)⟩,
    fun h => hw.2 (List.cons.inj (List.cons.inj h).2).1⟩

namespace Core

variable {h : DaemonHandle}

theorem sends_query (program word : String) (ws : List Text)
    (hp : Path.ofText program.toList ≠ .ofText "kill".toList)
    (hw : word.toList ∉ ["--user".toList, "kill".toList, "signal".toList, "task".toList]) :
    (Question.command ⟨.ofText program.toList, word.toList :: ws⟩).sends = false :=
  sends_of_head ws hp hw

theorem status_quiet (a : Adapter) :
    (a.status h).All (fun q => q.sends = false) fun _ => True := by
  cases a with
  | native a =>
    refine Ask.all_map.2 ?_
    unfold Native.status
    split
    · exact ⟨rfl, fun _ => trivial⟩
    · trivial
  | systemd a =>
    refine Ask.all_map.2 ?_
    unfold Systemd.status
    split
    · trivial
    · rename_i u _
      refine ⟨?_, fun ran => by cases ran <;> trivial⟩
      have hquery := sends_query "systemctl" "status" [u.toList] (by decide) (by decide)
      unfold Systemd.systemctlArgs
      split
      · exact (sends_user (.ofText "systemctl".toList) ["status".toList, u.toList]).trans hquery
      · exact hquery
  | systemdStub => trivial
  | launchd a =>
    refine Ask.all_map.2 ?_
    unfold Launchd.status
    split
    · trivial
    · exact ⟨sends_query "launchctl" "list" [] (by decide) (by decide),
        fun ran => by cases ran <;> trivial⟩
  | launchdStub => trivial
  | container a =>
    refine Ask.all_map.2 ?_
    unfold Container.status
    split
    · trivial
    · rename_i c _
      refine ⟨?_, fun ran => ?_⟩
      · cases a.runtime with
        | docker => exact sends_query "docker" "inspect" _ (by decide) (by decide)
        | podman => exact sends_query "podman" "inspect" _ (by decide) (by decide)
        | containerd =>
          have hprogram : Path.ofText "ctr".toList ≠ .ofText "kill".toList := by decide
          have hword : "list".toList ∉ ["--user".toList, "kill".toList] := by decide
          exact sends_task [c.toList] hprogram hword
      · cases ran with
        | error e => trivial
        | ok output => exact Ask.all_ite.2 ⟨fun _ => trivial, fun _ => trivial⟩
  | pepita a =>
    refine Ask.all_map.2 ?_
    unfold Pepita.status
    split
    · trivial
    · refine ⟨sends_query "pepita" "status" _ (by decide) (by decide), fun ran => ?_⟩
      cases ran with
      | error e => trivial
      | ok output => exact Ask.all_ite.2 ⟨fun _ => trivial, fun _ => trivial⟩
  | wos a =>
    refine Ask.all_map.2 ?_
    unfold Wos.statusCtl
    split
    · trivial
    · refine ⟨sends_query "wos-ctl" "--version" _ (by decide) (by decide), fun version => ?_⟩
      refine Ask.all_ite.2 ⟨fun _ => ?_, fun _ => trivial⟩
      refine ⟨sends_query "wos-ctl" "status" _ (by decide) (by decide), fun ran => ?_⟩
      cases ran with
      | error e => trivial
      | ok output => exact Ask.all_ite.2 ⟨fun _ => trivial, fun _ => trivial⟩

/-! ## The loop -/

/-- The errors of `stop`. -/
inductive StopError where
  | platform (e : PlatformError)
  | timeout (d : Nat)
  deriving DecidableEq, Repr

/-- Where `stop` stands. -/
inductive StopPhase where
  | term
  /-- At the condition of the loop. -/
  | clock
  | poll
  | returned (r : Except StopError Unit)

/-- A `stop` in progress; `polls` counts its status queries. -/
structure Stop where
  adapter : Adapter
  phase : StopPhase
  polls : Nat

/-- A step of `stop`: a call of the adapter, with its dialogue, or `start.elapsed()`. -/
inductive StopAct where
  | signal (d : Dialogue Question.Answer)
  | elapsed (t : Nat)
  | status (d : Dialogue Question.Answer)

namespace Stop

def sleep : Nat := 100 * 10 ^ 6

def start (a : Adapter) : Stop := ⟨a, .term, 0⟩

/-- What a status query makes of the loop: an error is no end. -/
def judge : Except PlatformError (Reply TracerHandle) → StopPhase
  | .ok (.status status) => if status.isTerminal then .returned (.ok ()) else .clock
  | _ => .clock

def step (h : DaemonHandle) (timeout : Nat) (s : Stop) : StopAct → Option Stop
  | .signal d =>
    match s.phase with
    | .term => ((s.adapter.signal .term h).feed d).map fun r =>
      { s with
        adapter := r.1
        phase := match r.2 with
          | .ok _ => .clock
          | .error e => .returned (.error (.platform e)) }
    | _ => none
  | .elapsed t =>
    match s.phase with
    | .clock => some { s with
        phase := if t < timeout then .poll else .returned (.error (.timeout timeout)) }
    | _ => none
  | .status d =>
    match s.phase with
    | .poll => ((s.adapter.status h).feed d).map fun r =>
      { adapter := r.1, phase := judge r.2, polls := s.polls + 1 }
    | _ => none

end Stop

def StopAct.dialogue : StopAct → Dialogue Question.Answer
  | signal d | status d => d
  | elapsed _ => []

/-- All that a `stop` has asked the system. -/
def asked (acts : List StopAct) : Dialogue Question.Answer := acts.flatMap StopAct.dialogue

namespace Stop

variable {a a' : Adapter} {timeout : Nat} {s s' : Stop} {act : StopAct} {acts : List StopAct}

/-- **What a step does**, with all that decides it. -/
theorem step_cases (hs : step h timeout s act = some s') :
    (∃ d r, act = .signal d ∧ s.phase = .term ∧ (s.adapter.signal .term h).feed d = some r ∧
      s' = ⟨r.1, match r.2 with
        | .ok _ => .clock
        | .error e => .returned (.error (.platform e)), s.polls⟩) ∨
    (∃ t, act = .elapsed t ∧ s.phase = .clock ∧
      s' = { s with
        phase := if t < timeout then .poll else .returned (.error (.timeout timeout)) }) ∨
    ∃ d r, act = .status d ∧ s.phase = .poll ∧ (s.adapter.status h).feed d = some r ∧
      s' = ⟨r.1, judge r.2, s.polls + 1⟩ := by
  cases act with
  | signal d =>
    simp only [step] at hs
    split at hs
    · obtain ⟨r, hr, rfl⟩ := Option.map_eq_some_iff.1 hs
      exact .inl ⟨d, r, rfl, ‹_›, hr, rfl⟩
    · cases hs
  | elapsed t =>
    simp only [step] at hs
    split at hs
    · cases hs
      exact .inr (.inl ⟨t, rfl, ‹_›, rfl⟩)
    · cases hs
  | status d =>
    simp only [step] at hs
    split at hs
    · obtain ⟨r, hr, rfl⟩ := Option.map_eq_some_iff.1 hs
      exact .inr (.inr ⟨d, r, rfl, ‹_›, hr, rfl⟩)
    · cases hs

/-! ## What is sent, and what the result stands for -/

/-- The first step was the SIGTERM, which the adapter accepted; what was asked since is quiet. -/
def Accepted (a : Adapter) (h : DaemonHandle) (acts : List StopAct) : Prop :=
  ∃ d r rest, acts = .signal d :: rest ∧ (a.signal .term h).feed d = some r ∧ r.2.isOk = true ∧
    ∀ q ∈ asked rest, q.1.sends = false

theorem Accepted.append (ha : Accepted a h acts) (act : StopAct)
    (hq : ∀ q ∈ act.dialogue, q.1.sends = false) : Accepted a h (acts ++ [act]) := by
  obtain ⟨d, r, rest, rfl, hd, hok, hrest⟩ := ha
  refine ⟨d, r, rest ++ [act], rfl, hd, hok, fun q hmem => ?_⟩
  rw [asked, List.flatMap_append, List.flatMap_singleton] at hmem
  rcases List.mem_append.1 hmem with hmem | hmem
  · exact hrest q hmem
  · exact hq q hmem

/-- The last step was a status query that found the daemon ended. -/
def Verified (h : DaemonHandle) (acts : List StopAct) : Prop :=
  ∃ pre d a1 a2 st, acts = pre ++ [.status d] ∧
    (Adapter.status h a1).feed d = some (a2, .ok (.status st)) ∧ st.isTerminal = true

/-- The last step looked at the clock, and the timeout had passed. -/
def Expired (timeout : Nat) (acts : List StopAct) : Prop :=
  ∃ pre t, acts = pre ++ [.elapsed t] ∧ timeout ≤ t

/-- What the steps so far owe to the phase they have led to. -/
def History (a : Adapter) (h : DaemonHandle) (timeout : Nat) (acts : List StopAct) (s : Stop) :
    Prop :=
  match s.phase with
  | .term => acts = [] ∧ s.adapter = a
  | .clock | .poll => Accepted a h acts
  | .returned (.ok ()) => Accepted a h acts ∧ Verified h acts
  | .returned (.error (.timeout t)) => t = timeout ∧ Accepted a h acts ∧ Expired timeout acts
  | .returned (.error (.platform e)) =>
    ∃ d r, acts = [.signal d] ∧ (a.signal .term h).feed d = some r ∧ r.2 = .error e

theorem History.step (hh : History a h timeout acts s) (hs : step h timeout s act = some s') :
    History a h timeout (acts ++ [act]) s' := by
  rcases step_cases hs with ⟨d, r, rfl, hp, hd, rfl⟩ | ⟨t, rfl, hp, rfl⟩ | ⟨d, r, rfl, hp, hd, rfl⟩
  · rw [History, hp] at hh
    obtain ⟨rfl, ha⟩ := hh
    rw [ha] at hd
    obtain ⟨a', res⟩ := r
    cases res with
    | ok u => exact ⟨d, (a', .ok u), [], rfl, hd, rfl, fun q hq => absurd hq List.not_mem_nil⟩
    | error e => exact ⟨d, (a', .error e), rfl, hd, rfl⟩
  · rw [History, hp] at hh
    have hacc := Accepted.append hh (.elapsed t) fun q hq => absurd hq List.not_mem_nil
    unfold History
    by_cases ht : t < timeout
    · simpa only [if_pos ht] using hacc
    · simp only [if_neg ht]
      exact ⟨trivial, hacc, acts, t, rfl, Nat.le_of_not_lt ht⟩
  · rw [History, hp] at hh
    have hquiet := ((status_quiet s.adapter).ensures quiet_nil).feed hd
    have hacc := Accepted.append hh (.status d) hquiet.1
    obtain ⟨a', res⟩ := r
    cases res with
    | error e => exact hacc
    | ok reply =>
      cases reply with
      | status st =>
        cases ht : st.isTerminal with
        | true =>
          simp only [History, judge, ht, if_true]
          exact ⟨hacc, acts, d, _, a', st, rfl, hd, ht⟩
        | false => simpa only [History, judge, ht, Bool.false_eq_true, if_false] using hacc
      | _ => exact hacc

theorem history_run (hr : run (step h timeout) (start a) acts = some s) :
    History a h timeout acts s := by
  have hstart : History a h timeout [] (start a) := ⟨rfl, rfl⟩
  exact run_hist (P := History a h timeout) (fun _ _ _ _ => History.step) hstart hr

/-! ## How long it takes -/

/-- `stop` sleeps after every status query that does not end it. -/
def Paced (s : Stop) : StopAct → Prop
  | .elapsed t => sleep * s.polls ≤ t
  | _ => True

/-- How many status queries have been made, by phase. -/
def Progress (timeout : Nat) (s : Stop) : Prop :=
  match s.phase with
  | .term => s.polls = 0
  | .poll => sleep * s.polls < timeout
  | .clock | .returned _ => sleep * s.polls < timeout + sleep

theorem Progress.step (hp : Progress timeout s) (hc : Paced s act)
    (hs : step h timeout s act = some s') : Progress timeout s' := by
  have hpos : 0 < sleep := by decide
  rcases step_cases hs with ⟨d, r, rfl, hph, -, rfl⟩ | ⟨t, rfl, hph, rfl⟩ |
    ⟨d, r, rfl, hph, -, rfl⟩
  · rw [Progress, hph] at hp
    have hlt : sleep * s.polls < timeout + sleep := by
      rw [show s.polls = 0 from hp]
      omega
    obtain ⟨a', res⟩ := r
    cases res <;> exact hlt
  · rw [Progress, hph] at hp
    by_cases ht : t < timeout
    · simp only [Progress, if_pos ht]
      exact Nat.lt_of_le_of_lt hc ht
    · simpa only [Progress, if_neg ht] using hp
  · rw [Progress, hph] at hp
    have hlt : sleep * (s.polls + 1) < timeout + sleep := by
      rw [Nat.mul_add, Nat.mul_one]
      exact Nat.add_lt_add_right hp sleep
    obtain ⟨a', res⟩ := r
    unfold Progress judge
    split <;> rename_i heq
    · split at heq
      · split at heq <;> cases heq
      · cases heq
    · split at heq
      · split at heq <;> cases heq
      · cases heq
    · exact hlt
    · exact hlt

theorem Progress.le (hp : Progress timeout s) : sleep * s.polls < timeout + sleep := by
  have hpos : 0 < sleep := by decide
  unfold Progress at hp
  split at hp
  · rw [hp]
    omega
  · omega
  · exact hp
  · exact hp

/-- **The contract of `stop`.** All that it sends is one SIGTERM for the daemon of the handle, if
anything. `Ok` means that the adapter accepted the signal and the last status query found the
daemon ended; the timeout is reported when it has passed, and another error is that of the signal,
after which nothing more is asked. There is one status query for every tenth of a second of the
timeout, and one more at most. -/
theorem stop_contract (hn : ∀ n, a ≠ .native n) (hp : a.Plain h)
    (hr : run (step h timeout) (start a) acts = some s) :
    ((asked acts).countP (·.1.sends) ≤ 1 ∧ ∀ q ∈ asked acts, q.1.sends = true →
      ∃ t, a.reads q.1 = some ⟨.term, t⟩ ∧ a.target h = some t) ∧
    (∀ r, s.phase = .returned r →
      match r with
      | .ok () => Accepted a h acts ∧ Verified h acts
      | .error (.timeout _) => Accepted a h acts ∧ Expired timeout acts
      | .error (.platform _) => acts.length = 1) ∧
    (Meets (step h timeout) Paced (start a) acts → sleep * s.polls < timeout + sleep) := by
  have hhist := history_run hr
  -- what the first step has asked
  have hfirst : ∀ d r, (a.signal .term h).feed d = some r → d.countP (·.1.sends) ≤ 1 ∧
      ∀ q ∈ d, q.1.sends = true → ∃ t, a.reads q.1 = some ⟨.term, t⟩ ∧ a.target h = some t := by
    intro d r hd
    have hdel := (signal_delivers a hn hp).feed hd
    refine ⟨hdel.once, fun q hq hs => ?_⟩
    obtain ⟨pre, post, hsplit⟩ := List.append_of_mem hq
    exact hdel.read pre q post hsplit hs
  have hsent : ∀ acts, Accepted a h acts → (asked acts).countP (·.1.sends) ≤ 1 ∧
      ∀ q ∈ asked acts, q.1.sends = true →
        ∃ t, a.reads q.1 = some ⟨.term, t⟩ ∧ a.target h = some t := by
    rintro _ ⟨d, r, rest, rfl, hd, -, hrest⟩
    obtain ⟨honce, hread⟩ := hfirst d r hd
    have hzero : (asked rest).countP (·.1.sends) = 0 :=
      List.countP_eq_zero.2 fun q hq => by rw [hrest q hq]; decide
    show (d ++ asked rest).countP _ ≤ 1 ∧ ∀ q ∈ d ++ asked rest, _
    rw [List.countP_append, hzero]
    refine ⟨honce, fun q hq hs => ?_⟩
    rcases List.mem_append.1 hq with hq | hq
    · exact hread q hq hs
    · rw [hrest q hq] at hs
      cases hs
  refine ⟨?_, fun r hph => ?_, fun hm => ?_⟩
  · unfold History at hhist
    split at hhist
    · rw [hhist.1]
      exact ⟨Nat.zero_le _, fun q hq => absurd hq List.not_mem_nil⟩
    · exact hsent acts hhist
    · exact hsent acts hhist
    · exact hsent acts hhist.1
    · exact hsent acts hhist.2.1
    · obtain ⟨d, r, rfl, hd, -⟩ := hhist
      show (d ++ []).countP _ ≤ 1 ∧ ∀ q ∈ d ++ [], _
      rw [List.append_nil]
      exact hfirst d r hd
  · rw [History, hph] at hhist
    match r with
    | .ok () => exact hhist
    | .error (.timeout t) => exact hhist.2
    | .error (.platform e) =>
      obtain ⟨d, r, rfl, -⟩ := hhist
      rfl
  · have hstart : Progress timeout (start a) := rfl
    exact (hm.run_inv (fun _ _ _ => Progress.step) hstart hr).le

/-- The unit is told to end, and the first status query finds it inactive. -/
def stopsUnit : List StopAct :=
  [.signal [⟨termUnit, .ok (printed "")⟩], .elapsed 0,
    .status [⟨.command ⟨.ofText "systemctl".toList,
      ["--user", "status", "web.service"].map String.toList⟩,
      .ok ⟨some 3, "Active: inactive".toList, []⟩⟩]]

theorem stop_contract_unit : ∃ s, run (step userUnit.2 1) (start userUnit.1) stopsUnit = some s ∧
    s.phase = .returned (.ok ()) ∧ Accepted userUnit.1 userUnit.2 stopsUnit ∧
    (asked stopsUnit).countP (·.1.sends) ≤ 1 := by
  obtain ⟨s, hr, hs⟩ : ∃ s, run (step userUnit.2 1) (start userUnit.1) stopsUnit = some s ∧
      s.phase = .returned (.ok ()) := ⟨_, rfl, rfl⟩
  have h := stop_contract (a := userUnit.1) nofun (fun u hu => by cases hu; decide) hr
  exact ⟨s, hr, hs, (h.2.1 _ hs).1, h.1.1⟩

end Stop

end Core

end Duende
