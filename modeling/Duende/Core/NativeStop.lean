import Duende.Core.NativeStatus

/-!
# Stopping twice

A `stop` that returns `Ok` has removed the entry of its daemon, or found it missing, and
`signal` reports a daemon without an entry as not found. So a second `stop` fails before it
sends anything (`second_stop_fails`).
-/

namespace Duende.Core.Native

open Trans

def Pc.stops : Pc → Option DaemonHandle
  | stopTerm h | stopWait h | stopPoll h | stopKill h => some h
  | _ => none

variable {ι : Type} [DecidableEq ι]

/-- The handle of the `stop` that an action ends, and what it returns. -/
def stopReturns (c : NConf ι) : NAct ι → Option (DaemonHandle × Except PlatformError Unit)
  | .step i k =>
    ((c.pc i).bind Pc.stops).bind fun h =>
      match nativeObj.result c (.step i k) with
      | some (.done r) => some (h, r)
      | _ => none
  | _ => none

/-- The last call of `i` is a `stop` through `h`. -/
def Stopping (i : ι) (h : DaemonHandle) (as : List (NAct ι)) : Prop :=
  ∃ mid rest, as = mid ++ .call i (.stop h) :: rest ∧ ∀ o, .call i o ∉ rest

/-- Once a `stop` through `h` has returned `Ok`, every later one sends nothing and returns `Ok`,
until the next spawn of that daemon. -/
def StopIdempotent (c : NConf ι) (as : List (NAct ι)) : Prop :=
  ∀ pre a mid i k post c1 c2 c3 c4 h, as = pre ++ a :: (mid ++ .step i k :: post) →
    run nativeObj.act c pre = some c1 → nativeObj.act c1 a = some c2 →
    stopReturns c1 a = some (h, .ok ()) → run nativeObj.act c2 mid = some c3 →
    Meets nativeObj.act (Unstored h.id) c2 mid → Stopping i h mid →
    nativeObj.act c3 (.step i k) = some c4 →
    c4.shared.sent = c3.shared.sent ∧
      ∀ r, nativeObj.result c3 (.step i k) = some r → r = .done (.ok ())

variable {c c' c0 c1 c2 c3 c4 : NConf ι} {a : NAct ι} {as : List (NAct ι)} {i : ι}
  {h : DaemonHandle} {k : Answer}

theorem missing_of_stopped (hs : nativeObj.act c a = some c')
    (hr : stopReturns c a = some (h, .ok ())) : c'.shared.processes.lookup h.id = none := by
  cases a with
  | call j o => cases hr
  | env e => cases hr
  | step j k =>
    obtain ⟨p, a', q, hp, hx, rfl⟩ := Obj.act_step.1 hs
    have hres : nativeObj.result c (.step j k) = q.getRight? := by
      simp only [Obj.result, hp, Option.bind_some, hx]
    simp only [stopReturns, hp, Option.bind_some, hres] at hr
    cases p with
    | stopTerm h' =>
      cases k with
      | os r =>
        cases hx
        rw [Pc.stops, Option.bind_some] at hr
        cases hsig : (c.shared.signal h' .term r).2 with
        | error e => rw [hsig] at hr; cases hr
        | ok u => rw [hsig] at hr; cases hr
      | _ => cases hx
    | stopPoll h' =>
      cases k with
      | os r =>
        cases hx
        rw [Pc.stops, Option.bind_some] at hr
        cases hst : (c.shared.status h' r).2 with
        | error e => rw [hst] at hr; cases hr
        | ok s =>
          rw [hst] at hr
          cases ht : s.isTerminal with
          | true =>
            simp only [ht] at hr
            cases hr
            exact (status_terminal hst rfl ht).1
          | false => simp only [ht] at hr; cases hr
      | _ => cases hx
    | stopKill h' =>
      cases k with
      | os r =>
        cases hx
        rw [Pc.stops, Option.bind_some] at hr
        rcases signal_cases c.shared h' .kill r with
          ⟨e, hx⟩ | ⟨j', pid, -, -, -, ⟨hne, -⟩ | ⟨-, hx⟩⟩
        · rw [hx] at hr; cases hr
        · exact absurd rfl hne
        · cases hr.symm.trans (show _ = some (h', _) by rw [hx]; rfl)
          rw [hx]
          exact Finmap.lookup_erase _ _
      | _ => cases hx
    | stopWait h' =>
      cases k with
      | late b => cases hx; cases hr
      | _ => cases hx
    | _ => cases hr

theorem exec_stopTerm_missing {n n' : NativeAdapter} {q : Pc ⊕ Res}
    (hl : n.processes.lookup h.id = none) (hx : exec n (.stopTerm h) k = some (n', q)) :
    n' = n ∧ q = .inr (.done (.error (.notFound h.id.display))) := by
  cases k with
  | os r =>
    have hsig : n.signal h .term r = (n, .error (.notFound h.id.display)) := by
      simp only [NativeAdapter.signal, hl]
    simp only [exec, hsig, Option.some.injEq, Prod.mk.injEq] at hx
    exact ⟨hx.1.symm, hx.2.symm⟩
  | _ => cases hx

/-- The entry is missing, and the call of `i` has not taken its first step or has ended. -/
def Failing (i : ι) (h : DaemonHandle) (c : NConf ι) : Prop :=
  c.shared.processes.lookup h.id = none ∧ (c.pc i = some (.stopTerm h) ∨ c.pc i = none)

/-- **Step lemma.** -/
theorem Failing.step (hf : Failing i h c) (hu : Unstored h.id c a) (hc : ∀ o, a ≠ .call i o)
    (hs : nativeObj.act c a = some c') : Failing i h c' := by
  refine ⟨missing_step hf.1 hu hs, ?_⟩
  rcases Obj.act_cases hs with ⟨j, o, rfl, hp, rfl⟩ | ⟨j, k, p, a', q, rfl, hp, hx, rfl⟩ |
    ⟨e, a', rfl, -, rfl⟩
  · have hij : i ≠ j := fun hij => hc o (by rw [hij])
    simpa only [Function.update_of_ne hij] using hf.2
  · by_cases hij : i = j
    · subst hij
      rcases hf.2 with hpc | hpc
      · cases hp.symm.trans hpc
        obtain ⟨-, rfl⟩ := exec_stopTerm_missing hf.1 hx
        exact .inr (Function.update_self ..)
      · rw [hpc] at hp; cases hp
    · simpa only [Function.update_of_ne hij] using hf.2
  · exact hf.2

/-- **Run lemma**: what follows the call of the second `stop`. -/
theorem Failing.run (hf : Failing i h c) (hu : Meets nativeObj.act (Unstored h.id) c as)
    (hc : ∀ o, .call i o ∉ as) (hr : run nativeObj.act c as = some c') : Failing i h c' :=
  (hu.and (meets_of_forall (C := fun a => ∀ o, a ≠ .call i o) fun _ ha o he =>
    hc o (he ▸ ha))).run_inv (fun _ _ _ hf hu hs => hf.step hu.1 hu.2 hs) hf hr

/-- **A second `stop` fails**: after a `stop` that returned `Ok`, and until the next spawn of the
daemon, every step that a later `stop` takes is its last; it returns that the daemon was not
found, and leaves the adapter and the signals sent as they are. -/
theorem second_stop_fails (pre : List (NAct ι)) (a : NAct ι) (mid : List (NAct ι)) (i : ι)
    (k : Answer) (post : List (NAct ι)) (has : as = pre ++ a :: (mid ++ .step i k :: post))
    (hpre : run nativeObj.act c0 pre = some c1) (ha : nativeObj.act c1 a = some c2)
    (hok : stopReturns c1 a = some (h, .ok ())) (hmid : run nativeObj.act c2 mid = some c3)
    (hu : Meets nativeObj.act (Unstored h.id) c2 mid) (hst : Stopping i h mid)
    (hs : nativeObj.act c3 (.step i k) = some c4) :
    nativeObj.result c3 (.step i k) = some (.done (.error (.notFound h.id.display))) ∧
      c4.shared = c3.shared ∧ ¬ StopIdempotent c0 as := by
  have hl2 := missing_of_stopped ha hok
  obtain ⟨m, rest, rfl, hrest⟩ := hst
  obtain ⟨d, hm, hcall⟩ := run_append_some.1 hmid
  obtain ⟨d', hd, hr⟩ := run_cons_some.1 hcall
  have hud := (Meets.append hu).2 d hm
  have hl : d.shared.processes.lookup h.id = none :=
    Meets.run_inv (P := fun c : NConf ι => c.shared.processes.lookup h.id = none)
      (fun _ _ _ hl hu hs => missing_step hl hu hs) (Meets.append hu).1 hl2 hm
  have hstart : Failing i h d' := by
    refine ⟨missing_step hl hud.1 hd, .inl ?_⟩
    obtain ⟨-, rfl⟩ := Obj.act_call.1 hd
    exact Function.update_self ..
  have hf := hstart.run (hud.2 d' hd) hrest hr
  have hres : nativeObj.result c3 (.step i k) =
      some (.done (.error (.notFound h.id.display))) ∧ c4.shared = c3.shared := by
    obtain ⟨p, a', q, hp, hx, rfl⟩ := Obj.act_step.1 hs
    rcases hf.2 with hpc | hpc
    · cases hp.symm.trans hpc
      have hx' := hx
      obtain ⟨rfl, rfl⟩ := exec_stopTerm_missing hf.1 hx'
      exact ⟨by simp only [Obj.result, hp, Option.bind_some, hx, Sum.getRight?_inr], rfl⟩
    · rw [hpc] at hp; cases hp
  refine ⟨hres.1, hres.2, fun hidem => ?_⟩
  have hlater := (hidem pre a _ i k post c1 c2 c3 c4 h has hpre ha hok hmid hu ⟨m, rest, rfl, hrest⟩
    hs).2 _ hres.1
  cases hlater

/-- Process 7 is spawned and exits with code 0 when it is stopped. -/
def stoppedOnce : List (NAct Unit) :=
  [.call () (.spawn ⟨1⟩), .step () (.forked 7), .step () (.os (.ok ())),
    .call () (.stop (.native ⟨1⟩ 7)), .step () (.os (.ok ())), .env (.exits 0 (.exited 0)),
    .step () (.late false)]

/-- The `stop` returns `Ok`, and the next one is called. -/
def stoppedTwice : List (NAct Unit) :=
  stoppedOnce ++ .step () (.os (.ok ())) :: ([.call () (.stop (.native ⟨1⟩ 7))] ++
    [.step () (.os (.ok ()))])

theorem second_stop_not_found : ∃ c3,
    nativeObj.result c3 (.step () (.os (.ok ()))) =
      some (.done (.error (.notFound (DaemonId.mk 1).display))) ∧
    run nativeObj.act (Obj.init (NativeAdapter.new 5)) (stoppedTwice.take 9) = some c3 :=
  ⟨_, (second_stop_fails stoppedOnce (.step () (.os (.ok ())))
    [.call () (.stop (.native ⟨1⟩ 7))] () (.os (.ok ())) [] (h := .native ⟨1⟩ 7) rfl
    (rfl : run nativeObj.act (Obj.init (NativeAdapter.new 5)) stoppedOnce = some _) rfl rfl rfl
    ⟨(fun h => nomatch h), fun _ _ => trivial⟩ ⟨[], [], rfl, fun _ h => nomatch h⟩ rfl).1, rfl⟩

/-- The second `stop` returns that the daemon was not found. -/
theorem stopped_twice :
    ¬ StopIdempotent (Obj.init (NativeAdapter.new 5)) stoppedTwice := by
  intro hidem
  have hlater := (hidem stoppedOnce (.step () (.os (.ok ()))) [.call () (.stop (.native ⟨1⟩ 7))] ()
    (.os (.ok ())) [] _ _ _ _ (.native ⟨1⟩ 7) rfl rfl rfl rfl rfl
    ⟨(fun h => nomatch h), fun _ _ => trivial⟩ ⟨[], [], rfl, fun _ h => nomatch h⟩ rfl).2 _ rfl
  cases hlater

end Duende.Core.Native
