import Duende.Core.Native

/-!
# Terminal statuses of the native adapter

The first `status` that finds a process ended removes its entry, and a missing entry is
reported as stopped. `terminal_stable_iff` says when the status first reported stays.
-/

namespace Duende.Core.Native

open Trans

variable {ι : Type} [DecidableEq ι]

/-- The handle an action asks the status of, and the answer. -/
def asked (c : NConf ι) : NAct ι → Option (DaemonHandle × Except PlatformError DaemonStatus)
  | .step i (.os r) => ((c.pc i).bind Pc.asks).map fun h => (h, (c.shared.status h r).2)
  | _ => none

/-- The daemon whose child an action stores. -/
def stored (c : NConf ι) : NAct ι → Option DaemonId
  | .step i _ => ((c.pc i).bind Pc.stores).map Prod.fst
  | _ => none

/-- No child of the daemon is stored. -/
def Unstored (id : DaemonId) (c : NConf ι) (a : NAct ι) : Prop := stored c a ≠ some id

/-- Once a `status` through `h` has returned a terminal status, every later one returns the
same until the next spawn of that daemon. -/
def Stable (c : NConf ι) (as : List (NAct ι)) : Prop :=
  ∀ pre a mid b post c1 c2 c3 h s r, as = pre ++ a :: (mid ++ b :: post) →
    run nativeObj.act c pre = some c1 → nativeObj.act c1 a = some c2 →
    run nativeObj.act c2 mid = some c3 → asked c1 a = some (h, .ok s) → s.isTerminal = true →
    Meets nativeObj.act (Unstored h.id) c2 mid → asked c3 b = some (h, r) → r = .ok s

/-- The status is not asked through a handle whose process was found failed and removed. -/
def NotLost (c : NConf ι) (a : NAct ι) : Prop :=
  ∀ h r, asked c a = some (h, r) → c.shared.lost h = false

variable {c c' c0 : NConf ι} {a : NAct ι} {as : List (NAct ι)} {h : DaemonHandle} {id : DaemonId}
  {s : DaemonStatus} {r : Except PlatformError DaemonStatus} {e : ExitStatus}

/-! ## What an action does to the table -/

theorem act_asked (ha : asked c a = some (h, r)) (hs : nativeObj.act c a = some c') :
    ∃ k, r = (c.shared.status h k).2 ∧ c'.shared = (c.shared.status h k).1 := by
  cases a with
  | call i o => cases ha
  | env e => cases ha
  | step i k =>
    obtain ⟨p, a', q, hp, hx, rfl⟩ := Obj.act_step.1 hs
    cases k with
    | os k =>
      simp only [asked, hp, Option.bind_some, Option.map_eq_some_iff, Prod.mk.injEq] at ha
      obtain ⟨h', hasks, rfl, rfl⟩ := ha
      cases p <;> cases hasks <;> cases hx <;> exact ⟨k, rfl, rfl⟩
    | _ => cases ha

theorem act_stored (ha : stored c a = some id) (hs : nativeObj.act c a = some c') :
    ∃ i, c'.shared = c.shared.insert id i := by
  cases a with
  | call i o => cases ha
  | env e => cases ha
  | step i k =>
    obtain ⟨p, a', q, hp, hx, rfl⟩ := Obj.act_step.1 hs
    simp only [stored, hp, Option.bind_some, Option.map_eq_some_iff] at ha
    obtain ⟨⟨id', j⟩, hst, rfl⟩ := ha
    cases p <;> cases hst
    cases hx
    exact ⟨j, rfl⟩

/-- **What an action does to the table**: nothing, it stores a child, removes an entry, or
finds a failed process and removes its entry. -/
theorem table_cases (hs : nativeObj.act c a = some c') :
    (c'.shared.processes = c.shared.processes ∧ c'.shared.lost = c.shared.lost) ∨
    (∃ id i, stored c a = some id ∧ c'.shared = c.shared.insert id i) ∨
    (∃ id, c'.shared.processes = c.shared.processes.erase id ∧ c'.shared.lost = c.shared.lost) ∨
    ∃ h, ∃ e : ExitStatus, asked c a = some (h, .ok e.status) ∧ e.success = false ∧
      c'.shared.processes = c.shared.processes.erase h.id ∧
      c'.shared.lost = Function.update c.shared.lost h true := by
  rcases Obj.act_cases hs with ⟨i, o, rfl, -, rfl⟩ | ⟨i, k, p, a', q, rfl, hp, hx, rfl⟩ |
    ⟨e, a', rfl, he, rfl⟩
  · exact .inl ⟨rfl, rfl⟩
  · rcases exec_cases hx with ⟨id, pid, rfl, -, rfl, -⟩ | ⟨id, j, pid, rfl, rfl, -⟩ |
      ⟨h, sig, k, -, -, rfl, rfl, -⟩ | ⟨h, k, hasks, -, rfl, rfl, -⟩ | ⟨-, -, -, rfl, -⟩
    · exact .inl ⟨rfl, rfl⟩
    · exact .inr (.inl ⟨id, j, by simp [stored, hp, Pc.stores], rfl⟩)
    · rcases signal_cases c.shared h sig k with
        ⟨e, hx⟩ | ⟨i, pid, -, -, -, ⟨-, hx⟩ | ⟨-, hx⟩⟩ <;> rw [hx]
      · exact .inl ⟨rfl, rfl⟩
      · exact .inl ⟨rfl, rfl⟩
      · exact .inr (.inr (.inl ⟨h.id, rfl, rfl⟩))
    · rcases status_cases c.shared h k with
        ⟨-, hx⟩ | ⟨j, -, ⟨e, -, hx⟩ | ⟨-, -, hx⟩ | ⟨e, -, -, hx⟩⟩
      · rw [hx]; exact .inl ⟨rfl, rfl⟩
      · rw [hx]; exact .inl ⟨rfl, rfl⟩
      · rw [hx]; exact .inl ⟨rfl, rfl⟩
      · cases hsucc : e.success with
        | true =>
          rw [hx]
          exact .inr (.inr (.inl ⟨h.id, rfl, by simp [NativeAdapter.remove, hsucc]⟩))
        | false =>
          refine .inr (.inr (.inr ⟨h, e, by simp [asked, hp, hasks, hx], hsucc, ?_⟩))
          rw [hx]
          exact ⟨rfl, by simp [NativeAdapter.remove, hsucc]⟩
    · exact .inl ⟨rfl, rfl⟩
  · rcases env_cases he with ⟨i, e, rfl⟩ | ⟨i, -, -, rfl⟩ <;> exact .inl ⟨rfl, rfl⟩

theorem lookup_erase_none {t : Finmap fun _ : DaemonId => Nat} {id' : DaemonId}
    (hl : t.lookup id = none) : (t.erase id').lookup id = none := by
  by_cases he : id = id'
  · subst he; exact Finmap.lookup_erase id t
  · rw [Finmap.lookup_erase_ne he]; exact hl

theorem missing_step (hl : c.shared.processes.lookup id = none) (hu : Unstored id c a)
    (hs : nativeObj.act c a = some c') : c'.shared.processes.lookup id = none := by
  rcases table_cases hs with ⟨hp, -⟩ | ⟨id', i, hst, he⟩ | ⟨id', hp, -⟩ | ⟨h, e, -, -, hp, -⟩
  · rw [hp]; exact hl
  · have hne : id ≠ id' := by rintro rfl; exact hu hst
    rw [he]
    exact (Finmap.lookup_insert_of_ne _ hne).trans hl
  · rw [hp]; exact lookup_erase_none hl
  · rw [hp]; exact lookup_erase_none hl

theorem lost_step (hl : c.shared.lost h = true) (hu : Unstored h.id c a)
    (hs : nativeObj.act c a = some c') : c'.shared.lost h = true := by
  rcases table_cases hs with ⟨-, hp⟩ | ⟨id', i, hst, he⟩ | ⟨id', -, hp⟩ | ⟨h', e, -, -, -, hp⟩
  · rw [hp]; exact hl
  · have hne : h.id ≠ id' := fun e => hu (e ▸ hst)
    rw [he]
    exact (if_neg hne).trans hl
  · rw [hp]; exact hl
  · rw [hp]
    by_cases hh : h = h'
    · subst hh; exact Function.update_self ..
    · rw [Function.update_of_ne hh]; exact hl

/-- A `status` that returns a terminal status leaves no entry; if it is not `Stopped`, the
handle is lost. -/
theorem status_terminal {n n' : NativeAdapter} {k : OsResult} (hr : (n.status h k).2 = .ok s)
    (hn : n' = (n.status h k).1) (ht : s.isTerminal = true) :
    n'.processes.lookup h.id = none ∧ (s = .stopped ∨ n'.lost h = true) := by
  rcases status_cases n h k with ⟨hl, hx⟩ | ⟨i, -, ⟨e, -, hx⟩ | ⟨-, -, hx⟩ | ⟨e, -, -, hx⟩⟩ <;>
    rw [hx] at hr hn <;> cases hr
  · exact ⟨hn ▸ hl, .inl rfl⟩
  · cases ht
  · subst hn
    refine ⟨Finmap.lookup_erase _ _, ?_⟩
    by_cases hsucc : e.success = true
    · exact .inl (by simp [ExitStatus.status, hsucc])
    · exact .inr (by simp [NativeAdapter.remove, hsucc])

omit [DecidableEq ι] in
theorem asked_missing (hl : c.shared.processes.lookup h.id = none)
    (ha : asked c a = some (h, r)) : r = .ok .stopped := by
  cases a with
  | call i o => cases ha
  | env e => cases ha
  | step i k =>
    cases k with
    | os k =>
      simp only [asked, Option.map_eq_some_iff, Prod.mk.injEq] at ha
      obtain ⟨h', -, rfl, rfl⟩ := ha
      simp only [NativeAdapter.status, hl]
    | _ => cases ha

/-! ## Lost handles -/

/-- A `status` through `h` returned a failure, and its daemon was not spawned since. -/
def Found (h : DaemonHandle) (c0 : NConf ι) (hist : List (NAct ι)) (c : NConf ι) : Prop :=
  ∃ pre b mid c1 c2 s, hist = pre ++ b :: mid ∧ run nativeObj.act c0 pre = some c1 ∧
    nativeObj.act c1 b = some c2 ∧ run nativeObj.act c2 mid = some c ∧
    asked c1 b = some (h, .ok s) ∧ s.isTerminal = true ∧ s ≠ .stopped ∧
    Meets nativeObj.act (Unstored h.id) c2 mid

theorem Found.snoc {hist : List (NAct ι)} (hf : Found h c0 hist c) (hu : Unstored h.id c a)
    (hs : nativeObj.act c a = some c') : Found h c0 (hist ++ [a]) c' := by
  obtain ⟨pre, b, mid, c1, c2, s, rfl, hpre, hb, hmid, hask, ht, hne, hm⟩ := hf
  refine ⟨pre, b, mid ++ [a], c1, c2, s, by simp, hpre, hb, ?_, hask, ht, hne, ?_⟩
  · exact run_append_some.2 ⟨c, hmid, run_cons_some.2 ⟨c', hs, rfl⟩⟩
  · refine hm.snoc fun c'' hr => ?_
    cases hmid.symm.trans hr
    exact hu

theorem terminal_of_not_success (he : e.success = false) :
    e.status.isTerminal = true ∧ e.status ≠ .stopped := by
  cases e <;> simp [ExitStatus.status, he, DaemonStatus.isTerminal]

theorem lost_new (hl : c.shared.lost h = false) (hl' : c'.shared.lost h = true)
    (hs : nativeObj.act c a = some c') :
    ∃ s, asked c a = some (h, .ok s) ∧ s.isTerminal = true ∧ s ≠ .stopped := by
  rcases table_cases hs with ⟨-, hp⟩ | ⟨id', i, hst, he⟩ | ⟨id', -, hp⟩ | ⟨h', e, hask, he, -, hp⟩
  · rw [hp, hl] at hl'; cases hl'
  · rw [he] at hl'
    simp only [NativeAdapter.insert, hl, ite_self] at hl'
    cases hl'
  · rw [hp, hl] at hl'; cases hl'
  · by_cases hh : h = h'
    · subst hh; exact ⟨e.status, hask, terminal_of_not_success he⟩
    · rw [hp, Function.update_of_ne hh, hl] at hl'; cases hl'

/-- **Lost handles**: an earlier `status` through a lost handle returned a failure, and its
daemon was not spawned since. -/
theorem lost_found {n : NativeAdapter} (hn : n.lost = fun _ => false)
    (hr : run nativeObj.act (Obj.init n) as = some c) (hl : c.shared.lost h = true) :
    Found h (Obj.init n) as c := by
  have key := run_hist
    (P := fun hist (c : NConf ι) => run nativeObj.act (Obj.init n) hist = some c ∧
      (c.shared.lost h = true → Found h (Obj.init n) hist c))
    (fun hist c1 a c2 hp hs => ?_) (h := []) ⟨rfl, fun hl => ?_⟩ hr
  · exact key.2 hl
  · refine ⟨run_append_some.2 ⟨c1, hp.1, run_cons_some.2 ⟨c2, hs, rfl⟩⟩, fun hl2 => ?_⟩
    cases hl1 : c1.shared.lost h with
    | false =>
      obtain ⟨s, hask, ht, hne⟩ := lost_new hl1 hl2 hs
      exact ⟨hist, a, [], c1, c2, s, rfl, hp.1, hs, rfl, hask, ht, hne, trivial⟩
    | true =>
      -- a spawn of the daemon would have cleared the flag
      refine (hp.2 hl1).snoc (fun hst => ?_) hs
      obtain ⟨i, he⟩ := act_stored hst hs
      rw [he] at hl2
      simp [NativeAdapter.insert] at hl2
  · rw [show (Obj.init n : NConf ι).shared.lost h = false from congrFun hn h] at hl; cases hl

/-- **Terminal statuses**: a terminal status, once returned, is returned by every later
`status` through the handle until the next spawn of its daemon, exactly when no `status` is
asked through a handle whose process an earlier one found failed. -/
theorem terminal_stable_iff (group : Int32) :
    Stable (Obj.init (NativeAdapter.new group)) as ↔
      Meets nativeObj.act NotLost (Obj.init (NativeAdapter.new group)) as := by
  constructor
  · intro hst
    refine meets_iff.2 fun pre b post c has hpre h r hask => ?_
    by_contra hne
    have hl : c.shared.lost h = true := by simpa using hne
    obtain ⟨pre, a, mid, c1, c2, s, rfl, hpre', ha, hmid, hask1, ht, hns, hm⟩ :=
      lost_found (n := NativeAdapter.new group) rfl hpre hl
    have hr := hst pre a mid b post c1 c2 c h s r (by simp [has]) hpre' ha hmid hask1 ht hm hask
    -- the entry is missing since the failure was returned
    obtain ⟨k, hr1, hn⟩ := act_asked hask1 ha
    have hl2 := (status_terminal hr1.symm hn ht).1
    have hl3 : c.shared.processes.lookup h.id = none :=
      Meets.run_inv (P := fun c : NConf ι => c.shared.processes.lookup h.id = none)
        (fun _ _ _ hl hu hs => missing_step hl hu hs) hm hl2 hmid
    rw [asked_missing hl3 hask] at hr
    cases hr
    exact hns rfl
  · rintro hm pre a mid b post c1 c2 c3 h s r rfl hpre ha hmid hask ht hu hask3
    obtain ⟨k, hr1, hn⟩ := act_asked hask ha
    obtain ⟨hl2, hs⟩ := status_terminal hr1.symm hn ht
    have hl3 : c3.shared.processes.lookup h.id = none :=
      Meets.run_inv (P := fun c : NConf ι => c.shared.processes.lookup h.id = none)
        (fun _ _ _ hl hu hs => missing_step hl hu hs) hu hl2 hmid
    rw [asked_missing hl3 hask3]
    rcases hs with rfl | hlost
    · rfl
    · have hlost3 : c3.shared.lost h = true :=
        Meets.run_inv (P := fun c : NConf ι => c.shared.lost h = true)
          (fun _ _ _ hl hu hs => lost_step hl hu hs) hu hlost hmid
      have hm3 := (Meets.append (((Meets.append hm).2 c1 hpre).2 c2 ha)).2 c3 hmid
      exact absurd hlost3 (by rw [hm3.1 h r hask3]; decide)

def exitsWithOne : List (NAct Unit) :=
  [.call () (.spawn ⟨1⟩), .step () (.forked 7), .step () (.os (.ok ())),
    .env (.exits 0 (.exited 1))]

def askedTwice : List (NAct Unit) :=
  [.call () (.status (.native ⟨1⟩ 7)), .step () (.os (.ok ())),
    .call () (.status (.native ⟨1⟩ 7)), .step () (.os (.ok ()))]

/-- The process is reported as failed, then as stopped. -/
theorem failed_then_stopped :
    ¬ Stable (Obj.init (NativeAdapter.new 5)) (exitsWithOne ++ askedTwice) := by
  intro hst
  have hr : (.ok .stopped : Except PlatformError DaemonStatus) = .ok (.failed (.exitCode 1)) :=
    hst (exitsWithOne ++ askedTwice.take 1) (.step () (.os (.ok ())))
      [.call () (.status (.native ⟨1⟩ 7))] (.step () (.os (.ok ()))) [] _ _ _
      (.native ⟨1⟩ 7) (.failed (.exitCode 1)) (.ok .stopped) rfl rfl rfl rfl rfl rfl
      ⟨(fun h => nomatch h), fun _ _ => trivial⟩ rfl
  cases hr

end Duende.Core.Native
