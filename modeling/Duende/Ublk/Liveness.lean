import Duende.Ublk.Attribution

/-!
# Commands to the control device return

`send_command_timeout` looks at the completion queue, then at the clock, and sleeps for ten
milliseconds in between, so it looks a bounded number of times whatever the kernel does.
`calls_return` bounds the steps of a whole call. Only `get_device_info` may wait for ever: until
a command completes or a signal ends its wait.
-/

namespace Duende.Ublk

open Trans Control

/-- The commands of a call, in the order they are sent. -/
def Call.jobs : Call → List Job
  | .forceDelete d => [.forceStop d, .forceDelete d]
  | c => [c.job]

/-- The command that a phase belongs to. -/
def Phase.owner : Phase → Option Job
  | idle => none
  | push j | submit j _ | start j _ | poll j _ _ | expire j _ _ | sleep j _ _ _ | wait j _
  | reap j _ => some j

/-- How often a command looks at the completion queue, at most. -/
def maxPolls : Nat := sendTimeout / pollInterval + 1

/-- The steps of a command: the push, the submission and the first look at the clock, three for
every round of the loop, and the two of the last round. -/
def maxSteps : Nat := 3 * maxPolls + 5

/-- The steps of the thread in a run. -/
def threadSteps (as : List Act) : Nat :=
  as.countP fun
    | .thread _ => true
    | _ => false

variable {s s' : Control} {a : Act} {c : Call} {j : Job} {m n : Nat}

/-! ## Steps of one command -/

/-- The command that runs has taken `n` steps: `k` rounds of the loop are behind it, and every
one of them lasted for as long as its sleep. -/
def Spent (n : Nat) (s : Control) : Prop :=
  match s.phase with
  | .idle | .push _ => n = 0
  | .submit _ _ => n = 1
  | .start _ _ | .wait _ _ => n = 2
  | .reap _ _ => n = 3
  | .poll _ _ t => ∃ k ≤ maxPolls, n = 3 + 3 * k ∧ t + k * pollInterval ≤ s.now
  | .expire _ _ t => ∃ k ≤ maxPolls, n = 4 + 3 * k ∧ t + k * pollInterval ≤ s.now
  | .sleep _ _ t wake => ∃ k < maxPolls, n = 5 + 3 * k ∧ t + (k + 1) * pollInterval ≤ wake

/-- A round that ends in time is not the last. -/
theorem lt_maxPolls {t now k : Nat} (hin : ¬ sendTimeout < now - t)
    (hk : t + k * pollInterval ≤ now) : k < maxPolls := by
  have hval : sendTimeout = 500 * pollInterval := rfl
  have hpolls : maxPolls = 501 := rfl
  have hpos : 0 < pollInterval := by decide
  have hle : k * pollInterval ≤ 500 * pollInterval := by omega
  have := Nat.le_of_mul_le_mul_right hle hpos
  omega

theorem Spent.lt (h : Spent n s) : n < maxSteps := by
  have hsteps : maxSteps = 3 * maxPolls + 5 := rfl
  unfold Spent at h
  split at h
  · omega
  · omega
  · omega
  · omega
  · omega
  · omega
  · obtain ⟨k, hk, rfl, -⟩ := h; omega
  · obtain ⟨k, hk, rfl, -⟩ := h; omega
  · obtain ⟨k, hk, rfl, -⟩ := h; omega

theorem Spent.mono (h : Spent n s) (hp : s'.phase = s.phase) (hn : s.now ≤ s'.now) :
    Spent n s' := by
  unfold Spent at h ⊢
  rw [hp]
  split at h
  · exact h
  · exact h
  · exact h
  · exact h
  · exact h
  · exact h
  · obtain ⟨k, hk, hn', ht⟩ := h; exact ⟨k, hk, hn', Nat.le_trans ht hn⟩
  · obtain ⟨k, hk, hn', ht⟩ := h; exact ⟨k, hk, hn', Nat.le_trans ht hn⟩
  · exact h

/-- What follows a command: the deletion of `force_delete`, or nothing. -/
def Job.next : Job → Option Job
  | .forceStop d => some (.forceDelete d)
  | _ => none

/-- **What a step of the thread does**: it goes on with the command, or the command returns. -/
theorem thread_spent {k : Except Int32 Nat} (h : Spent n s) (hj : s.phase.owner = some j)
    (ht : s.thread k = some s') :
    (s'.phase.owner = some j ∧ Spent (n + 1) s') ∨
      (s'.phase.owner = j.next ∧ (∀ j', s'.phase.owner = some j' → s'.phase = .push j')) := by
  have hret : ∀ {s₀ : Control} {j' own popped r}, s.phase.owner = some j' →
      (s₀.ret j' own popped r).phase.owner = j.next ∧
        (∀ j₁, (s₀.ret j' own popped r).phase.owner = some j₁ →
          (s₀.ret j' own popped r).phase = .push j₁) := by
    intro s₀ j' own popped r hj'
    cases hj.symm.trans hj'
    cases j <;> exact ⟨rfl, fun _ h => by cases h; try rfl⟩
  unfold thread at ht
  unfold Spent at h
  split at ht
  · cases ht
  · rename_i j' hp
    rw [hp] at h hj
    cases hj
    split at ht <;> cases ht
    · exact .inl ⟨rfl, show n + 1 = 1 by rw [show n = 0 from h]⟩
    · exact .inr (hret (by rw [hp]; rfl))
  · rename_i j' q hp
    rw [hp] at h hj
    cases hj
    split at ht <;> cases ht
    · exact .inr (hret (by rw [hp]; rfl))
    · refine .inl ⟨by cases j <;> rfl, ?_⟩
      have hn : n + 1 = 2 := by rw [show n = 1 from h]
      cases j <;> exact hn
  · rename_i j' q hp
    rw [hp] at h hj
    cases hj
    cases ht
    exact .inl ⟨rfl, 0, Nat.zero_le _, by rw [show n = 2 from h], by simp⟩
  · rename_i j' q t hp
    rw [hp] at h hj
    cases hj
    split at ht <;> cases ht
    · exact .inr (hret (by rw [hp]; rfl))
    · obtain ⟨i, hi, rfl, hclock⟩ := h
      exact .inl ⟨rfl, i, hi, by omega, hclock⟩
  · rename_i j' q t hp
    rw [hp] at h hj
    cases hj
    split at ht <;> cases ht
    · exact .inr (hret (by rw [hp]; rfl))
    · rename_i hin
      obtain ⟨i, hi, rfl, hclock⟩ := h
      refine .inl ⟨rfl, i, lt_maxPolls hin hclock, by omega, ?_⟩
      show t + (i + 1) * pollInterval ≤ s.now + pollInterval
      rw [Nat.add_mul]
      omega
  · rename_i j' q t wake hp
    rw [hp] at h hj
    cases hj
    split at ht <;> cases ht
    rename_i hwake
    obtain ⟨i, hi, rfl, hclock⟩ := h
    exact .inl ⟨rfl, i + 1, hi, by omega, Nat.le_trans hclock hwake⟩
  · rename_i j' q hp
    rw [hp] at h hj
    cases hj
    cases ht
    exact .inl ⟨rfl, show n + 1 = 3 by rw [show n = 2 from h]⟩
  · rename_i j' q hp
    rw [hp] at h hj
    cases hj
    split at ht <;> cases ht
    · exact .inr (hret (by rw [hp]; rfl))
    · exact .inr (hret (by rw [hp]; rfl))

/-! ## Steps of a call -/

/-- What the commands before this one have taken, at most. -/
def Job.before : Job → Nat
  | .forceDelete _ => maxSteps
  | _ => 0

/-- The call has returned, or `m` steps are those of its commands so far. -/
def Underway (c : Call) (m : Nat) (s : Control) : Prop :=
  s.phase = .idle ∨ ∃ j ∈ c.jobs, s.phase.owner = some j ∧ ∃ n, Spent n s ∧ m ≤ j.before + n

theorem phase_idle_of_job (h : s.phase.owner = none) : s.phase = .idle := by
  cases hp : s.phase with
  | idle => rfl
  | _ => rw [hp] at h; cases h

/-- **Step lemma.** -/
theorem Underway.step (h : Underway c m s) (hc : ∀ c', a ≠ .call c') (ha : s.act a = some s') :
    Underway c (m + threadSteps [a]) s' := by
  rcases h with hidle | ⟨j, hj, hjob, n, hn, hm⟩
  · left
    cases a with
    | call c' => exact absurd rfl (hc c')
    | thread k =>
      simp only [act, thread, hidle] at ha
      cases ha
    | complete i res info =>
      obtain ⟨q, -, rfl⟩ := complete_some ha
      exact hidle
    | tick d => cases ha; exact hidle
  · cases a with
    | call c' => exact absurd rfl (hc c')
    | thread k =>
      have hone : threadSteps [.thread k] = 1 := rfl
      rw [hone]
      have hlt := hn.lt
      rcases thread_spent hn hjob ha with ⟨hjob', hn'⟩ | ⟨hnext, hpush⟩
      · exact .inr ⟨j, hj, hjob', n + 1, hn', by omega⟩
      · cases hj' : j.next with
        | none => exact .inl (phase_idle_of_job (hnext.trans hj'))
        | some j' =>
          rw [hj'] at hnext
          have hphase := hpush j' hnext
          refine .inr ⟨j', ?_, hnext, 0, by rw [Spent, hphase], ?_⟩
          · cases j <;> cases hj'
            cases c <;> simp [Call.jobs, Call.job] at hj ⊢
            exact hj
          · cases j <;> cases hj'
            have : m ≤ 0 + n := hm
            show m + 1 ≤ maxSteps + 0
            omega
    | complete i res info =>
      obtain ⟨q, -, rfl⟩ := complete_some ha
      exact .inr ⟨j, hj, hjob, n, hn.mono rfl (Nat.le_refl _), hm⟩
    | tick d =>
      cases ha
      exact .inr ⟨j, hj, hjob, n, hn.mono rfl (Nat.le_add_right _ _), hm⟩

theorem underway_call (h : s.act (.call c) = some s') : Underway c 0 s' := by
  simp only [act, Control.call] at h
  split at h <;> cases h
  exact .inr ⟨c.job, by cases c <;> exact List.mem_cons_self, rfl, 0, rfl, Nat.zero_le _⟩

theorem threadSteps_append (as bs : List Act) :
    threadSteps (as ++ bs) = threadSteps as + threadSteps bs := List.countP_append

/-- **Run lemma.** -/
theorem Underway.run {as : List Act} (h : Underway c m s) (hc : ∀ c', .call c' ∉ as)
    (hr : Trans.run act s as = some s') : Underway c (m + threadSteps as) s' := by
  induction as generalizing s m with
  | nil => cases hr; exact h
  | cons a as ih =>
    obtain ⟨s1, h1, h2⟩ := run_cons_some.1 hr
    have hstep := h.step (fun c' e => hc c' (by rw [e]; exact List.mem_cons_self)) h1
    have hrest := ih hstep (fun c' hm => hc c' (List.mem_cons_of_mem a hm)) h2
    rwa [Nat.add_assoc, ← threadSteps_append] at hrest

theorem Underway.lt (h : Underway c m s) (hs : s.phase ≠ .idle) :
    m < c.jobs.length * maxSteps := by
  rcases h with hidle | ⟨j, hj, hjob, n, hn, hm⟩
  · exact absurd hidle hs
  · have hlt := hn.lt
    cases c <;> simp only [Call.jobs, Call.job, List.mem_cons, List.not_mem_nil, or_false,
      List.length_cons, List.length_nil] at hj ⊢
    case forceDelete d =>
      rcases hj with rfl | rfl
      · have : m ≤ 0 + n := hm
        omega
      · have : m ≤ maxSteps + n := hm
        omega
    all_goals
      subst hj
      have : m ≤ 0 + n := hm
      omega

/-! ## The thread is not blocked for long -/

/-- The command is sent with a timeout. -/
def Job.hasTimeout : Job → Bool
  | .info _ _ => false
  | _ => true

/-- The phases that wait for a completion belong to `get_device_info`. -/
def Patient (s : Control) : Prop :=
  match s.phase with
  | .wait j _ | .reap j _ => j.hasTimeout = false
  | .sleep _ _ _ wake => wake ≤ s.now + pollInterval
  | _ => True

theorem patient_ret {own : Option Sqe} {popped : Option Cqe} {r : Ret} :
    Patient (s.ret j own popped r) := by
  cases j <;> trivial

theorem Patient.step (h : Patient s) (ha : s.act a = some s') : Patient s' := by
  cases a with
  | call c =>
    simp only [act, Control.call] at ha
    split at ha <;> cases ha
    trivial
  | thread k =>
    simp only [act, thread] at ha
    split at ha
    · cases ha
    · split at ha <;> cases ha
      · trivial
      · exact patient_ret
    · rename_i j q hp
      split at ha <;> cases ha
      · exact patient_ret
      · cases j <;> trivial
    · cases ha; trivial
    · split at ha <;> cases ha
      · exact patient_ret
      · trivial
    · split at ha <;> cases ha
      · exact patient_ret
      · exact Nat.le_refl _
    · split at ha <;> cases ha
      trivial
    · rename_i j q hp
      cases ha
      rwa [Patient, hp] at h
    · split at ha <;> cases ha <;> exact patient_ret
  | complete i res info =>
    obtain ⟨q, -, rfl⟩ := complete_some ha
    exact h
  | tick d =>
    cases ha
    unfold Patient at h ⊢
    show match s.phase with
      | .wait j _ | .reap j _ => j.hasTimeout = false
      | .sleep _ _ _ wake => wake ≤ s.now + d + pollInterval
      | _ => True
    split at h
    · exact h
    · exact h
    · show _ ≤ s.now + d + pollInterval
      omega
    · exact h

theorem patient_run {now : Nat} {as : List Act} (hr : run act (.new now) as = some s) : Patient s :=
  run_inv (fun _ _ _ => Patient.step) (show Patient (.new now) from trivial) hr

/-- After ten milliseconds at most the thread of a timed command takes its next step. -/
theorem Patient.thread (h : Patient s) (hj : s.phase.owner = some j) (ht : j.hasTimeout = true)
    (k : Except Int32 Nat) :
    ∃ d ≤ pollInterval, ∃ s', run act s [.tick d, .thread k] = some s' := by
  have hnow : ∀ s₁, s.thread k = some s₁ →
      ∃ d ≤ pollInterval, ∃ s', run act s [.tick d, .thread k] = some s' := fun s₁ h₁ =>
    ⟨0, Nat.zero_le _, s₁, run_cons_some.2 ⟨s, rfl, run_cons_some.2 ⟨s₁, h₁, rfl⟩⟩⟩
  cases hp : s.phase with
  | idle => rw [hp] at hj; cases hj
  | push j' =>
    by_cases hroom : s.sq.length < ringSize
    · exact hnow _ (by rw [Control.thread, hp]; exact if_pos hroom)
    · exact hnow _ (by rw [Control.thread, hp]; exact if_neg hroom)
  | submit j' q =>
    cases k with
    | error os => exact hnow _ (by rw [Control.thread, hp])
    | ok n => exact hnow _ (by rw [Control.thread, hp])
  | start j' q => exact hnow _ (by rw [Control.thread, hp])
  | poll j' q t =>
    cases hcq : s.cq with
    | nil => exact hnow _ (by simp only [Control.thread, hp, hcq]; rfl)
    | cons e cq => exact hnow _ (by simp only [Control.thread, hp, hcq]; rfl)
  | expire j' q t =>
    by_cases hin : sendTimeout < s.now - t
    · exact hnow _ (by rw [Control.thread, hp]; exact if_pos hin)
    · exact hnow _ (by rw [Control.thread, hp]; exact if_neg hin)
  | sleep j' q t wake =>
    have hwake : wake ≤ s.now + pollInterval := by rwa [Patient, hp] at h
    refine ⟨pollInterval, Nat.le_refl _, { s with
      now := s.now + pollInterval, phase := .poll j' q t }, ?_⟩
    simp only [run, act, Control.thread, hp, Option.bind_some, if_pos hwake]
  | wait j' q =>
    rw [hp] at hj
    cases hj
    have hinfo : j.hasTimeout = false := by rwa [Patient, hp] at h
    rw [ht] at hinfo
    cases hinfo
  | reap j' q =>
    rw [hp] at hj
    cases hj
    have hinfo : j.hasTimeout = false := by rwa [Patient, hp] at h
    rw [ht] at hinfo
    cases hinfo

/-- **Commands return.** Whatever the kernel does, a call that has not returned has taken fewer
than `maxSteps` steps for each of its commands; and unless it asks for device info, it takes its
next step after ten milliseconds at most. -/
theorem calls_return {now : Nat} {pre mid : List Act} {s s1 s2 : Control} {c : Call}
    (hpre : run act (.new now) pre = some s) (hcall : s.act (.call c) = some s1)
    (hmid : run act s1 mid = some s2) (hc : ∀ c', .call c' ∉ mid) (hs : s2.phase ≠ .idle) :
    threadSteps mid < c.jobs.length * maxSteps ∧
      ((∀ d addr, c ≠ .getDeviceInfo d addr) → ∀ k,
        ∃ d ≤ pollInterval, ∃ s3, run act s2 [.tick d, .thread k] = some s3) := by
  have hunder := (underway_call hcall).run hc hmid
  rw [Nat.zero_add] at hunder
  refine ⟨hunder.lt hs, fun hinfo k => ?_⟩
  have hpatient : Patient s2 :=
    patient_run (run_append_some.2 ⟨s, hpre, run_cons_some.2 ⟨s1, hcall, hmid⟩⟩)
  rcases hunder with hidle | ⟨j, hj, hjob, -⟩
  · exact absurd hidle hs
  · refine hpatient.thread hjob ?_ k
    cases c with
    | getDeviceInfo d addr => exact absurd rfl (hinfo d addr)
    | forceDelete d =>
      rcases List.mem_cons.1 hj with rfl | hj
      · rfl
      · rw [List.mem_singleton.1 hj]; rfl
    | _ => rw [List.mem_singleton.1 hj]; rfl

/-- The push, the submission, the start of the loop, and a look at the queue and the clock. -/
def firstRound : List Act := List.replicate 5 (.thread (.ok 1))

theorem calls_return_waiting : ∃ s1 s2, (Control.new 0).act (.call (.deleteDevice 3)) = some s1 ∧
    run act s1 firstRound = some s2 ∧ threadSteps firstRound < maxSteps ∧
    ∃ d ≤ pollInterval, ∃ s3, run act s2 [.tick d, .thread (.ok 1)] = some s3 := by
  have h := @calls_return 0 [] firstRound _ _ _ (.deleteDevice 3) rfl rfl rfl
    (fun c' hc => by simp [firstRound] at hc) (by decide)
  exact ⟨_, _, rfl, rfl, by simpa [Call.jobs] using h.1, h.2 nofun (.ok 1)⟩

end Duende.Ublk
