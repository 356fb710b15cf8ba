import Duende.Policy.Phase

/-!
# Whether a monitoring read shows

`state()` performs the transition from open to half-open when it is due, so it is not a
pure read. `observe_unseen` says when an extra `state()` call in a run changes no later
answer: when no transition is due, or when no outcome is recorded before the next call
that would have performed it. `observe_seen` says that the exception is real.
-/

namespace Duende.Policy

def CircuitBreaker.answers (b : CircuitBreaker) : List Call → List Res
  | [] => []
  | c :: cs => (b.call c.1 c.2).2 :: (b.call c.1 c.2).1.answers cs

def Phase.answers {m : Nat} [NeZero m] (timeout : Nat) (ph : Phase m) : List Call → List Res
  | [] => []
  | c :: cs => (ph.call timeout c.1 c.2).2 :: (ph.call timeout c.1 c.2).1.answers timeout cs

theorem Phase.answers_toBreaker {th : UInt32} {rt now : Nat} :
    ∀ {cs : List Call} {t : Nat} {ph : Phase (limit th)}, ph.At rt t → Timed now t cs →
      (ph.toBreaker rt).answers cs = ph.answers rt cs
  | [], _, _, _, _ => rfl
  | c :: cs, _, _, h, ht => by
    have h1 := h.mono ht.1
    simp only [CircuitBreaker.answers, Phase.answers, Phase.call_toBreaker c.2 h1]
    rw [Phase.answers_toBreaker (h1.call c.2) ht.2]

/-- A query at `now` would move the breaker to half-open. -/
def CircuitBreaker.Due (b : CircuitBreaker) (now : Nat) : Prop :=
  b.state = .open ∧ b.shouldTransition now = true

/-- The first call other than `failure_count` records an outcome: a success, or a failure
under a timeout that is not zero. -/
def RecordsFirst (rt : Nat) : List Call → Prop
  | [] => False
  | (_, .failureCount) :: cs => RecordsFirst rt cs
  | (_, .recordSuccess) :: _ => True
  | (_, .recordFailure) :: _ => 0 < rt
  | _ => False

theorem maybeTransition_of_not_due {b : CircuitBreaker} {now : Nat} (h : ¬ b.Due now) :
    b.maybeTransition now = b := by
  unfold CircuitBreaker.maybeTransition
  split
  · rfl
  · rename_i ho
    rw [if_neg fun hs => h ⟨not_not.1 ho, hs⟩]

namespace Phase

variable {th : UInt32} {rt now : Nat}

theorem due_iff {ph : Phase (limit th)} (h : ph.At rt now) :
    (ph.toBreaker rt).Due now ↔ ∃ t0, ph = .open t0 ∧ t0 + rt ≤ now := by
  cases ph with
  | closed f => exact ⟨fun hd => (nomatch hd.1), fun ⟨_, he, _⟩ => (nomatch he)⟩
  | halfOpen t s => exact ⟨fun hd => (nomatch hd.1), fun ⟨_, he, _⟩ => (nomatch he)⟩
  | «open» t =>
    have ht : t ≤ now := h
    show CircuitState.open = .open ∧ decide (rt ≤ now - t) = true ↔ _
    rw [decide_eq_true_eq]
    constructor
    · rintro ⟨-, hd⟩; exact ⟨t, rfl, by omega⟩
    · rintro ⟨t0, he, hd⟩; cases he; exact ⟨rfl, by omega⟩

/-- Phases that differ at most in the instant of the opening. -/
inductive Alike : Phase (limit th) → Phase (limit th) → Prop where
  | closed (f : Fin (limit th)) : Alike (.closed f) (.closed f)
  | open (t t' : Nat) : Alike (.open t) (.open t')
  | halfOpen (t t' : Nat) (s : Fin 3) : Alike (.halfOpen t s) (.halfOpen t' s)

/-- With a timeout of zero the instant of the opening plays no part. -/
theorem Alike.call {ph ph' : Phase (limit th)} (h : Alike ph ph') (h1 : ph.At 0 now)
    (h2 : ph'.At 0 now) (o : Op) : (ph.call 0 now o).2 = (ph'.call 0 now o).2 ∧
      Alike (ph.call 0 now o).1 (ph'.call 0 now o).1 := by
  cases h with
  | closed f =>
    refine ⟨rfl, ?_⟩
    cases o with
    | recordFailure => simp only [Phase.call, recordFailure]; split <;> constructor
    | _ => constructor
  | «open» t t' =>
    have ht : t ≤ now := h1
    have ht' : t' ≤ now := h2
    cases o <;> simp only [Phase.call, lapse, recordSuccess, recordFailure, Nat.add_zero, if_pos ht,
      if_pos ht', Phase.state, failures, true_and] <;> constructor
  | halfOpen t t' s =>
    cases o with
    | recordSuccess =>
      simp only [Phase.call, recordSuccess, true_and]
      split <;> constructor
    | _ => exact ⟨rfl, by constructor⟩

theorem Alike.answers : ∀ {cs : List Call} {t : Nat} {ph ph' : Phase (limit th)}, Alike ph ph' →
    ph.At 0 t → ph'.At 0 t → Timed now t cs → ph.answers 0 cs = ph'.answers 0 cs
  | [], _, _, _, _, _, _, _ => rfl
  | c :: cs, _, _, _, h, h1, h2, ht => by
    have h1 := h1.mono ht.1
    have h2 := h2.mono ht.1
    obtain ⟨hr, ha⟩ := h.call h1 h2 c.2
    simp only [Phase.answers, hr]
    rw [ha.answers (h1.call c.2) (h2.call c.2) ht.2]

/-- A lapsed open phase answers like the half-open one it is about to become, until an
outcome is recorded. -/
theorem answers_lapsed {t0 : Nat} : ∀ {cs : List Call} {t : Nat}, t0 + rt ≤ t → Timed now t cs →
    ¬ RecordsFirst rt cs → (halfOpen t0 0 : Phase (limit th)).answers rt cs =
      (Phase.open t0 : Phase (limit th)).answers rt cs
  | [], _, _, _, _ => rfl
  | (t1, o) :: cs, t, hd, ht, hn => by
    have hle : t0 + rt ≤ t1 := Nat.le_trans hd ht.1
    simp only [Phase.answers]
    cases o with
    | state => simp only [Phase.call, lapse, if_pos hle]
    | allow => simp only [Phase.call, lapse, if_pos hle]
    | reset => rfl
    | recordSuccess => exact absurd trivial hn
    | failureCount =>
      simp only [Phase.call, failures]
      rw [answers_lapsed hle ht.2 hn]
    | recordFailure =>
      -- ignored by the open phase; the half-open one opens again, which a zero timeout hides
      have hz : rt = 0 := by
        have : ¬ 0 < rt := hn
        omega
      subst hz
      simp only [Phase.call, recordFailure]
      rw [(Alike.open t1 t0).answers (Nat.le_refl t1) (show t0 ≤ t1 by omega) ht.2]

end Phase

/-- **An extra `state()` call** at any position of a run changes no later answer, unless
the transition to half-open is due there and an outcome is recorded first after it. -/
theorem observe_unseen (th : UInt32) (rt now t : Nat) (pre post : List Call)
    (h : Timed now 0 (pre ++ (t, .state) :: post))
    (hn : ¬ (((CircuitBreaker.new th rt).after pre).Due t ∧ RecordsFirst rt post)) :
    (((CircuitBreaker.new th rt).after pre).call t .state).1.answers post =
      ((CircuitBreaker.new th rt).after pre).answers post := by
  obtain ⟨t', h1, h2⟩ := h.append
  obtain ⟨he, hat⟩ := reached th rt h1
  have hat := hat.mono h2.1
  by_cases hd : ((CircuitBreaker.new th rt).after pre).Due t
  · have hr : ¬ RecordsFirst rt post := fun hr => hn ⟨hd, hr⟩
    rw [he] at hd ⊢
    obtain ⟨t0, hph, hle⟩ := (Phase.due_iff hat).1 hd
    rw [hph] at hat ⊢
    rw [Phase.call_toBreaker _ hat, Phase.answers_toBreaker (hat.call _) h2.2,
      Phase.answers_toBreaker hat h2.2]
    simp only [Phase.call, Phase.lapse, if_pos hle]
    exact Phase.answers_lapsed hle h2.2 hr
  · simp only [CircuitBreaker.call, CircuitBreaker.currentState, maybeTransition_of_not_due hd]

/-- An open breaker, watched before and after its timeout. -/
theorem observe_unseen_failure :
    (((CircuitBreaker.new 1 10).after [(0, .recordFailure)]).call 5 .state).1.answers
        [(6, .recordFailure), (12, .state)] =
      ((CircuitBreaker.new 1 10).after [(0, .recordFailure)]).answers
        [(6, .recordFailure), (12, .state)] :=
  observe_unseen 1 10 12 5 [(0, .recordFailure)] _ (by decide)
    (fun h => absurd h.1 (by rintro ⟨-, h⟩; revert h; decide))

/-- The exception is real: a watched breaker counts a failure that it ignores unwatched. -/
theorem observe_not_transparent :
    ¬ ∀ (th : UInt32) (rt now t : Nat) (pre post : List Call),
      Timed now 0 (pre ++ (t, .state) :: post) →
      (((CircuitBreaker.new th rt).after pre).call t .state).1.answers post =
        ((CircuitBreaker.new th rt).after pre).answers post := by
  intro h
  have := h 1 10 11 10 [(0, .recordFailure)] [(10, .recordFailure), (11, .state)] (by decide)
  revert this
  decide

/-- **Every exception shows**: whenever a transition is due, three successes and a
`state()` tell the watched breaker from the unwatched one, and so do one failure and a
`state()` if the timeout is not zero. -/
theorem observe_seen {th : UInt32} {rt t0 t : Nat} (h : t0 + rt ≤ t) :
    let b := (Phase.open t0 : Phase (limit th)).toBreaker rt
    let b' := (b.call t .state).1
    let s := [(t, Op.recordSuccess), (t, .recordSuccess), (t, .recordSuccess), (t, .state)]
    let f := [(t, Op.recordFailure), (t, .state)]
    b'.answers s ≠ b.answers s ∧ (0 < rt → b'.answers f ≠ b.answers f) := by
  have h1 : (Phase.open t0 : Phase (limit th)).At rt t := by
    show t0 ≤ t; omega
  intro b b' s f
  have hs : Timed t t s := ⟨Nat.le_refl t, Nat.le_refl t, Nat.le_refl t, Nat.le_refl t, Nat.le_refl t⟩
  have hf : Timed t t f := ⟨Nat.le_refl t, Nat.le_refl t, Nat.le_refl t⟩
  have hb' : b' = (Phase.halfOpen t0 0 : Phase (limit th)).toBreaker rt := by
    simp only [b', b, Phase.call_toBreaker _ h1, Phase.call, Phase.lapse, if_pos h]
  have h2 : (Phase.halfOpen t0 0 : Phase (limit th)).At rt t := h
  rw [hb', Phase.answers_toBreaker h2 hs, Phase.answers_toBreaker h2 hf,
    Phase.answers_toBreaker h1 hs, Phase.answers_toBreaker h1 hf]
  constructor
  · simp [s, Phase.answers, Phase.call, Phase.recordSuccess, Phase.lapse, h, Phase.state]
  · intro hrt
    have : ¬ t + rt ≤ t := by omega
    simp [f, Phase.answers, Phase.call, Phase.recordFailure, Phase.lapse, h, Phase.state, this]

end Duende.Policy
