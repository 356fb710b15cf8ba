import Duende.Trans.Run
import Mathlib.Data.Finset.Card
import Mathlib.Data.Fintype.Basic

/-!
# Callers interleaved on shared memory

An object runs operations `ο` as programs over shared memory `σ`, one atomic step at a
time. `exec s p k` is the atomic step at program point `p`: it leaves the shared memory
and either the next program point or the result of the call; `k` resolves a choice the
step leaves open, and `none` says that the step is blocked. `Obj.act` interleaves any
number of callers `ι`, each with at most one call in progress, and the environment.
-/

namespace Trans

/-- A concurrent object. -/
structure Obj (σ π ο ρ κ ε : Type*) where
  /-- The first program point of an operation. -/
  start : ο → π
  exec : σ → π → κ → Option (σ × (π ⊕ ρ))
  env : σ → ε → Option σ

/-- The shared memory and every caller's program point (`none` between calls). -/
structure Conf (ι σ π : Type*) where
  shared : σ
  pc : ι → Option π

/-- One action of an interleaving. -/
inductive Act (ι ο κ ε : Type*) where
  | call (i : ι) (o : ο)
  | step (i : ι) (k : κ)
  | env (e : ε)
  deriving DecidableEq

variable {ι σ π ο ρ κ ε : Type*}

namespace Conf

/-- No call is in progress. -/
def Quiet (c : Conf ι σ π) : Prop := ∀ i, c.pc i = none

def At (c : Conf ι σ π) (p : π) : Prop := ∃ i, c.pc i = some p

/-- Exactly `n` callers are at `p`. -/
def Count (c : Conf ι σ π) (p : π) (n : Nat) : Prop :=
  ∃ P : Finset ι, P.card = n ∧ ∀ i, i ∈ P ↔ c.pc i = some p

instance [Fintype ι] (c : Conf ι σ π) : Decidable c.Quiet :=
  decidable_of_iff (∀ i, (c.pc i).isNone) (by simp [Quiet])

instance [Fintype ι] [DecidableEq π] (c : Conf ι σ π) (p : π) : Decidable (c.At p) :=
  inferInstanceAs (Decidable (∃ i, c.pc i = some p))

theorem Quiet.not_at {c : Conf ι σ π} (h : c.Quiet) (p : π) : ¬ c.At p := by
  rintro ⟨i, hi⟩; rw [h i] at hi; cases hi

theorem Quiet.count_eq_zero {c : Conf ι σ π} {p : π} {n : Nat} (h : c.Quiet)
    (hn : c.Count p n) : n = 0 := by
  obtain ⟨P, rfl, hP⟩ := hn
  rw [Finset.card_eq_zero, Finset.eq_empty_iff_forall_notMem]
  intro i hi
  have := (hP i).1 hi
  rw [h i] at this; cases this

theorem Count.of_empty {c : Conf ι σ π} {p : π} (h : ¬ c.At p) : c.Count p 0 :=
  ⟨∅, rfl, fun i => by simpa using fun e => h ⟨i, e⟩⟩

section
variable [DecidableEq ι] {c : Conf ι σ π} {s : σ} {i : ι} {p : π} {q : Option π}

theorem at_update_self (h : q = some p) : Conf.At ⟨s, Function.update c.pc i q⟩ p :=
  ⟨i, by simp [h]⟩

theorem pc_update_cases {j : ι} (h : Function.update c.pc i q j = some p) :
    (j = i ∧ q = some p) ∨ (j ≠ i ∧ c.pc j = some p) := by
  by_cases e : j = i
  · subst e; exact .inl ⟨rfl, by simpa using h⟩
  · exact .inr ⟨e, by simpa [e] using h⟩

theorem At.update (h : c.At p) (hi : c.pc i ≠ some p) :
    Conf.At ⟨s, Function.update c.pc i q⟩ p := by
  obtain ⟨j, hj⟩ := h
  have hne : j ≠ i := fun e => hi (e ▸ hj)
  exact ⟨j, by simp [hne, hj]⟩

/-- A caller that does not move to `p` brings nobody to `p`. -/
theorem At.of_update (h : Conf.At ⟨s, Function.update c.pc i q⟩ p) (hq : q ≠ some p) :
    c.At p := by
  obtain ⟨j, hj⟩ := h
  rcases pc_update_cases hj with ⟨-, hp⟩ | ⟨-, hp⟩
  · exact absurd hp hq
  · exact ⟨j, hp⟩

theorem at_update_iff (hi : c.pc i ≠ some p) (hq : q ≠ some p) :
    Conf.At ⟨s, Function.update c.pc i q⟩ p ↔ c.At p :=
  ⟨fun h => h.of_update hq, fun h => h.update hi⟩

theorem Count.enter {n : Nat} (h : c.Count p n) (hi : c.pc i ≠ some p) :
    Conf.Count ⟨s, Function.update c.pc i (some p)⟩ p (n + 1) := by
  obtain ⟨P, rfl, hP⟩ := h
  refine ⟨insert i P, Finset.card_insert_of_notMem fun e => hi ((hP i).1 e), fun j => ?_⟩
  by_cases e : j = i
  · subst e; simp
  · simp [e, hP]

theorem Count.leave {n : Nat} (h : c.Count p n) (hi : c.pc i = some p) (hq : q ≠ some p) :
    ∃ m, n = m + 1 ∧ Conf.Count ⟨s, Function.update c.pc i q⟩ p m := by
  obtain ⟨P, rfl, hP⟩ := h
  have hmem : i ∈ P := (hP i).2 hi
  refine ⟨(P.erase i).card, (Finset.card_erase_add_one hmem).symm, P.erase i, rfl, fun j => ?_⟩
  by_cases e : j = i
  · subst e; simpa using Ne.symm (Ne.symm hq)
  · simp [e, hP]

theorem Count.other {n : Nat} (h : c.Count p n) (hi : c.pc i ≠ some p) (hq : q ≠ some p) :
    Conf.Count ⟨s, Function.update c.pc i q⟩ p n := by
  obtain ⟨P, rfl, hP⟩ := h
  refine ⟨P, rfl, fun j => ?_⟩
  by_cases e : j = i
  · subst e; simpa [hq] using fun e => hi ((hP j).1 e)
  · simp [e, hP]

end

end Conf

namespace Obj

variable [DecidableEq ι] (A : Obj σ π ο ρ κ ε)

def init (s : σ) : Conf ι σ π := ⟨s, fun _ => none⟩

/-- One action of an interleaving: a caller starts a call, a caller takes its next
atomic step, or the environment acts. -/
def act (c : Conf ι σ π) : Act ι ο κ ε → Option (Conf ι σ π)
  | .call i o =>
    match c.pc i with
    | none => some ⟨c.shared, Function.update c.pc i (some (A.start o))⟩
    | some _ => none
  | .step i k =>
    match c.pc i with
    | none => none
    | some p => (A.exec c.shared p k).map fun r => ⟨r.1, Function.update c.pc i r.2.getLeft?⟩
  | .env e => (A.env c.shared e).map fun s => ⟨s, c.pc⟩

/-- The result an action returns to its caller, if it ends a call. -/
def result (c : Conf ι σ π) : Act ι ο κ ε → Option ρ
  | .step i k => (c.pc i).bind fun p => (A.exec c.shared p k).bind fun r => r.2.getRight?
  | _ => none

variable {A} {c c' : Conf ι σ π}

theorem act_call {i : ι} {o : ο} :
    A.act c (.call i o) = some c' ↔
      c.pc i = none ∧ c' = ⟨c.shared, Function.update c.pc i (some (A.start o))⟩ := by
  simp only [act]
  cases h : c.pc i with
  | none => simp [eq_comm]
  | some p => simp

theorem act_step {i : ι} {k : κ} :
    A.act c (.step i k) = some c' ↔ ∃ p s' q, c.pc i = some p ∧
      A.exec c.shared p k = some (s', q) ∧ c' = ⟨s', Function.update c.pc i q.getLeft?⟩ := by
  simp only [act]
  cases h : c.pc i with
  | none => simp
  | some p =>
    constructor
    · intro h
      obtain ⟨⟨s', q⟩, hx, rfl⟩ := Option.map_eq_some_iff.1 h
      exact ⟨p, s', q, rfl, hx, rfl⟩
    · rintro ⟨p', s', q, hp, hx, rfl⟩
      cases hp
      simp [hx]

theorem act_env {e : ε} :
    A.act c (.env e) = some c' ↔ ∃ s', A.env c.shared e = some s' ∧ c' = ⟨s', c.pc⟩ := by
  simp only [act, Option.map_eq_some_iff, eq_comm (a := c')]

/-- **What an action can do**, in the form the invariant proofs take apart: a call is
started, a caller moves from `p` to `q`, or only the shared memory changes. -/
theorem act_cases {a : Act ι ο κ ε} (h : A.act c a = some c') :
    (∃ i o, a = .call i o ∧ c.pc i = none ∧
      c' = ⟨c.shared, Function.update c.pc i (some (A.start o))⟩) ∨
    (∃ i k p s' q, a = .step i k ∧ c.pc i = some p ∧ A.exec c.shared p k = some (s', q) ∧
      c' = ⟨s', Function.update c.pc i q.getLeft?⟩) ∨
    (∃ e s', a = .env e ∧ A.env c.shared e = some s' ∧ c' = ⟨s', c.pc⟩) := by
  cases a with
  | call i o => obtain ⟨h1, h2⟩ := act_call.1 h; exact .inl ⟨i, o, rfl, h1, h2⟩
  | step i k =>
    obtain ⟨p, s', q, h1, h2, h3⟩ := act_step.1 h
    exact .inr (.inl ⟨i, k, p, s', q, rfl, h1, h2, h3⟩)
  | env e => obtain ⟨s', h1, h2⟩ := act_env.1 h; exact .inr (.inr ⟨e, s', rfl, h1, h2⟩)

/-- **Who changes the shared memory** of an object without an environment: only a caller that
takes its next step. -/
theorem shared_cases [IsEmpty ε] {a : Act ι ο κ ε} (h : A.act c a = some c') :
    c'.shared = c.shared ∨ ∃ i k p q, a = .step i k ∧ c.pc i = some p ∧
      A.exec c.shared p k = some (c'.shared, q) := by
  rcases act_cases h with ⟨i, o, rfl, -, rfl⟩ | ⟨i, k, p, s', q, rfl, hp, hx, rfl⟩ |
    ⟨e, -, -, -, -⟩
  · exact .inl rfl
  · exact .inr ⟨i, k, p, q, rfl, hp, hx⟩
  · exact isEmptyElim e

variable (A) in
/-- One call from program point `p` to its end with no other action in between, one
choice for each atomic step. -/
def solo (s : σ) (p : π) : List κ → Option (σ × ρ)
  | [] => none
  | k :: ks =>
    match A.exec s p k with
    | none => none
    | some (s', .inl p') => solo s' p' ks
    | some (s', .inr r) => if ks.isEmpty then some (s', r) else none

/-- A call that runs alone takes effect as `solo` says, and leaves its caller idle. -/
theorem run_solo {i : ι} {r : ρ} {s' : σ} :
    ∀ {ks : List κ} {c : Conf ι σ π} {p : π}, c.pc i = some p →
      A.solo c.shared p ks = some (s', r) →
      run A.act c (ks.map (.step i)) = some ⟨s', Function.update c.pc i none⟩
  | [], _, _, _, h => by cases h
  | k :: ks, c, p, hp, h => by
    rw [List.map_cons, run_cons_some]
    simp only [solo] at h
    split at h
    · cases h
    · rename_i s1 p' hx
      refine ⟨_, act_step.2 ⟨p, s1, .inl p', hp, hx, rfl⟩, ?_⟩
      have := run_solo (c := ⟨s1, Function.update c.pc i (some p')⟩) (i := i) (by simp) h
      simpa using this
    · rename_i s1 r' hx
      split at h
      · rename_i hks
        cases h
        rw [List.isEmpty_iff.1 hks]
        exact ⟨_, act_step.2 ⟨p, s', .inr r, hp, hx, rfl⟩, rfl⟩
      · cases h

/-- One call of an idle caller, from its start to its end, with no other action between. -/
def alone (i : ι) (o : ο) (ks : List κ) : List (Act ι ο κ ε) := .call i o :: ks.map (.step i)

theorem run_alone {i : ι} {o : ο} {ks : List κ} {r : ρ} {s' : σ} (hi : c.pc i = none)
    (h : A.solo c.shared (A.start o) ks = some (s', r)) :
    run A.act c (alone i o ks) = some ⟨s', c.pc⟩ := by
  have := run_solo (c := ⟨c.shared, Function.update c.pc i (some (A.start o))⟩) (i := i)
    (by simp) h
  refine run_cons_some.2 ⟨_, act_call.2 ⟨hi, rfl⟩, this.trans ?_⟩
  simp [← hi]

end Obj

end Trans
