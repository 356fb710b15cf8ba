import Duende.Trans.Ask
import Mathlib.Data.List.Basic

/-!
# Dialogues

A dialogue lists the questions that a computation has asked, each with its answer. `feed` runs a
computation along a dialogue, and `Ensures Φ` says that every dialogue is in the relation `Φ` with
the value that it ends with.
-/

namespace Trans

universe u v w

/-- Questions with their answers. -/
abbrev Dialogue {Q : Type u} (A : Q → Type v) := List (Σ q, A q)

namespace Ask

variable {Q : Type u} {A : Q → Type v} {α β : Type w} {Φ Φ' : Dialogue A → α → Prop}

/-- After the dialogue so far: whatever the answers, the whole dialogue and the value returned are
in the relation `Φ`. -/
def Ensures (Φ : Dialogue A → α → Prop) : Dialogue A → Ask Q A α → Prop
  | past, done r => Φ past r
  | past, ask q k => ∀ a, (k a).Ensures Φ (past ++ [⟨q, a⟩])

@[simp] theorem ensures_done {past : Dialogue A} {r : α} :
    (done r).Ensures Φ past ↔ Φ past r := Iff.rfl

@[simp] theorem ensures_ask {past : Dialogue A} {q : Q} {k : A q → Ask Q A α} :
    (ask q k).Ensures Φ past ↔ ∀ a, (k a).Ensures Φ (past ++ [⟨q, a⟩]) := Iff.rfl

theorem ensures_map {f : α → β} {Φ : Dialogue A → β → Prop} :
    ∀ {x : Ask Q A α} {past : Dialogue A},
      (x.map f).Ensures Φ past ↔ x.Ensures (fun d r => Φ d (f r)) past
  | done _, _ => Iff.rfl
  | ask _ _, _ => forall_congr' fun _ => ensures_map

theorem ensures_ite {c : Prop} [Decidable c] {x y : Ask Q A α} {past : Dialogue A} :
    (if c then x else y).Ensures Φ past ↔ (c → x.Ensures Φ past) ∧ (¬ c → y.Ensures Φ past) := by
  split <;> simp [*]

theorem Ensures.mono (h : ∀ d r, Φ d r → Φ' d r) :
    ∀ {x : Ask Q A α} {past : Dialogue A}, x.Ensures Φ past → x.Ensures Φ' past
  | done _, _, hx => h _ _ hx
  | ask _ _, _, hx => fun a => (hx a).mono h

theorem Ensures.and :
    ∀ {x : Ask Q A α} {past : Dialogue A}, x.Ensures Φ past → x.Ensures Φ' past →
      x.Ensures (fun d r => Φ d r ∧ Φ' d r) past
  | done _, _, h, h' => ⟨h, h'⟩
  | ask _ _, _, h, h' => fun a => (h a).and (h' a)

theorem all_ite {φ : Q → Prop} {ψ : α → Prop} {c : Prop} [Decidable c] {x y : Ask Q A α} :
    (if c then x else y).All φ ψ ↔ (c → x.All φ ψ) ∧ (¬ c → y.All φ ψ) := by
  split <;> simp [*]

theorem All.ensures {φ : Q → Prop} {ψ : α → Prop} :
    ∀ {x : Ask Q A α} {past : Dialogue A}, x.All φ ψ → (∀ p ∈ past, φ p.1) →
      x.Ensures (fun d r => (∀ p ∈ d, φ p.1) ∧ ψ r) past
  | done _, _, h, hp => ⟨hp, h⟩
  | ask q _, past, h, hp => fun a => (h.2 a).ensures fun p hmem => by
    rcases List.mem_append.1 hmem with hmem | hmem
    · exact hp p hmem
    · rw [List.mem_singleton.1 hmem]
      exact h.1

/-! ## Runs in a world -/

section

variable {W : Type*} {E : W → (Σ q, A q) → W → Prop} {w w' : W} {r : α}

/-- A computation whose questions are answered by a world: `E` says how the world may answer in a
state, and the state that is left. -/
inductive Acts (E : W → (Σ q, A q) → W → Prop) : W → Ask Q A α → W → α → Prop
  | done {w : W} {r : α} : Acts E w (done r) w r
  | ask {w w₁ w' : W} {q : Q} {k : A q → Ask Q A α} {r : α} (a : A q) : E w ⟨q, a⟩ w₁ →
      Acts E w₁ (k a) w' r → Acts E w (ask q k) w' r

@[simp] theorem acts_done {r' : α} : (done r' : Ask Q A α).Acts E w w' r ↔ w' = w ∧ r = r' := by
  constructor
  · rintro ⟨⟩
    exact ⟨rfl, rfl⟩
  · rintro ⟨rfl, rfl⟩
    exact .done

theorem acts_ask {q : Q} {k : A q → Ask Q A α} :
    (ask q k).Acts E w w' r ↔ ∃ a w₁, E w ⟨q, a⟩ w₁ ∧ (k a).Acts E w₁ w' r := by
  constructor
  · rintro ⟨⟩
    exact ⟨_, _, ‹_›, ‹_›⟩
  · rintro ⟨a, w₁, he, h⟩
    exact .ask a he h

/-- Run a computation in a world that has one answer at most; `none` where it has none. -/
def serve (answer : W → (q : Q) → Option (W × A q)) : W → Ask Q A α → Option (W × α)
  | w, done r => some (w, r)
  | w, ask q k => (answer w q).bind fun r => (k r.2).serve answer r.1

theorem serve_ask {answer : W → (q : Q) → Option (W × A q)} {q : Q} {k : A q → Ask Q A α}
    {p : W × α} : (ask q k).serve answer w = some p ↔
      ∃ r, answer w q = some r ∧ (k r.2).serve answer r.1 = some p := Option.bind_eq_some_iff

end

/-! ## Runs along a dialogue -/

variable [DecidableEq Q]

/-- The value returned after a dialogue; `none` unless the dialogue is that of the computation,
to its end. -/
def feed : Ask Q A α → Dialogue A → Option α
  | done r, [] => some r
  | done _, _ :: _ => none
  | ask _ _, [] => none
  | ask q k, ⟨q', a⟩ :: d => if h : q' = q then (k (h ▸ a)).feed d else none

theorem feed_done_some {r r' : α} {d : Dialogue A} :
    (done r : Ask Q A α).feed d = some r' ↔ d = [] ∧ r = r' := by
  cases d <;> simp [feed]

theorem feed_ask_some {q : Q} {k : A q → Ask Q A α} {r : α} {d : Dialogue A} :
    (ask q k).feed d = some r ↔ ∃ a d', d = ⟨q, a⟩ :: d' ∧ (k a).feed d' = some r := by
  constructor
  · intro h
    cases d with
    | nil => cases h
    | cons p d =>
      obtain ⟨q', a⟩ := p
      by_cases hq : q' = q
      · subst hq
        rw [feed, dif_pos rfl] at h
        exact ⟨a, d, rfl, h⟩
      · rw [feed, dif_neg hq] at h
        cases h
  · rintro ⟨a, d', rfl, h⟩
    rw [feed, dif_pos rfl]
    exact h

/-- **What is ensured holds of every dialogue.** -/
theorem Ensures.feed {r : α} :
    ∀ {x : Ask Q A α} {past d : Dialogue A}, x.Ensures Φ past → x.feed d = some r →
      Φ (past ++ d) r
  | done _, past, d, h, hd => by
    obtain ⟨rfl, rfl⟩ := feed_done_some.1 hd
    rw [List.append_nil]
    exact h
  | ask q k, past, d, h, hd => by
    obtain ⟨a, d', rfl, hd'⟩ := feed_ask_some.1 hd
    have hrest := (h a).feed hd'
    rwa [List.append_assoc, List.singleton_append] at hrest

end Ask

end Trans
