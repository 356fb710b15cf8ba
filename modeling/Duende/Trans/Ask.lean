import Mathlib.Logic.Basic

/-!
# Computations that ask their environment

`Ask Q A α` puts questions `q : Q` to its environment, one after another, and goes on as the
answers of type `A q` say, until it returns a value. `All φ ψ` says that, whatever the
answers, every question asked meets `φ` and the value returned meets `ψ`.
-/

namespace Trans

universe u v w

inductive Ask (Q : Type u) (A : Q → Type v) (α : Type w) where
  | done (r : α)
  | ask (q : Q) (k : A q → Ask Q A α)

namespace Ask

variable {Q : Type u} {A : Q → Type v} {α β : Type w} {φ φ' : Q → Prop} {ψ ψ' : α → Prop}

/-- Change the value returned. -/
def map (f : α → β) : Ask Q A α → Ask Q A β
  | done r => done (f r)
  | ask q k => ask q fun a => (k a).map f

/-- Whatever the answers: the questions meet `φ`, the value returned `ψ`. -/
def All (φ : Q → Prop) (ψ : α → Prop) : Ask Q A α → Prop
  | done r => ψ r
  | ask q k => φ q ∧ ∀ a, (k a).All φ ψ

@[simp] theorem all_done {r : α} : (done r : Ask Q A α).All φ ψ ↔ ψ r := Iff.rfl

@[simp] theorem all_ask {q : Q} {k : A q → Ask Q A α} :
    (ask q k).All φ ψ ↔ φ q ∧ ∀ a, (k a).All φ ψ := Iff.rfl

theorem all_map {f : α → β} {ψ : β → Prop} :
    ∀ {x : Ask Q A α}, (x.map f).All φ ψ ↔ x.All φ fun r => ψ (f r)
  | done _ => Iff.rfl
  | ask _ _ => and_congr_right fun _ => forall_congr' fun _ => all_map

theorem All.mono (hφ : ∀ q, φ q → φ' q) (hψ : ∀ r, ψ r → ψ' r) :
    ∀ {x : Ask Q A α}, x.All φ ψ → x.All φ' ψ'
  | done r, h => hψ r h
  | ask q _, h => ⟨hφ q h.1, fun a => (h.2 a).mono hφ hψ⟩

/-- The answers after which a computation returns `r`. -/
inductive Gives : Ask Q A α → α → Prop
  | done (r : α) : Gives (done r) r
  | ask (q : Q) (k : A q → Ask Q A α) (a : A q) (r : α) : Gives (k a) r → Gives (ask q k) r

theorem All.gives {x : Ask Q A α} {r : α} (h : x.All φ ψ) (hg : x.Gives r) : ψ r := by
  induction hg with
  | done r => exact h
  | ask q k a r _ ih => exact ih (h.2 a)

theorem Gives.map {x : Ask Q A α} {r : α} (f : α → β) (h : x.Gives r) :
    (x.map f).Gives (f r) := by
  induction h with
  | done r => exact .done _
  | ask q k a r _ ih => exact .ask q _ a _ ih

end Ask

end Trans
