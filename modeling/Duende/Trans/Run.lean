import Mathlib.Logic.Function.Basic
import Mathlib.Data.List.Basic

/-!
# Runs of a partial step function

`step s a` is the state after action `a` in state `s`, or `none` when `a` is not
enabled there. `run step s as` performs the actions `as` in order. `Meets step C s as`
says that every action of the run is taken in a state that satisfies `C`, and
`trace step s as` lists the actions with these states. The rules below carry what one
step preserves over to whole runs.
-/

namespace Trans

universe u v

variable {σ : Type u} {α : Type v} {step : σ → α → Option σ}

/-- Perform a list of actions; `none` as soon as one of them is not enabled. -/
def run (step : σ → α → Option σ) (s : σ) : List α → Option σ
  | [] => some s
  | a :: as => (step s a).bind fun s' => run step s' as

@[simp] theorem run_nil (s : σ) : run step s [] = some s := rfl

theorem run_cons_some {s s'' : σ} {a : α} {as : List α} :
    run step s (a :: as) = some s'' ↔ ∃ s', step s a = some s' ∧ run step s' as = some s'' :=
  Option.bind_eq_some_iff

theorem run_append (s : σ) (as bs : List α) :
    run step s (as ++ bs) = (run step s as).bind fun s' => run step s' bs := by
  induction as generalizing s with
  | nil => rfl
  | cons a as ih =>
    simp only [List.cons_append, run]
    cases h : step s a with
    | none => rfl
    | some s' => exact ih s'

theorem run_append_some {s s'' : σ} {as bs : List α} :
    run step s (as ++ bs) = some s'' ↔
      ∃ s', run step s as = some s' ∧ run step s' bs = some s'' := by
  rw [run_append]; exact Option.bind_eq_some_iff

/-- **Invariant rule.** What every step preserves, every run preserves. -/
theorem run_inv {P : σ → Prop} (hstep : ∀ s a s', P s → step s a = some s' → P s') :
    ∀ {as : List α} {s s' : σ}, P s → run step s as = some s' → P s'
  | [], _, _, h, hr => by cases hr; exact h
  | _ :: _, _, _, h, hr => by
    obtain ⟨s1, h1, h2⟩ := run_cons_some.1 hr
    exact run_inv hstep (hstep _ _ _ h h1) h2

/-- Every action of the run is taken in a state where `C` allows it. -/
def Meets (step : σ → α → Option σ) (C : σ → α → Prop) (s : σ) : List α → Prop
  | [] => True
  | a :: as => C s a ∧ ∀ s', step s a = some s' → Meets step C s' as

instance Meets.decidable {C : σ → α → Prop} [∀ s a, Decidable (C s a)] :
    ∀ (s : σ) (as : List α), Decidable (Meets step C s as)
  | _, [] => isTrue trivial
  | s, a :: as =>
    match h : step s a with
    | none => decidable_of_iff (C s a) (by simp [Meets, h])
    | some s' =>
      haveI := Meets.decidable (C := C) s' as
      decidable_of_iff (C s a ∧ Meets step C s' as) (by simp [Meets, h])

/-- **Conditional invariant rule.** What every step that meets `C` preserves, every run
whose steps all meet `C` preserves. -/
theorem Meets.run_inv {C : σ → α → Prop} {P : σ → Prop}
    (hstep : ∀ s a s', P s → C s a → step s a = some s' → P s') :
    ∀ {as : List α} {s s' : σ}, Meets step C s as → P s → run step s as = some s' → P s'
  | [], _, _, _, h, hr => by cases hr; exact h
  | _ :: _, _, _, hm, h, hr => by
    obtain ⟨s1, h1, h2⟩ := run_cons_some.1 hr
    exact Meets.run_inv hstep (hm.2 _ h1) (hstep _ _ _ h hm.1 h1) h2

/-- What the steps of a run keep may be used to weaken the condition they meet. -/
theorem Meets.imp_inv {C D : σ → α → Prop} {P : σ → Prop}
    (hstep : ∀ s a s', P s → C s a → step s a = some s' → P s')
    (himp : ∀ s a, P s → C s a → D s a) :
    ∀ {as : List α} {s : σ}, P s → Meets step C s as → Meets step D s as
  | [], _, _, _ => trivial
  | a :: _, s, hp, hm =>
    ⟨himp s a hp hm.1, fun s' hs => Meets.imp_inv hstep himp (hstep s a s' hp hm.1 hs) (hm.2 s' hs)⟩

/-- A condition that only looks at the actions. -/
theorem meets_of_forall {C : α → Prop} :
    ∀ {as : List α} {s : σ}, (∀ a ∈ as, C a) → Meets step (fun _ a => C a) s as
  | [], _, _ => trivial
  | a :: _, _, h =>
    ⟨h a List.mem_cons_self, fun _ _ => meets_of_forall fun b hb => h b (List.mem_cons_of_mem a hb)⟩

theorem Meets.and {C D : σ → α → Prop} : ∀ {as : List α} {s : σ}, Meets step C s as →
    Meets step D s as → Meets step (fun s a => C s a ∧ D s a) s as
  | [], _, _, _ => trivial
  | _ :: _, _, hc, hd => ⟨⟨hc.1, hd.1⟩, fun s' hs => (hc.2 s' hs).and (hd.2 s' hs)⟩

theorem Meets.append {C : σ → α → Prop} {as bs : List α} :
    ∀ {s : σ}, Meets step C s (as ++ bs) →
      Meets step C s as ∧ ∀ s', run step s as = some s' → Meets step C s' bs := by
  induction as with
  | nil => intro s h; exact ⟨trivial, fun s' hs => by cases hs; exact h⟩
  | cons a as ih =>
    intro s h
    refine ⟨⟨h.1, fun s' hs => (ih (h.2 s' hs)).1⟩, fun s'' hr => ?_⟩
    obtain ⟨s', hs, hr⟩ := run_cons_some.1 hr
    exact (ih (h.2 s' hs)).2 s'' hr

theorem Meets.snoc {C : σ → α → Prop} {a : α} : ∀ {as : List α} {s : σ}, Meets step C s as →
    (∀ s', run step s as = some s' → C s' a) → Meets step C s (as ++ [a])
  | [], s, _, h => ⟨h s rfl, fun _ _ => trivial⟩
  | _ :: _, _, hm, h =>
    ⟨hm.1, fun s1 h1 => (hm.2 s1 h1).snoc fun s' hr => h s' (run_cons_some.2 ⟨s1, h1, hr⟩)⟩

theorem meets_iff {C : σ → α → Prop} {as : List α} : ∀ {s : σ}, Meets step C s as ↔
    ∀ pre a post s', as = pre ++ a :: post → run step s pre = some s' → C s' a := by
  induction as with
  | nil =>
    intro s
    refine iff_of_true trivial fun pre a post s' h _ => ?_
    cases pre <;> cases h
  | cons a as ih =>
    intro s
    constructor
    · rintro ⟨hc, h⟩ pre b post s' has hr
      cases pre with
      | nil => cases has; cases hr; exact hc
      | cons b' pre =>
        cases has
        obtain ⟨s1, h1, h2⟩ := run_cons_some.1 hr
        exact ih.1 (h s1 h1) pre b post s' rfl h2
    · intro h
      refine ⟨h [] a as s rfl rfl, fun s1 h1 => ih.2 fun pre b post s' has hr => ?_⟩
      exact h (a :: pre) b post s' (by rw [has]; rfl) (run_cons_some.2 ⟨s1, h1, hr⟩)

/-- **History rule.** A relation between the actions performed so far and the state
reached, kept by every step, holds at the end of every run. -/
theorem run_hist {P : List α → σ → Prop}
    (hstep : ∀ h s a s', P h s → step s a = some s' → P (h ++ [a]) s') :
    ∀ {as : List α} {h : List α} {s s' : σ}, P h s → run step s as = some s' → P (h ++ as) s'
  | [], h, _, _, hp, hr => by cases hr; simpa using hp
  | a :: as, h, _, _, hp, hr => by
    obtain ⟨s1, h1, h2⟩ := run_cons_some.1 hr
    have := run_hist hstep (hstep _ _ _ _ hp h1) h2
    simpa using this

/-- **Conditional history rule.** -/
theorem Meets.run_hist {C : σ → α → Prop} {P : List α → σ → Prop}
    (hstep : ∀ h s a s', P h s → C s a → step s a = some s' → P (h ++ [a]) s') :
    ∀ {as : List α} {h : List α} {s s' : σ}, Meets step C s as → P h s → run step s as = some s' →
      P (h ++ as) s'
  | [], h, _, _, _, hp, hr => by cases hr; simpa using hp
  | a :: as, h, _, _, hm, hp, hr => by
    obtain ⟨s1, h1, h2⟩ := run_cons_some.1 hr
    have := Meets.run_hist hstep (hm.2 _ h1) (hstep _ _ _ _ hp hm.1 h1) h2
    simpa using this

/-- The actions a run performs, each with the state it is taken in. -/
def trace (step : σ → α → Option σ) (s : σ) : List α → List (σ × α)
  | [] => []
  | a :: as =>
    (s, a) :: match step s a with
      | some s' => trace step s' as
      | none => []

theorem trace_append {s' : σ} {bs : List α} :
    ∀ {as : List α} {s : σ}, run step s as = some s' →
      trace step s (as ++ bs) = trace step s as ++ trace step s' bs
  | [], _, hr => by cases hr; rfl
  | a :: as, s, hr => by
    obtain ⟨s1, h1, h2⟩ := run_cons_some.1 hr
    simp only [List.cons_append, trace, h1, trace_append h2]

theorem trace_snoc {s s' : σ} {a : α} {as : List α} (hr : run step s as = some s') :
    trace step s (as ++ [a]) = trace step s as ++ [(s', a)] := by
  rw [trace_append hr]
  unfold trace
  cases step s' a <;> rfl

/-- **Trace rule.** A relation between the trace so far and the state reached, kept by every
step, holds at the end of every run. -/
theorem run_trace {P : List (σ × α) → σ → Prop}
    (hstep : ∀ t s a s', P t s → step s a = some s' → P (t ++ [(s, a)]) s') :
    ∀ {as : List α} {t : List (σ × α)} {s s' : σ}, P t s → run step s as = some s' →
      P (t ++ trace step s as) s'
  | [], t, _, _, hp, hr => by cases hr; simpa [trace] using hp
  | a :: as, t, s, _, hp, hr => by
    obtain ⟨s1, h1, h2⟩ := run_cons_some.1 hr
    have := run_trace hstep (hstep t s a s1 hp h1) h2
    simpa [trace, h1] using this

end Trans
