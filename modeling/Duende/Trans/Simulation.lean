import Duende.Trans.Interleave

/-!
# Simulations

One step function simulates another along an abstraction of the states when each step of
the concrete one is a stutter that shows nothing or a step of the abstract one that shows
the same. `run_simulates` carries this over to runs and what they show.
`Obj.act_simulates` reduces it for objects to their atomic steps; what a run of an object
shows are its calls and returns.
-/

namespace Trans

section

variable {σ τ α β ω : Type*} {stepA : σ → α → Option σ} {stepB : τ → β → Option τ}
  {obsA : σ → α → Option ω} {obsB : τ → β → Option ω}

/-- What a run shows, in order. -/
def observe (step : σ → α → Option σ) (obs : σ → α → Option ω) (s : σ) (as : List α) : List ω :=
  (trace step s as).filterMap fun e => obs e.1 e.2

theorem observe_cons {s s' : σ} {a : α} {as : List α} (h : stepA s a = some s') :
    observe stepA obsA s (a :: as) = (obsA s a).toList ++ observe stepA obsA s' as := by
  simp only [observe, trace, h, List.filterMap_cons]
  cases obsA s a <;> rfl

/-- **Simulation rule.** When every concrete step, taken where the invariant holds, is a
silent stutter or an abstract step that shows the same, every concrete run has an abstract
run that shows the same. -/
theorem run_simulates {inv : σ → Prop} {f : σ → τ}
    (hstep : ∀ s a s', inv s → stepA s a = some s' → inv s' ∧
      ((f s' = f s ∧ obsA s a = none) ∨
        ∃ b, stepB (f s) b = some (f s') ∧ obsB (f s) b = obsA s a)) :
    ∀ {as : List α} {s s' : σ}, inv s → run stepA s as = some s' →
      ∃ bs, run stepB (f s) bs = some (f s') ∧
        observe stepB obsB (f s) bs = observe stepA obsA s as
  | [], _, _, _, hr => by cases hr; exact ⟨[], rfl, rfl⟩
  | a :: as, s, s', hi, hr => by
    obtain ⟨s1, h1, h2⟩ := run_cons_some.1 hr
    obtain ⟨hi1, hsim⟩ := hstep s a s1 hi h1
    obtain ⟨bs, hb, ho⟩ := run_simulates hstep hi1 h2
    rcases hsim with ⟨hf, hn⟩ | ⟨b, hbs, hob⟩
    · refine ⟨bs, by rw [← hf]; exact hb, ?_⟩
      rw [observe_cons h1, hn, ← hf, ho]
      rfl
    · refine ⟨b :: bs, run_cons_some.2 ⟨_, hbs, hb⟩, ?_⟩
      rw [observe_cons h1, observe_cons hbs, ho, hob]

end

namespace Obj

variable {ι σ π ο ρ κ ε τ π' κ' ε' : Type*} [DecidableEq ι]

/-- What an action shows: a call, or the return of one with its result. -/
def event (A : Obj σ π ο ρ κ ε) (c : Conf ι σ π) : Act ι ο κ ε → Option (ι × (ο ⊕ ρ))
  | .call i o => some (i, .inl o)
  | .step i k => (A.result c (.step i k)).map fun r => (i, .inr r)
  | .env _ => none

/-- The shared memory and the program points, abstracted one by one. -/
def mapConf (g : σ → τ) (f : π → π') (c : Conf ι σ π) : Conf ι τ π' :=
  ⟨g c.shared, fun i => (c.pc i).map f⟩

variable {A : Obj σ π ο ρ κ ε} {B : Obj τ π' ο ρ κ' ε'} {g : σ → τ} {f : π → π'}
  {c c' : Conf ι σ π}

theorem mapConf_update {s : σ} {i : ι} {q : Option π} :
    mapConf g f ⟨s, Function.update c.pc i q⟩ =
      ⟨g s, Function.update (mapConf g f c).pc i (q.map f)⟩ := by
  simp only [mapConf, Conf.mk.injEq, true_and]
  funext j
  by_cases e : j = i
  · subst e; simp
  · simp [e]

omit [DecidableEq ι] in
theorem event_step {i : ι} {k : κ} {p : π} {s' : σ} {q : π ⊕ ρ} (hp : c.pc i = some p)
    (hx : A.exec c.shared p k = some (s', q)) :
    A.event c (.step i k) = q.getRight?.map fun r => (i, .inr r) := by
  simp [event, result, hp, hx]

/-- An action of the concrete object is matched when each of its atomic steps is a stutter
or an atomic step of the abstract object with the same outcome. -/
theorem act_simulates {a : Act ι ο κ Empty} {A : Obj σ π ο ρ κ Empty}
    (hstart : ∀ o, f (A.start o) = B.start o)
    (hexec : ∀ i k p s' q, a = .step i k → c.pc i = some p →
      A.exec c.shared p k = some (s', q) →
      (g s' = g c.shared ∧ q.map f id = .inl (f p)) ∨
        ∃ k', B.exec (g c.shared) (f p) k' = some (g s', q.map f id))
    (ha : A.act c a = some c') :
    (mapConf g f c' = mapConf g f c ∧ A.event c a = none) ∨
      ∃ b : Act ι ο κ' ε', B.act (mapConf g f c) b = some (mapConf g f c') ∧
        B.event (mapConf g f c) b = A.event c a := by
  rcases act_cases ha with ⟨i, o, rfl, hi, rfl⟩ | ⟨i, k, p, s', q, rfl, hp, hx, rfl⟩ |
    ⟨e, _, _, _⟩
  · refine .inr ⟨.call i o, ?_, rfl⟩
    rw [mapConf_update, act_call]
    exact ⟨by simp [mapConf, hi], by simp [mapConf, hstart]⟩
  · have hp' : (mapConf g f c).pc i = some (f p) := by simp [mapConf, hp]
    rcases hexec i k p s' q rfl hp hx with ⟨hg, hq⟩ | ⟨k', hk⟩
    · left
      cases q with
      | inr r => simp at hq
      | inl p' =>
        refine ⟨?_, by simp [event_step hp hx]⟩
        have hf : f p' = f p := by simpa using hq
        rw [mapConf_update, hg]
        simp only [Sum.getLeft?_inl, Option.map_some, hf, ← hp', Function.update_eq_self]
        rfl
    · right
      refine ⟨.step i k', ?_, ?_⟩
      · rw [mapConf_update, act_step]
        refine ⟨f p, g s', q.map f id, hp', hk, ?_⟩
        cases q <;> rfl
      · rw [event_step hp hx, event_step hp' hk]
        cases q <;> rfl
  · exact e.elim

end Obj

end Trans
