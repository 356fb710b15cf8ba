import Duende.Trans.Dialogue
import Duende.Trans.Interleave

/-!
# Calls that only read

A reader of a concurrent object runs a computation that asks for parts of the shared memory, one
read a step. `Reader.sampled` says what it returns: what the computation gives for answers that
the memory has held one after another, between the start of the call and its end.
-/

namespace Trans

variable {ι σ π ο ρ κ ε α Q : Type*} {Ans : Q → Type*}

/-- How an object runs the computations that only read: `pc` is the program point before the next
question, `ret` what the call returns. -/
structure Reader (A : Obj σ π ο ρ κ ε) (Q : Type*) (Ans : Q → Type*) (α : Type*) where
  read : σ → ∀ q, Ans q
  pc : Ask Q Ans α → π
  ret : α → ρ
  exec : ∀ s q k c, A.exec s (pc (.ask q k)) c = some (s, match k (read s q) with
    | .done a => .inr (ret a)
    | .ask q' k' => .inl (pc (.ask q' k')))

namespace Reader

variable {A : Obj σ π ο ρ κ ε} (R : Reader A Q Ans α) [DecidableEq ι]

/-- Along a run, the memory gives the answers one after another. -/
def Sampled : Conf ι σ π → List (Act ι ο κ ε) → Dialogue Ans → Prop
  | _, _, [] => True
  | c, acts, ⟨q, a⟩ :: d => ∃ before after c1, acts = before ++ after ∧
      run A.act c before = some c1 ∧ a = R.read c1.shared q ∧ Sampled c1 after d

variable {R} {c c' c1 : Conf ι σ π} {i : ι} {a : Act ι ο κ ε} {acts : List (Act ι ο κ ε)}
  {d : Dialogue Ans} {k : κ} {r : ρ} {x : Ask Q Ans α}

theorem Sampled.cons (hs : A.act c a = some c') (h : R.Sampled c' acts d) :
    R.Sampled c (a :: acts) d := by
  cases d with
  | nil => trivial
  | cons p d =>
    obtain ⟨before, after, c1, rfl, hr, ha, hrest⟩ := h
    exact ⟨a :: before, after, c1, rfl, run_cons_some.2 ⟨c', hs, hr⟩, ha, hrest⟩

theorem Sampled.mem {p : Σ q, Ans q} : ∀ {d : Dialogue Ans} {c : Conf ι σ π}
    {acts : List (Act ι ο κ ε)}, R.Sampled c acts d → p ∈ d →
      ∃ before after c1, acts = before ++ after ∧ run A.act c before = some c1 ∧
        p.2 = R.read c1.shared p.1
  | ⟨q, a⟩ :: d, c, acts, ⟨before, after, c1, hacts, hr, ha, hrest⟩, hp => by
    rcases List.mem_cons.1 hp with rfl | hp
    · exact ⟨before, after, c1, hacts, hr, ha⟩
    · obtain ⟨before', after', c2, rfl, hr', ha'⟩ := hrest.mem hp
      exact ⟨before ++ before', after', c2, by rw [hacts, List.append_assoc],
        run_append_some.2 ⟨c1, hr, hr'⟩, ha'⟩

theorem pc_none (h : c.pc i = none) (hmid : ∀ o, .call i o ∉ acts)
    (hr : run A.act c acts = some c1) : c1.pc i = none := by
  induction acts generalizing c with
  | nil => cases hr; exact h
  | cons a acts ih =>
    obtain ⟨c', hs, hr⟩ := run_cons_some.1 hr
    refine ih ?_ (fun o hm => hmid o (List.mem_cons_of_mem a hm)) hr
    rcases Obj.act_cases hs with ⟨j, o, rfl, -, rfl⟩ | ⟨j, k, p, s', q, rfl, hp, -, rfl⟩ |
      ⟨e, s', rfl, -, rfl⟩
    · have hne : i ≠ j := fun e => hmid o (e ▸ List.mem_cons_self)
      exact (Function.update_of_ne hne _ _).trans h
    · have hne : i ≠ j := fun e => by rw [← e, h] at hp; cases hp
      exact (Function.update_of_ne hne _ _).trans h
    · exact h

/-- **What a reader returns**, after a run in which it is not called again. -/
theorem sampled [DecidableEq Q] {q : Q} {f : Ans q → Ask Q Ans α}
    (hpc : c.pc i = some (R.pc (.ask q f))) (hmid : ∀ o, .call i o ∉ acts)
    (hr : run A.act c acts = some c1) (hres : A.result c1 (.step i k) = some r) :
    ∃ d v, (Ask.ask q f).feed d = some v ∧ r = R.ret v ∧ R.Sampled c acts d := by
  induction acts generalizing c q f with
  | nil =>
    cases hr
    rw [Obj.result, hpc, Option.bind_some, R.exec, Option.bind_some] at hres
    refine ⟨[⟨q, R.read c1.shared q⟩], ?_⟩
    cases hk : f (R.read c1.shared q) with
    | done v =>
      rw [hk] at hres
      refine ⟨v, Ask.feed_ask_some.2 ⟨_, [], rfl, ?_⟩, (Option.some.inj hres).symm,
        [], [], c1, rfl, rfl, rfl, trivial⟩
      rw [hk]
      rfl
    | ask q' f' =>
      rw [hk] at hres
      cases hres
  | cons a acts ih =>
    obtain ⟨c', hs, hr⟩ := run_cons_some.1 hr
    have hmid' : ∀ o, .call i o ∉ acts := fun o hm => hmid o (List.mem_cons_of_mem a hm)
    -- the others leave the reader where it is
    have hstay : c'.pc i = c.pc i → ∃ d v, (Ask.ask q f).feed d = some v ∧ r = R.ret v ∧
        R.Sampled c (a :: acts) d := fun hsame => by
      obtain ⟨d, v, hd, hv, hd'⟩ := ih (hsame.trans hpc) hmid' hr
      exact ⟨d, v, hd, hv, hd'.cons hs⟩
    rcases Obj.act_cases hs with ⟨j, o, rfl, hj, rfl⟩ | ⟨j, k', p, s', q', rfl, hj, hx, rfl⟩ |
      ⟨e, s', rfl, -, rfl⟩
    · refine hstay (Function.update_of_ne (fun e => ?_) _ _)
      rw [← e, hpc] at hj
      cases hj
    · by_cases hij : i = j
      · -- a read of its own
        subst hij
        cases hpc.symm.trans hj
        cases (R.exec c.shared q f k').symm.trans hx
        cases hk : f (R.read c.shared q) with
        | done v =>
          rw [hk] at hr
          have hnone := pc_none (Function.update_self ..) hmid' hr
          rw [Obj.result, hnone] at hres
          cases hres
        | ask q2 f2 =>
          rw [hk] at hr hs
          obtain ⟨d, v, hd, hv, hd'⟩ := ih (Function.update_self ..) hmid' hr
          refine ⟨⟨q, R.read c.shared q⟩ :: d, v, Ask.feed_ask_some.2 ⟨_, d, rfl, ?_⟩, hv,
            [], _, c, rfl, rfl, rfl, hd'.cons hs⟩
          rw [hk]
          exact hd
      · exact hstay (Function.update_of_ne hij _ _)
    · exact hstay rfl

end Reader

end Trans
