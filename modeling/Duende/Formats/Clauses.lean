import Mathlib.Data.List.Basic

/-!
# First match

A list of clauses, each with what it looks for and an answer; the first one that is met
decides. `rank` is its position. What is met in a whole is met in one of its parts, so that
the rank of the whole is the least of the ranks of the parts.
-/

namespace Clauses

variable {κ σ ι : Type*} {met p q : κ → Bool} {d : σ} {cs : List (κ × σ)} {i : Nat}

def answer (met : κ → Bool) (d : σ) : List (κ × σ) → σ
  | [] => d
  | (k, s) :: cs => if met k then s else answer met d cs

/-- The position of that clause; the number of clauses when none is met. -/
def rank (met : κ → Bool) : List (κ × σ) → Nat
  | [] => 0
  | (k, _) :: cs => if met k then 0 else rank met cs + 1

def answerAt (cs : List (κ × σ)) (d : σ) (i : Nat) : σ := (cs[i]?.map Prod.snd).getD d

theorem answer_eq : ∀ cs : List (κ × σ), answer met d cs = answerAt cs d (rank met cs)
  | [] => rfl
  | (k, s) :: cs => by
    rw [answer, rank]
    split
    · rfl
    · exact answer_eq cs

theorem rank_le : ∀ cs : List (κ × σ), rank met cs ≤ cs.length
  | [] => Nat.le_refl 0
  | (k, s) :: cs => by
    have := rank_le cs
    rw [rank, List.length_cons]
    split <;> omega

theorem rank_congr : ∀ {cs : List (κ × σ)}, (∀ c ∈ cs, p c.1 = q c.1) → rank p cs = rank q cs
  | [], _ => rfl
  | (k, s) :: cs, h => by
    rw [rank, rank, h (k, s) List.mem_cons_self,
      rank_congr fun c hc => h c (List.mem_cons_of_mem _ hc)]

theorem rank_keys : ∀ {cs cs' : List (κ × σ)}, cs.map Prod.fst = cs'.map Prod.fst →
    rank met cs = rank met cs'
  | [], [], _ => rfl
  | [], _ :: _, h => by cases h
  | _ :: _, [], h => by cases h
  | (k, s) :: cs, (k', s') :: cs', h => by
    rw [List.map_cons, List.map_cons, List.cons.injEq] at h
    obtain rfl : k = k' := h.1
    rw [rank, rank, rank_keys h.2]

theorem rank_false : ∀ cs : List (κ × σ), rank (fun _ => false) cs = cs.length
  | [] => rfl
  | (k, s) :: cs => by
    rw [rank, if_neg Bool.false_ne_true, rank_false cs, List.length_cons]

theorem rank_or : ∀ cs : List (κ × σ),
    rank (fun k => p k || q k) cs = min (rank p cs) (rank q cs)
  | [] => rfl
  | (k, s) :: cs => by
    have ih := rank_or cs
    rw [rank, rank, rank]
    cases p k <;> cases q k <;> simp [ih]

section Parts

variable {met : ι → κ → Bool}

theorem rank_any_append (xs ys : List ι) :
    rank (fun k => (xs ++ ys).any fun x => met x k) cs =
      min (rank (fun k => xs.any fun x => met x k) cs)
        (rank (fun k => ys.any fun x => met x k) cs) := by
  simp only [List.any_append, rank_or]

theorem le_rank_any (hi : i ≤ cs.length) (xs : List ι) :
    i ≤ rank (fun k => xs.any fun x => met x k) cs ↔ ∀ x ∈ xs, i ≤ rank (met x) cs := by
  induction xs with
  | nil =>
    simp only [List.any_nil, rank_false]
    exact iff_of_true hi fun x hx => nomatch hx
  | cons x xs ih =>
    simp only [List.any_cons, rank_or, List.forall_mem_cons, ← ih, Nat.le_min]

end Parts

end Clauses
