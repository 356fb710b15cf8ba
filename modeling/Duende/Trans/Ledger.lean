import Mathlib
import Duende.Trans.Interleave

/-!
# Ledgers of interleaved callers

Every call is charged some amount, and its steps pay it into the shared memory. What is paid
and what the callers in progress still owe add up to the charges of the calls that were started
(`Account.balanced`); when all calls have ended, everything is paid (`Account.settled`).
-/

namespace Trans

variable {ι σ π ο ρ κ ε M : Type*} [AddCommMonoid M]

/-- The charge of every operation, what the shared memory has been paid and what a caller at a
program point owes. -/
structure Account (A : Obj σ π ο ρ κ ε) (M : Type*) [AddCommMonoid M] where
  charge : ο → M
  paid : σ → M
  owes : π → M
  start : ∀ o, owes (A.start o) = charge o
  exec : ∀ s p k s' q, A.exec s p k = some (s', q) →
    paid s' + (q.getLeft?).elim 0 owes = paid s + owes p
  env : ∀ s e s', A.env s e = some s' → paid s' = paid s

/-- The operations that a run starts. -/
def called (acts : List (Act ι ο κ ε)) : List ο :=
  acts.filterMap fun
    | .call _ o => some o
    | _ => none

theorem called_append (as bs : List (Act ι ο κ ε)) : called (as ++ bs) = called as ++ called bs :=
  List.filterMap_append

namespace Account

variable {A : Obj σ π ο ρ κ ε} (B : Account A M) {c c' : Conf ι σ π} {total : M}

/-- The charge of an action: only the start of a call has one. -/
def chargeOf : Act ι ο κ ε → M
  | .call _ o => B.charge o
  | _ => 0

theorem sum_chargeOf (acts : List (Act ι ο κ ε)) :
    (acts.map B.chargeOf).sum = ((called acts).map B.charge).sum := by
  induction acts with
  | nil => rfl
  | cons a acts ih =>
    rw [List.map_cons, List.sum_cons, ih]
    cases a with
    | call i o => rfl
    | step i k => exact zero_add _
    | env e => exact zero_add _

/-- What the callers of a finite set owe. -/
def owed (pc : ι → Option π) (P : Finset ι) : M := ∑ i ∈ P, (pc i).elim 0 B.owes

/-- Payments and debts add up to `total`; all who owe are in the set. -/
def Balanced (total : M) (c : Conf ι σ π) : Prop :=
  ∃ P : Finset ι, (∀ i, c.pc i ≠ none → i ∈ P) ∧ B.paid c.shared + B.owed c.pc P = total

variable {B} [DecidableEq ι]

theorem owed_eq {pc : ι → Option π} {P : Finset ι} {i : ι} (h : i ∈ P) :
    B.owed pc P = (pc i).elim 0 B.owes + B.owed pc (P.erase i) :=
  (Finset.add_sum_erase P (fun i => (pc i).elim 0 B.owes) h).symm

theorem owed_update_erase (pc : ι → Option π) (P : Finset ι) (i : ι) (q : Option π) :
    B.owed (Function.update pc i q) (P.erase i) = B.owed pc (P.erase i) :=
  Finset.sum_congr rfl fun j hj => by rw [Function.update_of_ne (Finset.ne_of_mem_erase hj)]

theorem owed_insert {pc : ι → Option π} {P : Finset ι} {i : ι}
    (h : ∀ j, pc j ≠ none → j ∈ P) : B.owed pc (insert i P) = B.owed pc P := by
  by_cases hi : i ∈ P
  · rw [Finset.insert_eq_of_mem hi]
  · have hnone : pc i = none := by
      by_contra hne
      exact hi (h i hne)
    unfold owed
    rw [Finset.sum_insert hi, hnone]
    exact zero_add _

theorem Balanced.move (h : B.Balanced total c) {i : ι} {s : σ} {q : Option π} {m : M}
    (hpay : B.paid s + q.elim 0 B.owes = B.paid c.shared + (c.pc i).elim 0 B.owes + m) :
    B.Balanced (total + m) ⟨s, Function.update c.pc i q⟩ := by
  obtain ⟨P, hP, hsum⟩ := h
  have hi : i ∈ insert i P := Finset.mem_insert_self i P
  refine ⟨insert i P, fun j hj => ?_, ?_⟩
  · by_cases hji : j = i
    · rw [hji]
      exact hi
    · exact Finset.mem_insert_of_mem (hP j (by simpa [hji] using hj))
  · rw [← owed_insert (i := i) hP, owed_eq hi] at hsum
    show B.paid s + B.owed (Function.update c.pc i q) (insert i P) = total + m
    rw [owed_eq hi, owed_update_erase, Function.update_self, ← hsum, ← add_assoc, hpay]
    abel

/-- **What one action preserves.** -/
theorem Balanced.act {a : Act ι ο κ ε} (h : B.Balanced total c) (ha : A.act c a = some c') :
    B.Balanced (total + B.chargeOf a) c' := by
  rcases Obj.act_cases ha with ⟨i, o, rfl, hi, rfl⟩ | ⟨i, k, p, s', q, rfl, hi, hx, rfl⟩ |
    ⟨e, s', rfl, he, rfl⟩
  · refine h.move ?_
    rw [hi]
    simp only [Option.elim_some, Option.elim_none, add_zero, B.start, chargeOf]
  · refine h.move ?_
    rw [hi]
    simp only [Option.elim_some, chargeOf, add_zero]
    exact B.exec _ _ _ _ _ hx
  · obtain ⟨P, hP, hsum⟩ := h
    refine ⟨P, hP, ?_⟩
    simp only [chargeOf, add_zero]
    rw [B.env _ _ _ he]
    exact hsum

/-- **The books balance** over every run of calls. -/
theorem balanced {acts : List (Act ι ο κ ε)} (h0 : c.Quiet) (hr : run A.act c acts = some c') :
    B.Balanced (B.paid c.shared + (acts.map B.chargeOf).sum) c' := by
  have hstart : B.Balanced (B.paid c.shared + (([] : List (Act ι ο κ ε)).map B.chargeOf).sum) c :=
    ⟨∅, fun i hi => absurd (h0 i) hi, rfl⟩
  refine run_hist (P := fun acts' c' =>
    B.Balanced (B.paid c.shared + (acts'.map B.chargeOf).sum) c') (fun acts' d a d' h ha => ?_)
    hstart hr
  rw [List.map_append, List.sum_append, ← add_assoc, List.map_singleton, List.sum_singleton]
  exact h.act ha

/-- **Everything is paid** when all calls have ended. -/
theorem settled {acts : List (Act ι ο κ ε)} (h0 : c.Quiet) (hr : run A.act c acts = some c')
    (hq : c'.Quiet) : B.paid c'.shared = B.paid c.shared + ((called acts).map B.charge).sum := by
  obtain ⟨P, -, hsum⟩ := balanced (B := B) h0 hr
  have hzero : B.owed c'.pc P = 0 := Finset.sum_eq_zero fun i _ => by rw [hq i]; rfl
  rw [hzero, add_zero, sum_chargeOf] at hsum
  exact hsum

end Account

end Trans
