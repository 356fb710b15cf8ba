import Mathlib.Data.List.Perm.Basic
import Mathlib.Data.List.Nodup
import Mathlib.Algebra.BigOperators.Group.List.Basic
import Mathlib.Algebra.Order.BigOperators.Group.List
import Mathlib.Algebra.Order.Ring.Nat
import Mathlib.Logic.Function.Basic
import Mathlib.Data.Fintype.Basic
import Mathlib.Algebra.BigOperators.Group.Finset.Piecewise

/-!
# Actions on the cells of a map

Every action has a key and works on the cell of its key only. `runCells_apply` says that a
cell depends on the actions on its key alone, and `answersOf_eq` the same of the answers:
runs with the same actions on every key, in the same order, end alike. `Iteration` lists a
finite map in some order; what is summed over it does not depend on the order.
-/

namespace Trans

variable {κ ν ν' α ρ : Type*}

section Cells

variable [DecidableEq κ] {key : α → κ} {cell : ν → α → ν} {answer : ν → α → ρ} {s : κ → ν}
  {as bs : List α} {k : κ}

def onKey (key : α → κ) (k : κ) (as : List α) : List α := as.filter fun a => key a = k

def runCells (key : α → κ) (cell : ν → α → ν) (s : κ → ν) : List α → κ → ν
  | [] => s
  | a :: as => runCells key cell (Function.update s (key a) (cell (s (key a)) a)) as

/-- The answers to the actions on one key. -/
def answersOf (key : α → κ) (cell : ν → α → ν) (answer : ν → α → ρ) (k : κ) (s : κ → ν) :
    List α → List ρ
  | [] => []
  | a :: as =>
    (if key a = k then [answer (s (key a)) a] else []) ++
      answersOf key cell answer k (Function.update s (key a) (cell (s (key a)) a)) as

/-- The answers of a single cell. -/
def answers (cell : ν → α → ν) (answer : ν → α → ρ) (v : ν) : List α → List ρ
  | [] => []
  | a :: as => answer v a :: answers cell answer (cell v a) as

theorem onKey_cons_self {a : α} : onKey key (key a) (a :: as) = a :: onKey key (key a) as :=
  List.filter_cons_of_pos (by simp)

theorem onKey_cons_ne {a : α} (h : key a ≠ k) : onKey key k (a :: as) = onKey key k as :=
  List.filter_cons_of_neg (by simpa using h)

theorem length_onKey_cons {a : α} : (onKey key k (a :: as)).length =
    (if key a = k then 1 else 0) + (onKey key k as).length := by
  by_cases h : key a = k
  · subst h; rw [onKey_cons_self, if_pos rfl, List.length_cons, Nat.add_comm]
  · rw [onKey_cons_ne h, if_neg h, Nat.zero_add]

theorem onKey_eq_nil (h : ∀ a ∈ as, key a ≠ k) : onKey key k as = [] :=
  List.filter_eq_nil_iff.2 fun a ha => by simpa using h a ha

/-- **A cell depends on the actions on its key alone.** -/
theorem runCells_apply : runCells key cell s as k = (onKey key k as).foldl cell (s k) := by
  induction as generalizing s with
  | nil => rfl
  | cons a as ih =>
    rw [runCells, ih]
    by_cases h : key a = k
    · subst h; rw [Function.update_self, onKey_cons_self, List.foldl_cons]
    · rw [Function.update_of_ne (Ne.symm h), onKey_cons_ne h]

/-- **The answers on a key depend on the actions on it alone.** -/
theorem answersOf_eq :
    answersOf key cell answer k s as = answers cell answer (s k) (onKey key k as) := by
  induction as generalizing s with
  | nil => rfl
  | cons a as ih =>
    rw [answersOf, ih]
    by_cases h : key a = k
    · subst h; rw [if_pos rfl, Function.update_self, onKey_cons_self]; rfl
    · rw [if_neg h, Function.update_of_ne (Ne.symm h), onKey_cons_ne h, List.nil_append]

theorem sum_onKey_le {ks : List κ} (hn : ks.Nodup) :
    (ks.map fun k => (onKey key k as).length).sum ≤ as.length := by
  induction as with
  | nil => simp [onKey]
  | cons a as ih =>
    have hone : (ks.map fun k => if key a = k then 1 else 0).sum ≤ 1 := by
      have : (ks.map fun k => if key a = k then 1 else 0).sum = ks.count (key a) := by
        clear hn ih
        induction ks with
        | nil => rfl
        | cons k ks ih =>
          rw [List.map_cons, List.sum_cons, ih, List.count_cons]
          by_cases h : key a = k
          · simp [h, Nat.add_comm]
          · simp [h, Ne.symm h]
      rw [this]
      exact List.nodup_iff_count_le_one.1 hn _
    simp only [length_onKey_cons, List.sum_map_add, List.length_cons]
    omega

theorem onKey_snoc_self {a : α} : onKey key (key a) (as ++ [a]) = onKey key (key a) as ++ [a] :=
  (List.filter_append as [a]).trans (congrArg (onKey key (key a) as ++ ·) onKey_cons_self)

theorem onKey_snoc_ne {a : α} (h : key a ≠ k) : onKey key k (as ++ [a]) = onKey key k as :=
  ((List.filter_append as [a]).trans (congrArg (onKey key k as ++ ·) (onKey_cons_ne h))).trans
    (List.append_nil _)

theorem nodup_of_onKey {f : α → ρ} (h : ∀ k, ((onKey key k as).map f).Nodup) :
    (as.map fun a => (key a, f a)).Nodup := by
  induction as with
  | nil => exact List.nodup_nil
  | cons a as ih =>
    refine List.nodup_cons.2 ⟨fun hmem => ?_, ih fun k => ?_⟩
    · obtain ⟨b, hb, heq⟩ := List.mem_map.1 hmem
      obtain ⟨hkey, hf⟩ := Prod.mk.inj heq
      have hself := h (key a)
      rw [onKey_cons_self, List.map_cons, List.nodup_cons] at hself
      exact hself.1 (List.mem_map.2 ⟨b, List.mem_filter.2 ⟨hb, by simpa using hkey⟩, hf⟩)
    · exact (h k).sublist (((List.sublist_cons_self a as).filter _).map f)

theorem length_eq_sum_onKey [Fintype κ] : as.length = ∑ k, (onKey key k as).length := by
  induction as with
  | nil => exact (Finset.sum_eq_zero fun k _ => rfl).symm
  | cons a as ih =>
    rw [List.length_cons, ih, Finset.sum_congr rfl fun k _ => length_onKey_cons,
      Finset.sum_add_distrib, Finset.sum_ite_eq, if_pos (Finset.mem_univ _), Nat.add_comm]

end Cells

/-! ## Iterating over a map -/

/-- The entries of a finite map, in the order of some iteration. -/
structure Iteration (m : κ → Option ν) where
  entries : List (κ × ν)
  nodup : (entries.map Prod.fst).Nodup
  mem_iff : ∀ k v, (k, v) ∈ entries ↔ m k = some v

namespace Iteration

variable {m : κ → Option ν} {k : κ}

def values (it : Iteration m) : List ν := it.entries.map Prod.snd

def empty : Iteration (fun _ : κ => (none : Option ν)) := ⟨[], List.nodup_nil, by simp⟩

/-- An iteration of the map in which the values are replaced. -/
def mapValues (f : ν → ν') (it : Iteration m) : Iteration fun k => (m k).map f where
  entries := it.entries.map fun e => (e.1, f e.2)
  nodup := by simpa [List.map_map, Function.comp_def] using it.nodup
  mem_iff k v := by simp [← it.mem_iff]

theorem entries_nodup (it : Iteration m) : it.entries.Nodup := .of_map _ it.nodup

/-- **Two iterations of a map list the same entries.** -/
theorem perm (it it' : Iteration m) : it.entries.Perm it'.entries :=
  (List.perm_ext_iff_of_nodup it.entries_nodup it'.entries_nodup).2 fun ⟨k, v⟩ => by
    rw [it.mem_iff, it'.mem_iff]

theorem values_perm (it it' : Iteration m) : it.values.Perm it'.values := (it.perm it').map _

theorem values_mapValues (f : ν → ν') (it : Iteration m) :
    (it.mapValues f).values = it.values.map f := by
  simp [values, mapValues, Function.comp_def]

/-- The iteration after one cell was overwritten or emptied. -/
def update [DecidableEq κ] (it : Iteration m) (k : κ) (v : Option ν) :
    Iteration (Function.update m k v) where
  entries := (v.map fun v => (k, v)).toList ++ it.entries.filter fun e => e.1 ≠ k
  nodup := by
    have hrest : ((it.entries.filter fun e => e.1 ≠ k).map Prod.fst).Nodup :=
      it.nodup.sublist (List.filter_sublist.map _)
    cases v with
    | none => simpa using hrest
    | some v =>
      refine List.nodup_cons.2 ⟨fun h => ?_, hrest⟩
      obtain ⟨e, he, rfl⟩ := List.mem_map.1 h
      simpa using (List.mem_filter.1 he).2
  mem_iff j w := by
    rw [List.mem_append, List.mem_filter, it.mem_iff]
    by_cases h : j = k
    · subst h
      rw [Function.update_self]
      cases v <;> simp [eq_comm]
    · rw [Function.update_of_ne h]
      cases v <;> simp [h]

/-- A sum over the entries is bounded by the number of actions, when every entry is bounded
by the number of actions on its key. -/
theorem sum_le [DecidableEq κ] {key : α → κ} {as : List α} (it : Iteration m) (f : ν → Nat)
    (hf : ∀ k v, m k = some v → f v ≤ (onKey key k as).length) :
    (it.values.map f).sum ≤ as.length := by
  have hle : (it.entries.map fun e => f e.2).sum ≤
      (it.entries.map fun e => (onKey key e.1 as).length).sum :=
    List.sum_le_sum fun ⟨k, v⟩ he => hf k v ((it.mem_iff k v).1 he)
  have hsum := @sum_onKey_le κ α _ key as _ it.nodup
  rw [List.map_map] at hsum
  rw [values, List.map_map]
  exact hle.trans hsum

end Iteration

end Trans
