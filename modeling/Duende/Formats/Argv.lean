import Mathlib.Data.List.Basic

/-!
# Command lines with options

A command line is a list of words: options, each of which takes the next word as its value
or takes none, and from the first word that does not start with a dash on the operands.
`arity` knows the options: whether one takes a value, and `none` for words it does not know.
-/

namespace Argv

abbrev Word := List Char

abbrev Opt := Word × Option Word

variable {arity : Word → Option Bool}

def isOption (w : Word) : Bool := w.head? = some '-'

/-- The options, and the operands after them. -/
def parse (arity : Word → Option Bool) : List Word → Option (List Opt × List Word)
  | [] => some ([], [])
  | w :: ws =>
    if isOption w then
      match arity w, ws with
      | some false, ws => (parse arity ws).map fun r => ((w, none) :: r.1, r.2)
      | some true, v :: ws => (parse arity ws).map fun r => ((w, some v) :: r.1, r.2)
      | _, _ => none
    else some ([], w :: ws)

def optWords : Opt → List Word
  | (w, none) => [w]
  | (w, some v) => [w, v]

def words (opts : List Opt) : List Word := opts.flatMap optWords

@[simp] theorem words_nil : words [] = [] := rfl

@[simp] theorem words_cons (o : Opt) (opts : List Opt) :
    words (o :: opts) = optWords o ++ words opts := rfl

@[simp] theorem words_append (opts opts' : List Opt) :
    words (opts ++ opts') = words opts ++ words opts' := List.flatMap_append

def values (w : Word) (opts : List Opt) : List Word :=
  opts.filterMap fun o => if o.1 = w then o.2 else none

/-- An option that is known, with a value if it takes one. -/
def Known (arity : Word → Option Bool) (o : Opt) : Prop :=
  isOption o.1 = true ∧ arity o.1 = some o.2.isSome

theorem parse_cons {o : Opt} {ws : List Word} (ho : Known arity o) :
    parse arity (optWords o ++ ws) = (parse arity ws).map fun r => (o :: r.1, r.2) := by
  obtain ⟨w, v⟩ := o
  obtain ⟨hopt, har⟩ := ho
  cases v with
  | none =>
    rw [optWords, List.singleton_append, parse.eq_def]
    simp only [hopt, if_true, har, Option.isSome_none]
  | some v =>
    rw [optWords, List.cons_append, List.singleton_append, parse.eq_def]
    simp only [hopt, if_true, har, Option.isSome_some]

theorem parse_append {ws : List Word} :
    ∀ {opts : List Opt}, (∀ o ∈ opts, Known arity o) →
      parse arity (words opts ++ ws) = (parse arity ws).map fun r => (opts ++ r.1, r.2)
  | [], _ => by simp [words]
  | o :: opts, h => by
    have ih : parse arity (words opts ++ ws) =
        (parse arity ws).map fun r => (opts ++ r.1, r.2) :=
      parse_append fun o' ho' => h o' (List.mem_cons_of_mem o ho')
    rw [words_cons, List.append_assoc, parse_cons (h o List.mem_cons_self), ih, Option.map_map]
    rfl

theorem parse_operand {w : Word} {ws : List Word} (hw : isOption w = false) :
    parse arity (w :: ws) = some ([], w :: ws) := by
  rw [parse.eq_def]; simp [hw]

theorem parse_unknown {w : Word} {ws : List Word} (hw : isOption w = true)
    (har : arity w = none) : parse arity (w :: ws) = none := by
  rw [parse.eq_def]; simp [hw, har]

@[simp] theorem values_nil (w : Word) : values w [] = [] := rfl

@[simp] theorem values_cons (w : Word) (o : Opt) (opts : List Opt) :
    values w (o :: opts) = (if o.1 = w then o.2.toList else []) ++ values w opts := by
  unfold values
  rw [List.filterMap_cons]
  split
  · rename_i h
    split at h
    · rw [if_pos ‹_›, h]; rfl
    · rw [if_neg ‹_›]; rfl
  · rename_i v h
    split at h
    · rw [if_pos ‹_›, h]; rfl
    · cases h

@[simp] theorem values_append (w : Word) (opts opts' : List Opt) :
    values w (opts ++ opts') = values w opts ++ values w opts' :=
  List.filterMap_append

theorem values_map {α : Type} (w w' : Word) (f : α → Word) (xs : List α) :
    values w (xs.map fun x => (w', some (f x))) = if w' = w then xs.map f else [] := by
  induction xs with
  | nil => simp
  | cons x xs ih =>
    rw [List.map_cons, values_cons, ih]
    split <;> simp

end Argv
