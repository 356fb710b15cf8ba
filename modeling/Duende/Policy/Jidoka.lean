import Duende.Text
import Duende.Trans.Repeats

/-!
# The Jidoka gate

A gate runs its checks on evidence and stops with the violations and a recommendation.
`modes_agree` compares a gate that stops on the first violation with one that collects them all;
`recommend_lists_iff` says when the recommendation has every advice once.
-/

namespace Duende.Policy

open Repeats (Contiguous)

inductive ViolationKind where
  | invariant
  | precondition
  | postcondition
  | resourceLeak
  | timeout
  deriving DecidableEq, Repr

structure JidokaViolation where
  checkName : Text
  kind : ViolationKind
  description : Text
  deriving DecidableEq

inductive JidokaResult where
  | pass
  | stop (violations : List JidokaViolation) (recommendation : Text)
  deriving DecidableEq

/-- `verify` of a check, on evidence of any type. -/
abbrev JidokaCheck (ε : Type*) := ε → Option JidokaViolation

structure JidokaGate (ε : Type*) where
  checks : List (JidokaCheck ε)
  stopOnFirst : Bool

def ViolationKind.advice : ViolationKind → Text
  | invariant => "Review invariant conditions and add assertions".toList
  | precondition => "Validate inputs at function boundaries".toList
  | postcondition => "Verify outputs meet expected conditions".toList
  | resourceLeak => "Ensure resources are properly cleaned up (RAII pattern)".toList
  | timeout => "Add timeout handling and circuit breakers".toList

/-- Texts with `"; "` between them. -/
def joinAdvice (recommendations : List Text) : Text := "; ".toList.intercalate recommendations

/-- Generates recommendation based on violations; `dedup` leaves out adjacent repeats. -/
def recommend (violations : List JidokaViolation) : Text :=
  if violations.isEmpty then []
  else joinAdvice ((violations.map fun v => v.kind.advice).destutter (· ≠ ·))

namespace JidokaGate

variable {ε : Type*}

def new (stopOnFirst : Bool) : JidokaGate ε := ⟨[], stopOnFirst⟩

def addCheck (gate : JidokaGate ε) (check : JidokaCheck ε) : JidokaGate ε :=
  { gate with checks := gate.checks ++ [check] }

/-- The loop of `check`, with the violations found so far. -/
def checkLoop (stopOnFirst : Bool) (evidence : ε) :
    List JidokaViolation → List (JidokaCheck ε) → JidokaResult
  | violations, [] =>
    if violations.isEmpty then .pass else .stop violations (recommend violations)
  | violations, verify :: checks =>
    match verify evidence with
    | none => checkLoop stopOnFirst evidence violations checks
    | some violation =>
      if stopOnFirst then
        .stop (violations ++ [violation]) (recommend (violations ++ [violation]))
      else checkLoop stopOnFirst evidence (violations ++ [violation]) checks

def check (gate : JidokaGate ε) (evidence : ε) : JidokaResult :=
  checkLoop gate.stopOnFirst evidence [] gate.checks

/-- A gate with checks added one after the other. -/
def build (stopOnFirst : Bool) (checks : List (JidokaCheck ε)) : JidokaGate ε :=
  checks.foldl addCheck (new stopOnFirst)

theorem build_eq (stopOnFirst : Bool) (checks : List (JidokaCheck ε)) :
    build stopOnFirst checks = ⟨checks, stopOnFirst⟩ := by
  have hfold : ∀ (gate : JidokaGate ε) (checks : List (JidokaCheck ε)),
      checks.foldl addCheck gate = ⟨gate.checks ++ checks, gate.stopOnFirst⟩ := by
    intro gate checks
    induction checks generalizing gate with
    | nil => rw [List.append_nil]; rfl
    | cons c checks ih =>
      rw [List.foldl_cons, ih]
      simp [addCheck]
  exact hfold _ checks

/-! ## The two modes -/

/-- The violations that the checks produce, in the order of the checks. -/
def produced (checks : List (JidokaCheck ε)) (evidence : ε) : List JidokaViolation :=
  checks.filterMap fun verify => verify evidence

theorem produced_cons (verify : JidokaCheck ε) (checks : List (JidokaCheck ε)) (evidence : ε) :
    produced (verify :: checks) evidence =
      (verify evidence).toList ++ produced checks evidence := by
  unfold produced
  cases h : verify evidence <;> simp [h]

theorem checkLoop_all (evidence : ε) (violations : List JidokaViolation)
    (checks : List (JidokaCheck ε)) : checkLoop false evidence violations checks =
      if violations ++ produced checks evidence = [] then .pass
      else .stop (violations ++ produced checks evidence)
        (recommend (violations ++ produced checks evidence)) := by
  induction checks generalizing violations with
  | nil => simp [checkLoop, produced]
  | cons verify checks ih =>
    rw [checkLoop, produced_cons]
    cases verify evidence with
    | none => exact ih violations
    | some v => simpa using ih (violations ++ [v])

theorem checkLoop_first (evidence : ε) (checks : List (JidokaCheck ε)) :
    checkLoop true evidence [] checks =
      match produced checks evidence with
      | [] => .pass
      | v :: _ => .stop [v] (recommend [v]) := by
  induction checks with
  | nil => rfl
  | cons verify checks ih =>
    rw [checkLoop, produced_cons]
    cases verify evidence with
    | none => exact ih
    | some v => rfl

/-- **The modes agree**: collecting all stops with what the checks produce; stopping on the first
passes when that does, and stops with its first violation. -/
theorem modes_agree (checks : List (JidokaCheck ε)) (evidence : ε) :
    ((build false checks).check evidence =
      if produced checks evidence = [] then .pass
      else .stop (produced checks evidence) (recommend (produced checks evidence))) ∧
    ((build true checks).check evidence = .pass ↔ (build false checks).check evidence = .pass) ∧
    ∀ violations text, (build false checks).check evidence = .stop violations text →
      ∃ v, violations.head? = some v ∧
        (build true checks).check evidence = .stop [v] (recommend [v]) := by
  have hall : (build false checks).check evidence =
      if produced checks evidence = [] then .pass
      else .stop (produced checks evidence) (recommend (produced checks evidence)) := by
    rw [build_eq]
    exact checkLoop_all evidence [] checks
  have hfirst : (build true checks).check evidence =
      match produced checks evidence with
      | [] => .pass
      | v :: _ => .stop [v] (recommend [v]) := by
    rw [build_eq]
    exact checkLoop_first evidence checks
  rw [hall, hfirst]
  cases produced checks evidence with
  | nil => exact ⟨rfl, Iff.rfl, fun _ _ h => nomatch h⟩
  | cons v vs =>
    refine ⟨rfl, iff_of_false nofun nofun, fun violations text h => ?_⟩
    cases h
    exact ⟨v, rfl, rfl⟩

end JidokaGate

/-! ## Recommendations -/

theorem advice_injective : Function.Injective ViolationKind.advice := by
  have hall : ∀ k ∈ [ViolationKind.invariant, .precondition, .postcondition, .resourceLeak,
      .timeout], ∀ k' ∈ [ViolationKind.invariant, .precondition, .postcondition, .resourceLeak,
      .timeout], k.advice = k'.advice → k = k' := by decide
  intro k k' h
  exact hall k (by cases k <;> simp) k' (by cases k' <;> simp) h

theorem advice_plain (k : ViolationKind) : ';' ∉ k.advice ∧ k.advice ≠ [] := by
  cases k <;> exact ⟨by decide, by decide⟩

/-- **What is recommended**: the advice of every kind, once and in the order in which the kinds
occur first, exactly when violations of one kind stand next to each other. -/
theorem recommend_lists_iff (violations : List JidokaViolation) :
    recommend violations =
        joinAdvice ((violations.map JidokaViolation.kind).eraseDups.map ViolationKind.advice) ↔
      Contiguous (violations.map JidokaViolation.kind) := by
  have hadvice : recommend violations =
      joinAdvice (((violations.map JidokaViolation.kind).destutter (· ≠ ·)).map
        ViolationKind.advice) := by
    unfold recommend
    cases violations with
    | nil => rfl
    | cons v vs =>
      rw [List.map_destutter_ne _ advice_injective, List.map_map]
      rfl
  have hplain : ∀ ks : List ViolationKind, ∀ t ∈ ks.map ViolationKind.advice, ';' ∉ t ∧ t ≠ [] :=
    fun ks => List.forall_mem_map.2 fun k _ => advice_plain k
  rw [hadvice, ← Repeats.destutter_eq_eraseDups_iff]
  constructor
  · intro h
    exact List.map_injective_iff.2 advice_injective
      (Repeats.intercalate_injective (hplain _) (hplain _) h)
  · exact fun h => by rw [h]

def violationOf (kind : ViolationKind) : JidokaViolation := ⟨"check".toList, kind, []⟩

/-- A kind that comes again after another is recommended twice. -/
theorem recommend_again :
    recommend ([.invariant, .timeout, .invariant].map violationOf) ≠
      joinAdvice (([.invariant, .timeout, .invariant].map violationOf |>.map
        JidokaViolation.kind).eraseDups.map ViolationKind.advice) := by
  decide +kernel

end Duende.Policy
