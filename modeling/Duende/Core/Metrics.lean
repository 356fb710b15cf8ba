import Duende.Num
import Duende.Trans.Ledger

/-!
# Duration metrics

`record_duration` of any number of callers, one atomic step at a time: two additions, a load and
the loop of `compare_exchange_weak`, which may fail without a reason. `durations_recorded` says
what the sum, the count and the maximum are when all calls have ended.
-/

namespace Duende.Core

open Trans

/-- The duration counters of `MetricsInner`. -/
structure DurationCounters where
  durationSumUs : UInt64
  durationCount : UInt64
  durationMaxUs : UInt64
  deriving DecidableEq, Repr

def DurationCounters.new : DurationCounters := ⟨0, 0, 0⟩

/-- `as_micros() as u64`, of a duration in nanoseconds. -/
def micros (duration : Nat) : UInt64 := UInt64.ofNat (duration / 1000)

/-- Where a call of `record_duration` stands; `us` is its duration. -/
inductive RecordPc where
  | addSum (us : UInt64)
  | addCount (us : UInt64)
  | load (us : UInt64)
  /-- Before a `compare_exchange_weak` of `currentMax` by `us`. -/
  | exchange (us currentMax : UInt64)
  deriving DecidableEq, Repr

def whileGreater (us currentMax : UInt64) : RecordPc ⊕ Unit :=
  if currentMax < us then .inl (.exchange us currentMax) else .inr ()

/-- An atomic step of `record_duration`; `spurious` lets an exchange fail that would succeed. -/
def recordStep (s : DurationCounters) (p : RecordPc) (spurious : Bool) :
    DurationCounters × (RecordPc ⊕ Unit) :=
  match p with
  | .addSum us => ({ s with durationSumUs := s.durationSumUs + us }, .inl (.addCount us))
  | .addCount us => ({ s with durationCount := s.durationCount + 1 }, .inl (.load us))
  | .load us => (s, whileGreater us s.durationMaxUs)
  | .exchange us currentMax =>
    if s.durationMaxUs = currentMax ∧ spurious = false then
      ({ s with durationMaxUs := us }, .inr ())
    else (s, whileGreater us s.durationMaxUs)

def metricsObj : Obj DurationCounters RecordPc Nat Unit Bool Empty where
  start duration := .addSum (micros duration)
  exec s p spurious := some (recordStep s p spurious)
  env _ e := nomatch e

def DurationCounters.durationAvg (s : DurationCounters) : Nat :=
  if 0 < s.durationCount then (s.durationSumUs / s.durationCount).toNat * 1000 else 0

def DurationCounters.durationMax (s : DurationCounters) : Nat := s.durationMaxUs.toNat * 1000

variable {ι : Type*}

/-- The microseconds of the calls that a run starts. -/
def recorded (acts : List (Act ι Nat Bool Empty)) : List UInt64 :=
  acts.filterMap fun
    | .call _ duration => some (micros duration)
    | _ => none

theorem recorded_append (as bs : List (Act ι Nat Bool Empty)) :
    recorded (as ++ bs) = recorded as ++ recorded bs := List.filterMap_append

/-! ## Sum and count -/

def RecordPc.owesSum : RecordPc → UInt64
  | .addSum us => us
  | _ => 0

def RecordPc.owesCount : RecordPc → UInt64
  | .addSum _ | .addCount _ => 1
  | _ => 0

theorem whileGreater_owes (f : RecordPc → UInt64) (hf : ∀ u m, f (.exchange u m) = 0)
    (us currentMax : UInt64) : ((whileGreater us currentMax).getLeft?).elim 0 f = 0 := by
  unfold whileGreater
  split
  · exact hf _ _
  · rfl

/-- A step pays what is no longer owed. -/
theorem recordStep_sum (s : DurationCounters) (p : RecordPc) (k : Bool) :
    (recordStep s p k).1.durationSumUs + ((recordStep s p k).2.getLeft?).elim 0 RecordPc.owesSum =
      s.durationSumUs + p.owesSum := by
  have hloop := whileGreater_owes RecordPc.owesSum fun _ _ => rfl
  cases p with
  | addSum us => exact add_zero _
  | addCount us => rfl
  | load us => exact congrArg _ (hloop _ _)
  | exchange us currentMax =>
    rw [recordStep]
    split
    · rfl
    · exact congrArg _ (hloop _ _)

theorem recordStep_count (s : DurationCounters) (p : RecordPc) (k : Bool) :
    (recordStep s p k).1.durationCount +
        ((recordStep s p k).2.getLeft?).elim 0 RecordPc.owesCount =
      s.durationCount + p.owesCount := by
  have hloop := whileGreater_owes RecordPc.owesCount fun _ _ => rfl
  cases p with
  | addSum us => rfl
  | addCount us => exact add_zero _
  | load us => exact congrArg _ (hloop _ _)
  | exchange us currentMax =>
    rw [recordStep]
    split
    · rfl
    · exact congrArg _ (hloop _ _)

/-- The sum, as an account that every call is charged its duration on. -/
def sumAccount : Account metricsObj UInt64 where
  charge := micros
  paid := DurationCounters.durationSumUs
  owes := RecordPc.owesSum
  start _ := rfl
  exec s p k s' q h := by
    have hpay := recordStep_sum s p k
    rwa [Option.some.inj h] at hpay
  env _ e := nomatch e

def countAccount : Account metricsObj UInt64 where
  charge _ := 1
  paid := DurationCounters.durationCount
  owes := RecordPc.owesCount
  start _ := rfl
  exec s p k s' q h := by
    have hpay := recordStep_count s p k
    rwa [Option.some.inj h] at hpay
  env _ e := nomatch e

theorem map_called (acts : List (Act ι Nat Bool Empty)) :
    (called acts).map micros = recorded acts := by
  unfold called recorded
  rw [List.map_filterMap]
  refine congrArg (fun f => acts.filterMap f) (funext fun a => ?_)
  cases a <;> rfl

/-! ## The maximum -/

def RecordPc.us : RecordPc → UInt64
  | .addSum us | .addCount us | .load us | .exchange us _ => us

/-- An exchange is tried only for a larger value. -/
def RecordPc.Ahead : RecordPc → Prop
  | .exchange us currentMax => currentMax < us
  | _ => True

/-- **What a step can do** to the maximum: the call goes on with it unchanged, ends below it, or
raises it to its own duration. -/
theorem recordStep_max {s s' : DurationCounters} {p : RecordPc} {k : Bool} {q : RecordPc ⊕ Unit}
    (hp : p.Ahead) (h : recordStep s p k = (s', q)) :
    (∃ p', q = .inl p' ∧ p'.us = p.us ∧ p'.Ahead ∧ s'.durationMaxUs = s.durationMaxUs) ∨
    (q = .inr () ∧ p.us ≤ s'.durationMaxUs ∧ s'.durationMaxUs = s.durationMaxUs) ∨
    (q = .inr () ∧ s'.durationMaxUs = p.us ∧ s.durationMaxUs < p.us) := by
  have hloop : ∀ us, whileGreater us s.durationMaxUs = q → s' = s → p.us = us →
      (∃ p', q = .inl p' ∧ p'.us = p.us ∧ p'.Ahead ∧ s'.durationMaxUs = s.durationMaxUs) ∨
      (q = .inr () ∧ p.us ≤ s'.durationMaxUs ∧ s'.durationMaxUs = s.durationMaxUs) ∨
      (q = .inr () ∧ s'.durationMaxUs = p.us ∧ s.durationMaxUs < p.us) := by
    rintro us hq rfl rfl
    unfold whileGreater at hq
    split at hq
    · exact .inl ⟨_, hq.symm, rfl, ‹_›, rfl⟩
    · exact .inr (.inl ⟨hq.symm, UInt64.not_lt.1 ‹_›, rfl⟩)
  cases p with
  | addSum us => cases h; exact .inl ⟨_, rfl, rfl, trivial, rfl⟩
  | addCount us => cases h; exact .inl ⟨_, rfl, rfl, trivial, rfl⟩
  | load us =>
    obtain ⟨hs, hq⟩ := Prod.mk.inj h
    exact hloop us hq hs.symm rfl
  | exchange us currentMax =>
    rw [recordStep] at h
    split at h
    · rename_i heq
      cases h
      exact .inr (.inr ⟨rfl, rfl, heq.1 ▸ hp⟩)
    · obtain ⟨hs, hq⟩ := Prod.mk.inj h
      exact hloop us hq hs.symm rfl

/-- The durations of the started calls are below the maximum or in progress, the maximum is one
of them. -/
structure MaxInv (us : List UInt64) (c : Conf ι DurationCounters RecordPc) : Prop where
  covered : ∀ u ∈ us, u ≤ c.shared.durationMaxUs ∨ ∃ i p, c.pc i = some p ∧ p.us = u
  pending : ∀ i p, c.pc i = some p → p.us ∈ us ∧ p.Ahead
  held : c.shared.durationMaxUs = 0 ∨ c.shared.durationMaxUs ∈ us

theorem MaxInv.new : MaxInv [] (Obj.init DurationCounters.new : Conf ι _ RecordPc) :=
  ⟨nofun, nofun, .inl rfl⟩

variable [DecidableEq ι] {us : List UInt64} {c c' : Conf ι DurationCounters RecordPc}

theorem MaxInv.le (h : MaxInv us c) {a : Act ι Nat Bool Empty}
    (ha : metricsObj.act c a = some c') : c.shared.durationMaxUs ≤ c'.shared.durationMaxUs := by
  rcases Obj.shared_cases ha with hsame | ⟨i, k, p, q, rfl, hi, hx⟩
  · rw [hsame]
    exact UInt64.le_refl _
  · rcases recordStep_max (h.pending i p hi).2 (Option.some.inj hx) with
      ⟨p', -, -, -, hmax⟩ | ⟨-, -, hmax⟩ | ⟨-, hmax, hlt⟩
    · exact UInt64.le_of_eq hmax.symm
    · exact UInt64.le_of_eq hmax.symm
    · exact UInt64.le_of_lt (hmax ▸ hlt)

theorem MaxInv.act (h : MaxInv us c) {a : Act ι Nat Bool Empty}
    (ha : metricsObj.act c a = some c') : MaxInv (us ++ recorded [a]) c' := by
  have hle := h.le ha
  rcases Obj.act_cases ha with ⟨i, d, rfl, hi, rfl⟩ | ⟨i, k, p, s', q, rfl, hi, hx, rfl⟩ |
    ⟨e, s', rfl, he, rfl⟩
  · have hrec : recorded [(.call i d : Act ι Nat Bool Empty)] = [micros d] := rfl
    rw [hrec]
    refine ⟨fun u hu => ?_, fun j p hj => ?_, h.held.imp_right fun hm => List.mem_append_left _ hm⟩
    · rcases List.mem_append.1 hu with hu | hu
      · refine (h.covered u hu).imp_right fun ⟨j, p, hj, hp⟩ => ⟨j, p, ?_, hp⟩
        have hne : j ≠ i := fun he => by rw [he, hi] at hj; cases hj
        exact (Function.update_of_ne hne _ _).trans hj
      · exact .inr ⟨i, .addSum (micros d), Function.update_self .., (List.mem_singleton.1 hu).symm⟩
    · rcases Conf.pc_update_cases hj with ⟨-, hp⟩ | ⟨-, hp⟩
      · cases hp
        exact ⟨List.mem_append_right _ List.mem_cons_self, trivial⟩
      · exact ⟨List.mem_append_left _ (h.pending j p hp).1, (h.pending j p hp).2⟩
  · have hrec : recorded [(.step i k : Act ι Nat Bool Empty)] = [] := rfl
    rw [hrec, List.append_nil]
    obtain ⟨hmem, hahead⟩ := h.pending i p hi
    have hstep := recordStep_max hahead (Option.some.inj hx)
    -- the caller that has moved goes on with its duration, or ends with the maximum above it
    have hself : p.us ≤ s'.durationMaxUs ∨ ∃ p', q.getLeft? = some p' ∧ p'.us = p.us := by
      rcases hstep with ⟨p', rfl, hus, -, -⟩ | ⟨rfl, hcov, -⟩ | ⟨rfl, hmax, -⟩
      · exact .inr ⟨p', rfl, hus⟩
      · exact .inl hcov
      · exact .inl (UInt64.le_of_eq hmax.symm)
    refine ⟨fun u hu => ?_, fun j p1 hj => ?_, ?_⟩
    · rcases h.covered u hu with hu | ⟨j, p1, hj, hp⟩
      · exact .inl (UInt64.le_trans hu hle)
      by_cases hji : j = i
      · subst hji
        rw [hi] at hj
        cases hj
        subst hp
        exact hself.imp_right fun ⟨p', hp', hus⟩ =>
          ⟨j, p', (Function.update_self ..).trans hp', hus⟩
      · exact .inr ⟨j, p1, (Function.update_of_ne hji _ _).trans hj, hp⟩
    · rcases Conf.pc_update_cases hj with ⟨-, hp⟩ | ⟨-, hp⟩
      · rcases hstep with ⟨p', rfl, hus, ha', -⟩ | ⟨rfl, -⟩ | ⟨rfl, -⟩
        · cases hp
          exact ⟨hus ▸ hmem, ha'⟩
        · cases hp
        · cases hp
      · exact h.pending j p1 hp
    · show s'.durationMaxUs = 0 ∨ s'.durationMaxUs ∈ us
      rcases hstep with ⟨p', -, -, -, hmax⟩ | ⟨-, -, hmax⟩ | ⟨-, hmax, -⟩
      · rw [hmax]
        exact h.held
      · rw [hmax]
        exact h.held
      · rw [hmax]
        exact .inr hmem
  · exact isEmptyElim e

theorem maxInv_run {acts : List (Act ι Nat Bool Empty)}
    (hr : run metricsObj.act (Obj.init .new) acts = some c) : MaxInv (recorded acts) c := by
  have hstart : MaxInv (recorded ([] : List (Act ι Nat Bool Empty)))
      (Obj.init .new : Conf ι DurationCounters RecordPc) := MaxInv.new
  refine run_hist (P := fun acts c => MaxInv (recorded acts) c) (fun acts d a d' h ha => ?_)
    hstart hr
  rw [recorded_append]
  exact h.act ha

theorem max_mono {acts : List (Act ι Nat Bool Empty)} (h : MaxInv us c)
    (hr : run metricsObj.act c acts = some c') :
    c.shared.durationMaxUs ≤ c'.shared.durationMaxUs := by
  have hinv := run_inv (P := fun d => (∃ us, MaxInv us d) ∧
      c.shared.durationMaxUs ≤ d.shared.durationMaxUs)
    (fun d a d' ⟨⟨us, hd⟩, hle⟩ ha => ⟨⟨_, hd.act ha⟩, UInt64.le_trans hle (hd.le ha)⟩)
    ⟨⟨us, h⟩, UInt64.le_refl _⟩ hr
  exact hinv.2

/-! ## All calls -/

theorem sum_le_length_mul {m : UInt64} {us : List UInt64} (h : ∀ u ∈ us, u ≤ m) :
    (us.map UInt64.toNat).sum ≤ us.length * m.toNat := by
  have hle := List.sum_le_card_nsmul (us.map UInt64.toNat) m.toNat
    (List.forall_mem_map.2 fun u hu => UInt64.le_iff_toNat_le.1 (h u hu))
  simpa using hle

/-- The average, from the sum and the count of fewer than `2 ^ 64` durations. -/
theorem avg_le_max {s : DurationCounters} {us : List UInt64} (hfew : us.length < 2 ^ 64)
    (hmax : ∀ u ∈ us, u ≤ s.durationMaxUs)
    (hsum : s.durationSumUs.toNat = (us.map UInt64.toNat).sum % 2 ^ 64)
    (hcount : s.durationCount.toNat = us.length % 2 ^ 64) : s.durationAvg ≤ s.durationMax := by
  unfold DurationCounters.durationAvg DurationCounters.durationMax
  split
  · refine Nat.mul_le_mul_right _ ?_
    rw [UInt64.toNat_div, hcount, Nat.mod_eq_of_lt hfew]
    refine Nat.div_le_of_le_mul ?_
    calc s.durationSumUs.toNat ≤ (us.map UInt64.toNat).sum := hsum ▸ Nat.mod_le _ _
      _ ≤ us.length * s.durationMaxUs.toNat := sum_le_length_mul hmax
  · exact Nat.zero_le _

/-- **The durations recorded** by any number of interleaved calls: the maximum never decreases,
and when all calls have ended it is the largest duration, the sum and the count are those of all
calls modulo `2 ^ 64`, and the average is at most the maximum. -/
theorem durations_recorded (acts : List (Act ι Nat Bool Empty))
    (hr : run metricsObj.act (Obj.init .new) acts = some c)
    (hfew : (recorded acts).length < 2 ^ 64) :
    (∀ pre post d, acts = pre ++ post → run metricsObj.act (Obj.init .new) pre = some d →
      d.shared.durationMaxUs ≤ c.shared.durationMaxUs) ∧
    (c.Quiet →
      (∀ u ∈ recorded acts, u ≤ c.shared.durationMaxUs) ∧
      (c.shared.durationMaxUs ∈ recorded acts ∨
        recorded acts = [] ∧ c.shared.durationMaxUs = 0) ∧
      c.shared.durationSumUs.toNat = ((recorded acts).map UInt64.toNat).sum % 2 ^ 64 ∧
      c.shared.durationCount.toNat = (recorded acts).length % 2 ^ 64 ∧
      c.shared.durationAvg ≤ c.shared.durationMax) := by
  have hinv := maxInv_run hr
  refine ⟨fun pre post d hacts hd => ?_, fun hq => ?_⟩
  · subst hacts
    obtain ⟨d', hd', hpost⟩ := run_append_some.1 hr
    rw [hd] at hd'
    cases hd'
    exact max_mono (maxInv_run hd) hpost
  have hcovered : ∀ u ∈ recorded acts, u ≤ c.shared.durationMaxUs := fun u hu =>
    (hinv.covered u hu).resolve_right fun ⟨i, p, hi, _⟩ => by rw [hq i] at hi; cases hi
  have hidle : (Obj.init DurationCounters.new : Conf ι _ RecordPc).Quiet := fun _ => rfl
  have hsum : c.shared.durationSumUs.toNat = ((recorded acts).map UInt64.toNat).sum % 2 ^ 64 := by
    have h : c.shared.durationSumUs = 0 + ((called acts).map micros).sum :=
      Account.settled (B := sumAccount) hidle hr hq
    rw [h, zero_add, map_called, toNat_sum]
  have hcount : c.shared.durationCount.toNat = (recorded acts).length % 2 ^ 64 := by
    have h : c.shared.durationCount = 0 + ((called acts).map fun _ => (1 : UInt64)).sum :=
      Account.settled (B := countAccount) hidle hr hq
    rw [h, zero_add, toNat_sum, ← map_called]
    simp
  refine ⟨hcovered, ?_, hsum, hcount, avg_le_max hfew hcovered hsum hcount⟩
  rcases hinv.held with h0 | hmem
  · rcases hrec : recorded acts with _ | ⟨u, us⟩
    · exact .inr ⟨rfl, h0⟩
    · -- all durations are zero
      have hu := hcovered u (by rw [hrec]; exact List.mem_cons_self)
      rw [h0] at hu ⊢
      left
      rw [UInt64.le_zero_iff.1 hu]
      exact List.mem_cons_self
  · exact .inl hmem

/-- Two callers load the maximum before either raises it; one exchange fails without a reason. -/
def twoCalls : List (Act (Fin 2) Nat Bool Empty) :=
  [.call 0 5000, .call 1 3000] ++ (List.replicate 3 [.step 0 false, .step 1 false]).flatten ++
    [.step 1 false, .step 0 false, .step 0 true, .step 0 false]

theorem run_twoCalls : (run metricsObj.act (Obj.init .new) twoCalls).isSome := by decide

theorem durations_of_two : ∃ c, run metricsObj.act (Obj.init .new) twoCalls = some c ∧
    c.shared = ⟨8, 2, 5⟩ ∧ c.Quiet ∧ ∀ u ∈ recorded twoCalls, u ≤ c.shared.durationMaxUs :=
  ⟨_, (Option.some_get run_twoCalls).symm, by decide, by decide,
    ((durations_recorded twoCalls (Option.some_get run_twoCalls).symm (by decide)).2
      (by decide)).1⟩

end Duende.Core
