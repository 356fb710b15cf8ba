import Duende.Policy.Phase

/-!
# The circuit breaker and its call history

A history lists the calls of a run, newest first, each with the stored state before and
after it. `failuresSince`, `successesSince`, `lastOpening` and `openings` read counts and
instants off the history alone. `explains_after` says that the stored state and the
answers of `allow` are functions of them.
-/

namespace Duende.Policy

/-- One call of a run, with the stored state before and after it. -/
structure Entry where
  now : Nat
  op : Op
  before : CircuitState
  after : CircuitState
  res : Res

namespace Entry

abbrev Opens (e : Entry) : Prop := e.before ≠ .open ∧ e.after = .open

/-- A close, a reset, or a success recorded while closed. -/
abbrev Clears (e : Entry) : Prop :=
  (e.before ≠ .closed ∧ e.after = .closed) ∨ e.op = .reset ∨
    (e.op = .recordSuccess ∧ e.before = .closed)

end Entry

/-! ## What a history says -/

/-- Failures recorded since the last close, reset or success while closed. -/
def failuresSince : List Entry → Nat
  | [] => 0
  | e :: h => if e.Clears then 0 else failuresSince h + if e.op = .recordFailure then 1 else 0

/-- Successes recorded since the breaker last became half-open. -/
def successesSince : List Entry → Nat
  | [] => 0
  | e :: h =>
    if e.before ≠ .halfOpen ∧ e.after = .halfOpen then 0
    else successesSince h + if e.op = .recordSuccess then 1 else 0

def lastOpening : List Entry → Option Nat
  | [] => none
  | e :: h => if e.Opens then some e.now else lastOpening h

/-- The instants of the openings with no reset since. -/
def openings : List Entry → List Nat
  | [] => []
  | e :: h => if e.op = .reset then [] else if e.Opens then e.now :: openings h else openings h

/-- The history decides what the call `e` after it does. -/
structure Explains (th : UInt32) (rt : Nat) (h : List Entry) (e : Entry) : Prop where
  ifClosed : e.before = .closed →
    (e.after ≠ .closed ↔ e.op = .recordFailure ∧ failuresSince h + 1 = max 1 th.toNat)
  ifHalfOpen : e.before = .halfOpen →
    (e.after = .open ↔ e.op = .recordFailure) ∧
      (e.after = .closed ↔
        e.op = .reset ∨ (e.op = .recordSuccess ∧ successesSince h + 1 = 3))
  ifOpen : e.before = .open →
    (e.after ≠ .open ↔ e.op = .reset ∨ ((e.op = .state ∨ e.op = .allow) ∧
      ∃ t0, lastOpening h = some t0 ∧ t0 + rt ≤ e.now))
  blocks : e.op = .allow →
    (e.res = .allowed false ↔ ∃ t0 ∈ openings h, e.now < t0 + rt)

/-! ## Histories of the breaker and of its phase -/

def CircuitBreaker.entry (b : CircuitBreaker) (c : Call) : Entry :=
  ⟨c.1, c.2, b.state, (b.call c.1 c.2).1.state, (b.call c.1 c.2).2⟩

/-- The history `h` extended by a run. -/
def CircuitBreaker.history (b : CircuitBreaker) (h : List Entry) : List Call → List Entry
  | [] => h
  | c :: cs => (b.call c.1 c.2).1.history (b.entry c :: h) cs

namespace Phase

variable {m : Nat} [NeZero m]

def entry (rt : Nat) (ph : Phase m) (c : Call) : Entry :=
  ⟨c.1, c.2, ph.state, (ph.call rt c.1 c.2).1.state, (ph.call rt c.1 c.2).2⟩

omit [NeZero m] in
/-- The phase holds what the history says. -/
def Tracks (rt now : Nat) (h : List Entry) : Phase m → Prop
  | closed f => failuresSince h = f ∧ ∀ t0 ∈ openings h, t0 + rt ≤ now
  | .open t => lastOpening h = some t ∧ t ∈ openings h ∧ ∀ t0 ∈ openings h, t0 ≤ t
  | halfOpen _ s => successesSince h = s ∧ ∀ t0 ∈ openings h, t0 + rt ≤ now

omit [NeZero m] in
theorem Tracks.mono {rt now now' : Nat} {h : List Entry} {ph : Phase m}
    (ht : ph.Tracks rt now h) (hn : now ≤ now') : ph.Tracks rt now' h := by
  cases ph with
  | closed f => exact ⟨ht.1, fun t0 h0 => Nat.le_trans (ht.2 t0 h0) hn⟩
  | «open» t => exact ht
  | halfOpen t s => exact ⟨ht.1, fun t0 h0 => Nat.le_trans (ht.2 t0 h0) hn⟩

omit [NeZero m] in
/-- A call that neither records an outcome, nor resets, nor changes the state adds
nothing to what the history says. -/
theorem Tracks.stutter {rt now : Nat} {h : List Entry} {ph : Phase m} {e : Entry}
    (ht : ph.Tracks rt now h) (hs : e.before = e.after)
    (ho : e.op ≠ .recordSuccess ∧ e.op ≠ .recordFailure ∧ e.op ≠ .reset) :
    ph.Tracks rt now (e :: h) := by
  obtain ⟨h1, h2, h3⟩ := ho
  have hc : ¬ e.Clears := by
    rintro (⟨hb, ha⟩ | hr | ⟨hr, -⟩)
    · exact hb (hs.trans ha)
    · exact h3 hr
    · exact h1 hr
  have hop : ¬ e.Opens := fun ⟨hb, ha⟩ => hb (hs.trans ha)
  have hh : ¬ (e.before ≠ .halfOpen ∧ e.after = .halfOpen) := fun ⟨hb, ha⟩ => hb (hs.trans ha)
  cases ph <;>
    simpa only [Tracks, failuresSince, successesSince, lastOpening, openings, if_neg hc, if_neg hop,
      if_neg hh, if_neg h1, if_neg h2, if_neg h3, Nat.add_zero] using ht

omit [NeZero m] in
/-- A lapse of time, whichever of the two queries noticed it. -/
theorem tracks_lapse {rt now : Nat} {h : List Entry} {ph : Phase m} {o : Op} {r : Res}
    (ht : ph.Tracks rt now h) (ho : o = .state ∨ o = .allow) :
    (ph.lapse rt now).Tracks rt now (⟨now, o, ph.state, (ph.lapse rt now).state, r⟩ :: h) := by
  have hne : o ≠ .recordSuccess ∧ o ≠ .recordFailure ∧ o ≠ .reset := by
    rcases ho with rfl | rfl <;> decide
  cases ph with
  | closed f => exact ht.stutter rfl hne
  | halfOpen t s => exact ht.stutter rfl hne
  | «open» t =>
    by_cases hl : t + rt ≤ now
    · obtain ⟨-, -, h3⟩ := ht
      simp only [lapse, if_pos hl, state, Tracks, successesSince, openings, if_neg hne.2.2]
      refine ⟨rfl, fun t0 h0 => ?_⟩
      have := h3 t0 (by simpa [Entry.Opens] using h0)
      omega
    · simp only [lapse, if_neg hl]
      exact ht.stutter rfl hne

theorem tracks_recordSuccess {rt now : Nat} {h : List Entry} {ph : Phase m} {r : Res}
    (ht : ph.Tracks rt now h) : ph.recordSuccess.Tracks rt now
      (⟨now, .recordSuccess, ph.state, ph.recordSuccess.state, r⟩ :: h) := by
  cases ph with
  | closed f =>
    simpa [recordSuccess, Tracks, failuresSince, openings, Entry.Opens, state] using ht.2
  | «open» t =>
    simpa [recordSuccess, Tracks, lastOpening, openings, Entry.Opens, state] using ht
  | halfOpen t s =>
    by_cases hs : s.val + 1 < 3
    · simpa [recordSuccess, hs, Tracks, successesSince, openings, Entry.Opens, state] using ht
    · simpa [recordSuccess, hs, Tracks, failuresSince, openings, Entry.Opens, Entry.Clears, state]
        using ht.2

omit [NeZero m] in
/-- Opening at `now`, when every earlier opening without a reset has lapsed. -/
theorem tracks_open {rt now : Nat} {h : List Entry} {e : Entry}
    (ht : ∀ t0 ∈ openings h, t0 + rt ≤ now) (hn : e.now = now) (ho : e.Opens)
    (hr : e.op ≠ .reset) : (Phase.open now : Phase m).Tracks rt now (e :: h) := by
  simp only [Tracks, lastOpening, openings, if_pos ho, if_neg hr, hn]
  refine ⟨trivial, List.mem_cons_self, fun t0 h0 => ?_⟩
  rcases List.mem_cons.1 h0 with rfl | h0
  · exact Nat.le_refl _
  · have := ht t0 h0; omega

omit [NeZero m] in
theorem tracks_recordFailure {rt now : Nat} {h : List Entry} {ph : Phase m} {r : Res}
    (ht : ph.Tracks rt now h) : (ph.recordFailure now).Tracks rt now
      (⟨now, .recordFailure, ph.state, (ph.recordFailure now).state, r⟩ :: h) := by
  cases ph with
  | closed f =>
    by_cases hf : f.val + 1 < m
    · simpa [recordFailure, hf, Tracks, failuresSince, openings, Entry.Opens, Entry.Clears, state]
        using ht
    · simp only [recordFailure, dif_neg hf]
      exact tracks_open ht.2 rfl ⟨by simp [state], rfl⟩ (by simp)
  | «open» t =>
    simpa [recordFailure, Tracks, lastOpening, openings, Entry.Opens, state] using ht
  | halfOpen t s => exact tracks_open ht.2 rfl ⟨by simp [state], rfl⟩ (by simp)

/-- **One call keeps the phase and the history in step.** -/
theorem Tracks.call {rt now : Nat} {h : List Entry} {ph : Phase m} (o : Op)
    (ht : ph.Tracks rt now h) :
    (ph.call rt now o).1.Tracks rt now (ph.entry rt (now, o) :: h) := by
  cases o with
  | state => exact tracks_lapse ht (.inl rfl)
  | allow => exact tracks_lapse ht (.inr rfl)
  | recordSuccess => exact tracks_recordSuccess ht
  | recordFailure => exact tracks_recordFailure ht
  | failureCount => exact ht.stutter rfl (by simp [entry])
  | reset => simp [Phase.call, Tracks, failuresSince, openings, entry, Entry.Clears]

end Phase

section Run

variable {th : UInt32} {rt now : Nat}

theorem entry_toBreaker {ph : Phase (limit th)} {c : Call} (h : ph.At rt c.1) :
    (ph.toBreaker rt).entry c = ph.entry rt c := by
  simp only [CircuitBreaker.entry, Phase.entry, Phase.call_toBreaker c.2 h, Phase.toBreaker_state]

/-- **A run keeps the phase and the history in step.** -/
theorem tracks_history : ∀ {cs : List Call} {t : Nat} {ph : Phase (limit th)} {h : List Entry},
    ph.At rt t → ph.Tracks rt t h → Timed now t cs →
      (ph.after rt cs).Tracks rt now ((ph.toBreaker rt).history h cs)
  | [], _, _, _, _, ht, hc => ht.mono hc
  | c :: cs, _, _, _, hat, ht, hc => by
    have h1 := hat.mono hc.1
    simp only [CircuitBreaker.history, Phase.after, Phase.call_toBreaker c.2 h1, entry_toBreaker h1]
    exact tracks_history (h1.call c.2) ((ht.mono hc.1).call c.2) hc.2

theorem Phase.recordFailure_state {m : Nat} (f : Fin m) :
    ((Phase.closed f).recordFailure now).state = if f.val + 1 < m then .closed else .open := by
  simp only [Phase.recordFailure]; split <;> rfl

theorem Phase.recordSuccess_state {m : Nat} [NeZero m] (t : Nat) (s : Fin 3) :
    (Phase.halfOpen (m := m) t s).recordSuccess.state =
      if s.val + 1 < 3 then .halfOpen else .closed := by
  simp only [Phase.recordSuccess]; split <;> rfl

theorem Phase.Tracks.explains {ph : Phase (limit th)} {h : List Entry} {o : Op}
    (ht : ph.Tracks rt now h) : Explains th rt h (ph.entry rt (now, o)) := by
  cases ph with
  | closed f =>
    obtain ⟨hf, hop⟩ := ht
    refine ⟨fun _ => ?_, fun hb => (by cases hb), fun hb => (by cases hb), ?_⟩
    · cases o with
      | recordFailure =>
        have hlt := f.isLt
        have hlim : limit th = max 1 th.toNat := rfl
        simp only [Phase.entry, Phase.call, Phase.recordFailure_state, hf, true_and]
        split <;> simp <;> omega
      | _ => simp [Phase.entry, Phase.call, Phase.lapse, Phase.recordSuccess, Phase.state]
    · rintro rfl
      simp only [Phase.entry, Phase.call, Phase.lapse, Phase.state, CircuitBreaker.allows]
      refine iff_of_false (fun hb => by cases hb) ?_
      rintro ⟨t0, h0, hlt⟩
      have := hop t0 h0; omega
  | «open» t =>
    obtain ⟨hl, hmem, hmax⟩ := ht
    refine ⟨fun hb => (by cases hb), fun hb => (by cases hb), fun _ => ?_, ?_⟩
    · by_cases hlap : t + rt ≤ now <;> cases o <;>
        simp [Phase.entry, Phase.call, Phase.lapse, Phase.recordSuccess, Phase.recordFailure,
          Phase.state, hlap, hl]
    · rintro rfl
      by_cases hlap : t + rt ≤ now
      · simp only [Phase.entry, Phase.call, Phase.lapse, if_pos hlap, Phase.state,
          CircuitBreaker.allows]
        refine iff_of_false (fun hb => by cases hb) ?_
        rintro ⟨t0, h0, hlt⟩
        have := hmax t0 h0; omega
      · simp only [Phase.entry, Phase.call, Phase.lapse, if_neg hlap, Phase.state,
          CircuitBreaker.allows]
        exact ⟨fun _ => ⟨t, hmem, by omega⟩, fun _ => trivial⟩
  | halfOpen t s =>
    obtain ⟨hs, hop⟩ := ht
    refine ⟨fun hb => (by cases hb), fun _ => ?_, fun hb => (by cases hb), ?_⟩
    · cases o with
      | recordSuccess =>
        have hlt := s.isLt
        simp only [Phase.entry, Phase.call, Phase.recordSuccess_state, hs, true_and]
        split <;> simp <;> omega
      | _ => simp [Phase.entry, Phase.call, Phase.lapse, Phase.recordFailure, Phase.state]
    · rintro rfl
      simp only [Phase.entry, Phase.call, Phase.lapse, Phase.state, CircuitBreaker.allows]
      refine iff_of_false (fun hb => by cases hb) ?_
      rintro ⟨t0, h0, hlt⟩
      have := hop t0 h0; omega

end Run

/-- **The breaker refines its history**: after every sequential run, the history alone
decides what the next call does to the stored state and what `allow` answers. -/
theorem explains_after (th : UInt32) (rt now : Nat) (cs : List Call) (c : Call)
    (h : Timed now 0 (cs ++ [c])) :
    Explains th rt ((CircuitBreaker.new th rt).history [] cs)
      (((CircuitBreaker.new th rt).after cs).entry c) := by
  obtain ⟨t, h1, h2⟩ := h.append
  obtain ⟨he, hat⟩ := reached th rt h1
  have ht : (Phase.start th).Tracks rt 0 [] := ⟨rfl, fun _ h0 => by cases h0⟩
  have hstart : (Phase.start th).At rt 0 := trivial
  have := tracks_history hstart ht h1
  rw [he, entry_toBreaker (hat.mono h2.1)]
  exact (this.mono h2.1).explains

/-- A failure opens a breaker of threshold one, and five later `allow` says no. -/
theorem explains_after_failure :
    Explains 1 10 ((CircuitBreaker.new 1 10).history [] [(0, .recordFailure)])
      (((CircuitBreaker.new 1 10).after [(0, .recordFailure)]).entry (5, .allow)) ∧
    (((CircuitBreaker.new 1 10).after [(0, .recordFailure)]).entry (5, .allow)).res =
      .allowed false :=
  ⟨explains_after 1 10 5 _ _ (by decide), by decide⟩

end Duende.Policy
