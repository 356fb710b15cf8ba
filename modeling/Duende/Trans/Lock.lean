import Duende.Num

/-!
# Fair locks

A lock is held in shared or exclusive mode and given out in the order in which it is asked
for: `ask` joins the queue and `grant` serves the first task of it, when no guard that is
held conflicts. A mutex is a lock that is only asked for exclusively. `Lock.Tracks` ties a
lock to the places where its tasks are, and `Lock.Blocks` says who stands in whose way.
-/

namespace Trans

inductive Mode where
  | shared
  | exclusive
  deriving DecidableEq, Repr

/-- Two guards that may not be held together. -/
def Mode.conflicts : Mode → Mode → Bool
  | .shared, .shared => false
  | _, _ => true

theorem Mode.conflicts_comm {m n : Mode} : m.conflicts n = n.conflicts m := by
  cases m <;> cases n <;> rfl

/-- The guards held and the tasks waiting, first come first. -/
structure Lock (τ : Type*) where
  held : List (τ × Mode)
  queue : List (τ × Mode)
  deriving DecidableEq

namespace Lock

variable {τ : Type*}

def free : Lock τ := ⟨[], []⟩

def ask (l : Lock τ) (t : τ) (m : Mode) : Lock τ := { l with queue := l.queue ++ [(t, m)] }

/-- Serve the first task of the queue; `none` while `t` has to wait. -/
def grant [DecidableEq τ] (l : Lock τ) (t : τ) : Option (Lock τ) :=
  match l.queue with
  | (u, m) :: q =>
    if u = t ∧ ∀ g ∈ l.held, g.2.conflicts m = false then some ⟨(u, m) :: l.held, q⟩ else none
  | [] => none

def release [DecidableEq τ] (l : Lock τ) (t : τ) : Lock τ :=
  { l with held := l.held.filter (·.1 ≠ t) }

/-- Every task is in the queue or holds a guard at most once, and the guards of two tasks
do not conflict. -/
structure Ok (l : Lock τ) : Prop where
  once : ((l.held ++ l.queue).map Prod.fst).Nodup
  compatible : ∀ g ∈ l.held, ∀ g' ∈ l.held, g.2.conflicts g'.2 = true → g.1 = g'.1

theorem ok_free : (free : Lock τ).Ok := ⟨.nil, fun _ h => by cases h⟩

/-- `t` is in the queue behind `u`, or `u` holds a guard that conflicts with what `t` asks
for. -/
def Blocks (l : Lock τ) (t u : τ) : Prop :=
  ∃ pre m post, l.queue = pre ++ (t, m) :: post ∧
    ((∃ n, (u, n) ∈ pre) ∨ ∃ n, (u, n) ∈ l.held ∧ n.conflicts m = true)

/-- A lock whose queue and guards are those of tasks that are, as `asks` and `holds` say,
about to be given the lock or hold it. -/
structure Tracks (l : Lock τ) (asks holds : τ → Option Mode) : Prop where
  ok : l.Ok
  queue : ∀ t m, (t, m) ∈ l.queue ↔ asks t = some m
  held : ∀ t m, (t, m) ∈ l.held ↔ holds t = some m

variable {l l' : Lock τ} {asks holds : τ → Option Mode} {t u : τ} {m n : Mode}

theorem tracks_free : (free : Lock τ).Tracks (fun _ => none) (fun _ => none) :=
  ⟨ok_free, by simp [free], by simp [free]⟩

theorem Tracks.exclusive (h : l.Tracks asks holds) (ht : holds t = some m)
    (hu : holds u = some n) (hc : m.conflicts n = true) : t = u :=
  h.ok.compatible _ ((h.held t m).2 ht) _ ((h.held u n).2 hu) hc

theorem Blocks.queued (h : l.Blocks t u) : ∃ m, (t, m) ∈ l.queue := by
  obtain ⟨pre, m, post, hq, -⟩ := h
  exact ⟨m, by simp [hq]⟩

/-- Nobody stands before the first of the queue, so only guards block it. -/
theorem Ok.blocks_head {q : List (τ × Mode)} (h : l.Ok) (hq : l.queue = (t, m) :: q)
    (hb : l.Blocks t u) : ∃ n, (u, n) ∈ l.held ∧ n.conflicts m = true := by
  obtain ⟨pre, m', post, hq', hb⟩ := hb
  have honce : (((t, m) :: q).map Prod.fst).Nodup := by
    rw [← hq]
    exact h.once.sublist ((List.sublist_append_right _ _).map _)
  rw [hq] at hq'
  cases pre with
  | nil =>
    cases hq'
    rcases hb with ⟨n, hn⟩ | hb
    · cases hn
    · exact hb
  | cons g pre =>
    -- `t` would be in the queue twice
    obtain ⟨rfl, rfl⟩ := List.cons.inj hq'
    simp at honce

/-- Tasks that are all blocked, and only by one another, have a holder among them as soon as
one of them is in the queue. -/
theorem Ok.exists_holder {T : Set τ} (h : l.Ok) (hT : ∀ t ∈ T, ∀ u, l.Blocks t u → u ∈ T)
    (hw : ∀ t ∈ T, ∀ m, (t, m) ∈ l.queue → ∃ u, l.Blocks t u) (ht : t ∈ T)
    (hm : (t, m) ∈ l.queue) : ∃ u ∈ T, ∃ n, (u, n) ∈ l.held := by
  obtain ⟨pre, post, hq⟩ := List.append_of_mem hm
  cases hl : l.queue with
  | nil => rw [hl] at hm; cases hm
  | cons g q =>
    obtain ⟨v, mv⟩ := g
    have hv : v ∈ T := by
      cases pre with
      | nil => rw [hl] at hq; cases hq; exact ht
      | cons g pre =>
        have hg : g = (v, mv) := by rw [hl] at hq; exact (List.cons.inj hq).1.symm
        exact hT t ht v ⟨_, m, post, hq, .inl ⟨mv, by simp [hg]⟩⟩
    obtain ⟨u, hu⟩ := hw v hv mv (by simp [hl])
    obtain ⟨n, hn, -⟩ := h.blocks_head hl hu
    exact ⟨u, hT v hv u hu, n, hn⟩

/-- If none of these tasks holds the lock, none of them is in its queue. -/
theorem Ok.not_queued {T : Set τ} (h : l.Ok) (hT : ∀ t ∈ T, ∀ u, l.Blocks t u → u ∈ T)
    (hw : ∀ t ∈ T, ∀ m, (t, m) ∈ l.queue → ∃ u, l.Blocks t u)
    (hh : ∀ t ∈ T, ∀ m, (t, m) ∉ l.held) : ∀ t ∈ T, ∀ m, (t, m) ∉ l.queue := by
  intro t ht m hm
  obtain ⟨u, hu, n, hn⟩ := h.exists_holder hT hw ht hm
  exact hh u hu n hn

section

variable [DecidableEq τ]

theorem grant_some (h : l.grant t = some l') : ∃ m q, l.queue = (t, m) :: q ∧
    (∀ g ∈ l.held, g.2.conflicts m = false) ∧ l' = ⟨(t, m) :: l.held, q⟩ := by
  unfold grant at h
  split at h
  · rename_i u m q hq
    split at h
    · rename_i hc
      obtain ⟨rfl, hc⟩ := hc
      cases h; exact ⟨m, q, hq, hc, rfl⟩
    · cases h
  · cases h

theorem Tracks.ask (h : l.Tracks asks holds) (ha : asks t = none) (hh : holds t = none) :
    (l.ask t m).Tracks (Function.update asks t (some m)) holds where
  ok := by
    have hq : ∀ n, (t, n) ∉ l.queue := fun n hn => by rw [h.queue, ha] at hn; cases hn
    have hg : ∀ n, (t, n) ∉ l.held := fun n hn => by rw [h.held, hh] at hn; cases hn
    refine ⟨?_, h.ok.compatible⟩
    have hnew : t ∉ (l.held ++ l.queue).map Prod.fst := by
      rw [List.mem_map]
      rintro ⟨⟨t', n⟩, hmem, rfl⟩
      rcases List.mem_append.1 hmem with hm | hm
      · exact hg n hm
      · exact hq n hm
    show ((l.held ++ (l.queue ++ [(t, m)])).map Prod.fst).Nodup
    rw [← List.append_assoc, List.map_append, List.nodup_append]
    refine ⟨h.ok.once, by simp, ?_⟩
    intro a ha' b hb hab
    have hb' : b = t := by simpa using hb
    rw [hab, hb'] at ha'
    exact hnew ha'
  queue := by
    intro u n
    by_cases e : u = t
    · subst e
      have hq : (u, n) ∉ l.queue := fun hn => by rw [h.queue, ha] at hn; cases hn
      simp [Lock.ask, hq, eq_comm]
    · simp [Lock.ask, e, h.queue]
  held := h.held

theorem Tracks.grant (h : l.Tracks asks holds) (hg : l.grant t = some l') :
    ∃ m, asks t = some m ∧
      l'.Tracks (Function.update asks t none) (Function.update holds t (some m)) := by
  obtain ⟨m, q, hq, hc, rfl⟩ := grant_some hg
  have hm : asks t = some m := (h.queue t m).1 (by rw [hq]; simp)
  have honce := h.ok.once
  rw [hq] at honce
  have hperm : ((((t, m) :: l.held) ++ q).map Prod.fst).Perm
      ((l.held ++ (t, m) :: q).map Prod.fst) :=
    (List.perm_middle.symm).map _
  have hnodup : ((((t, m) :: l.held) ++ q).map Prod.fst).Nodup := hperm.nodup_iff.2 honce
  have hout : ∀ n, (t, n) ∉ l.held ∧ (t, n) ∉ q := by
    intro n
    have := (List.nodup_cons.1 hnodup).1
    constructor <;> intro hn <;> exact this (List.mem_map.2 ⟨(t, n), by simp [hn], rfl⟩)
  refine ⟨m, hm, ⟨hnodup, ?_⟩, ?_, ?_⟩
  · intro g hgm g' hgm' hcon
    rcases List.mem_cons.1 hgm with rfl | hgm
    · rcases List.mem_cons.1 hgm' with rfl | hgm'
      · rfl
      · rw [Mode.conflicts_comm, hc g' hgm'] at hcon; cases hcon
    · rcases List.mem_cons.1 hgm' with rfl | hgm'
      · rw [hc g hgm] at hcon; cases hcon
      · exact h.ok.compatible g hgm g' hgm' hcon
  · intro u n
    by_cases e : u = t
    · subst e; simp [(hout n).2]
    · have := h.queue u n
      rw [hq] at this
      simpa [e] using this
  · intro u n
    by_cases e : u = t
    · subst e; simp [(hout n).1, eq_comm]
    · have := h.held u n
      simpa [e] using this

theorem Tracks.release (h : l.Tracks asks holds) :
    (l.release t).Tracks asks (Function.update holds t none) where
  ok := by
    refine ⟨?_, fun g hg g' hg' => h.ok.compatible g (List.mem_of_mem_filter hg) g'
      (List.mem_of_mem_filter hg')⟩
    exact h.ok.once.sublist ((List.filter_sublist.append_right _).map _)
  queue := h.queue
  held := by
    intro u n
    by_cases e : u = t
    · subst e; simp [Lock.release]
    · simp [Lock.release, e, h.held]

/-- What happens to a lock and to the place of one task: nothing, or the task joins the queue,
is served or drops its guard. -/
inductive Moves (l : Lock τ) (t : τ) : Lock τ → (asks holds asks' holds' : Option Mode) → Prop where
  | keep {a h : Option Mode} : Moves l t l a h a h
  | ask (m : Mode) : Moves l t (l.ask t m) none none (some m) none
  | grant {m : Mode} {l' : Lock τ} (served : l.grant t = some l') :
    Moves l t l' (some m) none none (some m)
  | release {a : Option Mode} {m : Mode} : Moves l t (l.release t) a (some m) a none

theorem Tracks.moves {a h : Option Mode} (hl : l.Tracks asks holds)
    (hm : l.Moves t l' (asks t) (holds t) a h) :
    l'.Tracks (Function.update asks t a) (Function.update holds t h) := by
  generalize ha : asks t = a0 at hm
  generalize hh : holds t = h0 at hm
  cases hm with
  | keep => rw [← ha, ← hh, Function.update_eq_self, Function.update_eq_self]; exact hl
  | ask m =>
    rw [← hh, Function.update_eq_self]
    exact hl.ask ha hh
  | grant served =>
    obtain ⟨m', hm', hl'⟩ := hl.grant served
    cases ha.symm.trans hm'
    exact hl'
  | release => rw [← ha, Function.update_eq_self]; exact hl.release

/-- A task of the queue is not served exactly when somebody stands in its way. -/
theorem Ok.grant_eq_none (h : l.Ok) (hm : (t, m) ∈ l.queue) :
    l.grant t = none ↔ ∃ u, l.Blocks t u := by
  obtain ⟨pre, post, hq⟩ := List.append_of_mem hm
  cases pre with
  | nil =>
    simp only [List.nil_append] at hq
    simp only [grant, hq, true_and, ite_eq_right_iff, reduceCtorEq, imp_false, not_forall,
      exists_prop, Bool.not_eq_false]
    constructor
    · rintro ⟨⟨u, n⟩, hu, hc⟩
      exact ⟨u, [], m, post, hq, .inr ⟨n, hu, hc⟩⟩
    · rintro ⟨u, hu⟩
      obtain ⟨n, hn, hc⟩ := h.blocks_head hq hu
      exact ⟨_, hn, hc⟩
  | cons g pre =>
    obtain ⟨v, mv⟩ := g
    refine iff_of_true ?_ ⟨v, _, m, post, hq, .inl ⟨mv, by simp⟩⟩
    have hne : v ≠ t := by
      rintro rfl
      have honce := h.once.sublist ((List.sublist_append_right _ _).map _)
      rw [hq] at honce
      simp at honce
    simp [grant, hq, hne]

end

end Lock

end Trans
