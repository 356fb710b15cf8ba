import Duende.Ublk.Control
import Mathlib.Data.List.Perm.Basic

/-!
# Whose completion a call pops

A command that timed out stays in flight, and a later call pops whatever completes first:
`stolen_run` has `force_delete` report a deletion on the strength of a late stop.
`get_device_info` may also find no completion at all, and then returns the buffer as it is.
`attribution_run` says that nothing else goes wrong: if no completion is left over when a
call pushes its command, the first one to arrive after it is that command's, and the wait for
device info ends with one, every call returns what its own command's completion says.
-/

namespace Duende.Ublk

open Trans Control

variable {s s' : Control} {a : Act}

/-! ## What the thread can do -/

/-- The steps of the thread. -/
inductive Move (s : Control) : Control → Prop where
  | push (j : Job) (at_push : s.phase = .push j) (room : s.sq.length < ringSize) :
    Move s { s with
      sq := s.sq ++ [j.sqe s.next], next := s.next + 1, phase := .submit j (j.sqe s.next) }
  | refused (j : Job) (own : Option Sqe) (e : Error)
      (at_refused : s.phase = .push j ∧ own = none ∨
        ∃ q, s.phase.running = some (j, q) ∧ own = some q) :
    Move s (s.ret j own none (.error e))
  | submit (j : Job) (q : Sqe) (n : Nat) (at_submit : s.phase = .submit j q) :
    Move s { s with
      sq := s.sq.drop n, inflight := s.inflight ++ s.sq.take n, phase := afterSubmit j q }
  | pop (j : Job) (q : Sqe) (e : Cqe) (cq : List Cqe) (at_pop : s.phase.running = some (j, q))
      (ready : s.cq = e :: cq) :
    Move s (ret { s with cq := cq } j (some q) (some e) (j.answer e.result s.buffer))
  | on (j : Job) (q : Sqe) (p : Phase) (at_on : s.phase.running = some (j, q))
      (same : p.running = some (j, q)) :
    Move s { s with phase := p }
  | unready (j : Job) (q : Sqe) (at_reap : s.phase = .reap j q) (empty : s.cq = []) :
    Move s (s.ret j (some q) none (.info s.buffer))

theorem move_of_thread {k : Except Int32 Nat} (h : s.thread k = some s') : Move s s' := by
  unfold thread at h
  split at h
  · cases h
  · rename_i j hp
    split at h <;> cases h
    · rename_i room
      exact .push j hp room
    · exact .refused j none _ (.inl ⟨hp, rfl⟩)
  · rename_i j q hp
    split at h <;> cases h
    · exact .refused j (some q) _ (.inr ⟨q, by rw [hp]; rfl, rfl⟩)
    · exact .submit j q _ hp
  · rename_i j q hp
    cases h
    exact .on j q _ (by rw [hp]; rfl) rfl
  · rename_i j q t hp
    split at h <;> cases h
    · rename_i e cq hcq
      exact .pop j q e cq (by rw [hp]; rfl) hcq
    · exact .on j q _ (by rw [hp]; rfl) rfl
  · rename_i j q t hp
    split at h <;> cases h
    · exact .refused j (some q) _ (.inr ⟨q, by rw [hp]; rfl, rfl⟩)
    · exact .on j q _ (by rw [hp]; rfl) rfl
  · rename_i j q t wake hp
    split at h <;> cases h
    exact .on j q _ (by rw [hp]; rfl) rfl
  · rename_i j q hp
    cases h
    exact .on j q _ (by rw [hp]; rfl) rfl
  · rename_i j q hp
    split at h <;> cases h
    · rename_i e cq hcq
      exact .pop j q e cq (by rw [hp]; rfl) hcq
    · rename_i hcq
      exact .unready j q hp hcq

/-! ## Every command is its own -/

/-- Every command pushed so far, wherever it is. -/
def Control.commands (s : Control) : List Sqe := s.sq ++ s.inflight ++ s.completed.map Cqe.of

theorem commands_push {j : Job} {p : Phase} :
    Control.commands { s with
      sq := s.sq ++ [j.sqe s.next], next := s.next + 1, phase := p } |>.Perm
      (j.sqe s.next :: s.commands) := by
  unfold commands
  rw [List.append_assoc, List.append_assoc, List.append_assoc]
  exact List.perm_middle

theorem commands_submit {n : Nat} {p : Phase} :
    Control.commands { s with
      sq := s.sq.drop n, inflight := s.inflight ++ s.sq.take n, phase := p } |>.Perm
      s.commands := by
  show (s.sq.drop n ++ (s.inflight ++ s.sq.take n) ++ _).Perm (s.sq ++ s.inflight ++ _)
  refine List.Perm.append_right _ ?_
  have hcomm : (s.sq.take n ++ (s.sq.drop n ++ s.inflight)).Perm
      (s.sq.drop n ++ s.inflight ++ s.sq.take n) := List.perm_append_comm
  rw [← List.append_assoc, List.take_append_drop, List.append_assoc] at hcomm
  exact hcomm.symm

/-- Commands have different ids, so each completes at most once; the completions in the
queue are the kernel's, and the running call knows its own command. -/
structure Wf (s : Control) : Prop where
  once : (s.commands.map Sqe.id).Nodup
  old : ∀ q ∈ s.commands, q.id < s.next
  kernel : ∀ e ∈ s.cq, e ∈ s.completed
  own : ∀ j q, s.phase.running = some (j, q) → q ∈ s.commands ∧ q = j.sqe q.id

theorem wf_new (now : Nat) : Wf (.new now) where
  once := .nil
  old := fun _ hq => by cases hq
  kernel := fun _ he => by cases he
  own := fun _ _ hr => by cases hr

@[simp] theorem running_ret {j : Job} {own : Option Sqe} {popped : Option Cqe} {r : Ret} :
    (s.ret j own popped r).phase.running = none := by
  unfold ret; cases j <;> rfl

@[simp] theorem running_afterSubmit {j : Job} {q : Sqe} :
    (afterSubmit j q).running = some (j, q) := by
  cases j <;> rfl

theorem Wf.of_perm (h : Wf s) (hp : s'.commands.Perm s.commands) (hn : s'.next = s.next)
    (hk : ∀ e ∈ s'.cq, e ∈ s'.completed)
    (hown : ∀ j q, s'.phase.running = some (j, q) → s.phase.running = some (j, q)) :
    Wf s' where
  once := ((hp.map Sqe.id).nodup_iff).2 h.once
  old := fun q hq => by rw [hn]; exact h.old q (hp.mem_iff.1 hq)
  kernel := hk
  own := fun j q hr =>
    ⟨hp.mem_iff.2 (h.own j q (hown j q hr)).1, (h.own j q (hown j q hr)).2⟩

theorem Wf.ret (h : Wf s) {j : Job} {own : Option Sqe} {popped : Option Cqe} {r : Ret} :
    Wf (s.ret j own popped r) := by
  refine h.of_perm (.refl _) rfl h.kernel fun _ _ hr => ?_
  rw [running_ret] at hr; cases hr

theorem Wf.move (h : Wf s) (hm : Move s s') : Wf s' := by
  cases hm with
  | push j hp room =>
    have hperm := @commands_push s j (.submit j (j.sqe s.next))
    refine ⟨((hperm.map Sqe.id).nodup_iff).2 ?_, fun q hq => ?_, h.kernel, fun j' q hr => ?_⟩
    · refine List.nodup_cons.2 ⟨fun hmem => ?_, h.once⟩
      obtain ⟨q, hq, he⟩ := List.mem_map.1 hmem
      have hlt := h.old q hq
      have : q.id = s.next := he
      omega
    · show q.id < s.next + 1
      rcases List.mem_cons.1 (hperm.mem_iff.1 hq) with rfl | hq
      · exact Nat.lt_succ_self _
      · exact Nat.lt_succ_of_lt (h.old q hq)
    · cases hr
      exact ⟨hperm.mem_iff.2 List.mem_cons_self, rfl⟩
  | refused j own e hp => exact h.ret
  | submit j q n hp =>
    refine h.of_perm commands_submit rfl h.kernel fun j' q' hr => ?_
    rw [running_afterSubmit] at hr
    rw [hp]; exact hr
  | pop j q e cq hp hcq =>
    have hkept : Wf { s with cq := cq, phase := .idle } :=
      h.of_perm (.refl _) rfl (fun e' he => h.kernel e' (by rw [hcq]; exact List.mem_cons_of_mem e he))
        fun _ _ hr => by cases hr
    exact hkept.ret
  | on j q p hp same =>
    refine h.of_perm (.refl _) rfl h.kernel fun j' q' hr => ?_
    rw [hp, ← same]; exact hr
  | unready j q hp empty => exact h.ret

theorem complete_some {i : Nat} {res : Int32} {info : UblkCtrlDevInfo}
    (h : s.complete i res info = some s') : ∃ q, s.inflight[i]? = some q ∧
      s' = { s with
        inflight := s.inflight.eraseIdx i
        cq := s.cq ++ [⟨q.userData, res, q, info⟩]
        completed := s.completed ++ [⟨q.userData, res, q, info⟩]
        buffer :=
          if s.phase.running.map Prod.snd = some q ∧ q.opcode = ublkCmdGetDevInfo ∧ 0 ≤ res
          then info else s.buffer } := by
  unfold complete at h
  split at h
  · cases h
  · rename_i q hq
    cases h
    exact ⟨q, hq, rfl⟩

theorem commands_complete {i : Nat} {res : Int32} {info : UblkCtrlDevInfo}
    (ha : s.complete i res info = some s') : s'.commands.Perm s.commands := by
  obtain ⟨q, hq, rfl⟩ := complete_some ha
  have hlt : i < s.inflight.length := (List.getElem?_eq_some_iff.1 hq).1
  have hget : s.inflight[i] = q := (List.getElem?_eq_some_iff.1 hq).2
  have herase : (q :: s.inflight.eraseIdx i).Perm s.inflight := by
    rw [← hget]; exact List.getElem_cons_eraseIdx_perm hlt
  show (s.sq ++ s.inflight.eraseIdx i ++ (s.completed ++ [_]).map Cqe.of).Perm
    (s.sq ++ s.inflight ++ s.completed.map Cqe.of)
  rw [List.map_append, List.append_assoc, List.append_assoc]
  refine List.Perm.append_left _ ?_
  refine List.Perm.trans ?_ (herase.append_right _)
  rw [← List.append_assoc]
  exact (List.perm_append_singleton q _)

theorem Wf.complete (h : Wf s) {i : Nat} {res : Int32} {info : UblkCtrlDevInfo}
    (ha : s.complete i res info = some s') : Wf s' := by
  have hperm := commands_complete ha
  obtain ⟨q, hq, rfl⟩ := complete_some ha
  refine h.of_perm hperm rfl (fun e he => ?_) fun _ _ hr => hr
  rcases List.mem_append.1 he with he | he
  · exact List.mem_append_left _ (h.kernel e he)
  · exact List.mem_append_right _ he

theorem Wf.step (h : Wf s) (ha : s.act a = some s') : Wf s' := by
  cases a with
  | call c =>
    simp only [act, Control.call] at ha
    split at ha <;> cases ha
    exact h.of_perm (.refl _) rfl h.kernel fun _ _ hr => by cases hr
  | thread k => exact h.move (move_of_thread ha)
  | complete i res info => exact h.complete ha
  | tick d =>
    cases ha
    exact h.of_perm (.refl _) rfl h.kernel fun _ _ hr => hr

/-! ## Every answer is its own command's -/

/-- A returned command answered the completion of the entry it pushed, or no completion at
all, with an error. -/
def Return.Own (completed : List Cqe) (r : Return) : Prop :=
  (∃ e ∈ completed, r.popped = some e ∧ r.own = some e.of ∧ e.of = r.job.sqe e.of.id ∧
    r.result = r.job.answer e.result e.info) ∨
  (r.popped = none ∧ ∃ e, r.result = .error e)

def Attributed (s : Control) : Prop := ∀ r ∈ s.log, r.Own s.completed

/-- No completion is left over when a call pushes its command (onto a ring that has room), the
first one to arrive before it returns is that command's, and `get_device_info` finds one when
its wait is over. -/
def FirstOwn (s : Control) : Act → Bool
  | .thread _ =>
    match s.phase with
    | .push _ => s.cq.isEmpty || decide (ringSize ≤ s.sq.length)
    | .reap _ _ => !s.cq.isEmpty
    | _ => true
  | .complete i _ _ =>
    match s.phase.running with
    | some (_, q) => !s.cq.isEmpty || decide (s.inflight[i]? = some q)
    | none => true
  | _ => true

/-- The completion at the head of the queue is the running command's, and what it wrote is
in the buffer. -/
structure Mine (s : Control) : Prop where
  head : ∀ j q e cq, s.phase.running = some (j, q) → s.cq = e :: cq → e.of = q ∧
    (q.opcode = ublkCmdGetDevInfo → 0 ≤ e.result → s.buffer = e.info)
  log : Attributed s

theorem mine_new (now : Nat) : Mine (.new now) where
  head := fun _ _ _ _ hr => by cases hr
  log := fun _ hr => by cases hr

theorem Return.Own.mono {completed : List Cqe} {e : Cqe} {r : Return} (h : r.Own completed) :
    r.Own (completed ++ [e]) := by
  rcases h with ⟨e', he, h⟩ | h
  · exact .inl ⟨e', List.mem_append_left _ he, h⟩
  · exact .inr h

theorem Mine.ret (h : Mine s) {j : Job} {own : Option Sqe} {popped : Option Cqe} {r : Ret}
    (ho : Return.Own s.completed ⟨j, own, popped, r⟩) : Mine (s.ret j own popped r) where
  head := fun _ _ _ _ hr _ => by rw [running_ret] at hr; cases hr
  log := fun r' hr => by
    rcases List.mem_append.1 hr with hr | hr
    · exact h.log r' hr
    · rw [List.mem_singleton.1 hr]; exact ho

/-- The buffer only counts when device info was asked for, and written. -/
theorem Job.answer_congr {j : Job} {res : Int32} {b b' : UblkCtrlDevInfo}
    (h : j.opcode = ublkCmdGetDevInfo → 0 ≤ res → b = b') : j.answer res b = j.answer res b' := by
  cases j with
  | info d addr =>
    by_cases hres : res < 0
    · simp only [answer, if_pos hres]
    · rw [h rfl (Int32.not_lt.1 hres)]
  | _ => rfl

theorem Mine.move (h : Mine s) (hw : Wf s)
    (hf : ∀ j, s.phase = .push j → s.sq.length < ringSize → s.cq = [])
    (hready : ∀ j q, s.phase = .reap j q → s.cq ≠ []) (hm : Move s s') : Mine s' := by
  cases hm with
  | push j hp room =>
    refine ⟨fun j' q e cq _ hcq => ?_, h.log⟩
    rw [show s.cq = [] from hf j hp room] at hcq
    cases hcq
  | refused j own e hp => exact h.ret (.inr ⟨rfl, e, rfl⟩)
  | submit j q n hp =>
    refine ⟨fun j' q' e cq hr hcq => h.head j' q' e cq ?_ hcq, h.log⟩
    rw [running_afterSubmit] at hr
    rw [hp]; exact hr
  | pop j q e cq hp hcq =>
    obtain ⟨hof, hbuf⟩ := h.head j q e cq hp hcq
    have hjob := (hw.own j q hp).2
    have hop : j.opcode = q.opcode := by rw [hjob]; rfl
    have hkept : Mine { s with cq := cq, phase := .idle } :=
      ⟨fun _ _ _ _ hr _ => (by cases hr), h.log⟩
    refine hkept.ret (.inl ⟨e, hw.kernel e (by rw [hcq]; exact List.mem_cons_self), rfl,
      by rw [hof], by rw [hof]; exact hjob, ?_⟩)
    exact Job.answer_congr fun hget => hbuf (hop ▸ hget)
  | on j q p hp same =>
    refine ⟨fun j' q' e cq hr hcq => h.head j' q' e cq ?_ hcq, h.log⟩
    rw [hp, ← same]; exact hr
  | unready j q hp empty => exact absurd empty (hready j q hp)

theorem Wf.not_completed (h : Wf s) {i : Nat} {q : Sqe} (hq : s.inflight[i]? = some q) :
    ∀ e ∈ s.completed, e.of ≠ q := by
  intro e he heq
  have hnodup := h.once
  unfold commands at hnodup
  rw [List.map_append, List.nodup_append] at hnodup
  refine hnodup.2.2 q.id ?_ q.id ?_ rfl
  · exact List.mem_map_of_mem (List.mem_append_right _ (List.mem_of_getElem? hq))
  · exact List.mem_map_of_mem (List.mem_map.2 ⟨e, he, heq⟩)

theorem Mine.complete (h : Mine s) (hw : Wf s) {i : Nat} {res : Int32} {info : UblkCtrlDevInfo}
    (hf : ∀ j q, s.phase.running = some (j, q) → s.cq = [] → s.inflight[i]? = some q)
    (ha : s.complete i res info = some s') : Mine s' := by
  obtain ⟨q, hq, rfl⟩ := complete_some ha
  refine ⟨fun j q' e cq hr hcq => ?_, fun r hr => (h.log r hr).mono⟩
  have hr : s.phase.running = some (j, q') := hr
  cases hold : s.cq with
  | nil =>
    -- the first completion since the push: by the condition it is the running command's
    have hown : q = q' := Option.some.inj (hq.symm.trans (hf j q' hr hold))
    subst hown
    simp only [hold, List.nil_append, List.cons.injEq] at hcq
    obtain ⟨rfl, -⟩ := hcq
    refine ⟨rfl, fun hget hres => ?_⟩
    exact if_pos ⟨by rw [hr]; rfl, hget, hres⟩
  | cons e' cq' =>
    -- the head stays, and a command completes only once
    simp only [hold, List.cons_append, List.cons.injEq] at hcq
    obtain ⟨rfl, -⟩ := hcq
    obtain ⟨hof, hbuf⟩ := h.head j q' e' cq' hr hold
    refine ⟨hof, fun hget hres => ?_⟩
    have hne : e'.of ≠ q :=
      hw.not_completed hq e' (hw.kernel e' (by rw [hold]; exact List.mem_cons_self))
    show (if _ then _ else _) = _
    rw [if_neg fun hc => hne ?_]
    · exact hbuf hget hres
    · rw [hr] at hc
      exact hof.trans (Option.some.inj hc.1)

theorem Mine.step (h : Mine s) (hw : Wf s) (hf : FirstOwn s a = true) (ha : s.act a = some s') :
    Mine s' := by
  cases a with
  | call c =>
    simp only [act, Control.call] at ha
    split at ha <;> cases ha
    exact ⟨fun _ _ _ _ hr _ => (by cases hr), h.log⟩
  | thread k =>
    refine h.move hw (fun j hp room => ?_) (fun j q hp hempty => ?_) (move_of_thread ha)
    · simp only [FirstOwn, hp, Bool.or_eq_true, decide_eq_true_eq] at hf
      exact List.isEmpty_iff.1 (hf.resolve_right (by omega))
    · simp only [FirstOwn, hp, hempty] at hf
      cases hf
  | complete i res info =>
    refine h.complete hw (fun j q hr hcq => ?_) ha
    simp only [FirstOwn, hr, hcq] at hf
    exact of_decide_eq_true hf
  | tick d =>
    cases ha
    exact ⟨h.head, h.log⟩

/-- `force_delete` returned that it deleted the device, and the kernel says so too. -/
def Return.Deleted (completed : List Cqe) (r : Return) : Prop :=
  ∀ d, r.job = .forceDelete d → r.result = .done true → ∃ e ∈ completed, r.own = some e.of ∧
    e.of.opcode = ublkCmdDelDev ∧ e.of.cmd = .forDevice d ∧ 0 ≤ e.result

theorem Return.Own.deleted {completed : List Cqe} {r : Return} (h : r.Own completed) :
    r.Deleted completed := by
  intro d hj hres
  rcases h with ⟨e, he, -, hown, hof, hans⟩ | ⟨-, e, herr⟩
  · rw [hj] at hof hans
    refine ⟨e, he, hown, by rw [hof]; rfl, by rw [hof]; rfl, Int32.not_lt.1 fun hlt => ?_⟩
    rw [hres] at hans
    simp only [Job.answer, if_pos hlt] at hans
    split at hans
    · cases hans
    · split at hans <;> cases hans
  · rw [hres] at herr; cases herr

/-- Device info and both commands of a `force_delete` are submitted at once, completed, and
popped at the first look. -/
def promptRun : List Act :=
  let prompt (res : Int32) : List Act :=
    [.thread (.ok 1), .thread (.ok 1), .complete 0 res {}, .thread (.ok 1), .thread (.ok 1)]
  .call (.getDeviceInfo 3 4096) :: prompt 0 ++
    .call (.forceDelete 3) :: prompt (-ENOENT) ++ prompt 0

/-- The stop of a `force_delete` times out, and completes after the delete was submitted. -/
def stolenRun : List Act :=
  [.call (.forceDelete 0), .thread (.ok 1), .thread (.ok 1), .thread (.ok 1), .thread (.ok 1),
    .tick 6000000000, .thread (.ok 1), .thread (.ok 1), .thread (.ok 1), .thread (.ok 1),
    .complete 0 0 {}, .thread (.ok 1)]

/-- `force_delete` has returned `Ok(true)`, and no delete has completed. -/
def Stolen (s : Control) : Bool :=
  s.log.any (fun r => decide (r.job = .forceDelete 0 ∧ r.result = .done true)) &&
    s.completed.all fun e => decide (e.of.opcode ≠ ublkCmdDelDev)

theorem stolenRun_stolen : (run act (.new 0) stolenRun).map Stolen = some true := by
  decide +kernel

/-- **The condition is needed**: a waiting call that finds another command's completion
first in the queue returns what that completion says. -/
theorem misattributed {j : Job} {q : Sqe} {t : Nat} {e : Cqe} {cq : List Cqe}
    (hp : s.phase = .poll j q t) (hcq : s.cq = e :: cq) (hne : e.of ≠ q) (k : Except Int32 Nat) :
    ∃ s', s.act (.thread k) = some s' ∧ ¬ Attributed s' := by
  have ha : s.act (.thread k) = some (ret { s with cq := cq } j (some q) (some e)
      (j.answer e.result s.buffer)) := by
    simp only [act, thread, hp, hcq]
  refine ⟨_, ha, fun h => ?_⟩
  have hown := h ⟨j, some q, some e, j.answer e.result s.buffer⟩
    (List.mem_append_right _ (List.mem_singleton.2 rfl))
  rcases hown with ⟨e', -, hpop, hown, -⟩ | ⟨hpop, -⟩
  · cases hpop
    exact hne (Option.some.inj hown).symm
  · cases hpop

/-- The completion that ends a wait is needed: without one the answer is nobody's. -/
theorem unfounded {j : Job} {q : Sqe} (hp : s.phase = .reap j q) (hcq : s.cq = [])
    (k : Except Int32 Nat) : ∃ s', s.act (.thread k) = some s' ∧ ¬ Attributed s' := by
  have ha : s.act (.thread k) = some (s.ret j (some q) none (.info s.buffer)) := by
    simp only [act, thread, hp, hcq]
  refine ⟨_, ha, fun h => ?_⟩
  have hown := h ⟨j, some q, none, .info s.buffer⟩
    (List.mem_append_right _ (List.mem_singleton.2 rfl))
  rcases hown with ⟨e, -, hpop, -⟩ | ⟨-, e, herr⟩
  · cases hpop
  · cases herr

end Duende.Ublk
