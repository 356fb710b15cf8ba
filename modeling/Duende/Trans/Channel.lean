import Duende.Num

/-!
# Bounded channels

A channel queues at most `cap` messages, oldest first. `Chan.offer` is the atomic step of
a send: it is refused when the receiver is gone and waits (`none`) while the queue is
full. `Chan.recv` waits while the queue is empty and some sender is left.
-/

namespace Trans

/-- A channel: the messages queued, the number of senders, and whether the receiver is
alive. -/
structure Chan (α : Type*) (cap : Nat) where
  queue : List α
  senders : Nat
  receiver : Bool
  bounded : queue.length ≤ cap
  deriving DecidableEq

namespace Chan

variable {α : Type*} {cap : Nat}

def new : Chan α cap := ⟨[], 1, true, Nat.zero_le cap⟩

/-- A send waits: the receiver is alive and no slot is free. -/
def Full (ch : Chan α cap) : Prop := ch.receiver = true ∧ cap ≤ ch.queue.length

instance (ch : Chan α cap) : Decidable ch.Full := inferInstanceAs (Decidable (_ ∧ _))

/-- One more message, if there is a slot for it. -/
def push (ch : Chan α cap) (a : α) (h : ch.queue.length < cap) : Chan α cap :=
  { ch with queue := ch.queue ++ [a], bounded := by simpa using h }

/-- The atomic step of a send; the flag says whether the message is accepted. -/
def offer (ch : Chan α cap) (a : α) : Option (Chan α cap × Bool) :=
  if ch.receiver = false then some (ch, false)
  else if h : ch.queue.length < cap then some (ch.push a h, true)
  else none

/-- The oldest message, if there is one. -/
def tryRecv (ch : Chan α cap) : Chan α cap × Option α :=
  match h : ch.queue with
  | [] => (ch, none)
  | a :: q => ({ ch with queue := q, bounded := by have := ch.bounded; simp [h] at this; omega },
      some a)

/-- The oldest message; `none` inside when all senders are gone, `none` outside while it
waits. -/
def recv (ch : Chan α cap) : Option (Chan α cap × Option α) :=
  if ch.queue = [] ∧ ch.senders ≠ 0 then none else some ch.tryRecv

/-- The receiver is dropped, and the messages queued with it. -/
def close (ch : Chan α cap) : Chan α cap :=
  { ch with queue := [], receiver := false, bounded := Nat.zero_le cap }

def cloneSender (ch : Chan α cap) : Chan α cap := { ch with senders := ch.senders + 1 }

def dropSender (ch : Chan α cap) : Chan α cap := { ch with senders := ch.senders - 1 }

variable {ch ch' : Chan α cap} {a : α}

theorem offer_eq_none : ch.offer a = none ↔ ch.Full := by
  unfold offer Full
  split
  · rename_i h; simp [h]
  · rename_i h
    have : ch.receiver = true := by simpa using h
    split <;> simp [this] <;> omega

/-- **What an offer can do**: it is accepted and queued last, or refused. -/
theorem offer_cases {ok : Bool} (h : ch.offer a = some (ch', ok)) :
    (ok = true ∧ ch.receiver = true ∧ ∃ hq : ch.queue.length < cap, ch' = ch.push a hq) ∨
      (ok = false ∧ ch.receiver = false ∧ ch' = ch) := by
  unfold offer at h
  split at h
  · rename_i hr; cases h; exact .inr ⟨rfl, hr, rfl⟩
  · rename_i hr
    split at h
    · rename_i hq; cases h; exact .inl ⟨rfl, by simpa using hr, hq, rfl⟩
    · cases h

/-- **What a receive can do**: nothing, or take the oldest message. -/
theorem tryRecv_cases {r : Option α} (h : ch.tryRecv = (ch', r)) :
    (r = none ∧ ch' = ch ∧ ch.queue = []) ∨ ∃ a, r = some a ∧ ch.queue = a :: ch'.queue ∧
      ch'.senders = ch.senders ∧ ch'.receiver = ch.receiver := by
  unfold tryRecv at h
  split at h
  · rename_i hq; cases h; exact .inl ⟨rfl, rfl, hq⟩
  · rename_i a q hq; cases h; exact .inr ⟨a, rfl, hq, rfl, rfl⟩

theorem tryRecv_of_recv {r : Chan α cap × Option α} (h : ch.recv = some r) :
    ch.tryRecv = r := by
  unfold recv at h
  split at h
  · cases h
  · exact Option.some.inj h

@[simp] theorem push_queue {h : ch.queue.length < cap} :
    (ch.push a h).queue = ch.queue ++ [a] := rfl

@[simp] theorem close_queue : ch.close.queue = [] := rfl

end Chan

end Trans
