import Mathlib.Tactic.Common

/-!
# Bounded channels

A first-in first-out channel of fixed capacity with one sender handle and counted receiver handles.
A send fails exactly when no receiver handle is left, a receive fails exactly when the channel is
empty and the sender handle is gone, and dropping the last receiver handle discards what is still
queued. A send or a receive that can neither succeed nor fail blocks.
-/

/-- A bounded channel with one sender handle. -/
structure Channel (τ : Type*) where
  /-- Largest number of queued messages. -/
  capacity : Nat
  /-- Queued messages, oldest first. -/
  queue : List τ
  /-- Whether the sender handle is alive. -/
  sender : Bool
  /-- Number of live receiver handles. -/
  receivers : Nat

namespace Channel

variable {τ : Type*}

/-- A fresh channel with its sender handle and one receiver handle. -/
@[simps]
def bounded (capacity : Nat) : Channel τ :=
  ⟨capacity, [], true, 1⟩

/-- One more receiver handle. -/
@[simps]
def cloneReceiver (c : Channel τ) : Channel τ :=
  { c with receivers := c.receivers + 1 }

/-- Dropping a receiver handle; the last one takes the queued messages with it. -/
@[simps capacity sender receivers]
def dropReceiver (c : Channel τ) : Channel τ :=
  { c with
    receivers := c.receivers - 1
    queue := if c.receivers ≤ 1 then [] else c.queue }

/-- The messages that dropping a receiver handle discards. -/
def discarded (c : Channel τ) : List τ :=
  if c.receivers ≤ 1 then c.queue else []

/-- Dropping the sender handle. -/
@[simps]
def dropSender (c : Channel τ) : Channel τ :=
  { c with sender := false }

/-- Outcome of a send. -/
inductive Send (τ : Type*) where
  | sent (c : Channel τ)
  | disconnected
  | blocked

/-- Outcome of a receive. -/
inductive Recv (τ : Type*) where
  | received (t : τ) (c : Channel τ)
  | disconnected
  | blocked

/-- A blocking send, polled once. -/
def send (c : Channel τ) (t : τ) : Send τ :=
  if c.receivers = 0 then .disconnected
  else if c.queue.length < c.capacity then .sent { c with queue := c.queue ++ [t] }
  else .blocked

/-- A blocking receive, polled once. -/
def recv (c : Channel τ) : Recv τ :=
  match c.queue with
  | t :: q => .received t { c with queue := q }
  | [] => if c.sender then .blocked else .disconnected

section Handles
variable (c : Channel τ)

/-- What is discarded and what stays queued is what was queued. -/
lemma discarded_append_queue : c.discarded ++ c.dropReceiver.queue = c.queue := by
  unfold discarded dropReceiver
  split <;> simp

/-- The last receiver handle leaves an empty queue behind. -/
lemma dropReceiver_queue_of_le (h : c.receivers ≤ 1) : c.dropReceiver.queue = [] := by
  simp [dropReceiver, h]

/-- A handle that is not the last one discards nothing. -/
lemma discarded_of_lt (h : 1 < c.receivers) : c.discarded = [] := by
  simp [discarded, Nat.not_le.mpr h]

/-- Dropping a receiver handle queues nothing. -/
lemma dropReceiver_queue_length_le : c.dropReceiver.queue.length ≤ c.queue.length := by
  rw [← c.discarded_append_queue, List.length_append]
  omega

/-- An empty queue stays empty when a receiver handle is dropped. -/
lemma dropReceiver_queue_of_nil (h : c.queue = []) : c.dropReceiver.queue = [] := by
  simp [dropReceiver, h]

/-- Of an empty queue nothing is discarded. -/
lemma discarded_of_nil (h : c.queue = []) : c.discarded = [] := by
  simp [discarded, h]

end Handles

/-- A send succeeds while there is a receiver handle and room. -/
lemma send_eq_sent {c c' : Channel τ} {t} :
    c.send t = .sent c' ↔
      c.receivers ≠ 0 ∧ c.queue.length < c.capacity ∧ c' = { c with queue := c.queue ++ [t] } := by
  unfold send
  split
  next h => simp [h]
  next h =>
    split
    next lt => simp [h, lt, eq_comm]
    next ge => simp [ge]

/-- A send fails when no receiver handle is left. -/
lemma send_eq_disconnected {c : Channel τ} {t} : c.send t = .disconnected ↔ c.receivers = 0 := by
  unfold send
  split
  · simp_all
  · split <;> simp_all

/-- A send blocks on a full queue. -/
lemma send_eq_blocked {c : Channel τ} {t} :
    c.send t = .blocked ↔ c.receivers ≠ 0 ∧ c.capacity ≤ c.queue.length := by
  unfold send
  split
  · simp_all
  · split <;> simp_all

/-- A receive takes the oldest message. -/
lemma recv_eq_received {c c' : Channel τ} {t} :
    c.recv = .received t c' ↔ c.queue = t :: c'.queue ∧ c' = { c with queue := c'.queue } := by
  unfold recv
  split
  next u q e =>
    rw [Recv.received.injEq, e, List.cons.injEq]
    constructor
    · rintro ⟨rfl, rfl⟩
      exact ⟨⟨rfl, rfl⟩, rfl⟩
    · rintro ⟨⟨rfl, rfl⟩, h⟩
      exact ⟨rfl, h.symm⟩
  next e => split <;> simp [e]

/-- A receive fails on an empty queue without its sender handle. -/
lemma recv_eq_disconnected {c : Channel τ} :
    c.recv = .disconnected ↔ c.queue = [] ∧ c.sender = false := by
  unfold recv
  split
  · simp_all
  · split <;> simp_all

/-- A receive blocks on an empty queue that can still be sent to. -/
lemma recv_eq_blocked {c : Channel τ} : c.recv = .blocked ↔ c.queue = [] ∧ c.sender = true := by
  unfold recv
  split
  · simp_all
  · split <;> simp_all

section Map
variable {υ : Type*} (f : τ → υ)

/-- The channel with its messages exchanged. -/
@[simps queue]
def map (c : Channel τ) : Channel υ :=
  { c with queue := c.queue.map f }

variable (c : Channel τ)

/-- A fresh channel has no messages to exchange. -/
@[simp] lemma map_bounded (n : Nat) : (bounded n).map f = bounded n := rfl

/-- Cloning a receiver handle does not look at the messages. -/
@[simp] lemma map_cloneReceiver : c.cloneReceiver.map f = (c.map f).cloneReceiver := rfl

/-- Dropping the sender handle does not look at the messages. -/
@[simp] lemma map_dropSender : c.dropSender.map f = (c.map f).dropSender := rfl

/-- Dropping a receiver handle does not look at the messages. -/
@[simp] lemma map_dropReceiver : c.dropReceiver.map f = (c.map f).dropReceiver := by
  by_cases last : c.receivers ≤ 1 <;> simp [map, dropReceiver, last]

/-- A send that succeeds with exchanged messages succeeds. -/
lemma send_of_map {c : Channel τ} {t} {c' : Channel υ} (h : (c.map f).send (f t) = .sent c') :
    ∃ d, c.send t = .sent d ∧ d.map f = c' := by
  obtain ⟨some, room, rfl⟩ := send_eq_sent.mp h
  refine ⟨_, send_eq_sent.mpr ⟨some, by simpa [map] using room, rfl⟩, ?_⟩
  simp [map]

/-- A send that fails with exchanged messages fails. -/
lemma send_disconnected_of_map {c : Channel τ} {t} (h : (c.map f).send (f t) = .disconnected) :
    c.send t = .disconnected :=
  send_eq_disconnected.mpr (send_eq_disconnected (c := c.map f).mp h)

/-- A receive that succeeds with exchanged messages succeeds. -/
lemma recv_of_map {c : Channel τ} {u} {c' : Channel υ} (h : (c.map f).recv = .received u c') :
    ∃ t d, c.recv = .received t d ∧ f t = u ∧ d.map f = c' := by
  obtain ⟨queue, e⟩ := recv_eq_received.mp h
  obtain ⟨t, rest, queue', rfl, tail⟩ := List.map_eq_cons_iff.mp queue
  refine ⟨t, { c with queue := rest }, recv_eq_received.mpr ⟨queue', rfl⟩, rfl, ?_⟩
  rw [e, ← tail]
  rfl

/-- A receive that fails with exchanged messages fails. -/
lemma recv_disconnected_of_map {c : Channel τ} (h : (c.map f).recv = .disconnected) :
    c.recv = .disconnected := by
  obtain ⟨queue, sender⟩ := recv_eq_disconnected.mp h
  exact recv_eq_disconnected.mpr ⟨List.map_eq_nil_iff.mp queue, sender⟩

end Map

end Channel
