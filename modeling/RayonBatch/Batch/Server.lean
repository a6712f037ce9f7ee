import Mathlib.Algebra.Order.Group.Multiset
import RayonBatch.Basis.Traces
import RayonBatch.Batch.Calm
import RayonBatch.Batch.Order

/-!
# What a parallel call is for

A parallel call is a server of `W` hands. It takes the tasks of its source in their order, as long
as no more than `W` of them wait, and executes up to `W` at a time. `Server` says so without a
channel, jobs and handles; `Batch.server` is what a parallel call looks like from there, and each of
its steps is a step of the server or is silent (`Step.serves`).
-/

namespace RayonBatch
open Relation

variable {σ α : Type*}

/-- What a call shows of its tasks. -/
inductive Event (α : Type*) where
  /-- The source has returned a task. -/
  | admits (task : ParallelBatchTask α)
  /-- A task is begun. -/
  | begins (task : ParallelBatchTask α)
  /-- The result of a task is recorded. -/
  | records (task : ParallelBatchTask α)
  /-- A task is done. -/
  | returns (task : ParallelBatchTask α)
  /-- The source has ended. -/
  | closes
  /-- The call ends. -/
  | ends

/-- The tasks of a call and where they are. -/
structure Server (σ α : Type*) where
  source : σ
  /-- How many tasks the source has returned. -/
  admitted : Nat
  /-- Tasks that wait, the oldest first. -/
  waiting : List (ParallelBatchTask α)
  /-- Tasks whose result is not recorded yet. -/
  running : Multiset (ParallelBatchTask α)
  /-- Tasks whose result is recorded, and which are not done yet. -/
  finishing : Multiset (ParallelBatchTask α)
  /-- Tasks whose result is recorded, in that order. -/
  log : List (ParallelBatchTask α)
  /-- Tasks that are done, in that order. -/
  done : List (ParallelBatchTask α)
  closed : Bool
  ended : Bool

namespace Server

/-- The server before its first task. -/
def init (source : σ) : Server σ α :=
  ⟨source, 0, [], 0, 0, [], [], false, false⟩

/-- A step of a server of `W` hands. -/
inductive Step (src : Source σ α) (ending : ParallelBatchTask α → Ending) (W : Nat) :
    Server σ α → Option (Event α) → Server σ α → Prop where
  | quiet {v s} :
    v.closed = false →
    v.waiting.length ≤ W →
    src v.log v.source (.quiet s) →
    Step src ending W v none { v with source := s }
  | admits {v a s} :
    v.closed = false →
    v.waiting.length ≤ W →
    src v.log v.source (.some a s) →
    Step src ending W v (some (.admits ⟨v.admitted, a⟩)) { v with
      source := s
      admitted := v.admitted + 1
      waiting := v.waiting ++ [⟨v.admitted, a⟩] }
  | begins {v t rest} :
    v.waiting = t :: rest →
    v.running.card + v.finishing.card < W →
    Step src ending W v (some (.begins t)) { v with
      waiting := rest
      running := t ::ₘ v.running }
  | records {v t rest} :
    v.running = t ::ₘ rest →
    ending t ≠ .parks →
    Step src ending W v (some (.records t)) { v with
      running := rest
      finishing := t ::ₘ v.finishing
      log := v.log ++ [t] }
  | returns {v t rest} :
    v.finishing = t ::ₘ rest →
    ending t = .returns →
    Step src ending W v (some (.returns t)) { v with
      finishing := rest
      done := v.done ++ [t] }
  | closes {v s} :
    v.closed = false →
    v.waiting.length ≤ W →
    src v.log v.source (.none s) →
    Step src ending W v (some .closes) { v with
      source := s
      closed := true }
  | ends {v} :
    v.closed = true →
    v.waiting = [] →
    v.running = 0 →
    v.finishing = 0 →
    v.ended = false →
    Step src ending W v (some .ends) { v with ended := true }

/-- A server that has ended has nothing left. -/
structure Rests (v : Server σ α) : Prop where
  closed : v.closed = true
  waiting : v.waiting = []
  running : v.running = 0
  finishing : v.finishing = 0
  ended : v.ended = true

variable {src : Source σ α} {ending : ParallelBatchTask α → Ending} {W W' : Nat}

/-- A server that has ended does nothing. -/
lemma Rests.not_step {v v' : Server σ α} {e} (h : v.Rests) : ¬ Step src ending W v e v' := by
  intro st
  cases st with
  | quiet op | admits op | closes op => simp [h.closed] at op
  | begins waiting => simp [h.waiting] at waiting
  | records running => simp [h.running] at running
  | returns finishing => simp [h.finishing] at finishing
  | ends _ _ _ _ op => simp [h.ended] at op

/-- More hands do what fewer do. -/
lemma Step.mono {v v' : Server σ α} {e} (le : W ≤ W') (st : Step src ending W v e v') :
    Step src ending W' v e v' := by
  cases st with
  | quiet op room pull => exact .quiet op (room.trans le) pull
  | admits op room pull => exact .admits op (room.trans le) pull
  | begins waiting free => exact .begins waiting (free.trans_le le)
  | records running go => exact .records running go
  | returns finishing ret => exact .returns finishing ret
  | closes op room pull => exact .closes op (room.trans le) pull
  | ends closed waiting running finishing op => exact .ends closed waiting running finishing op

end Server

/-- The task the job is executing, if its result is not recorded. -/
def Worker.executing? : Worker α → Option (ParallelBatchTask α)
  | executing task => some task
  | unstarted | receiving | recorded _ | returned | unwound => none

attribute [simp] Worker.executing?.eq_1 Worker.executing?.eq_2 Worker.executing?.eq_3
  Worker.executing?.eq_4 Worker.executing?.eq_5 Worker.executing?.eq_6

namespace Batch

variable {src : Source σ α} {ending : ParallelBatchTask α → Ending} {W : Nat} {b b' : Batch σ α}

/-- What a step shows, read off the history. -/
def event (b b' : Batch σ α) : Option (Event α) :=
  (b'.yielded.drop b.yielded.length).head?.map .admits <|>
  (b'.received.drop b.received.length).head?.map .begins <|>
  (b'.recorded.drop b.recorded.length).head?.map .records <|>
  (b'.executed.drop b.executed.length).head?.map .returns <|>
  (if b.producer.feeding && !b'.producer.feeding then some .closes else none) <|>
  if b.result.isNone && b'.result.isSome then some .ends else none

/-- A step of a call and what it shows. -/
def Shown (src : Source σ α) (ending : ParallelBatchTask α → Ending) (b : Batch σ α)
    (e : Option (Event α)) (b' : Batch σ α) : Prop :=
  Next src ending b b' ∧ b.event b' = e

/-- What a call looks like from the server. -/
def server (b : Batch σ α) : Server σ α where
  source := b.source
  admitted := b.yielded.length
  waiting := b.channel.queue ++ b.producer.held
  running := b.workers.filterMap Worker.executing?
  finishing := b.workers.filterMap Worker.recorded?
  log := b.recorded
  done := b.executed
  closed := !b.producer.feeding
  ended := b.result.isSome

omit ending W b b' src in
/-- In a multiset an element may come first. -/
lemma coe_append_cons {β : Type*} (l : List β) (a : β) (r : List β) :
    (↑(l ++ a :: r) : Multiset β) = ↑(a :: (l ++ r)) :=
  Multiset.coe_eq_coe.mpr List.perm_middle

/-- The tasks in hands are those that run and those that finish. -/
lemma server_inHand (b : Batch σ α) :
    (b.inHand : Multiset (ParallelBatchTask α)) = b.server.running + b.server.finishing := by
  simp only [inHand, server]
  induction b.workers with
  | nil => rfl
  | cons w workers ih =>
    cases w with
    | executing t => simpa [← Multiset.cons_coe] using ih
    | recorded t => simpa [← Multiset.cons_coe, Multiset.add_cons] using ih
    | _ => simpa using ih

/-- Where nothing unwinds, a step of a call is a step of the server that shows the same, or it is
silent and the server does not notice it. -/
lemma Step.serves {label} (h : Inv ending W b) (pos : 0 < W) (calm : b.unwound = [])
    (body : b.producer ≠ .unwound) (goes : ∀ t, ending t ≠ .unwinds)
    (source : ∀ log s, ¬ src log s .unwind) (st : Step src ending b label b') :
    Server.Step src ending W b.server (b.event b') b'.server ∨
      b.event b' = none ∧ b'.server = b.server := by
  have room := h.shape.room
  have open' := h.closing.not_ended st
  cases st with
  | spawn e => exact .inr (by simp [event, server, e])
  | drop_receiver e =>
    have queue := h.flow.fresh (by simp [e])
    exact .inr (by simp [event, server, e, queue, b.channel.dropReceiver_queue_of_nil queue])
  | pull_quiet e pull =>
    left
    have step : Server.Step src ending W b.server _ _ :=
      .quiet (by simp [server, e]) (by simpa [server, e] using room) pull
    simpa [event, server, e, open'] using step
  | pull_some e pull =>
    left
    have step : Server.Step src ending W b.server _ _ :=
      .admits (by simp [server, e]) (by simpa [server, e] using room) pull
    simpa [event, server, e] using step
  | pull_none e pull =>
    left
    have step : Server.Step src ending W b.server _ _ :=
      .closes (by simp [server, e]) (by simpa [server, e] using room) pull
    simpa [event, server, e] using step
  | pull_unwind _ pull => exact absurd pull (source _ _)
  | send e sent =>
    obtain ⟨-, -, rfl⟩ := Channel.send_eq_sent.mp sent
    exact .inr (by simp [event, server, e])
  | send_error e none =>
    have all := h.send_disconnected e none
    rw [calm] at all
    exact absurd all pos.ne
  | start e => exact .inr (by simp [event, server, e])
  | @recv l r t c e received =>
    left
    obtain ⟨queue, -⟩ := Channel.recv_eq_received.mp received
    have free : b.server.running.card + b.server.finishing.card < W := by
      have count := h.unreturned_perm.length_eq
      have lt := h.unreturned_lt e
      rw [calm, List.append_nil] at count
      rw [← Multiset.card_add, ← server_inHand, Multiset.coe_card]
      omega
    have waiting : b.server.waiting = t :: (c.queue ++ b.producer.held) := by simp [server, queue]
    have step : Server.Step src ending W b.server _ _ := .begins waiting free
    simpa [event, server, e, coe_append_cons] using step
  | recv_closed e none =>
    obtain ⟨queue, -⟩ := Channel.recv_eq_disconnected.mp none
    exact .inr (by
      simp [event, server, e, queue, b.channel.dropReceiver_queue_of_nil queue])
  | @record l r t e go =>
    left
    have running : b.server.running
        = t ::ₘ ↑(l.filterMap Worker.executing? ++ r.filterMap Worker.executing?) := by
      simp [server, e, coe_append_cons]
    have step : Server.Step src ending W b.server _ _ := .records running go
    simpa [event, server, e, coe_append_cons] using step
  | @task_returns l r t e ret =>
    left
    have finishing : b.server.finishing
        = t ::ₘ ↑(l.filterMap Worker.recorded? ++ r.filterMap Worker.recorded?) := by
      simp [server, e, coe_append_cons]
    have step : Server.Step src ending W b.server _ _ := .returns finishing ret
    simpa [event, server, e, coe_append_cons] using step
  | task_unwinds _ _ unw => exact absurd unw (goes _)
  | scope_returns e exited none =>
    left
    have running : b.workers.filterMap Worker.executing? = [] :=
      List.filterMap_eq_nil_iff.mpr fun w hw => by simp [exited w hw]
    have finishing : b.workers.filterMap Worker.recorded? = [] :=
      List.filterMap_eq_nil_iff.mpr fun w hw => by simp [exited w hw]
    have queue : b.channel.queue = [] := h.flow.orphan (by
      rw [h.shape.receivers, e, List.countP_eq_zero.mpr fun w hw => by simp [exited w hw]]
      rfl)
    have step : Server.Step src ending W b.server _ _ :=
      .ends (by simp [server, e]) (by simp [server, e, queue]) (by simp [server, running])
        (by simp [server, finishing]) (by simp [server, none])
    simpa [event, server, e, none] using step
  | scope_unwinds _ _ unw =>
    have dead : .unwound ∈ b.workers := unw.resolve_left body
    have some : 0 < b.workers.countP Worker.dead := List.countP_pos_iff.mpr ⟨_, dead, rfl⟩
    simp [h.tally.deaths, calm] at some

end Batch

end RayonBatch
