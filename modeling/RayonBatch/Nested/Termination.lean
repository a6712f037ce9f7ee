import RayonBatch.Basis.Runs
import RayonBatch.Basis.Sums
import RayonBatch.Nested.Step

/-!
# Every run is finite

A measure on code pays for everything the code can still cause: a call for the jobs it may spawn, a
task for its way through the channel. A step lowers the weight of the stack of its thread and of the
scopes together (`Thread.Step.weight`, `Scopes.Step.weight`), whatever the schedule and however
calls and sources end, so no run goes on for ever (`terminating`).
-/

namespace RayonBatch.Nested
open Runs

universe u
variable {π : Type u} {θ : Type*}

mutual

/-- Weight of some code, where a call spawns at most `N` jobs. -/
def Code.weight (N : Nat) : Code π → Nat
  | .done | .unwinds => 1
  | .call _ _ _ into_iter tasks rest =>
    into_iter.weight N + tasks.weight N + rest.weight N + (3 * N + 3)

/-- Weight of a source. -/
def Tasks.weight (N : Nat) : Tasks π → Nat
  | .exhausted next => next.weight N + 3
  | .item next task rest => next.weight N + (task.weight N + rest.weight N + 3)

end

/-- Weight of a source whose next `next` is counted apart. -/
def Tasks.left (N : Nat) : Tasks π → Nat
  | .exhausted _ => 3
  | .item _ task rest => task.weight N + rest.weight N + 3

/-- Weight of what is to be done when the code has ended. -/
def Context.weight (N : Nat) : Context π → Nat
  | root => 0
  | converting _ _ tasks => tasks.weight N + (3 * N + 2)
  | pulling _ _ tasks _ => tasks.left N
  | executing _ _ rest => rest.weight N + 1
  | working .. => 1

/-- Weight of a frame. -/
def Frame.weight (N : Nat) : Frame π → Nat
  | running context code => code.weight N + context.weight N
  | spawning _ tasks _ n => tasks.weight N + 3 * n + 2
  | polling _ _ tasks _ => tasks.weight N + 1
  | sending _ _ rest _ task => rest.weight N + task.weight N + 3
  | waiting .. | receiving .. => 1

/-- Weight of a stack. -/
def Thread.weight (N : Nat) (thread : Thread π) : Nat :=
  (thread.stack.map (Frame.weight N)).sum

/-- Weight of a queue. -/
def queueWeight (N : Nat) (queue : List (Code π)) : Nat :=
  (queue.map fun task => task.weight N + 1).sum

/-- Weight of a scope. -/
def Scope.weight (N : Nat) (scope : Scope π) : Nat :=
  queueWeight N scope.channel.queue + 2 * scope.unstarted

/-- Weight that an event adds to the scopes. -/
def Event.gives (N : Nat) : Event π → Nat
  | on _ .spawn => 2
  | on _ (.send task) => task.weight N + 1
  | _ => 0

/-- Weight that an event takes from the scopes. -/
def Event.takes (N : Nat) : Event π → Nat
  | on _ (.start _) => 2
  | on _ (.recv task) => task.weight N + 1
  | _ => 0

section Weights

variable {N : Nat}

/-- Code that makes no calls has the least weight. -/
@[simp] lemma Code.weight_done : (Code.done : Code π).weight N = 1 := by
  simp [Code.weight]

/-- Code that unwinds has the least weight. -/
@[simp] lemma Code.weight_unwinds : (Code.unwinds : Code π).weight N = 1 := by
  simp [Code.weight]

/-- A call weighs its conversion, its source, the code after it and its own steps. -/
@[simp] lemma Code.weight_call {entry executor count into_iter tasks rest} :
    (Code.call entry executor count into_iter tasks rest : Code π).weight N
      = into_iter.weight N + tasks.weight N + rest.weight N + (3 * N + 3) := by
  simp [Code.weight]

/-- Code has a step left. -/
lemma Code.weight_pos (code : Code π) : 0 < code.weight N := by
  cases code <;> simp

/-- A source weighs its next `next` and what is behind it. -/
lemma Tasks.weight_eq (tasks : Tasks π) : tasks.weight N = tasks.next.weight N + tasks.left N := by
  cases tasks <;> simp [Tasks.weight, Tasks.next, Tasks.left]

/-- Behind a `next` there are at least the steps that end the source. -/
lemma Tasks.left_ge (tasks : Tasks π) : 3 ≤ tasks.left N := by
  cases tasks <;> simp [Tasks.left]

/-- Behind a `next` there are the item, the rest and the steps between. -/
lemma Tasks.left_of_pulled {tasks rest : Tasks π} {task position count}
    (e : tasks.pulled position count = some (task, rest)) :
    tasks.left N = task.weight N + rest.weight N + 3 := by
  obtain ⟨-, next, rfl⟩ := Tasks.pulled_eq_some e
  simp [Tasks.left]

/-- Code in a row weighs less than its pieces. -/
lemma Code.weight_append (second : Code π) :
    ∀ first : Code π, (first.append second).weight N + 1 ≤ first.weight N + second.weight N
  | .done => by simp [Code.append, Nat.add_comm]
  | .unwinds => by
    have := second.weight_pos (N := N)
    simp only [Code.append, Code.weight_unwinds]
    omega
  | .call _ _ _ _ _ rest => by
    have := Code.weight_append second rest
    simp only [Code.append, Code.weight_call]
    omega

/-- However a source is converted, it weighs no more. -/
lemma Converts.weight_le {into_iter first} {tasks later : Tasks π}
    (h : Converts into_iter tasks first later) :
    first.weight N + later.weight N ≤ into_iter.weight N + tasks.weight N := by
  cases h with
  | eagerly => exact Nat.le_refl _
  | lazily =>
    cases tasks with
    | exhausted next =>
      have := Code.weight_append (N := N) next into_iter
      simp only [Tasks.prepend, Tasks.weight, Code.weight_done]
      omega
    | item next task rest =>
      have := Code.weight_append (N := N) next into_iter
      simp only [Tasks.prepend, Tasks.weight, Code.weight_done]
      omega

/-- Code that goes on after a call weighs no more. -/
lemma Resumes.weight_le {rest rest' : Code π} {unwound} (h : Resumes rest unwound rest') :
    rest'.weight N ≤ rest.weight N := by
  cases h with
  | rethrown => exact rest.weight_pos
  | returned | caught => exact Nat.le_refl _

/-- A frame that moves on loses more than it gives to the scopes. -/
lemma Moves.weight {threads : π → Nat} {f f' : Frame π} {e} (few : ∀ pool, threads pool ≤ N)
    (h : Moves threads f e f') : f'.weight N + e.gives N < f.weight N + e.takes N := by
  cases h with
  | converted =>
    simp [Frame.weight, Context.weight, Event.gives, Event.takes]
    omega
  | @opens call tasks =>
    -- the weight of a conversion pays for as many jobs as there are threads
    have : call.executor.worker_count threads call.count ≤ N :=
      (Nat.min_le_left _ _).trans (few _)
    simp [Frame.weight, Context.weight, Event.gives, Event.takes]
    omega
  | spawn | send =>
    simp [Frame.weight, Event.gives, Event.takes]
    omega
  | spawned => simp [Frame.weight, Event.gives, Event.takes]
  | @next _ _ tasks =>
    have := tasks.weight_eq (N := N)
    simp [Frame.weight, Context.weight, Event.gives, Event.takes]
    omega
  | execute e | item e =>
    have := Tasks.left_of_pulled (N := N) e
    simp [Frame.weight, Context.weight, Event.gives, Event.takes]
    omega
  | @executed _ _ _ code _ | @worked _ _ code _ =>
    have := code.weight_pos (N := N)
    simp [Frame.weight, Context.weight, Event.gives, Event.takes]
    omega
  | send_error => simp [Frame.weight, Event.gives, Event.takes]
  | @exhausted _ _ tasks _ _ | @source_unwinds _ _ tasks _ =>
    have := tasks.left_ge (N := N)
    simp [Frame.weight, Context.weight, Event.gives, Event.takes]
    omega
  | @stopped _ _ tasks _ =>
    have := tasks.next.weight_pos (N := N)
    have := tasks.weight_eq (N := N)
    simp [Frame.weight, Event.gives, Event.takes]
    omega
  | recv => simp [Frame.weight, Context.weight, Event.gives, Event.takes]

/-- A call that is over has given up its weight. -/
lemma Finishes.weight {f : Frame π} {e call unwound} (h : Finishes f e call unwound) :
    0 < f.weight N ∧ e.gives N = 0 := by
  cases h <;> simp [Frame.weight, Event.gives]

/-- A job that is over has given up its weight. -/
lemma Exits.weight {f : Frame π} {e} (h : Exits f e) : 0 < f.weight N ∧ e.gives N = 0 := by
  cases h <;> simp [Frame.weight, Event.gives]

/-- A step of a thread lowers the weight of its stack by more than it gives to the scopes. -/
lemma Thread.Step.weight [DecidableEq π] {threads : π → Nat} {home} {thread thread' : Thread π} {e}
    (few : ∀ pool, threads pool ≤ N) (st : Thread.Step threads home thread e thread') :
    thread'.weight N + e.gives N < thread.weight N + e.takes N := by
  cases st with
  | call conv =>
    have := conv.weight_le (N := N)
    simp [Thread.weight, Frame.weight, Context.weight, Event.gives, Event.takes]
    omega
  | moves m =>
    have := m.weight few
    simp only [Thread.weight, List.map_cons, List.sum_cons]
    omega
  | returns fin res =>
    have := res.weight_le (N := N)
    obtain ⟨pos, gives⟩ := fin.weight (N := N)
    simp only [Thread.weight, List.map_cons, List.sum_cons, Frame.weight] at *
    omega
  | start =>
    simp [Thread.weight, Frame.weight, Event.gives, Event.takes]
    omega
  | exits exit =>
    obtain ⟨pos, gives⟩ := exit.weight (N := N)
    simp only [Thread.weight, List.map_cons, List.sum_cons]
    omega

/-- Dropping a receiver handle adds no weight. -/
lemma queueWeight_dropReceiver (c : Channel (Code π)) :
    queueWeight N c.dropReceiver.queue ≤ queueWeight N c.queue := by
  rw [← c.discarded_append_queue]
  simp [queueWeight]

/-- A scope gets what the event gives and loses what it takes. -/
lemma Scope.Step.weight {s s' : Scope π} {op b} (st : s.Step op s') :
    s'.weight N + (Event.on b op).takes N ≤ s.weight N + (Event.on b op).gives N := by
  cases st with
  | drop_receiver | exit | unwind =>
    have := queueWeight_dropReceiver (N := N) s.channel
    simp [Scope.weight, Event.takes, Event.gives]
    omega
  | send e =>
    obtain ⟨-, -, rfl⟩ := Channel.send_eq_sent.mp e
    simp [Scope.weight, queueWeight, Event.takes, Event.gives]
    omega
  | recv e =>
    obtain ⟨queue, -⟩ := Channel.recv_eq_received.mp e
    simp [Scope.weight, queue, queueWeight, Event.takes, Event.gives]
    omega
  | spawn | start =>
    simp [Scope.weight, Event.takes, Event.gives]
    omega
  | drop_sender | send_error | ends => simp [Scope.weight, Event.takes, Event.gives]

/-- The scopes weigh no more than is put in. -/
lemma Scopes.Step.weight {scopes scopes' : List (Scope π)} {e} (st : Scopes.Step scopes e scopes') :
    (scopes'.map (Scope.weight N)).sum + e.takes N
      ≤ (scopes.map (Scope.weight N)).sum + e.gives N := by
  cases st with
  | silent => exact Nat.le_refl _
  | opens => simp [Scope.weight, queueWeight, Event.takes, Event.gives]
  | @on b op old new hb st =>
    have set := List.sum_map_set_add (Scope.weight N) hb new
    have := st.weight (N := N) (b := b)
    omega

end Weights

/-- Weight of a state. -/
def State.weight [Fintype θ] (s : State θ π) : Nat :=
  ∑ t, (s.threads t).weight (Fintype.card θ) + (s.scopes.map (Scope.weight (Fintype.card θ))).sum

/-- Every step makes the forest lighter. -/
lemma Step.weight [DecidableEq π] [DecidableEq θ] [Fintype θ] {home : θ → Option π}
    {s s' : State θ π} (st : Step home s s') : s'.weight < s.weight := by
  obtain ⟨t, e, st⟩ := st
  cases st with
  | @act thread scopes local_step global_step =>
    have few : ∀ pool, current_num_threads home pool ≤ Fintype.card θ := fun pool =>
      Fintype.card_subtype_le _
    have stack := local_step.weight few
    have scope := global_step.weight (N := Fintype.card θ)
    have sum := sum_update_add (Thread.weight (Fintype.card θ)) s.threads t thread
    simp only [State.weight]
    omega

/-- Every run of nested calls is finite. -/
theorem terminating [DecidableEq π] [DecidableEq θ] [Fintype θ] (home : θ → Option π)
    (s : State θ π) : Terminating (Step home) s :=
  .of_measure (I := fun _ => True) State.weight (fun _ st => ⟨trivial, st.weight⟩) trivial

end RayonBatch.Nested
