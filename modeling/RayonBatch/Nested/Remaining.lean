import Mathlib.Algebra.Order.Group.Multiset
import RayonBatch.Basis.Runs
import RayonBatch.Basis.Sums
import RayonBatch.Nested.Step

/-!
# The tasks that are left

The tasks of a forest that no thread has begun lie in the code on the stacks, in the sources and in
the queues. `State.remaining` collects them, as a multiset of their codes and with the tasks that
they bring about in turn. A step that begins a task takes it out of there, and no step puts one in:
so a run begins no more than was left before it (`Logs.remaining_le`).
-/

namespace RayonBatch.Nested
open Relation Runs

universe u
variable {π : Type u} {θ : Type*}

mutual

/-- The tasks that some code brings about. -/
def Code.tasks : Code π → Multiset (Code π)
  | .done | .unwinds => 0
  | .call _ _ _ into_iter tasks rest => into_iter.tasks + tasks.tasks + rest.tasks

/-- The tasks that a source brings about. -/
def Tasks.tasks : Tasks π → Multiset (Code π)
  | .exhausted next => next.tasks
  | .item next task rest => next.tasks + ({task} + task.tasks + rest.tasks)

end

/-- A task and the tasks that it brings about. -/
def Code.whole (task : Code π) : Multiset (Code π) :=
  {task} + task.tasks

/-- The tasks that a source brings about after its next `next`. -/
def Tasks.later : Tasks π → Multiset (Code π)
  | .exhausted _ => 0
  | .item _ task rest => task.whole + rest.tasks

/-- The tasks that are left when the code has ended. -/
def Context.remaining : Context π → Multiset (Code π)
  | root | working .. => 0
  | converting _ _ tasks | executing _ _ tasks => tasks.tasks
  | pulling _ _ tasks _ => tasks.later

/-- The tasks that are left to a frame. -/
def Frame.remaining : Frame π → Multiset (Code π)
  | running context code => code.tasks + context.remaining
  | spawning _ tasks _ _ | polling _ _ tasks _ => tasks.tasks
  | sending _ _ rest _ task => task.whole + rest.tasks
  | waiting .. | receiving .. => 0

/-- The tasks that are left to the frames of a thread. -/
def Thread.remaining (thread : Thread π) : Multiset (Code π) :=
  (thread.stack.map Frame.remaining).sum

/-- The tasks that are left in the queue of a scope. -/
def Scope.remaining (scope : Scope π) : Multiset (Code π) :=
  (scope.channel.queue.map Code.whole).sum

/-- The tasks that are left. -/
def State.remaining [Fintype θ] (s : State θ π) : Multiset (Code π) :=
  ∑ t, (s.threads t).remaining + (s.scopes.map Scope.remaining).sum

/-- The tasks that an event puts into a queue. -/
def Event.puts : Event π → Multiset (Code π)
  | on _ (.send task) => task.whole
  | _ => 0

/-- The tasks that an event takes out of a queue. -/
def Event.takes_out : Event π → Multiset (Code π)
  | on _ (.recv task) => task.whole
  | _ => 0

/-- The task that a frame begins when it moves on, on its own thread or in a job. -/
def Frame.begun : Frame π → Frame π → List (Code π)
  | running (.pulling ..) .done, running (.executing ..) task
  | receiving .., running (.working ..) task => [task]
  | _, _ => []

/-- The task that a thread begins with a step of its innermost frame. -/
def Thread.begun (thread thread' : Thread π) : List (Code π) :=
  match thread.stack, thread'.stack with
  | f :: below, f' :: below' => if below.length = below'.length then f.begun f' else []
  | _, _ => []

section Remaining

/-- Code that makes no calls has no tasks. -/
@[simp] lemma Code.tasks_done : (Code.done : Code π).tasks = 0 := by
  simp [Code.tasks]

/-- Code that unwinds has no tasks. -/
@[simp] lemma Code.tasks_unwinds : (Code.unwinds : Code π).tasks = 0 := by
  simp [Code.tasks]

/-- A call has the tasks of its conversion, of its source and of the code after it. -/
@[simp] lemma Code.tasks_call {entry executor count into_iter tasks rest} :
    (Code.call entry executor count into_iter tasks rest : Code π).tasks
      = into_iter.tasks + tasks.tasks + rest.tasks := by
  simp [Code.tasks]

/-- Code at its end has no tasks. -/
lemma Code.tasks_of_ended {code : Code π} (h : code.ended = true) : code.tasks = 0 := by
  cases code with
  | call => cases h
  | _ => simp

/-- The tasks of a source are those of its next `next` and those behind it. -/
lemma Tasks.tasks_eq (tasks : Tasks π) : tasks.tasks = tasks.next.tasks + tasks.later := by
  cases tasks <;> simp [Tasks.tasks, Tasks.next, Tasks.later, Code.whole]

/-- What is behind a `next` is the item and the rest. -/
lemma Tasks.later_of_pulled {tasks rest : Tasks π} {task position count}
    (e : tasks.pulled position count = some (task, rest)) :
    tasks.later = task.whole + rest.tasks := by
  obtain ⟨-, next, rfl⟩ := Tasks.pulled_eq_some e
  rfl

/-- Code in a row has no more tasks than its pieces. -/
lemma Code.tasks_append (second : Code π) :
    ∀ first : Code π, (first.append second).tasks ≤ first.tasks + second.tasks
  | .done => by simp [Code.append]
  | .unwinds => by simp [Code.append]
  | .call _ _ _ _ _ rest => by
    have := Code.tasks_append second rest
    simp only [Code.append, Code.tasks_call, add_assoc]
    gcongr

/-- However a source is converted, no task is added. -/
lemma Converts.remaining_le {into_iter first} {tasks later : Tasks π}
    (h : Converts into_iter tasks first later) :
    first.tasks + later.tasks ≤ into_iter.tasks + tasks.tasks := by
  cases h with
  | eagerly => exact le_rfl
  | lazily =>
    cases tasks with
    | exhausted next =>
      have := Code.tasks_append next into_iter
      simpa [Tasks.prepend, Tasks.tasks] using this
    | item next task rest =>
      have := Code.tasks_append next into_iter
      simp only [Tasks.prepend, Tasks.tasks, Code.tasks_done, zero_add, ← add_assoc]
      gcongr

/-- Code that goes on after a call has no task added. -/
lemma Resumes.remaining_le {rest rest' : Code π} {unwound} (h : Resumes rest unwound rest') :
    rest'.tasks ≤ rest.tasks := by
  cases h with
  | rethrown => simp
  | returned | caught => exact le_rfl

/-- A step that changes the height of the stack begins no task. -/
lemma Thread.begun_of_length {thread thread' : Thread π}
    (h : thread.stack.length ≠ thread'.stack.length) : thread.begun thread' = [] := by
  unfold begun
  split
  · refine if_neg fun same => ?_
    simp_all
  · rfl

/-- A task is begun by the innermost frame. -/
@[simp] lemma Thread.begun_cons {f f' : Frame π} {below : List (Frame π)} {active active'} :
    Thread.begun ⟨f :: below, active⟩ ⟨f' :: below, active'⟩ = f.begun f' :=
  if_pos rfl

/-- A frame that moves on keeps its tasks but for the one it begins, or it waits for its scope. -/
lemma Moves.remaining {threads : π → Nat} {f f' : Frame π} {e} (m : Moves threads f e f') :
    f.begun f' + f'.remaining + e.puts = f.remaining + e.takes_out ∨
      f'.waits = true ∧ f.begun f' = [] ∧ e.puts = 0 ∧ e.takes_out = 0 := by
  cases m with
  | send_error | exhausted | stopped | source_unwinds => exact .inr ⟨rfl, rfl, rfl, rfl⟩
  | converted | opens | spawn | spawned =>
    left
    simp [Frame.remaining, Context.remaining, Event.puts, Event.takes_out, Frame.begun]
  | @next _ _ tasks =>
    left
    simp [Frame.remaining, Context.remaining, Event.puts, Event.takes_out, Frame.begun,
      tasks.tasks_eq]
  | execute e | item e =>
    left
    simp [Frame.remaining, Context.remaining, Event.puts, Event.takes_out, Frame.begun,
      Tasks.later_of_pulled e, Code.whole]
  | send =>
    left
    simp [Frame.remaining, Event.puts, Event.takes_out, Frame.begun, add_comm]
  | executed ended | worked ended =>
    left
    simp [Frame.remaining, Context.remaining, Event.puts, Event.takes_out, Frame.begun,
      Code.tasks_of_ended ended]
  | recv =>
    left
    simp [Frame.remaining, Context.remaining, Event.puts, Event.takes_out, Frame.begun, Code.whole]

/-- A call that waits for its scope has no tasks left itself. -/
lemma Frame.remaining_of_waits {f : Frame π} (h : f.waits = true) : f.remaining = 0 := by
  cases f with
  | waiting => rfl
  | _ => cases h

/-- A call that is over neither queues a task nor takes one. -/
lemma Finishes.puts {f : Frame π} {e call unwound} (h : Finishes f e call unwound) :
    e.puts = 0 ∧ e.takes_out = 0 := by
  cases h <;> exact ⟨rfl, rfl⟩

/-- A job that is over neither queues a task nor takes one. -/
lemma Exits.puts {f : Frame π} {e} (h : Exits f e) : e.puts = 0 ∧ e.takes_out = 0 := by
  cases h <;> exact ⟨rfl, rfl⟩

/-- The tasks left on a stack are those of its frames. -/
lemma Thread.remaining_cons {f : Frame π} {below : List (Frame π)} {active} :
    Thread.remaining ⟨f :: below, active⟩ = f.remaining + (below.map Frame.remaining).sum := by
  simp [Thread.remaining]

/-- A step of a thread takes the task it begins out of those that are left, and puts none in. -/
lemma Thread.Step.remaining_le [DecidableEq π] {threads : π → Nat} {home}
    {thread thread' : Thread π} {e} (st : Thread.Step threads home thread e thread') :
    thread.begun thread' + thread'.remaining + e.puts ≤ thread.remaining + e.takes_out := by
  cases st with
  | @call ctx _ _ _ _ _ rest below _ _ _ _ _ _ conv =>
    have le := conv.remaining_le
    rw [Thread.begun_of_length (by simp)]
    simp only [Thread.remaining_cons, List.map_cons, List.sum_cons, Frame.remaining,
      Context.remaining, Event.puts, Event.takes_out, Code.tasks_call, Multiset.coe_nil, zero_add,
      add_zero, ← add_assoc]
    gcongr ?_ + _ + _ + _
  | @moves f _ f' below _ m =>
    rw [Thread.begun_cons, Thread.remaining_cons, Thread.remaining_cons]
    obtain keeps | ⟨waits, begun, puts, takes⟩ := m.remaining
    · rw [← add_assoc, add_right_comm, keeps, add_right_comm]
    · rw [begun, puts, takes, Frame.remaining_of_waits waits]
      simp
  | @returns f _ _ _ ctx rest rest' below _ fin res =>
    have le := res.remaining_le
    obtain ⟨puts, takes⟩ := fin.puts
    rw [Thread.begun_of_length (by simp), puts, takes]
    simp only [Thread.remaining_cons, List.map_cons, List.sum_cons, Frame.remaining,
      Multiset.coe_nil, zero_add, add_zero]
    exact le_add_left (by gcongr)
  | start =>
    rw [Thread.begun_of_length (by simp)]
    simp [Thread.remaining, Frame.remaining, Event.puts, Event.takes_out]
  | exits exit =>
    obtain ⟨puts, takes⟩ := exit.puts
    rw [Thread.begun_of_length (by simp), puts, takes]
    simp [Thread.remaining]

/-- Dropping a receiver handle adds no task. -/
lemma Scope.remaining_dropReceiver (c : Channel (Code π)) :
    (c.dropReceiver.queue.map Code.whole).sum ≤ (c.queue.map Code.whole).sum := by
  rw [← c.discarded_append_queue]
  simp

/-- A queue gets what is put in and loses what is taken out, and no more than that is gained. -/
lemma Scope.Step.remaining_le {s s' : Scope π} {op b} (st : s.Step op s') :
    s'.remaining + (Event.on b op).takes_out ≤ s.remaining + (Event.on b op).puts := by
  cases st with
  | drop_receiver | exit | unwind =>
    simpa [Scope.remaining, Event.takes_out, Event.puts] using
      Scope.remaining_dropReceiver s.channel
  | send e =>
    obtain ⟨-, -, rfl⟩ := Channel.send_eq_sent.mp e
    simp [Scope.remaining, Event.takes_out, Event.puts]
  | recv e =>
    obtain ⟨queue, -⟩ := Channel.recv_eq_received.mp e
    simp [Scope.remaining, queue, Event.takes_out, Event.puts, add_comm]
  | spawn | start | drop_sender | send_error | ends =>
    simp [Scope.remaining, Event.takes_out, Event.puts]

/-- The scopes have no more tasks than are put in. -/
lemma Scopes.Step.remaining_le {scopes scopes' : List (Scope π)} {e}
    (st : Scopes.Step scopes e scopes') :
    (scopes'.map Scope.remaining).sum + e.takes_out ≤
      (scopes.map Scope.remaining).sum + e.puts := by
  cases st with
  | silent => exact le_rfl
  | opens => simp [Scope.remaining, Event.takes_out, Event.puts]
  | @on b op old new hb st =>
    have set := List.sum_map_set_add Scope.remaining hb new
    have le := st.remaining_le (b := b)
    refine le_of_add_le_add_right (a := old.remaining) ?_
    calc _ = ((scopes.set b new).map Scope.remaining).sum + old.remaining + _ := add_right_comm ..
      _ = (scopes.map Scope.remaining).sum + (new.remaining + _) := by rw [set, add_assoc]
      _ ≤ (scopes.map Scope.remaining).sum + (old.remaining + _) := by gcongr
      _ = _ := by rw [← add_assoc, add_right_comm]

end Remaining

section Runs

variable [DecidableEq θ] [Fintype θ] {home : θ → Option π} {program : θ → Code π}
  {s s' : State θ π} {log : List (Code π)}

omit [DecidableEq θ] in
/-- The tasks of a forest: those of the programs of the threads outside of all pools. -/
def forest_tasks (home : θ → Option π) (program : θ → Code π) : Multiset (Code π) :=
  ∑ t, match home t with
    | none => (program t).tasks
    | some _ => 0

omit [DecidableEq θ] in
/-- In the beginning all tasks of the forest are left. -/
lemma remaining_init : (init home program).remaining = forest_tasks home program := by
  rw [State.remaining, forest_tasks, show (init home program).scopes = [] from rfl, List.map_nil,
    List.sum_nil, add_zero]
  refine Finset.sum_congr rfl fun t _ => ?_
  simp only [init]
  cases home t <;> simp [Thread.remaining, Frame.remaining, Context.remaining]

variable [DecidableEq π]

/-- A step of the system, with a log of the tasks that have been begun. -/
inductive Logs (home : θ → Option π) : State θ π × List (Code π) → State θ π × List (Code π) → Prop
    where
  | act {s log t e s'} :
    Acts home s t e s' →
    Logs home (s, log) (s', log ++ (s.threads t).begun (s'.threads t))

/-- Every run begins some tasks. -/
lemma Logs.of_run (rs : ReflTransGen (Step home) s s') :
    ∃ log, ReflTransGen (Logs home) (s, []) (s', log) := by
  induction rs with
  | refl => exact ⟨[], .refl⟩
  | tail _ st ih =>
    obtain ⟨log, rs⟩ := ih
    obtain ⟨t, e, st⟩ := st
    exact ⟨_, rs.tail (.act st)⟩

/-- A step takes what it begins out of what is left. -/
lemma Acts.remaining_le {t e} (st : Acts home s t e s') :
    (s.threads t).begun (s'.threads t) + s'.remaining ≤ s.remaining := by
  classical
  have stack := Multiset.le_iff_count.mp st.self.remaining_le
  have queues := Multiset.le_iff_count.mp st.scopes.remaining_le
  cases st with
  | @act thread =>
    have sum := sum_update_add Thread.remaining s.threads t thread
    refine Multiset.le_iff_count.mpr fun x => ?_
    have stack := stack x
    have queues := queues x
    have sum := congrArg (Multiset.count x) sum
    simp only [State.remaining, Multiset.count_add, Function.update_self] at *
    omega

/-- What a run has begun and what is left are among what there was before. -/
lemma Logs.remaining_le {x y : State θ π × List (Code π)} (rs : ReflTransGen (Logs home) x y) :
    y.2 + y.1.remaining ≤ x.2 + x.1.remaining := by
  induction rs with
  | refl => exact le_rfl
  | tail _ st ih =>
    refine le_trans ?_ ih
    cases st with
    | act st =>
      rw [← Multiset.coe_add, add_assoc]
      exact add_le_add_right st.remaining_le _

end Runs

end RayonBatch.Nested
