import RayonBatch.Batch.Order
import RayonBatch.Nested.Exec
import RayonBatch.Nested.Reentry
import RayonBatch.Nested.Remaining
import RayonBatch.Nested.Simulation

/-!
# Runs of a forest as runs of a parallel call

From the step that opens a scope on, every run of the forest is a run of the parallel call that the
scope belongs to (`simulation`), and what holds of every run of a parallel call holds of every scope
of every forest: jobs receive the tasks of their source in its order, each once
(`received_in_order`), the tasks on their way are bounded (`bounded_in_flight`), and a send fails
only after all jobs have unwound (`send_fails_unwound`).
-/

namespace RayonBatch.Nested
open Relation Runs

universe u
variable {π : Type u} {θ : Type*} [DecidableEq π] [DecidableEq θ] [Fintype θ]

/-- A run with the events of its steps. -/
inductive Trace (home : θ → Option π) (s₀ : State θ π) : List (Event π) → State θ π → Prop where
  | refl : Trace home s₀ [] s₀
  | tail {es s t e s'} :
    Trace home s₀ es s →
    Acts home s t e s' →
    Trace home s₀ (es ++ [e]) s'

/-- The tasks that jobs of the scope `b` receive in a run, one after the other. -/
def received (b : Nat) (es : List (Event π)) : List (Code π) :=
  es.flatMap fun e => ((e.op? b).map Op.received).getD []

/-- The state of an open scope and a parallel call over `tasks` that plays it. -/
structure Played (home : θ → Option π) (call : OpenCall π) (tasks : Tasks π) (s : State θ π)
    (b : Nat) (scope : Scope π) (play : Play π) : Prop where
  found : s.scopes[b]? = some scope
  pool : scope.pool = call.executor.pool
  run : ReflTransGen (Batch.Free (lazySource call.count))
    (Batch.init (call.executor.worker_count (current_num_threads home) call.count) (0, tasks)) play
  plays : Plays call.count (s.parts b) scope play

variable {home : θ → Option π} {program : θ → Code π} {s s' : State θ π} {t : θ} {e : Event π}
  {es : List (Event π)} {b n : Nat} {pool : π} {call : OpenCall π} {tasks : Tasks π}
  {scope : Scope π} {play : Play π} {below : List (Frame π)}

/-- A trace is a run. -/
lemma Trace.run {s₀ : State θ π} (tr : Trace home s₀ es s) : ReflTransGen (Step home) s₀ s := by
  induction tr with
  | refl => exact .refl
  | tail _ st ih => exact ih.tail ⟨_, _, st⟩

/-- Every run has a trace. -/
lemma Trace.of_run {s₀ : State θ π} (rs : ReflTransGen (Step home) s₀ s) :
    ∃ es, Trace home s₀ es s := by
  induction rs with
  | refl => exact ⟨[], .refl⟩
  | tail _ st ih =>
    obtain ⟨es, tr⟩ := ih
    obtain ⟨t, e, st⟩ := st
    exact ⟨_, tr.tail st⟩

namespace Played

/-- A scope that is opened is played by a call that begins. -/
lemma opens (st : Acts home s t (.opens b pool n) s') (placed : Placed s)
    (calling : (s.threads t).stack = .running (.converting .parallel call tasks) .done :: below) :
    Played home call tasks s' b ⟨pool, .bounded n, 0, 0, false⟩
      (Batch.init (call.executor.worker_count (current_num_threads home) call.count)
        (0, tasks)) := by
  obtain ⟨rfl, rfl, parts⟩ := st.parts_of_opens placed calling
  obtain ⟨rfl, scopes⟩ := st.scopes.of_opens
  refine ⟨?_, rfl, .refl, rfl, ?_⟩
  · rw [scopes, List.getElem?_concat_length]
  · rw [parts]
    exact .cons .spawning .zero

/-- A step of the forest is matched by the call. -/
lemma step (h : Played home call tasks s b scope play) (st : Acts home s t e s') :
    ∃ scope' play', Played home call tasks s' b scope' play' ∧
      ReflTransGen (Batch.Free (lazySource call.count)) play play' ∧
      play'.received.map ParallelBatchTask.task =
        play.received.map ParallelBatchTask.task ++ ((e.op? b).map Op.received).getD [] := by
  obtain ⟨lt, -⟩ := List.getElem?_eq_some_iff.mp h.found
  obtain ⟨scope', found, does⟩ := st.scopes.does h.found
  have plays := h.plays
  rw [← add_zero (s.parts b)] at plays
  obtain ⟨play', matched⟩ := plays.step (st.parts lt) does
  refine ⟨scope', play', ⟨found, ?_, h.run.trans matched.run, ?_⟩, matched.run, matched.received⟩
  · obtain ⟨scope'', found', same⟩ := st.scopes.keeps h.found
    cases found.symm.trans found'
    exact same.trans h.pool
  · simpa using matched.plays

/-- A run of the forest is matched by the call, and so is what is received. -/
lemma trace {s₁ : State θ π} (h : Played home call tasks s₁ b scope play)
    (tr : Trace home s₁ es s) :
    ∃ scope' play', Played home call tasks s b scope' play' ∧
      ReflTransGen (Batch.Free (lazySource call.count)) play play' ∧
      play'.received.map ParallelBatchTask.task =
        play.received.map ParallelBatchTask.task ++ received b es := by
  induction tr with
  | refl => exact ⟨scope, play, h, .refl, by simp [received]⟩
  | tail _ st ih =>
    obtain ⟨scope', play', mid, run, taken⟩ := ih
    obtain ⟨scope'', play'', last, run', taken'⟩ := mid.step st
    refine ⟨scope'', play'', last, run.trans run', ?_⟩
    simp [taken', taken, received]

/-- Every open scope is played, by the call that has opened it. -/
lemma of_run (rs : ReflTransGen (Step home) (init home program) s)
    (found : s.scopes[b]? = some scope) :
    ∃ call tasks play, call.executor.sequential_threshold < call.count ∧
      1 < call.executor.thread_count ∧ Played home call tasks s b scope play := by
  induction rs generalizing scope with
  | refl => cases found
  | @tail a a' rs st ih =>
    obtain ⟨t, e, st⟩ := st
    cases before : a.scopes[b]? with
    | some old =>
      obtain ⟨call, tasks, play, large, many, h⟩ := ih before
      obtain ⟨scope', play', h, -, -⟩ := h.step st
      cases found.symm.trans h.found
      exact ⟨call, tasks, play', large, many, h⟩
    | none =>
      -- the step opens the scope
      rcases st.scopes.origin found with ⟨old, -⟩ | ⟨n, -, rfl, -⟩ | ⟨-, old, -, was, -⟩
      · cases before.symm.trans old
      · obtain ⟨call, tasks, below, calling, -⟩ := st.self.of_opens
        have shaped := Shaped.run rs t
        rw [calling] at shaped
        obtain ⟨-, -, large, many⟩ := shaped.parallel rfl
        have h := opens st (Placed.run rs) calling
        rw [← Option.some.inj (found.symm.trans h.found)] at h
        exact ⟨call, tasks, _, large, many, h⟩
      · cases before.symm.trans was

end Played

/-- From the step that opens a scope on, a run of the forest is a run of the parallel call: the
parts of the scope, on whatever stacks they lie, are played by its body and its jobs, and jobs
receive the tasks that the jobs of the call do. -/
theorem simulation (rs : ReflTransGen (Step home) (init home program) s)
    (calling : (s.threads t).stack = .running (.converting .parallel call tasks) .done :: below)
    (opened : Acts home s t (.opens b pool n) s') {s'' : State θ π} (tr : Trace home s' es s'') :
    ∃ scope ending play, s''.scopes[b]? = some scope ∧ scope.pool = call.executor.pool ∧
      ReflTransGen (Batch.Next (lazySource call.count) ending)
        (Batch.init (call.executor.worker_count (current_num_threads home) call.count) (0, tasks))
        play ∧
      Plays call.count (s''.parts b) scope play ∧
      play.received.map ParallelBatchTask.task = received b es := by
  obtain ⟨scope, play, h, -, taken⟩ := (Played.opens opened (Placed.run rs) calling).trace tr
  obtain ⟨ending, run⟩ := Batch.settle h.run
  exact ⟨scope, ending, play, h.found, h.pool, run, h.plays, taken⟩

/-- The tasks of `leaf`. -/
def leaf_tasks : Tasks Unit :=
  .item .done .done (.item .done .done (.exhausted .done))

/-- Two workers of one pool, and a thread outside of it that has no name. -/
def namedWorkers (t : Option Bool) : Option Unit :=
  t.map fun _ => ()

/-- The rest of `leaf` once its scope is open: one worker executes both tasks. -/
def leaf_schedule : List (Choice (Option Bool)) :=
  [List.replicate 6 (.go none), [.start (some true) 0, .go (some true), .go (some true)],
    List.replicate 3 (.go none), List.replicate 2 (.go (some true)),
    List.replicate 2 (.go none), [.start (some false) 0, .go (some false), .go (some true)],
    [.go none]].flatten

/-- The call of `leaf`, on the parallel path. -/
def leaf_call : OpenCall Unit :=
  ⟨eager () 2 Nat.two_pos, 2, some ⟨()⟩⟩

/-- `leaf` up to its scope, and from there to its end. -/
lemma leaf_run : ∃ (s s' s'' : State (Option Bool) Unit) (es : List (Event Unit)),
    ReflTransGen (Step namedWorkers) (init namedWorkers fun _ => leaf) s ∧
    (s.threads none).stack
      = .running (.converting .parallel leaf_call leaf_tasks) .done :: [.running .root .done] ∧
    Acts namedWorkers s none (.opens 0 () 2) s' ∧ Trace namedWorkers s' es s'' ∧
    ∀ t, (s''.threads t).finished := by
  obtain ⟨s, called, calling, s', opened, s'', run, ended⟩ : ∃ s,
      follow (exec namedWorkers) (init namedWorkers fun _ => leaf) [.go none] = some s ∧
      (s.threads none).stack
        = .running (.converting .parallel leaf_call leaf_tasks) .done :: [.running .root .done] ∧
      ∃ s', Acts namedWorkers s none (.opens 0 () 2) s' ∧
      ∃ s'', follow (exec namedWorkers) s' leaf_schedule = some s'' ∧
        ∀ t, (s''.threads t).finished :=
    ⟨_, rfl, rfl, _, .act (.moves .opens) .opens, _, rfl, by decide⟩
  obtain ⟨es, tr⟩ := Trace.of_run (follow_run exec_step run)
  exact ⟨s, s', s'', es, follow_run exec_step called, calling, opened, tr, ended⟩

/-- The one scope of `leaf` is played by a parallel call of two jobs to the end. -/
theorem simulation_leaf :
    ∃ (s : State (Option Bool) Unit) (scope : Scope Unit) (play : Play Unit) (ending : _),
      ReflTransGen (Step namedWorkers) (init namedWorkers fun _ => leaf) s ∧
      (∀ t, (s.threads t).finished) ∧ s.scopes[0]? = some scope ∧
      ReflTransGen (Batch.Next (lazySource 2) ending) (Batch.init 2 (0, leaf_tasks)) play ∧
      Plays 2 (s.parts 0) scope play := by
  obtain ⟨s, s', s'', es, rs, calling, opened, tr, ended⟩ := leaf_run
  obtain ⟨scope, ending, play, found, -, run, plays, -⟩ := simulation rs calling opened tr
  have reach := (rs.tail ⟨_, _, opened⟩).trans tr.run
  exact ⟨s'', scope, play, ending, reach, ended, found, run, plays⟩

/-- In every run of a forest, whatever its other calls do, the jobs of a parallel call receive the
tasks of its source in order, each once and none beyond the declared count. -/
theorem received_in_order (rs : ReflTransGen (Step home) (init home program) s)
    (calling : (s.threads t).stack = .running (.converting .parallel call tasks) .done :: below)
    (opened : Acts home s t (.opens b pool n) s') {s'' : State θ π} (tr : Trace home s' es s'') :
    received b es <+: tasks.bodies.take call.count := by
  obtain ⟨scope, play, h, -, taken⟩ := (Played.opens opened (Placed.run rs) calling).trace tr
  obtain ⟨ending, run⟩ := Batch.settle h.run
  obtain ⟨-, within, bodies⟩ := Taken.run h.run
  rw [show received b es = play.received.map ParallelBatchTask.task from taken.symm, ← bodies]
  refine ((Batch.Inv.run run).flow.received_prefix.map _).trans ?_
  rw [List.take_append, List.take_of_length_le (by simpa using within)]
  exact List.prefix_append _ _

section Receives

omit [DecidableEq π] [DecidableEq θ] [Fintype θ]

/-- What is received with an event on one scope. -/
lemma received_on (b c : Nat) (op : Op π) :
    received b [.on c op] = if c = b then op.received else [] := by
  by_cases h : c = b <;> simp [received, Event.op?, h]

/-- The task that a thread receives from the scope `b` with a step of a job. -/
def Thread.receives (b : Nat) (thread thread' : Thread π) : List (Code π) :=
  match thread.stack with
  | .receiving _ c :: _ => if c = b then thread.begun thread' else []
  | _ => []

/-- A step that changes the height of the stack receives no task. -/
lemma Thread.receives_of_length {thread thread' : Thread π}
    (h : thread.stack.length ≠ thread'.stack.length) : thread.receives b thread' = [] := by
  unfold receives
  split
  · rw [begun_of_length h, ite_self]
  · rfl

/-- What a thread receives is told by the event. -/
lemma Thread.Step.receives [DecidableEq π] {threads : π → Nat} {home}
    {thread thread' : Thread π} (st : Thread.Step threads home thread e thread') :
    thread.receives b thread' = received b [e] := by
  cases st with
  | moves m =>
    cases m with
    | recv =>
      rw [received_on]
      simp only [Thread.receives, Thread.begun_cons, Frame.begun, Op.received]
    | spawn | spawned | send | send_error | exhausted | stopped | source_unwinds =>
      rw [received_on]
      exact (ite_self []).symm
    | _ => rfl
  | call => rfl
  | returns fin =>
    rw [receives_of_length (by simp)]
    cases fin with
    | scope_ends =>
      rw [received_on]
      exact (ite_self []).symm
    | _ => rfl
  | start =>
    rw [receives_of_length (by simp), received_on]
    exact (ite_self []).symm
  | exits exit =>
    rw [receives_of_length (by simp)]
    cases exit with
    | closed | task_unwinds =>
      rw [received_on]
      exact (ite_self []).symm

end Receives

/-- The step a choice stands for, with a log of the tasks received from the scope `b`. -/
def exec_received (home : θ → Option π) (b : Nat) (x : State θ π × List (Code π))
    (choice : Choice θ) : Option (State θ π × List (Code π)) :=
  (exec home x.1 choice).map fun s' =>
    (s', x.2 ++ (x.1.threads choice.thread).receives b (s'.threads choice.thread))

/-- The log is that of a trace. -/
lemma exec_received_trace {home : θ → Option π} {schedule : List (Choice θ)}
    {log : List (Code π)}
    (h : follow (exec_received home b) (s, []) schedule = some (s', log)) :
    ∃ es, Trace home s es s' ∧ received b es = log := by
  refine invariant (R := fun x y => ∃ choice, exec_received home b x choice = some y)
    (I := fun x => ∃ es, Trace home s es x.1 ∧ received b es = x.2) ?_
    (follow_run (fun st => ⟨_, st⟩) h) ⟨[], .refl, rfl⟩
  rintro x y ⟨choice, st⟩ ⟨es, tr, same⟩
  obtain ⟨s₁, executed, rfl⟩ := Option.map_eq_some_iff.mp st
  obtain ⟨e, acts⟩ := exec_acts executed
  refine ⟨es ++ [e], tr.tail acts, ?_⟩
  rw [acts.self.receives, ← same, received, received, received, List.flatMap_append]

/-- Two tasks, of which the first makes a call of its own. -/
def uneven_tasks : Tasks Unit :=
  .item .done leaf (.item .done .done (.exhausted .done))

/-- A call of these tasks on the parallel path. -/
def uneven : Code Unit :=
  .call .execute_with_count (eager () 2 Nat.two_pos) 2 .done uneven_tasks .done

/-- The rest of `uneven` once its scope is open: one worker executes both tasks, and those of the
call that the first one makes. -/
def uneven_schedule : List (Choice (Option Bool)) :=
  [List.replicate 6 (.go none), .start (some true) 0 :: List.replicate 12 (.go (some true)),
    List.replicate 3 (.go none), List.replicate 2 (.go (some true)),
    List.replicate 2 (.go none), [.start (some false) 0, .go (some false), .go (some true)],
    [.go none]].flatten

/-- The two tasks of `uneven` are received in their order, both of them until the call returns. -/
theorem received_in_order_uneven :
    ∃ (s s' s'' : State (Option Bool) Unit) (es : List (Event Unit)),
      ReflTransGen (Step namedWorkers) (init namedWorkers fun _ => uneven) s ∧
      Acts namedWorkers s none (.opens 0 () 2) s' ∧ Trace namedWorkers s' es s'' ∧
      (∀ t, (s''.threads t).finished) ∧ received 0 es = [leaf, .done] ∧
      received 0 es <+: uneven_tasks.bodies.take 2 := by
  obtain ⟨s, called, calling, s', opened, s'', log, run, ended, both⟩ : ∃ s,
      follow (exec namedWorkers) (init namedWorkers fun _ => uneven) [.go none] = some s ∧
      (s.threads none).stack
        = .running (.converting .parallel leaf_call uneven_tasks) .done ::
          [.running .root .done] ∧
      ∃ s', Acts namedWorkers s none (.opens 0 () 2) s' ∧
      ∃ s'' log, follow (exec_received namedWorkers 0) (s', []) uneven_schedule
          = some (s'', log) ∧
        (∀ t, (s''.threads t).finished) ∧ log = [leaf, .done] :=
    ⟨_, rfl, rfl, _, .act (.moves .opens) .opens, _, _, rfl, by decide, rfl⟩
  obtain ⟨es, tr, rfl⟩ := exec_received_trace run
  have rs := follow_run exec_step called
  exact ⟨s, s', s'', es, rs, opened, tr, ended, both, received_in_order rs calling opened tr⟩

/-- In every reachable state of a forest, for every parallel call in it: at most as many tasks as
the capacity of its channel, which no pool of fewer threads has, are being executed, at most as many
are queued, and one is about to be sent. -/
theorem bounded_in_flight (rs : ReflTransGen (Step home) (init home program) s)
    (found : s.scopes[b]? = some scope) :
    scope.channel.capacity ≤ current_num_threads home scope.pool ∧
    (s.parts b).countP (Part.executes ·) ≤ scope.channel.capacity ∧
    scope.channel.queue.length ≤ scope.channel.capacity ∧
    (s.parts b).countP (Part.sends ·) ≤ 1 := by
  obtain ⟨call, tasks, play, -, -, h⟩ := Played.of_run rs found
  obtain ⟨ending, run⟩ := Batch.settle h.run
  have inv := Batch.Inv.run run
  have same := h.plays.scope
  have capacity : scope.channel.capacity
      = call.executor.worker_count (current_num_threads home) call.count := by
    rw [same]
    exact inv.shape.capacity
  refine ⟨?_, ?_, ?_, ?_⟩
  · rw [capacity, h.pool]
    exact Nat.min_le_left _ _
  · rw [h.plays.executes, capacity]
    exact inv.shape.inHand_length_le
  · rw [capacity, same]
    simpa [Play.scope] using inv.shape.room
  · exact h.plays.sends.trans (Batch.held_length_le _)

/-- A call whose first task unwinds out of the only job. -/
def lossy : Code Unit :=
  .call .execute_with_count (eager () 2 Nat.two_pos) 3 .done
    (.item .done .unwinds (.item .done .done (.item .done .done (.exhausted .done)))) .done

/-- One worker of a pool and a thread outside of it. -/
def oneWorker (t : Bool) : Option Unit :=
  if t then some () else none

/-- The worker has received the first task, the second is queued and the third about to be sent. -/
def lossy_schedule : List (Choice Bool) :=
  [List.replicate 7 (.go false), [.start true 0, .go true], List.replicate 5 (.go false)].flatten

/-- There is room for one task in each place. -/
theorem bounded_in_flight_lossy :
    ∃ (s : State Bool Unit) (scope : Scope Unit),
      ReflTransGen (Step oneWorker) (init oneWorker fun _ => lossy) s ∧
      s.scopes[0]? = some scope ∧
      scope.channel.queue.length = 1 ∧ scope.channel.queue.length ≤ scope.channel.capacity ∧
      scope.channel.capacity ≤ 1 ∧
      (s.parts 0).countP (Part.executes ·) ≤ 1 ∧ (s.parts 0).countP (Part.sends ·) ≤ 1 := by
  obtain ⟨s, run, scope, found, full⟩ : ∃ s,
      follow (exec oneWorker) (init oneWorker fun _ => lossy) lossy_schedule = some s ∧
      ∃ scope, s.scopes[0]? = some scope ∧ scope.channel.queue.length = 1 :=
    ⟨_, rfl, _, rfl, rfl⟩
  have rs := follow_run exec_step run
  obtain ⟨small, executing, queued, sending⟩ := bounded_in_flight rs found
  have one : scope.channel.capacity ≤ 1 :=
    small.trans (show current_num_threads oneWorker () ≤ 1 by decide)
  exact ⟨s, scope, rs, found, full, queued, one, executing.trans one, sending⟩

omit [DecidableEq π] [DecidableEq θ] in
/-- A frame that does its part for a scope is among the parts of it. -/
lemma State.mem_parts {f : Frame π} {part} (hf : f ∈ (s.threads t).stack)
    (does : f.part? = some (b, part)) : part ∈ s.parts b := by
  refine Multiset.mem_sum.mpr ⟨t, Finset.mem_univ t, ?_⟩
  obtain ⟨upper, lower, split⟩ := List.append_of_mem hf
  simp [Thread.parts, split, Frame.parts, does]

omit [DecidableEq π] in
/-- A scope stays one that has unwound. -/
lemma Scope.Does.unwound {scope' : Scope π} {op} (st : scope.Does op scope')
    (h : scope.unwound = true) : scope'.unwound = true := by
  cases op with
  | none =>
    cases st
    exact h
  | some op => cases st <;> first | exact h | rfl

/-- The queue of a scope is empty when its body drops the receiver it has cloned. -/
lemma queue_of_drop_receiver (rs : ReflTransGen (Step home) (init home program) s)
    (found : s.scopes[b]? = some scope) (drops : Acts home s t (.on b .drop_receiver) s') :
    scope.channel.queue = [] := by
  obtain ⟨call, tasks, play, -, -, h⟩ := Played.of_run rs found
  obtain ⟨ending, run⟩ := Batch.settle h.run
  obtain ⟨own, left, below, spawned⟩ := drops.self.of_drop_receiver
  have part : Part.spawning own.count left 0 ∈ s.parts b :=
    State.mem_parts (by rw [spawned]; exact List.mem_cons_self) rfl
  obtain ⟨agent, mem, performs⟩ := Multiset.exists_mem_of_rel_of_mem h.plays.parts part
  have producer := performs.of_spawning mem
  have queue := (Batch.Inv.run run).flow.fresh (by simp [producer])
  rw [h.plays.scope]
  simp [Play.scope, queue]

/-- A send to the work channel of a scope fails only when every job of the scope has unwound. -/
lemma unwound_of_send_error {task : Code π}
    (rs : ReflTransGen (Step home) (init home program) s) (found : s.scopes[b]? = some scope)
    (threads : 0 < current_num_threads home scope.pool)
    (fails : Acts home s t (.on b (.send_error task)) s') :
    scope.pending = 0 ∧ scope.unwound = true := by
  obtain ⟨call, tasks, play, large, -, h⟩ := Played.of_run rs found
  obtain ⟨ending, run⟩ := Batch.settle h.run
  have inv := Batch.Inv.run run
  have same := h.plays.scope
  have pos : 0 < call.executor.worker_count (current_num_threads home) call.count :=
    Nat.lt_min.mpr ⟨h.pool ▸ threads, Nat.zero_lt_of_lt large⟩
  -- all jobs of the call that plays the scope have unwound
  have dead : play.workers.countP Worker.dead =
      call.executor.worker_count (current_num_threads home) call.count := by
    obtain ⟨own, k, rest, below, sending⟩ := fails.self.of_send_error
    have part : Part.sending own.count k rest task ∈ s.parts b :=
      State.mem_parts (by rw [sending]; exact List.mem_cons_self) rfl
    obtain ⟨agent, mem, performs⟩ := Multiset.exists_mem_of_rel_of_mem h.plays.parts part
    obtain ⟨t, producer, rfl⟩ := performs.of_sending mem
    obtain ⟨scope', -, does⟩ := fails.scopes.does found
    rw [show (Event.on b (.send_error _)).op? b = some _ from if_pos rfl] at does
    cases does with
    | send_error none =>
      rw [same] at none
      rw [inv.tally.deaths]
      exact inv.send_disconnected producer (Channel.send_disconnected_of_map _ none)
  constructor
  · have spawned := inv.shape.spawned
    have all : play.workers.countP Worker.dead = play.workers.length := by
      have := play.workers.countP_le_length (p := Worker.dead)
      omega
    rw [same]
    refine List.countP_eq_zero.mpr fun w hw live => ?_
    have gone := List.countP_eq_length.mp all w hw
    cases w <;> simp at gone live
  · rw [same]
    have some := List.countP_pos_iff.mp (dead ▸ pos)
    simpa [Play.scope, List.any_eq_true] using some

/-- In any forest a send to the work channel fails only when every job of the scope has unwound, so
the call does not return the error: when its scope ends, it unwinds. -/
theorem send_fails_unwound {task : Code π} (rs : ReflTransGen (Step home) (init home program) s)
    (found : s.scopes[b]? = some scope) (threads : 0 < current_num_threads home scope.pool)
    (fails : Acts home s t (.on b (.send_error task)) s') :
    scope.pending = 0 ∧ scope.unwound = true ∧
    ∀ s₁ s₂ u flag, ReflTransGen (Step home) s' s₁ → Acts home s₁ u (.on b (.ends flag)) s₂ →
      flag = true := by
  obtain ⟨none, unwound⟩ := unwound_of_send_error rs found threads fails
  refine ⟨none, unwound, fun s₁ s₂ u flag later ends => ?_⟩
  have stays : ∃ scope, s₁.scopes[b]? = some scope ∧ scope.unwound = true := by
    refine invariant (I := fun a : State θ π => ∃ scope, a.scopes[b]? = some scope ∧
      scope.unwound = true) ?_ (ReflTransGen.head ⟨_, _, fails⟩ later) ⟨scope, found, unwound⟩
    rintro a a' ⟨_, e, st⟩ ⟨scope, found, unwound⟩
    obtain ⟨scope', found', does⟩ := st.scopes.does found
    exact ⟨scope', found', does.unwound unwound⟩
  obtain ⟨scope', found', unwound'⟩ := stays
  obtain ⟨_, -, does⟩ := ends.scopes.does found'
  rw [show (Event.on b (.ends flag)).op? b = some (.ends flag) from if_pos rfl] at does
  cases does
  exact unwound'

/-- The third task is not sent once the first has unwound. -/
theorem send_fails_unwound_lossy :
    ∃ (s s' : State Bool Unit) (scope : Scope Unit),
      ReflTransGen (Step oneWorker) (init oneWorker fun _ => lossy) s ∧
      s.scopes[0]? = some scope ∧
      Acts oneWorker s false (.on 0 (.send_error .done)) s' ∧
      scope.unwound = true ∧ scope.pending = 0 := by
  obtain ⟨s, run, s', unwinds, scope, found, s'', fails⟩ : ∃ s,
      follow (exec oneWorker) (init oneWorker fun _ => lossy) lossy_schedule = some s ∧
      ∃ s', Acts oneWorker s true (.on 0 .unwind) s' ∧ ∃ scope, s'.scopes[0]? = some scope ∧
      ∃ s'', Acts oneWorker s' false (.on 0 (.send_error .done)) s'' :=
    ⟨_, rfl, _, .act (.exits .task_unwinds) (.on rfl .unwind), _, rfl, _,
      .act (.moves .send_error) (.on rfl (.send_error rfl))⟩
  have rs := (follow_run exec_step run).tail ⟨_, _, unwinds⟩
  obtain ⟨none, unwound, -⟩ :=
    send_fails_unwound rs found (show 0 < current_num_threads oneWorker () by decide) fails
  exact ⟨s', s'', scope, rs, found, fails, unwound, none⟩

end RayonBatch.Nested
