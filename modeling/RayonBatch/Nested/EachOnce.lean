import RayonBatch.Nested.Played
import RayonBatch.Nested.Remaining

/-!
# Every task of a forest, exactly once

A forest is orderly if its conversions and its `next`s return and no source has more items than
its call declares; its tasks may unwind (`Code.Orderly`). A run is undisturbed if no batch is given
up before the end of its source and no destructor of a task unwinds (`Thread.disturbed`).
Undisturbed runs keep a forest orderly (`Orderly.act`), and then a step loses no task that is left
(`Acts.remaining_ge`), so that each task has been begun exactly once when all calls have returned
(`each_once`).
-/

namespace RayonBatch.Nested
open Relation Runs

universe u
variable {π : Type u} {θ : Type*}

mutual

/-- All sources that some code brings about return from their conversions and `next`s, and have no
more items than declared; `may_unwind` tells whether the code itself may unwind. -/
def Code.Orderly : Code π → Bool → Prop
  | .done, _ => True
  | .unwinds, may_unwind => may_unwind = true
  | .call _ _ count into_iter tasks rest, may_unwind =>
    into_iter.Orderly false ∧ tasks.Orderly count ∧ rest.Orderly may_unwind

/-- The same of a source with room for `room` items. -/
def Tasks.Orderly : Tasks π → Nat → Prop
  | .exhausted next, _ => next.Orderly false
  | .item next task rest, room =>
    next.Orderly false ∧ 0 < room ∧ task.Orderly true ∧ rest.Orderly (room - 1)

end

section Code

/-- Code that makes no calls is orderly. -/
@[simp] lemma Code.orderly_done {may_unwind} : (Code.done : Code π).Orderly may_unwind := by
  simp [Code.Orderly]

/-- Code that unwinds is orderly where it may unwind. -/
@[simp] lemma Code.orderly_unwinds {may_unwind} :
    (Code.unwinds : Code π).Orderly may_unwind ↔ may_unwind = true := by
  simp [Code.Orderly]

/-- A call is orderly with its conversion, its source and the code after it. -/
@[simp] lemma Code.orderly_call {entry executor count into_iter tasks rest may_unwind} :
    (Code.call entry executor count into_iter tasks rest : Code π).Orderly may_unwind ↔
      into_iter.Orderly false ∧ tasks.Orderly count ∧ rest.Orderly may_unwind := by
  simp [Code.Orderly]

/-- A source without items is orderly with its last `next`. -/
@[simp] lemma Tasks.orderly_exhausted {next : Code π} {room} :
    (Tasks.exhausted next).Orderly room ↔ next.Orderly false := by
  simp [Tasks.Orderly]

/-- A source with an item is orderly when there is room for it. -/
@[simp] lemma Tasks.orderly_item {next task : Code π} {rest room} :
    (Tasks.item next task rest).Orderly room ↔
      next.Orderly false ∧ 0 < room ∧ task.Orderly true ∧ rest.Orderly (room - 1) := by
  simp [Tasks.Orderly]

/-- The next `next` of an orderly source is orderly. -/
lemma Tasks.Orderly.next {tasks : Tasks π} {room} (h : tasks.Orderly room) :
    tasks.next.Orderly false := by
  cases tasks with
  | exhausted => exact Tasks.orderly_exhausted.mp h
  | item => exact (Tasks.orderly_item.mp h).1

/-- An item that an orderly source hands on is orderly, and so is the rest. -/
lemma Tasks.Orderly.pulled {tasks rest : Tasks π} {task k count} (h : tasks.Orderly (count - k))
    (e : tasks.pulled k count = some (task, rest)) :
    task.Orderly true ∧ rest.Orderly (count - (k + 1)) := by
  obtain ⟨-, next, rfl⟩ := Tasks.pulled_eq_some e
  obtain ⟨-, -, task, rest⟩ := Tasks.orderly_item.mp h
  exact ⟨task, by rwa [Nat.sub_sub] at rest⟩

/-- An orderly source that hands on no task has none. -/
lemma Tasks.Orderly.later {tasks : Tasks π} {k count} (h : tasks.Orderly (count - k))
    (e : tasks.pulled k count = none) : tasks.later = 0 := by
  cases tasks with
  | exhausted => rfl
  | item next task rest =>
    obtain ⟨-, room, -⟩ := Tasks.orderly_item.mp h
    rw [Tasks.pulled, if_pos (by omega)] at e
    cases e

/-- Orderly code has its tasks when other such code follows. -/
lemma Code.Orderly.append : ∀ {first second : Code π}, first.Orderly false → second.Orderly false →
    (first.append second).Orderly false ∧ (first.append second).tasks = first.tasks + second.tasks
  | .done, _, _, h => ⟨h, by simp [Code.append]⟩
  | .unwinds, _, h, _ => by simp at h
  | .call .., _, h, h' => by
    obtain ⟨into_iter, tasks, rest⟩ := Code.orderly_call.mp h
    obtain ⟨orderly, same⟩ := rest.append h'
    exact
      ⟨Code.orderly_call.mpr ⟨into_iter, tasks, orderly⟩, by simp [Code.append, same, add_assoc]⟩

/-- However an orderly source is converted, it keeps its tasks. -/
lemma Converts.orderly {into_iter first} {tasks later : Tasks π} {room}
    (h : Converts into_iter tasks first later) (code : into_iter.Orderly false)
    (source : tasks.Orderly room) : first.Orderly false ∧ later.Orderly room ∧
      first.tasks + later.tasks = into_iter.tasks + tasks.tasks := by
  cases h with
  | eagerly => exact ⟨code, source, rfl⟩
  | lazily =>
    cases tasks with
    | exhausted next =>
      obtain ⟨orderly, same⟩ := code.append (Tasks.orderly_exhausted.mp source)
      exact ⟨Code.orderly_done, Tasks.orderly_exhausted.mpr orderly, by
        simp [Tasks.prepend, Tasks.tasks, same]⟩
    | item next task rest =>
      obtain ⟨next', left⟩ := Tasks.orderly_item.mp source
      obtain ⟨orderly, same⟩ := code.append next'
      exact ⟨Code.orderly_done, Tasks.orderly_item.mpr ⟨orderly, left⟩, by
        simp [Tasks.prepend, Tasks.tasks, same, add_assoc]⟩

end Code

/-- Whether the code that runs for something may unwind. -/
def Context.may_unwind : Context π → Bool
  | root | executing .. | working .. => true
  | converting .. | pulling .. => false

/-- What is left when the code has ended is orderly. -/
def Context.Orderly : Context π → Prop
  | root | working .. => True
  | converting _ call tasks => tasks.Orderly call.count
  | pulling call k tasks _ | executing call k tasks => tasks.Orderly (call.count - k)

/-- The code of a frame is orderly, and no body of a scope has unwound. -/
def Frame.Orderly : Frame π → Prop
  | running context code => code.Orderly context.may_unwind ∧ context.Orderly
  | spawning call tasks _ _ => tasks.Orderly call.count
  | polling call k tasks _ => tasks.Orderly (call.count - k)
  | sending call k rest _ task => rest.Orderly (call.count - k) ∧ task.Orderly true
  | waiting _ _ unwound => unwound = false
  | receiving .. => True

/-- The tasks in the queue are orderly, and no job has unwound. -/
structure Scope.Orderly (scope : Scope π) : Prop where
  calm : scope.unwound = false
  queue : ∀ task ∈ scope.channel.queue, task.Orderly true

/-- Whether a frame leaves the stack only when a batch is given up or a destructor unwinds. -/
def Frame.midway : Frame π → Bool
  | running (.converting ..) _ | running (.executing ..) _ | running (.working ..) _
  | polling .. => true
  | running .root _ | running (.pulling ..) _ | spawning .. | sending .. | waiting ..
  | receiving .. => false

/-- Whether a step of a thread gives up a batch before the end of its source, or a destructor
unwinds in it. -/
def Thread.disturbed (thread thread' : Thread π) : Bool :=
  match thread.stack, thread'.stack with
  | .polling .. :: _, .waiting .. :: _ => true
  | f :: below, stack' => f.midway && decide (stack'.length ≤ below.length)
  | [], _ => false

/-- An orderly frame that moves on is orderly. -/
lemma Moves.orderly {threads : π → Nat} {f f' : Frame π} {e} (m : Moves threads f e f')
    (h : f.Orderly) (received : ∀ b task, e = .on b (.recv task) → task.Orderly true) :
    f'.Orderly := by
  cases m with
  | converted => exact h.2
  | opens => exact h.2
  | spawn | spawned => exact h
  | next => exact ⟨h.next, h⟩
  | execute e => exact Tasks.Orderly.pulled h.2 e
  | item e => exact (Tasks.Orderly.pulled h.2 e).symm
  | executed => exact h.2
  | send => exact h.1
  | send_error | exhausted | stopped => rfl
  | source_unwinds => cases Code.orderly_unwinds.mp h.1
  | recv => exact ⟨received _ _ rfl, trivial⟩
  | worked => trivial

/-- An orderly frame that moves on keeps its tasks, unless it gives up its source. -/
lemma Moves.remaining_ge {threads : π → Nat} {f f' : Frame π} {e} (m : Moves threads f e f')
    (h : f.Orderly) (sent : ∀ b task, e ≠ .on b (.send_error task)) {below active}
    (smooth : Thread.disturbed ⟨f :: below, active⟩ ⟨f' :: below, active⟩ = false) :
    f.remaining + e.takes_out ≤ f.begun f' + f'.remaining + e.puts := by
  obtain keeps | ⟨waits, begun, puts, takes⟩ := m.remaining
  · exact keeps.ge
  · cases m with
    | send_error => exact absurd rfl (sent _ _)
    | exhausted e =>
      simp [Frame.remaining, Context.remaining, Tasks.Orderly.later h.2 e, puts, takes]
    | stopped => cases smooth
    | source_unwinds => cases Code.orderly_unwinds.mp h.1
    | _ => cases waits

/-- A call of an orderly frame that is over returns, and has no tasks left. -/
lemma Finishes.orderly {f : Frame π} {e call unwound} (fin : Finishes f e call unwound)
    (h : f.Orderly) (settled : f.midway = false) (calm : ∀ b, e ≠ .on b (.ends true)) :
    f.remaining = 0 ∧ unwound = false := by
  cases fin with
  | abandoned | conversion_unwinds | stopped | task_unwinds => cases settled
  | exhausted e => simp [Frame.remaining, Context.remaining, Tasks.Orderly.later h.2 e]
  | source_unwinds => cases Code.orderly_unwinds.mp h.1
  | @scope_ends _ b body jobs =>
    cases jobs with
    | true => exact absurd rfl (calm b)
    | false => exact ⟨rfl, by rw [show body = false from h]; rfl⟩

/-- A frame that leaves the stack in an undisturbed step is not midway. -/
lemma Thread.over_of_disturbed {f : Frame π} {below : List (Frame π)} {active}
    {thread' : Thread π} (smooth : Thread.disturbed ⟨f :: below, active⟩ thread' = false)
    (pops : thread'.stack.length ≤ below.length) : f.midway = false := by
  unfold disturbed at smooth
  split at smooth
  · cases smooth
  next g under eq _ =>
    cases eq
    simpa [pops] using smooth
  · rename_i eq
    cases eq

/-- What an undisturbed step makes of an orderly thread. -/
structure Thread.Continues (thread : Thread π) (e : Event π) (thread' : Thread π) : Prop where
  orderly : ∀ f ∈ thread'.stack, f.Orderly
  tasks : thread.remaining + e.takes_out ≤ thread.begun thread' + thread'.remaining + e.puts
  sent : ∀ b task, e = .on b (.send task) → task.Orderly true
  calm : ∀ b, e ≠ .on b .unwind

/-- What the scopes grant to a step. -/
structure Event.Granted (e : Event π) : Prop where
  received : ∀ b task, e = .on b (.recv task) → task.Orderly true
  sent : ∀ b task, e ≠ .on b (.send_error task)
  calm : ∀ b, e ≠ .on b (.ends true)

/-- An undisturbed step of an orderly thread loses no task. -/
lemma Thread.Step.continues [DecidableEq π] {threads : π → Nat} {home} {thread thread' : Thread π}
    {e} (st : Thread.Step threads home thread e thread') (h : ∀ f ∈ thread.stack, f.Orderly)
    (granted : e.Granted) (smooth : thread.disturbed thread' = false) :
    thread.Continues e thread' := by
  cases st with
  | @call ctx _ _ _ _ _ rest below _ _ _ _ _ _ conv =>
    obtain ⟨code, context⟩ := h _ List.mem_cons_self
    obtain ⟨into_iter, tasks, rest'⟩ := Code.orderly_call.mp code
    obtain ⟨first, later, same⟩ := conv.orderly into_iter tasks
    refine ⟨?_, ?_, by simp, by simp⟩
    · rintro g (_ | ⟨_, _ | ⟨_, hg⟩⟩)
      · exact ⟨first, later⟩
      · exact ⟨rest', context⟩
      · exact h g (List.mem_cons_of_mem _ hg)
    · rw [Thread.begun_of_length (by simp)]
      simp only [Thread.remaining_cons, List.map_cons, List.sum_cons, Frame.remaining,
        Context.remaining, Event.puts, Event.takes_out, Code.tasks_call, Multiset.coe_nil, zero_add,
        add_zero, ← add_assoc]
      rw [same]
  | @moves f _ f' below _ m =>
    have own := h f List.mem_cons_self
    refine ⟨?_, ?_, ?_, ?_⟩
    · rintro g (_ | ⟨_, hg⟩)
      · exact m.orderly own granted.received
      · exact h g (List.mem_cons_of_mem _ hg)
    · rw [Thread.begun_cons, Thread.remaining_cons, Thread.remaining_cons, ← add_assoc,
        add_right_comm, add_right_comm _ _ e.puts]
      gcongr ?_ + _
      exact m.remaining_ge own granted.sent smooth
    · cases m with
      | send =>
        rintro _ _ ⟨⟩
        exact own.2
      | _ => simp
    · cases m <;> simp
  | @returns f _ _ _ ctx rest rest' below _ fin res =>
    have calm : ∀ b, e ≠ .on b .unwind := by cases fin <;> simp
    have sent : ∀ b task, e ≠ .on b (.send task) := by cases fin <;> simp
    obtain ⟨none, rfl⟩ := fin.orderly (h f List.mem_cons_self)
      (Thread.over_of_disturbed smooth (by simp)) granted.calm
    obtain ⟨puts, takes⟩ := fin.puts
    cases res
    refine ⟨fun g hg => h g (List.mem_cons_of_mem _ hg), ?_,
      fun b task eq => absurd eq (sent b task), calm⟩
    rw [Thread.begun_of_length (by simp), Thread.remaining_cons, none, puts, takes]
    simp [Thread.remaining]
  | start =>
    refine ⟨?_, ?_, by simp, by simp⟩
    · rintro g (_ | ⟨_, hg⟩)
      · trivial
      · exact h g hg
    · rw [Thread.begun_of_length (by simp)]
      simp [Thread.remaining, Frame.remaining, Event.puts, Event.takes_out]
  | @exits f _ below _ exit =>
    have settled := Thread.over_of_disturbed smooth (Nat.le_refl _)
    cases exit with
    | closed =>
      refine ⟨fun g hg => h g (List.mem_cons_of_mem _ hg), ?_, by simp, by simp⟩
      rw [Thread.begun_of_length (by simp)]
      simp [Thread.remaining, Frame.remaining, Event.puts, Event.takes_out]
    | task_unwinds => cases settled

/-- What happens to an orderly scope when no job unwinds and no receiver is dropped before its task:
the scope stays orderly, and its queue loses what is taken out of it and no more. -/
lemma Scope.Step.continues {s s' : Scope π} {op b} (st : s.Step op s') (h : s.Orderly)
    (sent : ∀ task, op = .send task → task.Orderly true) (calm : op ≠ .unwind)
    (empty : op = .drop_receiver → s.channel.queue = []) :
    s'.Orderly ∧
      s.remaining + (Event.on b op).puts ≤ s'.remaining + (Event.on b op).takes_out := by
  obtain ⟨quiet, queue⟩ := h
  cases st with
  | drop_receiver =>
    have nil := s.channel.dropReceiver_queue_of_nil (empty rfl)
    exact ⟨⟨quiet, by simp [nil]⟩, by simp [Scope.remaining, empty rfl, nil, Event.puts]⟩
  | exit e =>
    obtain ⟨none, -⟩ := Channel.recv_eq_disconnected.mp e
    have nil := s.channel.dropReceiver_queue_of_nil none
    exact ⟨⟨quiet, by simp [nil]⟩, by simp [Scope.remaining, none, nil, Event.puts]⟩
  | unwind => exact absurd rfl calm
  | @send task c e =>
    obtain ⟨-, -, rfl⟩ := Channel.send_eq_sent.mp e
    refine ⟨⟨quiet, fun t ht => ?_⟩, by simp [Scope.remaining, Event.puts, Event.takes_out]⟩
    rcases List.mem_append.mp ht with old | new
    · exact queue t old
    · cases List.mem_singleton.mp new
      exact sent task rfl
  | recv e =>
    obtain ⟨taken, -⟩ := Channel.recv_eq_received.mp e
    refine ⟨⟨quiet, fun t ht => queue t ?_⟩, ?_⟩
    · rw [taken]
      exact List.mem_cons_of_mem _ ht
    · simp [Scope.remaining, taken, Event.puts, Event.takes_out, add_comm]
  | spawn | start | drop_sender | send_error | ends =>
    exact ⟨⟨quiet, queue⟩, by simp [Scope.remaining, Event.puts, Event.takes_out]⟩

/-- What happens to orderly scopes under the same conditions. -/
lemma Scopes.Step.continues {scopes scopes' : List (Scope π)} {e}
    (st : Scopes.Step scopes e scopes') (h : ∀ scope ∈ scopes, scope.Orderly)
    (sent : ∀ b task, e = .on b (.send task) → task.Orderly true) (calm : ∀ b, e ≠ .on b .unwind)
    (empty : ∀ b scope, e = .on b .drop_receiver → scopes[b]? = some scope →
      scope.channel.queue = []) :
    (∀ scope ∈ scopes', scope.Orderly) ∧
      (scopes.map Scope.remaining).sum + e.puts
        ≤ (scopes'.map Scope.remaining).sum + e.takes_out := by
  cases st with
  | silent => exact ⟨h, le_rfl⟩
  | opens =>
    refine ⟨fun scope mem => ?_, by simp [Event.puts, Event.takes_out]⟩
    rcases List.mem_append.mp mem with old | new
    · exact h scope old
    · cases List.mem_singleton.mp new
      exact ⟨rfl, by simp⟩
  | @on b op old new found st =>
    obtain ⟨orderly, ge⟩ := st.continues (b := b) (h old (List.mem_of_getElem? found))
      (fun task eq => sent b task (by rw [eq])) (fun eq => calm b (by rw [eq]))
      (fun eq => empty b old (by rw [eq]) found)
    refine ⟨fun scope mem => ?_, ?_⟩
    · rcases List.mem_or_eq_of_mem_set mem with other | rfl
      · exact h scope other
      · exact orderly
    · have set := List.sum_map_set_add Scope.remaining found new
      refine le_of_add_le_add_right (a := new.remaining) ?_
      calc _ = (scopes.map Scope.remaining).sum + new.remaining + _ := add_right_comm ..
        _ = ((scopes.set b new).map Scope.remaining).sum + (old.remaining + _) := by
          rw [← set, add_assoc]
        _ ≤ ((scopes.set b new).map Scope.remaining).sum + (new.remaining + _) := by gcongr
        _ = _ := by rw [← add_assoc, add_right_comm]

/-- An event on a scope is one on an open scope. -/
lemma Scopes.Step.found {scopes scopes' : List (Scope π)} {b op}
    (st : Scopes.Step scopes (.on b op) scopes') : ∃ scope, scopes[b]? = some scope := by
  cases st with
  | on found => exact ⟨_, found⟩

/-- All code that is left is orderly. -/
structure State.Orderly (s : State θ π) : Prop where
  threads : ∀ t, ∀ f ∈ (s.threads t).stack, f.Orderly
  scopes : ∀ scope ∈ s.scopes, scope.Orderly

/-- Orderly scopes grant what a step needs, where no send fails. -/
lemma State.Orderly.grants {s : State θ π} {e : Event π} {scopes' : List (Scope π)} (h : s.Orderly)
    (st : Scopes.Step s.scopes e scopes') (sent : ∀ b task, e ≠ .on b (.send_error task)) :
    e.Granted := by
  refine ⟨?_, sent, ?_⟩
  · rintro b task rfl
    cases st with
    | on found st =>
      cases st with
      | recv received =>
        obtain ⟨queue, -⟩ := Channel.recv_eq_received.mp received
        exact (h.scopes _ (List.mem_of_getElem? found)).queue task (by simp [queue])
  · rintro b rfl
    generalize flag : true = jobs at st
    cases st with
    | on found st =>
      cases st
      rw [(h.scopes _ (List.mem_of_getElem? found)).calm] at flag
      cases flag

section Runs

variable [DecidableEq π] [DecidableEq θ] [Fintype θ] {home : θ → Option π} {program : θ → Code π}
  {s s' : State θ π} {log : List (Code π)}

/-- An undisturbed step of an orderly forest keeps it orderly and loses no task. -/
lemma State.Orderly.act {t e} (h : s.Orderly) (st : Acts home s t e s')
    (smooth : (s.threads t).disturbed (s'.threads t) = false)
    (sent : ∀ b task, e ≠ .on b (.send_error task))
    (empty : ∀ b scope, e = .on b .drop_receiver → s.scopes[b]? = some scope →
      scope.channel.queue = []) :
    s'.Orderly ∧ s.remaining ≤ (s.threads t).begun (s'.threads t) + s'.remaining := by
  classical
  obtain ⟨orderly, stack, puts, calm⟩ :=
    st.self.continues (h.threads t) (h.grants st.scopes sent) smooth
  obtain ⟨scopes, queues⟩ := st.scopes.continues h.scopes puts calm empty
  have others := fun u (ne : u ≠ t) => st.other ne
  constructor
  · refine ⟨fun u => ?_, scopes⟩
    rcases eq_or_ne u t with rfl | ne
    · exact orderly
    · rw [st.other ne]
      exact h.threads u
  · have stack := Multiset.le_iff_count.mp stack
    have queues := Multiset.le_iff_count.mp queues
    cases st with
    | @act thread =>
      have sum := sum_update_add Thread.remaining s.threads t thread
      refine Multiset.le_iff_count.mpr fun x => ?_
      have stack := stack x
      have queues := queues x
      have sum := congrArg (Multiset.count x) sum
      simp only [State.remaining, Multiset.count_add, Function.update_self] at *
      omega

/-- An undisturbed step, with a log of the tasks that have been begun. -/
inductive Undisturbed (home : θ → Option π) :
    State θ π × List (Code π) → State θ π × List (Code π) → Prop where
  | act {s log t e s'} :
    Acts home s t e s' →
    (s.threads t).disturbed (s'.threads t) = false →
    Undisturbed home (s, log) (s', log ++ (s.threads t).begun (s'.threads t))

/-- An undisturbed step logs what it begins. -/
lemma Undisturbed.logs {x y : State θ π × List (Code π)} (st : Undisturbed home x y) :
    Logs home x y := by
  cases st with
  | act st => exact .act st

/-- A step with a log is a step. -/
lemma Logs.step {x y : State θ π × List (Code π)} (st : Logs home x y) : Step home x.1 y.1 := by
  cases st with
  | act st => exact ⟨_, _, st⟩

/-- An undisturbed run of an orderly forest: what has been begun and what is left is the forest. -/
lemma conserved (threads : ∀ pool, 0 < current_num_threads home pool)
    (orderly : ∀ t, home t = none → (program t).Orderly true)
    {x : State θ π × List (Code π)}
    (rs : ReflTransGen (Undisturbed home) (init home program, []) x) :
    x.1.Orderly ∧ forest_tasks home program ≤ x.2 + x.1.remaining := by
  induction rs with
  | refl =>
    refine ⟨⟨fun t f hf => ?_, nofun⟩, by simp [remaining_init]⟩
    simp only [init] at hf
    split at hf
    next outside =>
      cases List.mem_singleton.mp hf
      exact ⟨orderly t outside, trivial⟩
    · cases hf
  | tail rs st ih =>
    obtain ⟨h, all⟩ := ih
    have reach := rs.lift Prod.fst (fun _ _ st => st.logs.step)
    cases st with
    | @act s log t e s' st smooth =>
      have sent : ∀ b task, e ≠ .on b (.send_error task) := by
        rintro b task rfl
        obtain ⟨scope, found⟩ := st.scopes.found
        obtain ⟨-, unwound⟩ := unwound_of_send_error reach found (threads _) st
        rw [(h.scopes _ (List.mem_of_getElem? found)).calm] at unwound
        cases unwound
      obtain ⟨h', ge⟩ := h.act st smooth sent fun b scope eq found => by
        subst eq
        exact queue_of_drop_receiver reach found st
      refine ⟨h', all.trans ?_⟩
      rw [← Multiset.coe_add, add_assoc]
      exact add_le_add_right ge _

omit [DecidableEq π] [DecidableEq θ] in
/-- When all threads are finished no scope has a part left. -/
lemma parts_of_finished (fin : ∀ t, (s.threads t).finished) (b : Nat) : s.parts b = 0 := by
  refine Finset.sum_eq_zero fun t _ => List.sum_eq_zero fun parts mem => ?_
  obtain ⟨f, hf, rfl⟩ := List.mem_map.mp mem
  have settled := fin t f hf
  cases f with
  | running ctx code =>
    cases ctx with
    | root => rfl
    | _ => cases settled
  | _ => cases settled

/-- When all calls have returned no task is left. -/
lemma remaining_of_finished (rs : ReflTransGen (Step home) (init home program) s)
    (fin : ∀ t, (s.threads t).finished) : s.remaining = 0 := by
  have threads : ∀ t, (s.threads t).remaining = 0 := by
    refine fun t => List.sum_eq_zero fun tasks mem => ?_
    obtain ⟨f, hf, rfl⟩ := List.mem_map.mp mem
    have settled := fin t f hf
    cases f with
    | running ctx code =>
      cases ctx with
      | root => simp [Frame.remaining, Context.remaining, Code.tasks_of_ended settled]
      | _ => cases settled
    | _ => cases settled
  have queues : ∀ scope ∈ s.scopes, scope.remaining = 0 := by
    intro scope mem
    obtain ⟨b, found⟩ := List.mem_iff_getElem?.mp mem
    obtain ⟨call, tasks, play, -, -, h⟩ := Played.of_run rs found
    obtain ⟨ending, run⟩ := Batch.settle h.run
    have inv := Batch.Inv.run run
    have ended : play.ended := by
      have none := h.plays.parts
      rw [parts_of_finished fin, Multiset.rel_zero_left, Play.agents, add_eq_zero] at none
      intro open'
      rw [Play.body_of_none open'] at none
      exact Multiset.singleton_ne_zero _ none.1
    have queue := inv.flow.orphan (inv.receivers_of_ended ended)
    rw [h.plays.scope]
    simp [Scope.remaining, Play.scope, queue]
  rw [State.remaining, Finset.sum_eq_zero fun t _ => threads t, zero_add]
  refine List.sum_eq_zero fun tasks mem => ?_
  obtain ⟨scope, found, rfl⟩ := List.mem_map.mp mem
  exact queues scope found

/-- However the calls of a forest are dispatched and end and whatever unwinds, a run begins no task
more often than it occurs in the forest, and what it may begin later is among what is left. -/
theorem begun_once (rs : ReflTransGen (Logs home) (init home program, []) (s, log)) :
    log + s.remaining ≤ forest_tasks home program := by
  simpa [remaining_init] using Logs.remaining_le rs

/-- The first task unwinds out of its job: the second, which is queued, is lost with it, and nothing
is begun twice. -/
theorem begun_once_lossy :
    ∃ (s : State Bool Unit) (log : List (Code Unit)) (scope : Scope Unit),
      ReflTransGen (Logs oneWorker) (init oneWorker fun _ => lossy, []) (s, log) ∧
      s.scopes[0]? = some scope ∧ scope.unwound = true ∧ scope.channel.queue = [] ∧
      log + s.remaining ≤ forest_tasks oneWorker fun _ => lossy := by
  obtain ⟨s, run, s', unwinds, scope, found, unwound, empty⟩ : ∃ s,
      follow (exec oneWorker) (init oneWorker fun _ => lossy) lossy_schedule = some s ∧
      ∃ s', Acts oneWorker s true (.on 0 .unwind) s' ∧
      ∃ scope, s'.scopes[0]? = some scope ∧ scope.unwound = true ∧ scope.channel.queue = [] :=
    ⟨_, rfl, _, .act (.exits .task_unwinds) (.on rfl .unwind), _, rfl, rfl, rfl⟩
  obtain ⟨log, rs⟩ := Logs.of_run ((follow_run exec_step run).tail ⟨_, _, unwinds⟩)
  exact ⟨s', log, scope, rs, found, unwound, empty, begun_once rs⟩

/-- In an undisturbed run of an orderly forest no task is ever lost: the tasks that have been begun
and those that are left are the tasks of the forest, at every depth, and when all calls have
returned each of them has been begun exactly once. -/
theorem each_once (threads : ∀ pool, 0 < current_num_threads home pool)
    (orderly : ∀ t, home t = none → (program t).Orderly true)
    (rs : ReflTransGen (Undisturbed home) (init home program, []) (s, log)) :
    log + s.remaining = forest_tasks home program ∧
      ((∀ t, (s.threads t).finished) → (log : Multiset (Code π)) = forest_tasks home program) := by
  have logged := ReflTransGen.mono (fun _ _ st => Undisturbed.logs st) _ _ rs
  have once := Logs.remaining_le logged
  rw [remaining_init, Multiset.coe_nil, zero_add] at once
  have all := once.antisymm (conserved threads orderly rs).2
  refine ⟨all, fun fin => ?_⟩
  have reach := logged.lift Prod.fst fun _ _ st => st.step
  rwa [remaining_of_finished reach fin, add_zero] at all

/-- The undisturbed step a choice stands for. -/
def exec_undisturbed (home : θ → Option π) (x : State θ π × List (Code π)) (choice : Choice θ) :
    Option (State θ π × List (Code π)) :=
  (exec home x.1 choice).bind fun s' =>
    let (thread, thread') := (x.1.threads choice.thread, s'.threads choice.thread)
    if thread.disturbed thread' then none else some (s', x.2 ++ thread.begun thread')

/-- What `exec_undisturbed` computes is an undisturbed step. -/
lemma exec_undisturbed_step {x y : State θ π × List (Code π)} {choice : Choice θ}
    (h : exec_undisturbed home x choice = some y) : Undisturbed home x y := by
  obtain ⟨s', executed, eq⟩ := Option.bind_eq_some_iff.mp h
  obtain ⟨e, st⟩ := exec_acts executed
  dsimp only at eq
  split at eq
  · cases eq
  next smooth =>
    cases eq
    exact .act st (by simpa using smooth)

end Runs

/-- The two tasks of `uneven` and the two that the first of them brings about are begun once each.
-/
theorem each_once_uneven :
    ∃ (s : State (Option Bool) Unit) (log : List (Code Unit)),
      ReflTransGen (Undisturbed namedWorkers) (init namedWorkers fun _ => uneven, []) (s, log) ∧
      (∀ t, (s.threads t).finished) ∧ log = [leaf, .done, .done, .done] ∧
      (log : Multiset (Code Unit)) = forest_tasks namedWorkers fun _ => uneven := by
  obtain ⟨s, log, run, ended, four⟩ : ∃ s log,
      follow (exec_undisturbed namedWorkers) (init namedWorkers fun _ => uneven, [])
        (List.replicate 2 (.go none) ++ uneven_schedule) = some (s, log) ∧
      (∀ t, (s.threads t).finished) ∧ log = [leaf, .done, .done, .done] :=
    ⟨_, _, rfl, by decide, rfl⟩
  have rs := follow_run exec_undisturbed_step run
  obtain ⟨-, all⟩ := each_once
    (fun _ => show 0 < current_num_threads namedWorkers () by decide)
    (fun _ _ => by simp [uneven, uneven_tasks, leaf]) rs
  exact ⟨s, log, rs, ended, four, all ended⟩

end RayonBatch.Nested
