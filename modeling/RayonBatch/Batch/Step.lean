import RayonBatch.Basis.Channel
import RayonBatch.Basis.Runs

/-!
# One parallel call, step by step

Model of the scheduling closure of `execute_with_count` and of `run_rayon_worker`
(`src/rayon_batch_executor.rs`): the producer on the calling thread, the bounded work channel, the
worker jobs of the scope, and the end of the scope. A step is one action of the producer or of one
job; `Label` tells which. A job may be started at any time once it is spawned, so every order in
which a pool can start and run the jobs is a run.

Two parameters stand for code outside this crate. A `Source` is the lazy source that
`execute_with_source` hands to the closure: it sees the tasks recorded so far, because a failure
policy stops it after enough recorded failures. An `Ending` tells how `execute_task` ends for a
task; it records the result first, unless the task never returns.
-/

namespace RayonBatch

/-- A task with its position in the source (source `ParallelBatchTask`). -/
structure ParallelBatchTask (α : Type*) where
  index : Nat
  task : α
deriving DecidableEq

/-- Scheduling errors of the executor (source `RayonBatchScheduleError`). -/
inductive RayonBatchScheduleError where
  | WorkChannelDisconnected
deriving DecidableEq

/-- What the lazy source does next inside `source.by_ref().next()`. -/
inductive Pull (σ α : Type*) where
  /-- Goes on without an answer yet. -/
  | quiet (source : σ)
  /-- Returns `Some(task)`. -/
  | some (task : α) (source : σ)
  /-- Returns `None`. -/
  | none (source : σ)
  /-- Unwinds. -/
  | unwind

/-- A lazy source: what it may do next, given the recorded tasks and its own state. -/
abbrev Source (σ α : Type*) :=
  List (ParallelBatchTask α) → σ → Pull σ α → Prop

/-- How `execute_task` ends for a task. -/
inductive Ending where
  | returns
  | unwinds
  | parks
deriving DecidableEq

/-- Control of the calling thread inside the scope body. -/
inductive Producer (α : Type*) where
  /-- In the spawn loop with `n` jobs to go, still holding the original receiver. -/
  | spawning (n : Nat)
  /-- In `next` of the source. -/
  | pulling
  /-- In `work_sender.send(task)`. -/
  | sending (task : ParallelBatchTask α)
  /-- The scope body has returned. -/
  | returned (result : Except RayonBatchScheduleError Unit)
  /-- The scope body has unwound. -/
  | unwound

/-- Control of one worker job (source `run_rayon_worker`). -/
inductive Worker (α : Type*) where
  | unstarted
  | receiving
  /-- In `execute_task`, the result not recorded yet. -/
  | executing (task : ParallelBatchTask α)
  /-- In `execute_task`, the result recorded. -/
  | recorded (task : ParallelBatchTask α)
  | returned
  | unwound

/-- How `in_place_scope_fifo` ends. -/
inductive ScopeResult where
  | value (result : Except RayonBatchScheduleError Unit)
  | unwound
deriving DecidableEq

/-- State of one parallel call. The lists of tasks are a history: each grows at its end. -/
structure Batch (σ α : Type*) where
  source : σ
  producer : Producer α
  channel : Channel (ParallelBatchTask α)
  workers : List (Worker α)
  /-- Tasks the source has returned. -/
  yielded : List (ParallelBatchTask α)
  /-- Tasks a worker has received. -/
  received : List (ParallelBatchTask α)
  /-- Tasks whose result is recorded in the context. -/
  recorded : List (ParallelBatchTask α)
  /-- Tasks whose `execute_task` has returned. -/
  executed : List (ParallelBatchTask α)
  /-- Tasks whose `execute_task` has unwound. -/
  unwound : List (ParallelBatchTask α)
  /-- Tasks destroyed in the queue or in the producer's hand. -/
  dropped : List (ParallelBatchTask α)
  result : Option ScopeResult

/-- Who makes a step: the producer, the job at a position of the spawn order, or the scope. -/
inductive Label where
  | producer
  | start (job : Nat)
  | work (job : Nat)
  | exit (job : Nat)
  | scope
deriving DecidableEq

namespace Producer

variable {α : Type*}

/-- Jobs that are still to be spawned. -/
def toSpawn : Producer α → Nat
  | spawning n => n
  | pulling | sending _ | returned _ | unwound => 0

/-- Receiver handles the producer holds. -/
def handles : Producer α → Nat
  | spawning _ => 1
  | pulling | sending _ | returned _ | unwound => 0

/-- Whether the sender handle is still held. -/
def feeding : Producer α → Bool
  | spawning _ | pulling | sending _ => true
  | returned _ | unwound => false

/-- The task in the producer's hand. -/
def held : Producer α → List (ParallelBatchTask α)
  | sending task => [task]
  | spawning _ | pulling | returned _ | unwound => []

attribute [simp] toSpawn.eq_1 toSpawn.eq_2 toSpawn.eq_3 toSpawn.eq_4 toSpawn.eq_5
attribute [simp] handles.eq_1 handles.eq_2 handles.eq_3 handles.eq_4 handles.eq_5
attribute [simp] feeding.eq_1 feeding.eq_2 feeding.eq_3 feeding.eq_4 feeding.eq_5
attribute [simp] held.eq_1 held.eq_2 held.eq_3 held.eq_4 held.eq_5

/-- Without the original receiver no job is left to spawn. -/
lemma toSpawn_of_handles {p : Producer α} (h : p.handles = 0) : p.toSpawn = 0 := by
  cases p <;> simp at h ⊢

/-- A body that is over has dropped the original receiver. -/
lemma handles_of_feeding {p : Producer α} (h : p.feeding = false) : p.handles = 0 := by
  cases p <;> simp at h ⊢

/-- A body that is over holds no task. -/
lemma held_of_feeding {p : Producer α} (h : p.feeding = false) : p.held = [] := by
  cases p <;> simp at h ⊢

end Producer

namespace Worker

variable {α : Type*}

/-- A job that has not ended holds a receiver handle. -/
def live : Worker α → Bool
  | unstarted | receiving | executing _ | recorded _ => true
  | returned | unwound => false

/-- Whether the job has ended by unwinding. -/
def dead : Worker α → Bool
  | unwound => true
  | unstarted | receiving | executing _ | recorded _ | returned => false

/-- The task the job is executing. -/
def task? : Worker α → Option (ParallelBatchTask α)
  | executing task | recorded task => some task
  | unstarted | receiving | returned | unwound => none

/-- The task the job is executing, if its result is recorded. -/
def recorded? : Worker α → Option (ParallelBatchTask α)
  | recorded task => some task
  | unstarted | receiving | executing _ | returned | unwound => none

attribute [simp] live.eq_1 live.eq_2 live.eq_3 live.eq_4 live.eq_5 live.eq_6
attribute [simp] dead.eq_1 dead.eq_2 dead.eq_3 dead.eq_4 dead.eq_5 dead.eq_6
attribute [simp] task?.eq_1 task?.eq_2 task?.eq_3 task?.eq_4 task?.eq_5 task?.eq_6
attribute [simp] recorded?.eq_1 recorded?.eq_2 recorded?.eq_3 recorded?.eq_4 recorded?.eq_5
  recorded?.eq_6

/-- A job with a task has not ended. -/
lemma live_of_task? {w : Worker α} {t} (h : w.task? = some t) : w.live = true := by
  cases w <;> simp at h ⊢

/-- A job with a task has not unwound. -/
lemma dead_of_task? {w : Worker α} {t} (h : w.task? = some t) : w.dead = false := by
  cases w <;> simp at h ⊢

end Worker

namespace Batch

variable {σ α : Type*}

/-- The call as the scope body begins: `bounded(worker_count)` and no job spawned yet. -/
def init (worker_count : Nat) (source : σ) : Batch σ α where
  source := source
  producer := .spawning worker_count
  channel := .bounded worker_count
  workers := []
  yielded := []
  received := []
  recorded := []
  executed := []
  unwound := []
  dropped := []
  result := none

/-- Tasks that are being executed. -/
def inHand (b : Batch σ α) : List (ParallelBatchTask α) :=
  b.workers.filterMap Worker.task?

/-- Whether the scope has ended. -/
def ended (b : Batch σ α) : Prop :=
  b.result ≠ none

/-- One step of a parallel call (source `execute_with_count`, scheduling closure, and
`run_rayon_worker`). -/
inductive Step (src : Source σ α) (ending : ParallelBatchTask α → Ending) :
    Batch σ α → Label → Batch σ α → Prop where
  /-- `scope.spawn_fifo` with a clone of the receiver. -/
  | spawn {b n} :
    b.producer = .spawning (n + 1) →
    Step src ending b .producer { b with
      producer := .spawning n
      channel := b.channel.cloneReceiver
      workers := b.workers ++ [.unstarted] }
  /-- `drop(work_receiver)`. -/
  | drop_receiver {b} :
    b.producer = .spawning 0 →
    Step src ending b .producer { b with
      producer := .pulling
      channel := b.channel.dropReceiver }
  | pull_quiet {b s} :
    b.producer = .pulling →
    src b.recorded b.source (.quiet s) →
    Step src ending b .producer { b with source := s }
  | pull_some {b a s} :
    b.producer = .pulling →
    src b.recorded b.source (.some a s) →
    Step src ending b .producer { b with
      source := s
      producer := .sending ⟨b.yielded.length, a⟩
      yielded := b.yielded ++ [⟨b.yielded.length, a⟩] }
  /-- The loop ends, `drop(work_sender)`, `Ok(())`. -/
  | pull_none {b s} :
    b.producer = .pulling →
    src b.recorded b.source (.none s) →
    Step src ending b .producer { b with
      source := s
      producer := .returned (.ok ())
      channel := b.channel.dropSender }
  | pull_unwind {b} :
    b.producer = .pulling →
    src b.recorded b.source .unwind →
    Step src ending b .producer { b with
      producer := .unwound
      channel := b.channel.dropSender }
  | send {b t c} :
    b.producer = .sending t →
    b.channel.send t = .sent c →
    Step src ending b .producer { b with
      producer := .pulling
      channel := c }
  /-- `return Err(WorkChannelDisconnected)`; the task comes back in the error and is dropped. -/
  | send_error {b t} :
    b.producer = .sending t →
    b.channel.send t = .disconnected →
    Step src ending b .producer { b with
      producer := .returned (.error .WorkChannelDisconnected)
      channel := b.channel.dropSender
      dropped := b.dropped ++ [t] }
  | start {b l r} :
    b.workers = l ++ .unstarted :: r →
    Step src ending b (.start l.length) { b with workers := l ++ .receiving :: r }
  | recv {b l r t c} :
    b.workers = l ++ .receiving :: r →
    b.channel.recv = .received t c →
    Step src ending b (.work l.length) { b with
      workers := l ++ .executing t :: r
      channel := c
      received := b.received ++ [t] }
  /-- `recv` reports a closed channel: the loop breaks and the job returns. -/
  | recv_closed {b l r} :
    b.workers = l ++ .receiving :: r →
    b.channel.recv = .disconnected →
    Step src ending b (.exit l.length) { b with
      workers := l ++ .returned :: r
      channel := b.channel.dropReceiver }
  | record {b l r t} :
    b.workers = l ++ .executing t :: r →
    ending t ≠ .parks →
    Step src ending b (.work l.length) { b with
      workers := l ++ .recorded t :: r
      recorded := b.recorded ++ [t] }
  | task_returns {b l r t} :
    b.workers = l ++ .recorded t :: r →
    ending t = .returns →
    Step src ending b (.work l.length) { b with
      workers := l ++ .receiving :: r
      executed := b.executed ++ [t] }
  /-- Unwinding leaves the loop and drops the job's receiver. -/
  | task_unwinds {b l r w t} :
    b.workers = l ++ w :: r →
    w.task? = some t →
    ending t = .unwinds →
    Step src ending b (.exit l.length) { b with
      workers := l ++ .unwound :: r
      channel := b.channel.dropReceiver
      unwound := b.unwound ++ [t]
      dropped := b.dropped ++ b.channel.discarded }
  /-- All jobs have returned: the scope returns the value of its body. -/
  | scope_returns {b v} :
    b.producer = .returned v →
    (∀ w ∈ b.workers, w = .returned) →
    b.result = none →
    Step src ending b .scope { b with result := some (.value v) }
  /-- All jobs have ended and the body or a job has unwound: the scope rethrows. -/
  | scope_unwinds {b} :
    b.producer.feeding = false →
    (∀ w ∈ b.workers, w.live = false) →
    b.producer = .unwound ∨ .unwound ∈ b.workers →
    b.result = none →
    Step src ending b .scope { b with result := some .unwound }

/-- A step with any label. -/
def Next (src : Source σ α) (ending : ParallelBatchTask α → Ending) (b b' : Batch σ α) : Prop :=
  ∃ label, Step src ending b label b'

/-- A step stays one when the source has more answers and more tasks end. -/
lemma Step.mono {src src' : Source σ α} {ending ending' : ParallelBatchTask α → Ending} {label}
    {b b' : Batch σ α} (answers : ∀ log s answer, src log s answer → src' log s answer)
    (ends : ∀ t, ending t ≠ .parks → ending' t = ending t) (st : Step src ending b label b') :
    Step src' ending' b label b' := by
  cases st with
  | spawn e => exact .spawn e
  | drop_receiver e => exact .drop_receiver e
  | pull_quiet e pull => exact .pull_quiet e (answers _ _ _ pull)
  | pull_some e pull => exact .pull_some e (answers _ _ _ pull)
  | pull_none e pull => exact .pull_none e (answers _ _ _ pull)
  | pull_unwind e pull => exact .pull_unwind e (answers _ _ _ pull)
  | send e sent => exact .send e sent
  | send_error e none => exact .send_error e none
  | start e => exact .start e
  | recv e received => exact .recv e received
  | recv_closed e none => exact .recv_closed e none
  | record e goes => exact .record e (ends _ goes ▸ goes)
  | task_returns e ret => exact .task_returns e ((ends _ (by simp [ret])).trans ret)
  | task_unwinds e task unw => exact .task_unwinds e task ((ends _ (by simp [unw])).trans unw)
  | scope_returns e returned none => exact .scope_returns e returned none
  | scope_unwinds done exited unw none => exact .scope_unwinds done exited unw none

end Batch

end RayonBatch
