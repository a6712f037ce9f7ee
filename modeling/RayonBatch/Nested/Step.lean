import Mathlib.Logic.Function.Basic
import RayonBatch.Basis.Channel
import RayonBatch.Nested.Code

/-!
# Nested calls, step by step

Model of calls of `execute_with_count` and `call_with_count` that are made from anywhere: from
outside of all pools, from a task, from a source or from its conversion, on any pool. A thread is a
stack of frames over its own registry of active pools: under a call lies the code that made it, and
on a call that waits for its scope there may lie a job of the thread's own pool, which the thread
has picked up meanwhile. The scopes, with their channels and their jobs, are shared between the
threads.

A step is a step of one thread (`Thread.Step`) together with what it does to the scopes
(`Scopes.Step`); an `Event` is what the two have in common.
-/

namespace RayonBatch.Nested

universe u
variable {π : Type u} {θ : Type*}

/-- A call in progress, with the guard it keeps. -/
structure OpenCall (π : Type*) where
  executor : RayonBatchExecutor π
  count : Nat
  guard : Option (ActiveBatchGuard π)

/-- What a thread runs user code for. A call with a scope is on the parallel path. -/
inductive Context (π : Type u) where
  /-- The thread itself. -/
  | root
  /-- In `into_iter` of the source of a call. -/
  | converting (path : Path) (call : OpenCall π) (tasks : Tasks π)
  /-- In `next` of the source of a call. -/
  | pulling (call : OpenCall π) (position : Nat) (tasks : Tasks π) (scope : Option Nat)
  /-- In a task of a sequential call. -/
  | executing (call : OpenCall π) (position : Nat) (rest : Tasks π)
  /-- In `context.execute_task(task)` of a job. -/
  | working (pool : π) (scope : Nat)

/-- What a thread is at. -/
inductive Frame (π : Type u) where
  | running (context : Context π) (code : Code π)
  /-- In the spawn loop with `n` jobs to go, still holding the original receiver. -/
  | spawning (call : OpenCall π) (tasks : Tasks π) (scope : Nat) (n : Nat)
  /-- Between two items of the source. -/
  | polling (call : OpenCall π) (position : Nat) (tasks : Tasks π) (scope : Option Nat)
  /-- In `work_sender.send(task)`. -/
  | sending (call : OpenCall π) (position : Nat) (rest : Tasks π) (scope : Nat) (task : Code π)
  /-- At the end of the scope, whose body has returned or unwound. -/
  | waiting (call : OpenCall π) (scope : Nat) (unwound : Bool)
  /-- A job in `work_receiver.recv()`. -/
  | receiving (pool : π) (scope : Nat)

/-- The path of a call: a call with a scope is parallel. -/
def pathOf : Option Nat → Path
  | none => .sequential
  | some _ => .parallel

namespace Context

/-- The call some user code runs for, with its path. -/
def call? : Context π → Option (Path × OpenCall π)
  | root | working .. => none
  | converting path call _ => some (path, call)
  | pulling call _ _ scope => some (pathOf scope, call)
  | executing call .. => some (.sequential, call)

/-- The job some user code runs for. -/
def job? : Context π → Option (π × Nat)
  | working pool scope => some (pool, scope)
  | root | converting .. | pulling .. | executing .. => none

/-- The scope whose sender is held while the code runs. -/
def feeding? : Context π → Option Nat
  | pulling _ _ _ scope => scope
  | root | converting .. | executing .. | working .. => none

/-- Whether the code runs inside of a source or of its conversion. -/
def producing : Context π → Bool
  | converting .. | pulling .. => true
  | root | executing .. | working .. => false

end Context

namespace Frame

/-- The call a frame belongs to, with its path. -/
def call? : Frame π → Option (Path × OpenCall π)
  | running context _ => context.call?
  | spawning call .. | sending call .. | waiting call .. => some (.parallel, call)
  | polling call _ _ scope => some (pathOf scope, call)
  | receiving .. => none

/-- The job a frame belongs to. -/
def job? : Frame π → Option (π × Nat)
  | running context _ => context.job?
  | receiving pool scope => some (pool, scope)
  | spawning .. | polling .. | sending .. | waiting .. => none

/-- The scope whose sender the frame holds. -/
def feeding? : Frame π → Option Nat
  | running context _ => context.feeding?
  | spawning _ _ scope _ | sending _ _ _ scope _ => some scope
  | polling _ _ _ scope => scope
  | waiting .. | receiving .. => none

/-- The scope whose original receiver the frame holds. -/
def handle? : Frame π → Option Nat
  | spawning _ _ scope _ => some scope
  | running .. | polling .. | sending .. | waiting .. | receiving .. => none

/-- Whether the frame waits for the end of a scope. -/
def waits : Frame π → Bool
  | waiting .. => true
  | running .. | spawning .. | polling .. | sending .. | receiving .. => false

/-- Whether the frame is inside of a source or of its conversion. -/
def producing : Frame π → Bool
  | running context _ => context.producing
  | spawning .. | polling .. | sending .. | waiting .. | receiving .. => false

/-- Whether the frame is the code of a thread itself, at its end. -/
def settled : Frame π → Bool
  | running .root code => code.ended
  | running (.converting ..) _ | running (.pulling ..) _ | running (.executing ..) _
  | running (.working ..) _ | spawning .. | polling .. | sending .. | waiting .. | receiving .. =>
    false

/-- The pool of the call a frame belongs to. -/
def pool? (f : Frame π) : Option π :=
  f.call?.map fun call => call.2.executor.pool

end Frame

/-- A thread: its frames, the innermost first, and its `ACTIVE_POOLS`. -/
structure Thread (π : Type u) where
  stack : List (Frame π)
  active : List π

/-- A scope with its work channel and its jobs. -/
structure Scope (π : Type u) where
  pool : π
  channel : Channel (Code π)
  /-- Spawned jobs that no thread has started. -/
  unstarted : Nat
  /-- Spawned jobs that have not ended. -/
  pending : Nat
  /-- Whether a job has unwound. -/
  unwound : Bool

/-- All threads and all scopes, a scope being known by its position. -/
structure State (θ : Type*) (π : Type u) where
  threads : θ → Thread π
  scopes : List (Scope π)

/-- What a thread does to a scope. -/
inductive Op (π : Type u) where
  | spawn
  | drop_receiver
  | drop_sender
  | send (task : Code π)
  | send_error (task : Code π)
  | start (pool : π)
  | recv (task : Code π)
  | exit
  | unwind
  | ends (unwound : Bool)

/-- What a step of a thread does to the scopes. -/
inductive Event (π : Type u) where
  | silent
  | opens (scope : Nat) (pool : π) (worker_count : Nat)
  | on (scope : Nat) (op : Op π)

/-- What happens to a scope. -/
inductive Scope.Step : Scope π → Op π → Scope π → Prop where
  /-- `scope.spawn_fifo` with a clone of the receiver. -/
  | spawn {s} :
    Scope.Step s .spawn { s with
      channel := s.channel.cloneReceiver
      unstarted := s.unstarted + 1
      pending := s.pending + 1 }
  | drop_receiver {s} : Scope.Step s .drop_receiver { s with channel := s.channel.dropReceiver }
  | drop_sender {s} : Scope.Step s .drop_sender { s with channel := s.channel.dropSender }
  | send {s task c} :
    s.channel.send task = .sent c →
    Scope.Step s (.send task) { s with channel := c }
  /-- The send fails, and the sender is dropped on the way out. -/
  | send_error {s task} :
    s.channel.send task = .disconnected →
    Scope.Step s (.send_error task) { s with channel := s.channel.dropSender }
  | start {s} :
    0 < s.unstarted →
    Scope.Step s (.start s.pool) { s with unstarted := s.unstarted - 1 }
  | recv {s task c} :
    s.channel.recv = .received task c →
    Scope.Step s (.recv task) { s with channel := c }
  /-- `recv` reports a closed channel and the job returns. -/
  | exit {s} :
    s.channel.recv = .disconnected →
    Scope.Step s .exit { s with
      channel := s.channel.dropReceiver
      pending := s.pending - 1 }
  | unwind {s} :
    Scope.Step s .unwind { s with
      channel := s.channel.dropReceiver
      pending := s.pending - 1
      unwound := true }
  /-- All jobs have ended. -/
  | ends {s} :
    s.pending = 0 →
    Scope.Step s (.ends s.unwound) s

/-- What happens to the scopes. -/
inductive Scopes.Step : List (Scope π) → Event π → List (Scope π) → Prop where
  | silent {scopes} : Scopes.Step scopes .silent scopes
  | opens {scopes pool n} :
    Scopes.Step scopes (.opens scopes.length pool n) (scopes ++ [⟨pool, .bounded n, 0, 0, false⟩])
  | on {scopes b op s s'} :
    scopes[b]? = some s →
    s.Step op s' →
    Scopes.Step scopes (.on b op) (scopes.set b s')

/-- A frame moves on within its call or its job. -/
inductive Moves (threads : π → Nat) : Frame π → Event π → Frame π → Prop where
  | converted {call tasks} :
    Moves threads (.running (.converting .sequential call tasks) .done) .silent
      (.polling call 0 tasks none)
  /-- `in_place_scope_fifo` and `bounded(worker_count)`. -/
  | opens {call tasks b} :
    Moves threads (.running (.converting .parallel call tasks) .done)
      (.opens b call.executor.pool (call.executor.worker_count threads call.count))
      (.spawning call tasks b (call.executor.worker_count threads call.count))
  | spawn {call tasks b n} :
    Moves threads (.spawning call tasks b (n + 1)) (.on b .spawn) (.spawning call tasks b n)
  /-- `drop(work_receiver)`. -/
  | spawned {call tasks b} :
    Moves threads (.spawning call tasks b 0) (.on b .drop_receiver) (.polling call 0 tasks (some b))
  | next {call k tasks scope} :
    Moves threads (.polling call k tasks scope) .silent
      (.running (.pulling call k tasks scope) tasks.next)
  | execute {call k tasks task rest} :
    tasks.pulled k call.count = some (task, rest) →
    Moves threads (.running (.pulling call k tasks none) .done) .silent
      (.running (.executing call (k + 1) rest) task)
  /-- A task has returned, or it has unwound and that is captured. -/
  | executed {call k rest code} :
    code.ended = true →
    Moves threads (.running (.executing call k rest) code) .silent (.polling call k rest none)
  | item {call k tasks b task rest} :
    tasks.pulled k call.count = some (task, rest) →
    Moves threads (.running (.pulling call k tasks (some b)) .done) .silent
      (.sending call (k + 1) rest b task)
  | send {call k rest b task} :
    Moves threads (.sending call k rest b task) (.on b (.send task)) (.polling call k rest (some b))
  /-- `return Err(WorkChannelDisconnected)`. -/
  | send_error {call k rest b task} :
    Moves threads (.sending call k rest b task) (.on b (.send_error task)) (.waiting call b false)
  /-- The loop ends and `drop(work_sender)`. -/
  | exhausted {call k tasks b} :
    tasks.pulled k call.count = none →
    Moves threads (.running (.pulling call k tasks (some b)) .done) (.on b .drop_sender)
      (.waiting call b false)
  /-- The lazy source stops early: the failure policy or the batch library gives up the batch. -/
  | stopped {call k tasks b} :
    Moves threads (.polling call k tasks (some b)) (.on b .drop_sender) (.waiting call b false)
  | source_unwinds {call k tasks b} :
    Moves threads (.running (.pulling call k tasks (some b)) .unwinds) (.on b .drop_sender)
      (.waiting call b true)
  | recv {pool b task} :
    Moves threads (.receiving pool b) (.on b (.recv task)) (.running (.working pool b) task)
  /-- A task has returned, or it has unwound and that is captured. -/
  | worked {pool b code} :
    code.ended = true →
    Moves threads (.running (.working pool b) code) .silent (.receiving pool b)

/-- A call is over; the flag tells whether it unwinds. -/
inductive Finishes : Frame π → Event π → OpenCall π → Bool → Prop where
  /-- The batch library ends the call before it comes to the tasks. -/
  | abandoned {path call tasks} :
    Finishes (.running (.converting path call tasks) .done) .silent call false
  | conversion_unwinds {path call tasks} :
    Finishes (.running (.converting path call tasks) .unwinds) .silent call true
  | exhausted {call k tasks} :
    tasks.pulled k call.count = none →
    Finishes (.running (.pulling call k tasks none) .done) .silent call false
  | stopped {call k tasks} : Finishes (.polling call k tasks none) .silent call false
  | source_unwinds {call k tasks} :
    Finishes (.running (.pulling call k tasks none) .unwinds) .silent call true
  /-- Unwinding out of the destructor of a task is not captured. -/
  | task_unwinds {call k rest} :
    Finishes (.running (.executing call k rest) .unwinds) .silent call true
  | scope_ends {call b body jobs} :
    Finishes (.waiting call b body) (.on b (.ends jobs)) call (body || jobs)

/-- A job is over. -/
inductive Exits : Frame π → Event π → Prop where
  | closed {pool b} : Exits (.receiving pool b) (.on b .exit)
  /-- Unwinding out of the destructor of a task is not captured. -/
  | task_unwinds {pool b} : Exits (.running (.working pool b) .unwinds) (.on b .unwind)

/-- How the code under a call goes on when the call is over. -/
inductive Resumes (rest : Code π) : Bool → Code π → Prop where
  | returned : Resumes rest false rest
  | rethrown : Resumes rest true .unwinds
  | caught : Resumes rest true rest

/-- One step of a thread; `home` is the pool it is a worker of. -/
inductive Thread.Step [DecidableEq π] (threads : π → Nat) (home : Option π) :
    Thread π → Event π → Thread π → Prop where
  /-- `enter` and the dispatch of a call, then the conversion of its source. -/
  | call {ctx entry executor count into_iter tasks rest below active first later path guard
      active'} :
    Converts into_iter tasks first later →
    RayonBatchExecutor.dispatch executor entry (decide (home = some executor.pool)) count active
      = (path, guard, active') →
    Thread.Step threads home
      ⟨.running ctx (.call entry executor count into_iter tasks rest) :: below, active⟩ .silent
      ⟨.running (.converting path ⟨executor, count, guard⟩ later) first ::
        .running ctx rest :: below, active'⟩
  | moves {f e f' below active} :
    Moves threads f e f' →
    Thread.Step threads home ⟨f :: below, active⟩ e ⟨f' :: below, active⟩
  /-- A call is over and its guard is dropped. -/
  | returns {f e call unwound ctx rest rest' below active} :
    Finishes f e call unwound →
    Resumes rest unwound rest' →
    Thread.Step threads home ⟨f :: .running ctx rest :: below, active⟩ e
      ⟨.running ctx rest' :: below, dropGuard call.guard active⟩
  /-- A worker that is idle, or that waits for the end of a scope, starts a job of its own pool. -/
  | start {b pool stack active} :
    home = some pool →
    (∀ f ∈ stack.head?, f.waits = true) →
    Thread.Step threads home ⟨stack, active⟩ (.on b (.start pool))
      ⟨.receiving pool b :: stack, active⟩
  | exits {f e below active} :
    Exits f e →
    Thread.Step threads home ⟨f :: below, active⟩ e ⟨below, active⟩

section System

variable [DecidableEq π] [DecidableEq θ] [Fintype θ]

/-- A thread makes a step. -/
inductive Acts (home : θ → Option π) (s : State θ π) (t : θ) (e : Event π) : State θ π → Prop where
  | act {thread scopes} :
    Thread.Step (current_num_threads home) (home t) (s.threads t) e thread →
    Scopes.Step s.scopes e scopes →
    Acts home s t e ⟨Function.update s.threads t thread, scopes⟩

section Acts

variable {home : θ → Option π} {s s' : State θ π} {t u : θ} {e : Event π}

/-- A step is one of the thread that makes it. -/
lemma Acts.self (st : Acts home s t e s') :
    Thread.Step (current_num_threads home) (home t) (s.threads t) e (s'.threads t) := by
  cases st with
  | act local_step _ => simpa using local_step

/-- A step leaves other threads alone. -/
lemma Acts.other (st : Acts home s t e s') (ne : u ≠ t) : s'.threads u = s.threads u := by
  cases st with
  | act => exact Function.update_of_ne ne _ _

/-- A step does to the scopes what its event tells. -/
lemma Acts.scopes (st : Acts home s t e s') : Scopes.Step s.scopes e s'.scopes := by
  cases st with
  | act _ global_step => exact global_step

end Acts

/-- Some thread makes a step. -/
def Step (home : θ → Option π) (s s' : State θ π) : Prop :=
  ∃ t e, Acts home s t e s'

omit [DecidableEq π] [DecidableEq θ] [Fintype θ] in
/-- The threads outside of all pools are about to run their programs, the workers are idle. -/
def init (home : θ → Option π) (program : θ → Code π) : State θ π where
  threads := fun t =>
    match home t with
    | none => ⟨[.running .root (program t)], []⟩
    | some _ => ⟨[], []⟩
  scopes := []

end System

/-- No call and no job is in progress on a thread, and its own code is at its end. -/
def Thread.finished (thread : Thread π) : Prop :=
  ∀ f ∈ thread.stack, f.settled = true

instance (thread : Thread π) : Decidable thread.finished :=
  inferInstanceAs (Decidable (∀ f ∈ thread.stack, f.settled = true))

end RayonBatch.Nested
