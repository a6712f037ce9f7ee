import Mathlib.Data.Fintype.Card
import RayonBatch.Model.ActiveBatchGuard

/-!
# Executors, their builder and the dispatch of a call

Model of `src/rayon_batch_executor_builder.rs` and of the parts of `src/rayon_batch_executor.rs` in
front of the scheduling closure: the executor record, `worker_count`, and the two places where a
call chooses between the sequential executor and the pool. A pool is known by the identity `π` of
its `Arc`; `current_num_threads` is Rayon's own count of the threads a pool really has.

The registry a dispatch reads and writes belongs to the calling thread, and `call_with_executor`
runs no user code before it calls `execute_with_count`, so both dispatches are functions of that
registry.
-/

namespace RayonBatch

/-- What a batch does after task failures (source `TaskFailurePolicy`). -/
inductive TaskFailurePolicy where
  | Continue
  | StopOnFirstFailure
  | StopAfterFailures (limit : { n : Nat // 0 < n })
deriving DecidableEq

/-- The number of failures after which a policy stops admission, if it ever does. -/
def TaskFailurePolicy.limit : TaskFailurePolicy → Option { n : Nat // 0 < n }
  | .Continue => none
  | .StopOnFirstFailure => some ⟨1, Nat.one_pos⟩
  | .StopAfterFailures limit => some limit

/-- Reporting state shared by the clones of an executor; a reporter is known by its `Arc`. -/
structure ParallelBatchExecutionCoordinator where
  reporter : Nat
  report_interval : Nat
deriving DecidableEq

/-- Configuration of an executor under construction (source `RayonBatchExecutorBuilder`). -/
structure RayonBatchExecutorBuilder where
  thread_count : Nat
  sequential_threshold : Nat
  report_interval : Nat
  reporter : Nat
  task_failure_policy : TaskFailurePolicy
  thread_name_prefix : String
  stack_size : Option Nat

/-- Reasons for which no executor is built (source `RayonBatchExecutorBuildError`). -/
inductive RayonBatchExecutorBuildError (ε : Type*) where
  | ZeroThreadCount
  | ZeroStackSize
  | InvalidThreadNamePrefix
  | BuildFailed (source : ε)

/-- What `build` asks of Rayon (source `RayonThreadPoolBuilder`). -/
structure RayonThreadPoolBuilder where
  num_threads : Nat
  thread_name : Nat → String
  stack_size : Option Nat

/-- A batch executor on a dedicated pool (source `RayonBatchExecutor`). -/
structure RayonBatchExecutor (π : Type*) where
  pool : π
  thread_count : Nat
  sequential_threshold : Nat
  coordinator : ParallelBatchExecutionCoordinator
  task_failure_policy : TaskFailurePolicy
  /-- The builder rejects a thread count of zero. -/
  thread_count_pos : 0 < thread_count

/-- The sequential executor a fallback runs on (source `SequentialBatchExecutor`). -/
structure SequentialBatchExecutor where
  report_interval : Nat
  reporter : Nat
  task_failure_policy : TaskFailurePolicy
deriving DecidableEq

/-- Default fallback threshold (source `constants.rs`). -/
def DEFAULT_SEQUENTIAL_THRESHOLD : Nat := 100

/-- Default report interval in milliseconds (source `constants.rs`). -/
def DEFAULT_REPORT_INTERVAL : Nat := 5000

/-- Default prefix of worker thread names (source `constants.rs`). -/
def DEFAULT_THREAD_NAME_PREFIX : String := "qubit-rayon-batch"

namespace RayonBatchExecutorBuilder

variable {π ε : Type*}

/-- Default settings (source `RayonBatchExecutorBuilder::default`); `available_parallelism` is what
the operating system reports and `noop_reporter` the shared no-op reporter. -/
def default (available_parallelism : Option { n : Nat // 0 < n }) (noop_reporter : Nat) :
    RayonBatchExecutorBuilder where
  thread_count := (available_parallelism.map Subtype.val).getD 1
  sequential_threshold := DEFAULT_SEQUENTIAL_THRESHOLD
  report_interval := DEFAULT_REPORT_INTERVAL
  reporter := noop_reporter
  task_failure_policy := .Continue
  thread_name_prefix := DEFAULT_THREAD_NAME_PREFIX
  stack_size := none

/-- Wraps a built pool (source `RayonBatchExecutor::new_with_rayon`). -/
def new_with_rayon (pool : π) (builder : RayonBatchExecutorBuilder)
    (pos : 0 < builder.thread_count) : RayonBatchExecutor π where
  pool := pool
  thread_count := builder.thread_count
  sequential_threshold := builder.sequential_threshold
  coordinator := ⟨builder.reporter, builder.report_interval⟩
  task_failure_policy := builder.task_failure_policy
  thread_count_pos := pos

/-- Builds an executor (source `RayonBatchExecutorBuilder::build`); `rayon` is Rayon's own
`ThreadPoolBuilder::build`. -/
def build (rayon : RayonThreadPoolBuilder → Except ε π) (self : RayonBatchExecutorBuilder) :
    Except (RayonBatchExecutorBuildError ε) (RayonBatchExecutor π) :=
  if h : self.thread_count = 0 then .error .ZeroThreadCount
  else if self.stack_size = some 0 then .error .ZeroStackSize
  else if self.thread_name_prefix.toList.contains (Char.ofNat 0) then
    .error .InvalidThreadNamePrefix
  else
    match rayon {
      num_threads := self.thread_count
      thread_name := fun index => self.thread_name_prefix ++ "-" ++ toString index
      stack_size := self.stack_size } with
    | .error source => .error (.BuildFailed source)
    | .ok pool => .ok (new_with_rayon pool self (Nat.pos_of_ne_zero h))

/-- The default settings pass every check of `build`. -/
lemma build_default (rayon : RayonThreadPoolBuilder → Except ε π) (available noop pool)
    (h : ∀ config, rayon config = .ok pool) :
    ∃ executor, build rayon (default available noop) = .ok executor := by
  have pos : (default available noop).thread_count ≠ 0 := by
    cases available with
    | none => simp [default]
    | some n => simpa [default] using Nat.ne_of_gt n.2
  have nul : ¬ (RayonBatchExecutorBuilder.thread_name_prefix (default available noop)
      |>.toList.contains (Char.ofNat 0)) := by
    simp only [default, DEFAULT_THREAD_NAME_PREFIX]
    decide
  exact ⟨_, by rw [build, dif_neg pos, if_neg (by simp [default]), if_neg nul, h]⟩

end RayonBatchExecutorBuilder

/-- Rayon's own count of the threads of a pool; `home` tells the pool of a worker thread. -/
def current_num_threads {π θ : Type*} [DecidableEq π] [Fintype θ] (home : θ → Option π) (pool : π) :
    Nat :=
  Fintype.card { t // home t = some pool }

/-- Which executor runs a call. -/
inductive Path where
  | sequential
  | parallel
deriving DecidableEq

/-- The two entry points of the executor (source trait `BatchExecutor`). -/
inductive Entry where
  | execute_with_count
  | call_with_count
deriving DecidableEq

namespace RayonBatchExecutor

variable {π : Type*} [DecidableEq π]

/-- The fallback shares reporter, interval and policy (source `sequential_executor`). -/
def sequential_executor (self : RayonBatchExecutor π) : SequentialBatchExecutor where
  report_interval := self.coordinator.report_interval
  reporter := self.coordinator.reporter
  task_failure_policy := self.task_failure_policy

omit [DecidableEq π] in
/-- The sequential executor has the failure policy of the executor. -/
@[simp] lemma sequential_executor_task_failure_policy (self : RayonBatchExecutor π) :
    self.sequential_executor.task_failure_policy = self.task_failure_policy :=
  rfl

/-- Number of worker jobs and capacity of the work channel (source `worker_count`). -/
def worker_count (current_num_threads : π → Nat) (self : RayonBatchExecutor π) (count : Nat) :
    Nat :=
  min (current_num_threads self.pool) count

/-- The test both entry points make (source `execute_with_count`, `call_with_count`); `worker` tells
whether `current_thread_index` is `Some` on the calling thread. -/
def runs_sequentially (self : RayonBatchExecutor π) (active_guard : Option (ActiveBatchGuard π))
    (worker : Bool) (count : Nat) : Bool :=
  let reentrant := active_guard.isNone || worker
  reentrant || decide (count ≤ self.sequential_threshold) || decide (self.thread_count ≤ 1)

omit [DecidableEq π] in
/-- A call goes to the pool exactly when no fallback applies. -/
lemma runs_sequentially_eq_false {self : RayonBatchExecutor π} {active_guard worker count} :
    self.runs_sequentially active_guard worker count = false ↔
      active_guard ≠ none ∧ worker = false ∧ self.sequential_threshold < count ∧
        1 < self.thread_count := by
  cases active_guard <;> simp [runs_sequentially, and_assoc]

/-- Dispatch of `execute_with_count`: the path, the guard the call keeps, and the registry. -/
def execute_with_count_dispatch (self : RayonBatchExecutor π) (worker : Bool) (count : Nat)
    (active : List π) : Path × Option (ActiveBatchGuard π) × List π :=
  let (active_guard, active) := ActiveBatchGuard.enter self.pool active
  if self.runs_sequentially active_guard worker count then (.sequential, active_guard, active)
  else (.parallel, active_guard, active)

/-- Dispatch of `call_with_count`: above the fallbacks it drops its guard and delegates to
`execute_with_count`, which enters again. -/
def call_with_count_dispatch (self : RayonBatchExecutor π) (worker : Bool) (count : Nat)
    (active : List π) : Path × Option (ActiveBatchGuard π) × List π :=
  let (active_guard, active) := ActiveBatchGuard.enter self.pool active
  if self.runs_sequentially active_guard worker count then (.sequential, active_guard, active)
  else self.execute_with_count_dispatch worker count (dropGuard active_guard active)

/-- Dispatch of a call through either entry point. -/
def dispatch (self : RayonBatchExecutor π) (entry : Entry) (worker : Bool) (count : Nat)
    (active : List π) : Path × Option (ActiveBatchGuard π) × List π :=
  match entry with
  | .execute_with_count => self.execute_with_count_dispatch worker count active
  | .call_with_count => self.call_with_count_dispatch worker count active

/-- The two dispatch points agree on path, guard and registry. -/
theorem call_with_count_dispatch_eq (self : RayonBatchExecutor π) (worker count active) :
    self.call_with_count_dispatch worker count active
      = self.execute_with_count_dispatch worker count active := by
  simp only [call_with_count_dispatch, dropGuard_enter]
  split
  next h => simp [execute_with_count_dispatch, h]
  · rfl

/-- Above the fallbacks `call_with_count` delegates with the registry it was called with, and the
call it delegates to is above the fallbacks too. -/
lemma delegation (self : RayonBatchExecutor π) {worker count active guard active'}
    (entered : ActiveBatchGuard.enter self.pool active = (guard, active'))
    (above : self.runs_sequentially guard worker count = false) :
    dropGuard guard active' = active ∧
      (self.execute_with_count_dispatch worker count (dropGuard guard active')).1 = .parallel := by
  have restored : dropGuard guard active' = active := by
    have restored := dropGuard_enter self.pool active
    rwa [entered] at restored
  refine ⟨restored, ?_⟩
  rw [restored]
  simp [execute_with_count_dispatch, entered, above]

/-- Both entry points dispatch a call in the same way. -/
lemma dispatch_eq (self : RayonBatchExecutor π) (entry worker count active) :
    self.dispatch entry worker count active
      = self.execute_with_count_dispatch worker count active := by
  cases entry with
  | execute_with_count => rfl
  | call_with_count => exact self.call_with_count_dispatch_eq worker count active

/-- A dispatched call has entered for its pool. -/
lemma dispatch_snd (self : RayonBatchExecutor π) (entry worker count active) :
    (self.dispatch entry worker count active).2 = ActiveBatchGuard.enter self.pool active := by
  rw [dispatch_eq, execute_with_count_dispatch]
  simp only
  split <;> rfl

/-- A dispatch leaves the guard that it keeps as the last registration. -/
lemma registry_of_dispatch (self : RayonBatchExecutor π) {entry worker count active path guard
    active'} (h : self.dispatch entry worker count active = (path, guard, active')) :
    guard = (ActiveBatchGuard.enter self.pool active).1 ∧ active' = active ++ guarded guard := by
  have entered := self.dispatch_snd entry worker count active
  rw [h] at entered
  have kept : guard = (ActiveBatchGuard.enter self.pool active).1 := congrArg Prod.fst entered
  refine ⟨kept, ?_⟩
  rw [kept, ← enter_snd]
  exact congrArg Prod.snd entered

/-- The parallel path is taken exactly above both fallbacks, on no worker of the pool, with the
pool not yet registered on the thread. -/
lemma dispatch_fst_eq_parallel (self : RayonBatchExecutor π) {entry worker count active} :
    (self.dispatch entry worker count active).1 = .parallel ↔
      self.pool ∉ active ∧ worker = false ∧ self.sequential_threshold < count ∧
        1 < self.thread_count := by
  rw [← ActiveBatchGuard.enter_fst_eq_none.not, ← ne_eq, ← runs_sequentially_eq_false,
    dispatch_eq, execute_with_count_dispatch]
  simp only
  split
  next h => simp [h]
  next h => simpa using h

/-- A parallel call has a job. -/
lemma worker_count_pos {current_num_threads : π → Nat} {self : RayonBatchExecutor π}
    (entry : Entry) {worker count active} (threads : 0 < current_num_threads self.pool)
    (h : (self.dispatch entry worker count active).1 = .parallel) :
    0 < self.worker_count current_num_threads count := by
  obtain ⟨-, -, hc, -⟩ := self.dispatch_fst_eq_parallel.mp h
  exact Nat.lt_min.mpr ⟨threads, Nat.zero_lt_of_lt hc⟩

end RayonBatchExecutor

end RayonBatch
