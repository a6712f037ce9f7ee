import RayonBatch.Call.LazySource
import RayonBatch.Model.Outcome

/-!
# Whole calls

`Executes` and `Calls` are the ways `execute_with_count` and `call_with_count` can end, with the
tasks they have executed. The batch library around the scheduling closure is a parameter,
`QubitBatch`; `QubitBatch.Documented` is its documented behaviour for a batch in which neither a
reporter fails nor a source unwinds, and `QubitBatch.ForwardsScheduleErrors` the little that holds
without such an assumption.
-/

namespace RayonBatch
open Relation

/-- The parts of the batch library that a call runs through; `ι` is the user's source. -/
structure QubitBatch (ι σ α R E : Type*) where
  /-- The lazy source over a user's source. -/
  lazy : ι → Nat → TaskFailurePolicy → LazySource σ α
  /-- `SequentialBatchExecutor::execute_with_count`. -/
  execute_sequentially : SequentialBatchExecutor → ι → Nat → List (ParallelBatchTask α) →
    CallEnd (ExecuteResult E Empty) → Prop
  /-- `SequentialBatchExecutor::call_with_count`. -/
  call_sequentially : SequentialBatchExecutor → ι → Nat → List (ParallelBatchTask α) →
    CallEnd (CallResult R E Empty) → Prop
  /-- `execute_with_source` when it ends before it calls the scheduling closure. -/
  abandon : ι → Nat → CallEnd (ExecuteResult E RayonBatchScheduleError) → Prop
  /-- `execute_with_source` after the scheduling closure, given the final state of the lazy source,
  the recorded tasks and the value of the closure. -/
  finish : ι → Nat → TaskFailurePolicy → σ → List (ParallelBatchTask α) →
    Except RayonBatchScheduleError Unit → CallEnd (ExecuteResult E RayonBatchScheduleError) → Prop
  /-- `call_with_executor` after `execute_with_count`. -/
  call_with_executor : List (ParallelBatchTask α) →
    CallEnd (ExecuteResult E RayonBatchScheduleError) →
    CallEnd (CallResult R E RayonBatchScheduleError) → Prop

/-- Conversion of the sequential executor's error (source `|never| match never {}`). -/
def never {S : Type*} (e : Empty) : S :=
  nomatch e

variable {π ι σ α R E : Type*} [DecidableEq π]

/-- How `execute_with_count` can end on a thread with the registry `active`. -/
inductive Executes (qb : QubitBatch ι σ α R E) (ending : ParallelBatchTask α → Ending)
    (current_num_threads : π → Nat) (self : RayonBatchExecutor π) (worker : Bool)
    (active : List π) (tasks : ι) (count : Nat) :
    List (ParallelBatchTask α) → CallEnd (ExecuteResult E RayonBatchScheduleError) → Prop where
  | fallback {log e} :
    (self.execute_with_count_dispatch worker count active).1 = .sequential →
    qb.execute_sequentially self.sequential_executor tasks count log e →
    Executes qb ending current_num_threads self worker active tasks count log
      (e.map (Except.mapError (·.map_scheduler_error never)))
  | abandoned {e} :
    (self.execute_with_count_dispatch worker count active).1 = .parallel →
    qb.abandon tasks count e →
    Executes qb ending current_num_threads self worker active tasks count [] e
  | scope_returned {b v e} :
    (self.execute_with_count_dispatch worker count active).1 = .parallel →
    ReflTransGen (Batch.Next (qb.lazy tasks count self.task_failure_policy).next ending)
      (Batch.init (self.worker_count current_num_threads count)
        (qb.lazy tasks count self.task_failure_policy).start) b →
    b.result = some (.value v) →
    qb.finish tasks count self.task_failure_policy b.source b.recorded v e →
    Executes qb ending current_num_threads self worker active tasks count b.executed e
  | scope_unwound {b} :
    (self.execute_with_count_dispatch worker count active).1 = .parallel →
    ReflTransGen (Batch.Next (qb.lazy tasks count self.task_failure_policy).next ending)
      (Batch.init (self.worker_count current_num_threads count)
        (qb.lazy tasks count self.task_failure_policy).start) b →
    b.result = some .unwound →
    Executes qb ending current_num_threads self worker active tasks count b.executed .unwound

/-- How `call_with_count` can end on a thread with the registry `active`. -/
inductive Calls (qb : QubitBatch ι σ α R E) (ending : ParallelBatchTask α → Ending)
    (current_num_threads : π → Nat) (self : RayonBatchExecutor π) (worker : Bool)
    (active : List π) (tasks : ι) (count : Nat) :
    List (ParallelBatchTask α) → CallEnd (CallResult R E RayonBatchScheduleError) → Prop where
  | fallback {guard active' log e} :
    ActiveBatchGuard.enter self.pool active = (guard, active') →
    self.runs_sequentially guard worker count = true →
    qb.call_sequentially self.sequential_executor tasks count log e →
    Calls qb ending current_num_threads self worker active tasks count log
      (e.map (Except.mapError (·.map_scheduler_error never)))
  | delegated {guard active' log e e'} :
    ActiveBatchGuard.enter self.pool active = (guard, active') →
    self.runs_sequentially guard worker count = false →
    Executes qb ending current_num_threads self worker (dropGuard guard active') tasks count log e →
    qb.call_with_executor log e e' →
    Calls qb ending current_num_threads self worker active tasks count log e'

/-- Whether a result is an error of the scheduler. -/
def ExecuteResult.ScheduleFailed {S : Type*} (e : S) (r : ExecuteResult E S) : Prop :=
  ∃ outcome, r = .error (.ScheduleFailed e outcome)

/-- Whether a callable result is an error of the scheduler. -/
def CallResult.ScheduleFailed {S : Type*} (e : S) (r : CallResult R E S) : Prop :=
  ∃ outcome outputs, r = .error ⟨.ScheduleFailed e outcome, outputs⟩

/-- The batch library reports a scheduling error only when the scheduling closure returned it. -/
structure QubitBatch.ForwardsScheduleErrors (qb : QubitBatch ι σ α R E) : Prop where
  abandon : ∀ {tasks count r e}, qb.abandon tasks count (.returned r) → ¬ r.ScheduleFailed e
  finish : ∀ {tasks count policy s log v r e}, qb.finish tasks count policy s log v (.returned r) →
    r.ScheduleFailed e → v = .error e
  call_with_executor : ∀ {log r r' e}, qb.call_with_executor log r (.returned r') →
    r'.ScheduleFailed e → ∃ r₀, r = .returned r₀ ∧ r₀.ScheduleFailed e

/-- The record of a completed task. -/
def record (run : α → TaskResult R E) (t : ParallelBatchTask α) : Record R E :=
  ⟨t.index, run t.task⟩

/-- Whether a task fails or panics. -/
def fails (run : α → TaskResult R E) (a : α) : Bool :=
  match run a with
  | .ok _ => false
  | .error _ => true

/-- The result of a batch whose source has ended. -/
def verdict {S : Type*} (count : Nat) (o : Observation) (outcome : BatchOutcome E) :
    ExecuteResult E S :=
  match o with
  | .exhausted =>
    if outcome.completed_count < count then
      .error (.CountShortfall count outcome.completed_count outcome)
    else .ok outcome
  | .exceeded => .error (.CountExceeded count (count + 1) outcome)
  | .stopped => .ok outcome

/-- The items before the end of a list or right after the `L`-th failure. -/
def stopAfter (failed : α → Bool) : Nat → List α → List α
  | 0, _ => []
  | _ + 1, [] => []
  | L + 1, a :: items => a :: stopAfter failed (if failed a then L else L + 1) items

/-- The items a sequential run executes. -/
def inOrder (failed : α → Bool) (limit : Option Nat) (items : List α) : List α :=
  match limit with
  | none => items
  | some L => stopAfter failed L items

/-- Why a sequential run over the items it executes ends. -/
def inOrderObservation (supply : Nat → Option α) (failed : α → Bool) (limit : Option Nat)
    (items : List α) : Observation :=
  if ∃ L ∈ limit, L ≤ items.countP failed then .stopped
  else if supply items.length = none then .exhausted
  else .exceeded

/-- Tasks that the sequential executor runs on a source. -/
def sequentialTasks (supply : Nat → Option α) (failed : α → Bool) (policy : TaskFailurePolicy)
    (count : Nat) : List α :=
  inOrder failed (policy.limit.map Subtype.val) (available supply 0 count)

/-- What the sequential executor returns on a source. -/
def sequentialResult {S : Type*} (supply : Nat → Option α) (run : α → TaskResult R E)
    (policy : TaskFailurePolicy) (count : Nat) : ExecuteResult E S :=
  let items := sequentialTasks supply (fails run) policy count
  verdict count
    (inOrderObservation supply (fails run) (policy.limit.map Subtype.val) items)
    (outcome count ((indexed items).map (record run)))

/-- The documented behaviour of the batch library, without a failing reporter or an unwinding
source; `supply` tells the items of a source and `run` the result of each. -/
structure QubitBatch.Documented (qb : QubitBatch ι σ α R E) (supply : ι → Nat → Option α)
    (run : α → TaskResult R E) : Prop where
  lazy : ∀ tasks count policy, (qb.lazy tasks count policy).Documented (supply tasks) count
    (policy.limit.map Subtype.val) (fails run)
  execute_sequentially : ∀ executor tasks count log e,
    qb.execute_sequentially executor tasks count log e ↔
      log = indexed
        (sequentialTasks (supply tasks) (fails run) executor.task_failure_policy count) ∧
      e = .returned (sequentialResult (supply tasks) run executor.task_failure_policy count)
  call_sequentially : ∀ executor tasks count log e,
    qb.call_sequentially executor tasks count log e ↔
      log = indexed
        (sequentialTasks (supply tasks) (fails run) executor.task_failure_policy count) ∧
      e = .returned (withOutputs (outputs (log.map (record run)))
        (sequentialResult (supply tasks) run executor.task_failure_policy count))
  abandon : ∀ tasks count e, ¬ qb.abandon tasks count e
  /-- When all admitted tasks are recorded, the source decides the result. -/
  finish : ∀ tasks count policy s log e, (qb.lazy tasks count policy).position s = log.length →
    (qb.finish tasks count policy s log (.ok ()) e ↔ e = .returned
      (verdict count ((qb.lazy tasks count policy).observed s)
        (outcome count (log.map (record run)))))
  call_with_executor : ∀ log r e, qb.call_with_executor log (.returned r) e ↔
    e = .returned (withOutputs (outputs (log.map (record run))) r)

/-- A batch library over lists, as documented. -/
def QubitBatch.ofLists (run : α → TaskResult R E) :
    QubitBatch (List α) (Nat × Observation) α R E where
  lazy := fun items count policy => .ofList items count (policy.limit.map Subtype.val) (fails run)
  execute_sequentially := fun executor items count log e =>
    log = indexed (sequentialTasks (items[·]?) (fails run) executor.task_failure_policy count) ∧
      e = .returned (sequentialResult (items[·]?) run executor.task_failure_policy count)
  call_sequentially := fun executor items count log e =>
    log = indexed (sequentialTasks (items[·]?) (fails run) executor.task_failure_policy count) ∧
      e = .returned (withOutputs (outputs (log.map (record run)))
        (sequentialResult (items[·]?) run executor.task_failure_policy count))
  abandon := fun _ _ _ => False
  finish := fun _ count _ s log v e =>
    let outcome := outcome count (log.map (record run))
    e = .returned (match v with
      | .error source => .error (.ScheduleFailed source outcome)
      | .ok () =>
        if log.length < s.1 then .error (.IncompleteSchedule outcome)
        else verdict count s.2 outcome)
  call_with_executor := fun log e e' =>
    e' = e.map (withOutputs (outputs (log.map (record run))))

/-- The library over lists behaves as documented. -/
lemma QubitBatch.ofLists_documented (run : α → TaskResult R E) :
    (QubitBatch.ofLists run).Documented (fun items => (items[·]?)) run where
  lazy := fun items count policy => LazySource.ofList_documented items count _ _
  execute_sequentially := fun _ _ _ _ _ => Iff.rfl
  call_sequentially := fun _ _ _ _ _ => Iff.rfl
  abandon := fun _ _ _ h => h
  finish := fun items count policy s log e position => by
    have complete : ¬ log.length < s.1 := Nat.not_lt.mpr position.le
    simp only [ofLists, if_neg complete]
    rfl
  call_with_executor := fun _ _ _ => Iff.rfl

/-- A batch whose source has ended has no scheduling error. -/
lemma not_scheduleFailed_verdict {S : Type*} {count o} {outcome : BatchOutcome E} {e : S} :
    ¬ (verdict count o outcome : ExecuteResult E S).ScheduleFailed e := by
  rintro ⟨_, h⟩
  unfold verdict at h
  split at h
  · split at h <;> cases h
  · cases h
  · cases h

/-- Outputs beside a result do not make it an error of the scheduler. -/
lemma scheduleFailed_withOutputs {S : Type*} {outputs : List (BatchTaskOutput R)}
    {r : ExecuteResult E S} {e : S} (h : (withOutputs outputs r).ScheduleFailed e) :
    r.ScheduleFailed e := by
  obtain ⟨outcome, _, h⟩ := h
  cases r with
  | ok => cases h
  | error => cases h; exact ⟨outcome, rfl⟩

/-- The library over lists reports a scheduling error only from the closure. -/
lemma QubitBatch.ofLists_forwards (run : α → TaskResult R E) :
    (QubitBatch.ofLists run).ForwardsScheduleErrors where
  abandon := fun h => h.elim
  finish := fun {_ _ _ s log v r e} h failed => by
    cases h
    cases v with
    | ok =>
      simp only at failed
      split at failed
      · obtain ⟨_, ⟨⟩⟩ := failed
      · exact absurd failed not_scheduleFailed_verdict
    | error =>
      obtain ⟨_, ⟨⟩⟩ := failed
      rfl
  call_with_executor := fun {log r r' e} h failed => by
    cases r with
    | returned r₀ =>
      cases h
      exact ⟨r₀, rfl, scheduleFailed_withOutputs failed⟩
    | unwound => cases h

end RayonBatch
