import RayonBatch.Call.Drained

/-!
# Both paths agree

As long as the failures of a batch do not exhaust its policy, every schedule of the parallel path
gives what the sequential executor gives (`Executes.agrees`, `Calls.agrees`). Under
`TaskFailurePolicy::Continue` this holds of every batch over a finite source, and the common result
is `in_order_result` (`continue_agrees`).
-/

namespace RayonBatch
open Relation Runs

/-- Fewer failures than the policy tolerates. -/
def Tolerated {α : Type*} (failed : α → Bool) (limit : Option Nat) (items : List α) : Prop :=
  ∀ L ∈ limit, items.countP failed < L

section InOrder

variable {α : Type*} {failed : α → Bool}

/-- The items up to a failure are the first ones. -/
lemma stopAfter_prefix (L : Nat) (items : List α) : stopAfter failed L items <+: items := by
  induction items generalizing L with
  | nil => cases L <;> exact List.prefix_rfl
  | cons a items ih =>
    cases L with
    | zero => exact List.nil_prefix
    | succ L => exact List.cons_prefix_cons.mpr ⟨rfl, ih _⟩

/-- With fewer failures than the limit no item is left out. -/
lemma stopAfter_of_lt {L : Nat} {items : List α} (lt : items.countP failed < L) :
    stopAfter failed L items = items := by
  induction items generalizing L with
  | nil => cases L <;> rfl
  | cons a items ih =>
    cases L with
    | zero => simp at lt
    | succ L =>
      rw [List.countP_cons] at lt
      simp only [stopAfter, List.cons.injEq, true_and]
      apply ih
      split at lt <;> simp_all

/-- The stop comes within every prefix that has the failures. -/
lemma stopAfter_length_le {L m : Nat} {items : List α} (le : L ≤ (items.take m).countP failed) :
    (stopAfter failed L items).length ≤ m := by
  induction items generalizing L m with
  | nil => cases L <;> simp [stopAfter]
  | cons a items ih =>
    cases L with
    | zero => simp [stopAfter]
    | succ L =>
      cases m with
      | zero => simp at le
      | succ m =>
        rw [List.take_succ_cons, List.countP_cons] at le
        simp only [stopAfter, List.length_cons, Nat.add_le_add_iff_right]
        apply ih
        split at le <;> simp_all

/-- The items that are run in order are the first ones. -/
lemma inOrder_prefix (limit : Option Nat) (items : List α) :
    inOrder failed limit items <+: items := by
  cases limit with
  | none => exact List.prefix_rfl
  | some L => exact stopAfter_prefix L items

/-- While failures are tolerated all items are run. -/
lemma inOrder_of_tolerated {limit : Option Nat} {items : List α}
    (few : Tolerated failed limit items) : inOrder failed limit items = items := by
  cases limit with
  | none => rfl
  | some L => exact stopAfter_of_lt (few L rfl)

/-- Positions do not matter for what fails. -/
@[simp] lemma countP_indexed (items : List α) :
    (indexed items).countP (failed ·.task) = items.countP failed := by
  conv_rhs => rw [← map_task_indexed items]
  rw [List.countP_map]
  rfl

end InOrder

variable {π ι σ α R E : Type*} [DecidableEq π] {qb : QubitBatch ι σ α R E}
  {supply : ι → Nat → Option α} {run : α → TaskResult R E}
  {ending : ParallelBatchTask α → Ending} {current_num_threads : π → Nat}
  {self : RayonBatchExecutor π} {worker : Bool} {active : List π} {tasks : ι} {count : Nat}

/-- A record is made at the position of its task. -/
@[simp] lemma map_index_record (log : List (ParallelBatchTask α)) :
    (log.map (record run)).map Record.index = log.map ParallelBatchTask.index := by
  rw [List.map_map]
  rfl

/-- No position is recorded twice. -/
lemma nodup_index_record {log : List (ParallelBatchTask α)} {items : List α}
    (h : log.Perm (indexed items)) : ((log.map (record run)).map Record.index).Nodup := by
  rw [map_index_record, (h.map _).nodup_iff, map_index_indexed]
  exact List.nodup_range

/-- While failures are tolerated the policy does not stop the source. -/
lemma Ended.not_stopped {lazy : LazySource σ α} {supply count limit failed} {b : Batch σ α}
    (h : Ended lazy supply count limit failed b)
    (few : Tolerated failed limit (available supply 0 count)) :
    lazy.observed b.source ≠ .stopped := by
  intro stopped
  have why := h.observed
  rw [stopped] at why
  obtain ⟨L, e, le⟩ := why
  rw [h.recorded.countP_eq, h.yielded, countP_indexed] at le
  have := (List.take_sublist b.yielded.length (available supply 0 count)).countP_le (p := failed)
  have := few L e
  omega

/-- While failures are tolerated a parallel call admits all available items. -/
lemma Ended.all {lazy : LazySource σ α} {supply count limit failed} {b : Batch σ α}
    (h : Ended lazy supply count limit failed b)
    (few : Tolerated failed limit (available supply 0 count)) :
    b.yielded = indexed (available supply 0 count) := by
  have all := h.complete (h.not_stopped few)
  rw [h.yielded, all, List.take_length]

/-- While failures are tolerated, every path executes the available items and returns what the
sequential executor returns. -/
lemma Executes.agrees (doc : qb.Documented supply run) (goes : ∀ t, ending t = .returns)
    (threads : 0 < current_num_threads self.pool)
    (few : Tolerated (fails run) (self.task_failure_policy.limit.map Subtype.val)
      (available (supply tasks) 0 count)) {log e}
    (h : Executes qb ending current_num_threads self worker active tasks count log e) :
    log.Perm (indexed (available (supply tasks) 0 count)) ∧
      e = .returned (sequentialResult (supply tasks) run self.task_failure_policy count) := by
  have items : sequentialTasks (supply tasks) (fails run) self.task_failure_policy count
      = available (supply tasks) 0 count := inOrder_of_tolerated few
  cases path : (self.execute_with_count_dispatch worker count active).1 with
  | sequential =>
    obtain ⟨rfl, rfl⟩ := h.sequential doc path
    exact ⟨by rw [items], rfl⟩
  | parallel =>
    obtain ⟨b, ended, rfl, rfl⟩ := h.parallel doc goes threads path
    have all := ended.all few
    have executed := all ▸ ended.executed
    have recorded := all ▸ ended.recorded
    refine ⟨executed, congrArg CallEnd.returned ?_⟩
    have length : b.yielded.length = (available (supply tasks) 0 count).length := by
      rw [all, ← List.length_map (f := ParallelBatchTask.task), map_task_indexed]
    have observed := ended.observed.eq_of_ne_stopped (ended.not_stopped few)
    have tolerated : ¬ ∃ L ∈ self.task_failure_policy.limit.map Subtype.val,
        L ≤ (available (supply tasks) 0 count).countP (fails run) :=
      fun ⟨L, mem, le⟩ => Nat.not_lt.mpr le (few L mem)
    rw [sequentialResult, items, inOrderObservation, if_neg tolerated, observed, length,
      outcome_eq_of_perm (nodup_index_record recorded) (recorded.map _)]

/-- Above the fallbacks `call_with_count` runs through `execute_with_count`. -/
lemma Calls.delegates
    (parallel : (self.dispatch .call_with_count worker count active).1 = .parallel) {log e'}
    (h : Calls qb ending current_num_threads self worker active tasks count log e') :
    ∃ e, Executes qb ending current_num_threads self worker active tasks count log e ∧
      qb.call_with_executor log e e' := by
  cases h with
  | @fallback guard active' _ _ enter sequential =>
    obtain ⟨fresh, off, big, many⟩ := self.dispatch_fst_eq_parallel.mp parallel
    have entered := congrArg Prod.fst enter
    have : self.runs_sequentially guard worker count = false :=
      RayonBatchExecutor.runs_sequentially_eq_false.mpr
        ⟨fun none => fresh (ActiveBatchGuard.enter_fst_eq_none.mp (entered.trans none)), off, big,
          many⟩
    simp [this] at sequential
  | @delegated guard active' _ e _ enter above run collect =>
    obtain ⟨restored, -⟩ := self.delegation enter above
    exact ⟨e, restored ▸ run, collect⟩

/-- Outputs are put beside a result whatever its scheduling error is called. -/
lemma mapError_withOutputs {S S' : Type*} {f : S → S'} {outputs : List (BatchTaskOutput R)}
    {r : ExecuteResult E S} :
    (withOutputs outputs r).mapError (·.map_scheduler_error f)
      = withOutputs outputs (r.mapError (·.map_scheduler_error f)) := by
  cases r <;> rfl

/-- While failures are tolerated, every path of `call_with_count` executes the available items and
returns what the sequential executor returns. -/
lemma Calls.agrees (doc : qb.Documented supply run) (goes : ∀ t, ending t = .returns)
    (threads : 0 < current_num_threads self.pool)
    (few : Tolerated (fails run) (self.task_failure_policy.limit.map Subtype.val)
      (available (supply tasks) 0 count)) {log e}
    (h : Calls qb ending current_num_threads self worker active tasks count log e) :
    log.Perm (indexed (available (supply tasks) 0 count)) ∧
      e = .returned (withOutputs
        (outputs ((indexed (available (supply tasks) 0 count)).map (record run)))
        (sequentialResult (supply tasks) run self.task_failure_policy count)) := by
  have items : sequentialTasks (supply tasks) (fails run) self.task_failure_policy count
      = available (supply tasks) 0 count := inOrder_of_tolerated few
  cases h with
  | fallback _ _ ran =>
    obtain ⟨rfl, rfl⟩ := (doc.call_sequentially _ _ _ _ _).mp ran
    refine ⟨by rw [← items]; rfl, congrArg CallEnd.returned ?_⟩
    simp only [self.sequential_executor_task_failure_policy, mapError_withOutputs, sequentialResult,
      mapError_verdict, items]
  | delegated _ _ ran collect =>
    obtain ⟨perm, rfl⟩ := ran.agrees doc goes threads few
    refine ⟨perm, ?_⟩
    rw [(doc.call_with_executor _ _ _).mp collect,
      outputs_eq_of_perm (nodup_index_record perm) (perm.map _)]

/-- Where all tasks return `call_with_count` has a result. -/
lemma Calls.total (doc : qb.Documented supply run) (goes : ∀ t, ending t = .returns)
    (threads : 0 < current_num_threads self.pool) :
    ∃ log e, Calls qb ending current_num_threads self worker active tasks count log e := by
  rcases enter : ActiveBatchGuard.enter self.pool active with ⟨guard, active'⟩
  cases path : self.runs_sequentially guard worker count with
  | true =>
    exact ⟨_, _, .fallback enter path ((doc.call_sequentially _ _ _ _ _).mpr ⟨rfl, rfl⟩)⟩
  | false =>
    obtain ⟨log, e, ran⟩ : ∃ log e, Executes qb ending current_num_threads self worker
        (dropGuard guard active') tasks count log e := Executes.total _ _ doc goes threads
    have collects : ∀ r, e = .returned r → ∃ e', qb.call_with_executor log e e' :=
      fun r er => ⟨_, er ▸ (doc.call_with_executor log r _).mpr rfl⟩
    cases route : (self.execute_with_count_dispatch worker count (dropGuard guard active')).1 with
    | sequential =>
      obtain ⟨e', collect⟩ := collects _ (ran.sequential doc route).2
      exact ⟨log, e', .delegated enter path ran collect⟩
    | parallel =>
      obtain ⟨b, -, -, er⟩ := ran.parallel doc goes threads route
      obtain ⟨e', collect⟩ := collects _ er
      exact ⟨log, e', .delegated enter path ran collect⟩

/-- The outcome of running the first `count` items in order. -/
def in_order_outcome (run : α → TaskResult R E) (items : List α) (count : Nat) : BatchOutcome E :=
  outcome count ((indexed (items.take count)).map (record run))

/-- The outputs of running the first `count` items in order. -/
def in_order_outputs (run : α → TaskResult R E) (items : List α) (count : Nat) :
    List (BatchTaskOutput R) :=
  outputs ((indexed (items.take count)).map (record run))

/-- The result of running the first `count` items in order and comparing the counts. -/
def in_order_result {S : Type*} (run : α → TaskResult R E) (items : List α) (count : Nat) :
    ExecuteResult E S :=
  if items.length < count then
    .error (.CountShortfall count items.length (in_order_outcome run items count))
  else if count < items.length then
    .error (.CountExceeded count (count + 1) (in_order_outcome run items count))
  else .ok (in_order_outcome run items count)

/-- Under `Continue` the sequential result is that of running all items in order. -/
lemma sequentialResult_continue {S : Type*} (run : α → TaskResult R E) (items : List α)
    (count : Nat) : (sequentialResult (items[·]?) run .Continue count : ExecuteResult E S)
      = in_order_result run items count := by
  have tasks : sequentialTasks (items[·]?) (fails run) .Continue count = items.take count := by
    simp [sequentialTasks, inOrder, TaskFailurePolicy.limit, available_getElem?]
  have tolerated : ¬ ∃ L ∈ TaskFailurePolicy.Continue.limit.map Subtype.val,
      L ≤ (items.take count).countP (fails run) := by simp [TaskFailurePolicy.limit]
  have completed : (in_order_outcome run items count).completed_count
      = min count items.length := by simp [in_order_outcome, outcome, indexed]
  simp only [sequentialResult, tasks, inOrderObservation, if_neg tolerated, in_order_result]
  change verdict count _ (in_order_outcome run items count) = _
  rcases Nat.lt_trichotomy items.length count with lt | eq | gt
  · have short : min count items.length = items.length := by omega
    simp [verdict, completed, short, lt]
  · simp [verdict, completed, eq]
  · simp [verdict, gt, gt.le]

/-- Under `TaskFailurePolicy::Continue` every path and every schedule gives the result of running
the first `min(n, count)` items in order on one thread. -/
theorem continue_agrees (current_num_threads : π → Nat) (doc : qb.Documented supply run)
    (goes : ∀ t, ending t = .returns) (self : RayonBatchExecutor π)
    (policy : self.task_failure_policy = .Continue)
    (threads : 0 < current_num_threads self.pool) (worker : Bool) (active : List π) {tasks : ι}
    {items : List α} (source : supply tasks = (items[·]?)) (count : Nat) :
    (∀ log e, Executes qb ending current_num_threads self worker active tasks count log e →
      log.Perm (indexed (items.take count)) ∧ e = .returned (in_order_result run items count)) ∧
    (∀ log e, Calls qb ending current_num_threads self worker active tasks count log e →
      log.Perm (indexed (items.take count)) ∧ e = .returned
        (withOutputs (in_order_outputs run items count) (in_order_result run items count))) ∧
    (∃ log e, Executes qb ending current_num_threads self worker active tasks count log e) ∧
    (∃ log e, Calls qb ending current_num_threads self worker active tasks count log e) ∧
    ((in_order_outcome run items count).failures.map BatchTaskFailure.index
      ++ (in_order_outputs run items count).map BatchTaskOutput.index).Perm
        (List.range (min count items.length)) := by
  have first : available (supply tasks) 0 count = items.take count := by
    rw [source, available_getElem?, List.drop_zero]
  have few : Tolerated (fails run) (self.task_failure_policy.limit.map Subtype.val)
      (available (supply tasks) 0 count) := by
    rw [policy]
    rintro L ⟨⟩
  have result : ∀ S, (sequentialResult (supply tasks) run self.task_failure_policy count :
      ExecuteResult E S) = in_order_result run items count := fun S => by
    rw [source, policy, sequentialResult_continue]
  refine ⟨fun log e h => ?_, fun log e h => ?_, Executes.total _ _ doc goes threads,
    Calls.total doc goes threads, ?_⟩
  · have agrees := h.agrees doc goes threads few
    rwa [first, result] at agrees
  · have agrees := h.agrees doc goes threads few
    rwa [first, result] at agrees
  · refine (failures_outputs_perm _).trans ?_
    rw [map_index_record, map_index_indexed, List.length_take]

/-- Three items declared as two, one of which fails: some schedule ends, and reports the excess. -/
theorem continue_agrees_three :
    ∃ log e, Executes (QubitBatch.ofLists fun n : Nat =>
        if n = 10 then (.ok 1 : TaskResult Nat Nat) else .error (.Failed n))
      (fun _ => .returns) (fun _ : Unit => 2) ⟨(), 2, 0, ⟨0, 0⟩, .Continue, by decide⟩ false []
      [10, 20, 30] 2 log e ∧ log.Perm [⟨0, 10⟩, ⟨1, 20⟩] ∧
      e = .returned (.error (.CountExceeded 2 3 ⟨2, 2, 1, 1, 0, [⟨1, .Failed 20⟩]⟩)) := by
  obtain ⟨agrees, -, ⟨log, e, ran⟩, -⟩ := continue_agrees (fun _ : Unit => 2)
    (QubitBatch.ofLists_documented _) (fun _ => rfl) ⟨(), 2, 0, ⟨0, 0⟩, .Continue, by decide⟩ rfl
    (by decide) false [] rfl 2
  exact ⟨log, e, ran, agrees log e ran⟩

end RayonBatch
