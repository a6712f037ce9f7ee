import RayonBatch.Call.StopPolicy

/-!
# What a result tells

Whatever the policy, the path, the schedule and the destructors of the tasks do, a call that returns
reports the first items of its source: `Reports` and `Retains` say what the caller reads about
them, and `ExecuteResult.Sound` what the kind of the result tells about the number of items
(`results_sound`). Of the items that a fallback reports, a parallel call reports the same
(`fallback_prefix_results`).
-/

namespace RayonBatch
open Relation

/-- The outcome in an error (source `outcome`). -/
def BatchExecutionError.outcome {E S : Type*} : BatchExecutionError E S → BatchOutcome E
  | ProgressReport outcome | CountShortfall _ _ outcome | CountExceeded _ _ outcome
  | IncompleteSchedule outcome | ScheduleFailed _ outcome => outcome

/-- The outcome of a batch, complete or not. -/
def ExecuteResult.outcome {E S : Type*} : ExecuteResult E S → BatchOutcome E
  | .ok outcome => outcome
  | .error error => error.outcome

/-- The batch result of a callable batch. -/
def CallResult.batch {R E S : Type*} : CallResult R E S → ExecuteResult E S
  | .ok result => .ok result.outcome
  | .error error => .error error.error

/-- The outputs of a callable batch, complete or not. -/
def CallResult.outputs {R E S : Type*} : CallResult R E S → List (BatchTaskOutput R)
  | .ok result => result.outputs
  | .error error => error.outputs

/-- Outputs beside a result leave it what it is. -/
@[simp] lemma batch_withOutputs {R E S : Type*} (outputs : List (BatchTaskOutput R))
    (r : ExecuteResult E S) : (withOutputs outputs r).batch = r := by
  cases r <;> rfl

/-- The outputs beside a result are the given ones. -/
@[simp] lemma outputs_withOutputs {R E S : Type*} (outputs : List (BatchTaskOutput R))
    (r : ExecuteResult E S) : (withOutputs outputs r).outputs = outputs := by
  cases r <;> rfl

/-- Whether an error is a captured panic. -/
def BatchTaskError.panicked {E : Type*} : BatchTaskError E → Bool
  | Panicked _ => true
  | Failed _ => false

/-- What an outcome tells about the items that have been executed. -/
structure Reports {α R E : Type*} (run : α → TaskResult R E) (count : Nat) (items : List α)
    (outcome : BatchOutcome E) : Prop where
  task_count : outcome.task_count = count
  completed_count : outcome.completed_count = items.length
  counts : outcome.succeeded_count + outcome.failed_count + outcome.panicked_count
    = outcome.completed_count
  failure_count : outcome.failure_count = outcome.failures.length
  panicked_count : outcome.panicked_count = outcome.failures.countP (·.error.panicked)
  sorted : outcome.failures.Pairwise (·.index < ·.index)
  /-- The failures are those of the items that fail. -/
  failures : ∀ i error, ⟨i, error⟩ ∈ outcome.failures ↔
    ∃ a, items[i]? = some a ∧ run a = .error error

/-- What the outputs tell about the items that have been executed. -/
structure Retains {α R E : Type*} (run : α → TaskResult R E) (items : List α)
    (outputs : List (BatchTaskOutput R)) : Prop where
  sorted : outputs.Pairwise (·.index < ·.index)
  /-- The outputs are those of the items that succeed. -/
  values : ∀ i value, ⟨i, value⟩ ∈ outputs ↔ ∃ a, items[i]? = some a ∧ run a = .ok value

/-- What a result tells about a source of which `items` have been executed. -/
def ExecuteResult.Sound {α E S : Type*} (supply : Nat → Option α) (failed : α → Bool)
    (limit : Option Nat) (count : Nat) (items : List α) : ExecuteResult E S → Prop
  | .ok _ =>
    items.length = count ∧ supply count = none ∨ ∃ L ∈ limit, L ≤ items.countP failed
  | .error (.CountShortfall expected actual _) =>
    expected = count ∧ actual = items.length ∧ actual < count ∧ supply actual = none
  | .error (.CountExceeded expected observed_at_least _) =>
    expected = count ∧ observed_at_least = count + 1 ∧ items.length = count ∧ supply count ≠ none
  | .error (.ProgressReport _) | .error (.IncompleteSchedule _) | .error (.ScheduleFailed _ _) =>
    False

section InOrder

variable {α R E : Type*} {run : α → TaskResult R E}

/-- What is read off a log that is sorted by index, is sorted by index. -/
lemma pairwise_filterMap {β : Type*} {read : Record R E → Option β} {index : β → Nat}
    (h : ∀ {record b}, read record = some b → index b = record.index) {log : List (Record R E)}
    (sorted : log.Pairwise (·.index < ·.index)) :
    (log.filterMap read).Pairwise (index · < index ·) :=
  sorted.filterMap read fun _ _ lt _ hb _ hb' => by rwa [h hb, h hb']

/-- Of a log in source order the failures are read off as they come. -/
lemma failures_of_sorted {log : List (Record R E)} (sorted : log.Pairwise (·.index < ·.index)) :
    failures log = log.filterMap Record.failure? :=
  ((pairwise_filterMap Record.failure?_index sorted).imp Nat.le_of_lt).insertionSort_eq

/-- Of a log in source order the outputs are read off as they come. -/
lemma outputs_of_sorted {log : List (Record R E)} (sorted : log.Pairwise (·.index < ·.index)) :
    outputs log = log.filterMap Record.output? :=
  ((pairwise_filterMap Record.output?_index sorted).imp Nat.le_of_lt).insertionSort_eq

/-- The records of items in order are sorted. -/
lemma records_sorted (items : List α) :
    ((indexed items).map (record run)).Pairwise (·.index < ·.index) := by
  have sorted := List.pairwise_lt_range (n := items.length)
  have index : ((indexed items).map (record run)).map Record.index = List.range items.length := by
    rw [map_index_record, map_index_indexed]
  rwa [← index, List.pairwise_map] at sorted

/-- The first items have the first positions. -/
lemma prefix_indexed {items items' : List α} (h : items <+: items') :
    indexed items <+: indexed items' := by
  obtain ⟨rest, rfl⟩ := h
  rw [indexed, indexed, List.zipIdx_append, List.map_append]
  exact List.prefix_append _ _

/-- The failures are those of the items that fail, at their positions. -/
lemma mem_failures {items : List α} {i error} :
    ⟨i, error⟩ ∈ failures ((indexed items).map (record run)) ↔
      ∃ a, items[i]? = some a ∧ run a = .error error := by
  rw [failures_of_sorted (records_sorted items), List.filterMap_map, List.mem_filterMap]
  constructor
  · rintro ⟨⟨j, a⟩, ht, e⟩
    cases ran : run a with
    | ok => simp [record, Record.failure?, ran] at e
    | error =>
      simp only [Function.comp_apply, record, Record.failure?, ran, Option.some.injEq,
        BatchTaskFailure.mk.injEq] at e
      obtain ⟨rfl, rfl⟩ := e
      exact ⟨a, mem_indexed.mp ht, ran⟩
  · rintro ⟨a, ha, ran⟩
    exact ⟨⟨i, a⟩, mem_indexed.mpr ha, by simp [record, Record.failure?, ran]⟩

/-- The outputs are those of the items that succeed, at their positions. -/
lemma mem_outputs {items : List α} {i value} :
    ⟨i, value⟩ ∈ outputs ((indexed items).map (record run)) ↔
      ∃ a, items[i]? = some a ∧ run a = .ok value := by
  rw [outputs_of_sorted (records_sorted items), List.filterMap_map, List.mem_filterMap]
  constructor
  · rintro ⟨⟨j, a⟩, ht, e⟩
    cases ran : run a with
    | error => simp [record, Record.output?, ran] at e
    | ok =>
      simp only [Function.comp_apply, record, Record.output?, ran, Option.some.injEq,
        BatchTaskOutput.mk.injEq] at e
      obtain ⟨rfl, rfl⟩ := e
      exact ⟨a, mem_indexed.mp ht, ran⟩
  · rintro ⟨a, ha, ran⟩
    exact ⟨⟨i, a⟩, mem_indexed.mpr ha, by simp [record, Record.output?, ran]⟩

/-- There is an output for each success. -/
lemma length_outputs (log : List (Record R E)) :
    (outputs log).length = log.countP Record.succeeded := by
  rw [outputs, (List.sortOn_perm _).length_eq, List.length_filterMap_eq_countP]
  refine List.countP_congr fun record _ => ?_
  unfold Record.output? Record.succeeded
  split <;> simp

/-- Failures are counted in the log. -/
lemma countP_failures (log : List (Record R E)) (p : BatchTaskError E → Bool) :
    (failures log).countP (p ·.error)
      = log.countP fun record => record.failure?.any (p ·.error) := by
  rw [failures, (List.sortOn_perm _).countP_eq, List.countP_filterMap]
  refine List.countP_congr fun record _ => ?_
  cases record.failure? <;> simp

/-- The failures of an outcome are those of its log. -/
lemma outcome_failures (count : Nat) (log : List (Record R E)) :
    (outcome count log).failures = failures log :=
  rfl

/-- The outcome of a log reports its items. -/
lemma reports_outcome (count : Nat) (items : List α) :
    Reports run count items (outcome count ((indexed items).map (record run))) where
  task_count := rfl
  completed_count := by simp [outcome]
  counts := outcome_counts _ _
  failure_count := by
    have all := countP_failures ((indexed items).map (record run)) fun _ => true
    rw [List.countP_true] at all
    rw [outcome_failure_count, outcome_failures, all]
    refine List.countP_congr fun record _ => ?_
    unfold Record.succeeded Record.failure?
    split <;> simp
  panicked_count := by
    rw [outcome_failures, countP_failures]
    refine List.countP_congr fun record _ => ?_
    obtain ⟨index, result⟩ := record
    cases result with
    | ok value => simp [Record.panicked, Record.failure?]
    | error error =>
      cases error <;> simp [Record.panicked, Record.failure?, BatchTaskError.panicked]
  sorted := by
    rw [outcome_failures, failures_of_sorted (records_sorted items)]
    exact pairwise_filterMap Record.failure?_index (records_sorted items)
  failures := fun i error => mem_failures

/-- Running items in order retains their outputs. -/
lemma retains_outputs (items : List α) :
    Retains run items (outputs ((indexed items).map (record run))) where
  sorted := by
    rw [outputs_of_sorted (records_sorted items)]
    exact pairwise_filterMap Record.output?_index (records_sorted items)
  values := fun i value => mem_outputs

end InOrder

variable {π ι σ α R E : Type*} [DecidableEq π] {qb : QubitBatch ι σ α R E}
  {supply : ι → Nat → Option α} {run : α → TaskResult R E}
  {ending : ParallelBatchTask α → Ending} {current_num_threads : π → Nat}
  {self : RayonBatchExecutor π} {worker : Bool} {active : List π} {tasks : ι} {count : Nat}

/-- A scope that returns has had no task unwind, so its batch has ended as documented. -/
lemma Ended.of_value {lazy : LazySource σ α} {supply count limit failed} {W : Nat}
    {b : Batch σ α} {v} (doc : lazy.Documented supply count limit failed) (pos : 0 < W)
    (rs : ReflTransGen (Batch.Next lazy.next ending) (Batch.init W lazy.start) b)
    (value : b.result = some (.value v)) : Ended lazy supply count limit failed b ∧ v = .ok () := by
  have h := Batch.Inv.run rs
  obtain ⟨-, returned⟩ := h.closing.value v value
  have dead : b.workers.countP Worker.dead = 0 :=
    List.countP_eq_zero.mpr fun w hw => by simp [returned w hw]
  have calm : b.unwound = [] := List.eq_nil_of_length_eq_zero (h.tally.deaths ▸ dead)
  have ended : b.ended := by simp [Batch.ended, value]
  exact ⟨Ended.of_calm doc pos rs ended calm, h.value_ok pos value⟩

/-- A run with fewer failures than the limit was not stopped. -/
lemma stopAfter_eq_of_countP_lt {failed : α → Bool} {L : Nat} {items : List α}
    (few : (stopAfter failed L items).countP failed < L) : stopAfter failed L items = items := by
  induction items generalizing L with
  | nil => cases L <;> rfl
  | cons a items ih =>
    cases L with
    | zero => simp at few
    | succ L =>
      simp only [stopAfter, List.countP_cons, List.cons.injEq, true_and] at few ⊢
      apply ih
      split at few <;> simp_all

/-- A source that has an item behind the available ones has all that were asked for. -/
lemma le_length_available {supply : Nat → Option α} {i k : Nat}
    (more : supply (i + (available supply i k).length) ≠ none) :
    k ≤ (available supply i k).length := by
  induction k generalizing i with
  | zero => exact Nat.zero_le _
  | succ k ih =>
    cases e : supply i with
    | none => simp [available, e] at more
    | some a =>
      simp only [available, e, List.length_cons, Nat.add_le_add_iff_right] at more ⊢
      exact ih (by rwa [Nat.add_right_comm, Nat.add_assoc])

/-- What a batch has executed when it returns, and why its source has ended. -/
structure Settled (run : α → TaskResult R E) (supply : Nat → Option α) (count : Nat)
    (limit : Option Nat) (log : List (ParallelBatchTask α)) (items : List α) (o : Observation) :
    Prop where
  first : items <+: available supply 0 count
  executed : log.Perm (indexed items)
  observed : o.Justified supply count limit (fails run) (indexed items) items.length

/-- At most so many items are available as are asked for. -/
lemma length_available_le (supply : Nat → Option α) (i k : Nat) :
    (available supply i k).length ≤ k := by
  induction k generalizing i with
  | zero => exact Nat.le_refl 0
  | succ k ih =>
    unfold available
    split
    · simpa using ih (i + 1)
    · exact Nat.zero_le _

/-- A sequential run is settled. -/
lemma Settled.in_order (run : α → TaskResult R E) (supply : Nat → Option α) (count : Nat)
    (limit : Option Nat) :
    Settled run supply count limit
      (indexed (inOrder (fails run) limit (available supply 0 count)))
      (inOrder (fails run) limit (available supply 0 count))
      (inOrderObservation supply (fails run) limit
        (inOrder (fails run) limit (available supply 0 count))) where
  first := inOrder_prefix _ _
  executed := .rfl
  observed := by
    unfold inOrderObservation
    split
    next stopped =>
      obtain ⟨L, mem, le⟩ := stopped
      exact ⟨L, mem, by rwa [countP_indexed]⟩
    next on =>
      split
      next none => exact none
      next more =>
        refine ⟨?_, more⟩
        have all : inOrder (fails run) limit (available supply 0 count)
            = available supply 0 count := by
          cases limit with
          | none => rfl
          | some L => exact stopAfter_eq_of_countP_lt (Nat.not_le.mp fun le => on ⟨L, rfl, le⟩)
        rw [all] at more ⊢
        exact le_length_available (by rwa [Nat.zero_add])

/-- A parallel run that returns is settled. -/
lemma Ended.settled {lazy : LazySource σ α} {supply : Nat → Option α} {limit} {b : Batch σ α}
    (h : Ended lazy supply count limit (fails run) b) :
    ∃ items, Settled run supply count limit b.executed items (lazy.observed b.source) ∧
      b.recorded.Perm (indexed items) := by
  have observed := h.observed
  have length := congrArg List.length h.yielded
  rw [length_indexed] at length
  refine ⟨(available supply 0 count).take b.yielded.length, ⟨List.take_prefix _ _, ?_, ?_⟩, ?_⟩
  · exact h.yielded ▸ h.executed
  · rw [← length]
    revert observed
    cases lazy.observed b.source with
    | stopped =>
      rintro ⟨L, mem, le⟩
      exact ⟨L, mem, by rwa [← h.yielded, ← h.recorded.countP_eq]⟩
    | _ => exact id
  · exact h.yielded ▸ h.recorded

/-- The verdict on an outcome carries it. -/
@[simp] lemma outcome_verdict {S : Type*} (o : Observation) (outcome : BatchOutcome E) :
    (verdict count o outcome : ExecuteResult E S).outcome = outcome := by
  unfold verdict
  split
  · split <;> rfl
  · rfl
  · rfl

/-- The verdict on a settled batch is sound. -/
lemma Settled.sound {S : Type*} {supply : Nat → Option α} {limit log items o}
    (h : Settled run supply count limit log items o) :
    (verdict count o (outcome count ((indexed items).map (record run))) : ExecuteResult E S).Sound
      supply (fails run) limit count items := by
  have le : items.length ≤ count := h.first.length_le.trans (length_available_le _ _ _)
  have observed := h.observed
  cases o with
  | exhausted =>
    have none : supply items.length = none := observed
    simp only [verdict, (reports_outcome count items).completed_count]
    split
    next lt => exact ⟨rfl, rfl, lt, none⟩
    next ge =>
      have eq : items.length = count := by omega
      exact .inl ⟨eq, eq ▸ none⟩
  | exceeded =>
    obtain ⟨ge, some⟩ := observed
    have eq : items.length = count := le.antisymm ge
    exact ⟨rfl, rfl, eq, eq ▸ some⟩
  | stopped =>
    obtain ⟨L, mem, stop⟩ := observed
    exact .inr ⟨L, mem, by rwa [countP_indexed] at stop⟩

/-- What `execute_with_count` returns is the verdict on a settled batch. -/
lemma Executes.settled (doc : qb.Documented supply run)
    (threads : 0 < current_num_threads self.pool) {log r}
    (h : Executes qb ending current_num_threads self worker active tasks count log (.returned r)) :
    ∃ items o, Settled run (supply tasks) count (self.task_failure_policy.limit.map Subtype.val)
        log items o ∧
      r = verdict count o (outcome count ((indexed items).map (record run))) := by
  cases path : (self.execute_with_count_dispatch worker count active).1 with
  | sequential =>
    obtain ⟨rfl, ⟨⟩⟩ := h.sequential doc path
    exact ⟨_, _, .in_order run (supply tasks) count _, rfl⟩
  | parallel =>
    have pos := self.worker_count_pos .execute_with_count threads path
    generalize returned : CallEnd.returned r = e at h
    cases h with
    | fallback sequential => simp [path] at sequential
    | abandoned _ run => exact absurd run (doc.abandon _ _ _)
    | scope_unwound => cases returned
    | scope_returned _ rs value finish =>
      obtain ⟨ended, rfl⟩ := Ended.of_value (doc.lazy _ _ _) pos rs value
      obtain ⟨items, settled, recorded⟩ := ended.settled
      rw [doc.finish _ _ _ _ _ _ ended.position, ← returned] at finish
      cases finish
      refine ⟨items, _, settled, ?_⟩
      rw [outcome_eq_of_perm (nodup_index_record recorded) (recorded.map _)]

/-- So is what `call_with_count` returns, with the outputs of the batch. -/
lemma Calls.settled (doc : qb.Documented supply run)
    (rethrows : ∀ {log r}, ¬ qb.call_with_executor log .unwound (.returned r))
    (threads : 0 < current_num_threads self.pool) {log r}
    (h : Calls qb ending current_num_threads self worker active tasks count log (.returned r)) :
    ∃ items o, Settled run (supply tasks) count (self.task_failure_policy.limit.map Subtype.val)
        log items o ∧
      r = withOutputs (outputs ((indexed items).map (record run)))
        (verdict count o (outcome count ((indexed items).map (record run)))) := by
  generalize returned : CallEnd.returned r = e at h
  cases h with
  | fallback _ _ ran =>
    obtain ⟨rfl, rfl⟩ := (doc.call_sequentially _ _ _ _ _).mp ran
    cases returned
    refine ⟨_, _, .in_order run (supply tasks) count _, ?_⟩
    rw [mapError_withOutputs, sequentialResult, mapError_verdict]
    rfl
  | @delegated _ _ _ e _ _ _ ran collect =>
    subst returned
    cases e with
    | unwound => exact absurd collect rethrows
    | returned r₀ =>
      obtain ⟨items, o, settled, rfl⟩ := ran.settled doc threads
      cases (doc.call_with_executor _ _ _).mp collect
      refine ⟨items, o, settled, ?_⟩
      rw [outputs_eq_of_perm (nodup_index_record settled.executed) (settled.executed.map _)]

/-- Under every policy and however tasks end, what either entry point returns tells the truth: the
executed tasks are the first items of the source, each once; the outcome and the outputs report
exactly these; and the kind of the result tells how many items the source has. -/
theorem results_sound (doc : qb.Documented supply run)
    (rethrows : ∀ {log r}, ¬ qb.call_with_executor log .unwound (.returned r))
    (current_num_threads : π → Nat) (self : RayonBatchExecutor π)
    (threads : 0 < current_num_threads self.pool) (ending : ParallelBatchTask α → Ending)
    (worker : Bool) (active : List π) (tasks : ι) (count : Nat) :
    (∀ log r,
      Executes qb ending current_num_threads self worker active tasks count log (.returned r) →
      ∃ items, items <+: available (supply tasks) 0 count ∧ log.Perm (indexed items) ∧
        Reports run count items r.outcome ∧
        r.Sound (supply tasks) (fails run) (self.task_failure_policy.limit.map Subtype.val) count
          items) ∧
    ∀ log r,
      Calls qb ending current_num_threads self worker active tasks count log (.returned r) →
      ∃ items, items <+: available (supply tasks) 0 count ∧ log.Perm (indexed items) ∧
        Reports run count items r.batch.outcome ∧ Retains run items r.outputs ∧
        r.outputs.length = r.batch.outcome.succeeded_count ∧
        r.batch.Sound (supply tasks) (fails run) (self.task_failure_policy.limit.map Subtype.val)
          count items := by
  refine ⟨fun log r h => ?_, fun log r h => ?_⟩
  · obtain ⟨items, o, settled, rfl⟩ := h.settled doc threads
    refine ⟨items, settled.first, settled.executed, ?_, settled.sound⟩
    rw [outcome_verdict]
    exact reports_outcome count items
  · obtain ⟨items, o, settled, rfl⟩ := h.settled doc rethrows threads
    rw [batch_withOutputs, outputs_withOutputs, outcome_verdict]
    exact ⟨items, settled.first, settled.executed, reports_outcome count items,
      retains_outputs items, length_outputs _, settled.sound⟩

/-- A test that a number is not 20. -/
def checkTwenty (n : Nat) : TaskResult Nat Nat :=
  if n = 20 then .error (.Failed n) else .ok n

/-- An executor of two workers that stops on the first failure. -/
def stopping (sequential_threshold : Nat) : RayonBatchExecutor Unit :=
  ⟨(), 2, sequential_threshold, ⟨0, 0⟩, .StopOnFirstFailure, Nat.two_pos⟩

/-- Two tasks are declared of a source of three, and the second fails: the result is `Ok` though all
declared tasks are completed and there is another one. -/
theorem results_sound_unvalidated :
    ∃ (r : CallResult Nat Nat RayonBatchScheduleError) (items : List Nat),
      Calls (QubitBatch.ofLists checkTwenty) (fun _ => .returns) (fun _ : Unit => 2) (stopping 100)
        false [] [10, 20, 30] 2 [⟨0, 10⟩, ⟨1, 20⟩] (.returned r) ∧
      r = .ok ⟨⟨2, 2, 1, 1, 0, [⟨1, .Failed 20⟩]⟩, [⟨0, 10⟩]⟩ ∧
      Reports checkTwenty 2 items r.batch.outcome ∧
      r.batch.Sound ([10, 20, 30][·]?) (fails checkTwenty) (some 1) 2 items := by
  have ran : Calls (QubitBatch.ofLists checkTwenty) (fun _ => .returns) (fun _ : Unit => 2)
      (stopping 100) false [] [10, 20, 30] 2 [⟨0, 10⟩, ⟨1, 20⟩]
      (.returned (.ok ⟨⟨2, 2, 1, 1, 0, [⟨1, .Failed 20⟩]⟩, [⟨0, 10⟩]⟩)) :=
    .fallback (e := .returned (.ok ⟨⟨2, 2, 1, 1, 0, [⟨1, .Failed 20⟩]⟩, [⟨0, 10⟩]⟩)) rfl rfl
      ⟨rfl, rfl⟩
  obtain ⟨items, -, -, reports, -, -, sound⟩ :=
    (results_sound (QubitBatch.ofLists_documented checkTwenty) (fun h => by cases h)
      (fun _ : Unit => 2) (stopping 100) (by decide) (fun _ => .returns) false [] [10, 20, 30] 2).2
      _ _ ran
  exact ⟨_, items, ran, rfl, reports, sound⟩

/-- The failures and the outputs of fewer items are the first of those of more items. -/
lemma failures_prefix {items items' : List α} (h : items <+: items') :
    failures ((indexed items).map (record run)) <+:
      failures ((indexed items').map (record run)) := by
  rw [failures_of_sorted (records_sorted items), failures_of_sorted (records_sorted items')]
  exact ((prefix_indexed h).map _).filterMap _

/-- The outputs of fewer items are the first of those of more items. -/
lemma outputs_prefix {items items' : List α} (h : items <+: items') :
    outputs ((indexed items).map (record run)) <+: outputs ((indexed items').map (record run)) := by
  rw [outputs_of_sorted (records_sorted items), outputs_of_sorted (records_sorted items')]
  exact ((prefix_indexed h).map _).filterMap _

/-- The source has the available items at their positions. -/
lemma supply_eq_some {supply : Nat → Option α} {i j k : Nat} {a : α}
    (item : (available supply i k)[j]? = some a) : supply (i + j) = some a := by
  induction k generalizing i j with
  | zero => simp [available] at item
  | succ k ih =>
    cases e : supply i with
    | none => simp [available, e] at item
    | some b =>
      simp only [available, e] at item
      cases j with
      | zero => simpa [e] using item
      | succ j =>
        rw [List.getElem?_cons_succ] at item
        have := ih item
        rwa [Nat.add_right_comm, Nat.add_assoc] at this

/-- At the position of an available item the source has not ended. -/
lemma supply_ne_none {supply : Nat → Option α} {i j k : Nat}
    (lt : j < (available supply i k).length) : supply (i + j) ≠ none := by
  rw [supply_eq_some (List.getElem?_eq_getElem lt)]
  simp

/-- No batch that returns has executed less than the sequential executor would. -/
lemma Settled.covers {supply : Nat → Option α} {limit log items o}
    (h : Settled run supply count limit log items o) :
    inOrder (fails run) limit (available supply 0 count) <+: items := by
  have head : inOrder (fails run) limit (available supply 0 count) <+: available supply 0 count :=
    inOrder_prefix limit _
  refine List.prefix_of_prefix_length_le head h.first ?_
  have observed := h.observed
  cases o with
  | exhausted =>
    have none : supply items.length = none := observed
    refine head.length_le.trans (Nat.not_lt.mp fun lt => ?_)
    exact supply_ne_none lt (by rwa [Nat.zero_add])
  | exceeded => exact head.length_le.trans ((length_available_le _ _ _).trans observed.1)
  | stopped =>
    obtain ⟨L, rfl, le⟩ := observed
    rw [countP_indexed] at le
    refine stopAfter_length_le ?_
    rwa [← List.prefix_iff_eq_take.mp h.first]

/-- A batch that the sequential executor would not stop ends as it does there. -/
lemma Settled.eq_in_order {supply : Nat → Option α} {limit log items o}
    (h : Settled run supply count limit log items o)
    (few : ¬ ∃ L ∈ limit,
      L ≤ (inOrder (fails run) limit (available supply 0 count)).countP (fails run)) :
    items = inOrder (fails run) limit (available supply 0 count) ∧
      o = inOrderObservation supply (fails run) limit items := by
  have all : inOrder (fails run) limit (available supply 0 count) = available supply 0 count := by
    cases limit with
    | none => rfl
    | some L => exact stopAfter_eq_of_countP_lt (Nat.not_le.mp fun le => few ⟨L, rfl, le⟩)
  have covers := h.covers
  rw [all] at covers few ⊢
  have same : items = available supply 0 count :=
    h.first.eq_of_length_le covers.length_le
  subst same
  refine ⟨rfl, ?_⟩
  rw [inOrderObservation, if_neg few]
  refine h.observed.eq_of_ne_stopped ?_
  rintro rfl
  obtain ⟨L, mem, le⟩ := h.observed
  exact few ⟨L, mem, by rwa [countP_indexed] at le⟩

/-- The result `r` of a batch goes on where the result `r'` of the sequential executor ends. -/
structure Extends {S : Type*} (r' : ExecuteResult E Empty) (r : ExecuteResult E S) : Prop where
  completed_count : r'.outcome.completed_count ≤ r.outcome.completed_count
  failures : r'.outcome.failures <+: r.outcome.failures
  /-- The errors of the sequential executor are the errors of the batch. -/
  error : ∀ e, r' = .error e → r = .error (e.map_scheduler_error never)

/-- The verdict on a settled log extends the sequential result. -/
lemma Settled.extends {S : Type*} {supply : Nat → Option α} {policy log items o}
    (h : Settled run supply count (policy.limit.map Subtype.val) log items o) :
    Extends (sequentialResult supply run policy count)
      (verdict count o (outcome count ((indexed items).map (record run))) :
        ExecuteResult E S) where
  completed_count := by
    rw [sequentialResult, outcome_verdict, outcome_verdict,
      (reports_outcome count items).completed_count, (reports_outcome count _).completed_count]
    exact h.covers.length_le
  failures := by
    rw [sequentialResult, outcome_verdict, outcome_verdict]
    exact failures_prefix h.covers
  error := by
    intro e failed
    have few : ¬ ∃ L ∈ policy.limit.map Subtype.val,
        L ≤ (sequentialTasks supply (fails run) policy count).countP (fails run) := by
      intro stopped
      rw [sequentialResult, inOrderObservation, if_pos stopped] at failed
      cases failed
    obtain ⟨same, rfl⟩ := h.eq_in_order few
    have result : (verdict count (inOrderObservation supply (fails run) (policy.limit.map
        Subtype.val) items) (outcome count ((indexed items).map (record run))) :
        ExecuteResult E S) = (sequentialResult supply run policy count).mapError
          (·.map_scheduler_error never) := by
      rw [sequentialResult, mapError_verdict, sequentialTasks, ← same]
    rw [result, failed]
    rfl

/-- Under every policy a batch goes on where the sequential executor ends: its failures and outputs
begin with those of the sequential run on the same source, and it returns the errors that the
sequential run returns. -/
theorem fallback_prefix_results (doc : qb.Documented supply run)
    (rethrows : ∀ {log r}, ¬ qb.call_with_executor log .unwound (.returned r))
    (current_num_threads : π → Nat) (self : RayonBatchExecutor π)
    (threads : 0 < current_num_threads self.pool) (ending : ParallelBatchTask α → Ending)
    (worker : Bool) (active : List π) (tasks : ι) (count : Nat) :
    (∀ log r seq r',
      Executes qb ending current_num_threads self worker active tasks count log (.returned r) →
      qb.execute_sequentially self.sequential_executor tasks count seq (.returned r') →
      Extends r' r) ∧
    ∀ log r seq r',
      Calls qb ending current_num_threads self worker active tasks count log (.returned r) →
      qb.call_sequentially self.sequential_executor tasks count seq (.returned r') →
      Extends r'.batch r.batch ∧ r'.outputs <+: r.outputs := by
  refine ⟨fun log r seq r' h hs => ?_, fun log r seq r' h hs => ?_⟩
  · obtain ⟨-, ⟨⟩⟩ := (doc.execute_sequentially _ _ _ _ _).mp hs
    obtain ⟨items, o, settled, rfl⟩ := h.settled doc threads
    exact settled.extends
  · obtain ⟨rfl, ⟨⟩⟩ := (doc.call_sequentially _ _ _ _ _).mp hs
    obtain ⟨items, o, settled, rfl⟩ := h.settled doc rethrows threads
    simp only [batch_withOutputs, outputs_withOutputs]
    exact ⟨settled.extends, outputs_prefix settled.covers⟩

/-- On the pool, too, the failure of the second task is reported first. -/
theorem fallback_prefix_results_stopping :
    ∃ log r, Executes (QubitBatch.ofLists checkTwenty) (fun _ => .returns) (fun _ : Unit => 2)
        (stopping 0) false [] [10, 20, 30, 20] 4 log (.returned r) ∧
      [⟨1, .Failed 20⟩] <+: r.outcome.failures := by
  obtain ⟨log, e, ran⟩ : ∃ log e, Executes (QubitBatch.ofLists checkTwenty) (fun _ => .returns)
      (fun _ : Unit => 2) (stopping 0) false [] [10, 20, 30, 20] 4 log e :=
    Executes.total _ _ (QubitBatch.ofLists_documented checkTwenty) (fun _ => rfl) (by decide)
  obtain ⟨b, -, -, rfl⟩ := ran.parallel (QubitBatch.ofLists_documented checkTwenty) (fun _ => rfl)
    (by decide) (by decide)
  have extends' := (fallback_prefix_results (QubitBatch.ofLists_documented checkTwenty)
    (fun h => by cases h) (fun _ : Unit => 2) (stopping 0) (by decide) (fun _ => .returns) false []
    [10, 20, 30, 20] 4).1 log _ [⟨0, 10⟩, ⟨1, 20⟩] (.ok ⟨4, 2, 1, 1, 0, [⟨1, .Failed 20⟩]⟩) ran
    ⟨rfl, rfl⟩
  exact ⟨log, _, ran, extends'.failures⟩

end RayonBatch
