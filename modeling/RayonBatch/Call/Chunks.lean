import RayonBatch.Call.Results

/-!
# Chunks of a large input

To bound the memory of a large input the user guide calls the executor for one chunk after the other
and adds the start of a chunk to the indices of its results. `BatchCallResult.join` does so. The
joined results are those of one call on the whole input, whichever executor, path and schedule each
chunk gets (`chunks_agree`).
-/

namespace RayonBatch
open Relation

section Join

variable {α R E : Type*}

/-- A completed task at its position in the whole input. -/
def Record.shift (start : Nat) (self : Record R E) : Record R E :=
  ⟨start + self.index, self.result⟩

/-- A failure at its position in the whole input. -/
def BatchTaskFailure.shift (start : Nat) (self : BatchTaskFailure E) : BatchTaskFailure E :=
  ⟨start + self.index, self.error⟩

/-- An output at its position in the whole input. -/
def BatchTaskOutput.shift (start : Nat) (self : BatchTaskOutput R) : BatchTaskOutput R :=
  ⟨start + self.index, self.value⟩

/-- The results of two chunks, of which the second starts where the first ends. -/
def BatchCallResult.join (self next : BatchCallResult R E) : BatchCallResult R E where
  outcome := {
    task_count := self.outcome.task_count + next.outcome.task_count
    completed_count := self.outcome.completed_count + next.outcome.completed_count
    succeeded_count := self.outcome.succeeded_count + next.outcome.succeeded_count
    failed_count := self.outcome.failed_count + next.outcome.failed_count
    panicked_count := self.outcome.panicked_count + next.outcome.panicked_count
    failures := self.outcome.failures
      ++ next.outcome.failures.map (BatchTaskFailure.shift self.outcome.task_count) }
  outputs := self.outputs ++ next.outputs.map (BatchTaskOutput.shift self.outcome.task_count)

/-- The result before the first chunk. -/
def BatchCallResult.empty : BatchCallResult R E :=
  ⟨⟨0, 0, 0, 0, 0, []⟩, []⟩

/-- The result of running all items in order. -/
def in_order_call (run : α → TaskResult R E) (items : List α) : BatchCallResult R E :=
  ⟨outcome items.length ((indexed items).map (record run)),
    outputs ((indexed items).map (record run))⟩

/-- A shifted record has the shifted failure. -/
@[simp] lemma Record.failure?_shift (start : Nat) (record : Record R E) :
    (record.shift start).failure? = record.failure?.map (BatchTaskFailure.shift start) := by
  obtain ⟨index, result⟩ := record
  cases result <;> rfl

/-- A shifted record has the shifted output. -/
@[simp] lemma Record.output?_shift (start : Nat) (record : Record R E) :
    (record.shift start).output? = record.output?.map (BatchTaskOutput.shift start) := by
  obtain ⟨index, result⟩ := record
  cases result <;> rfl

/-- Behind other items, items have the positions that they have alone, shifted. -/
lemma indexed_append (items items' : List α) :
    indexed (items ++ items')
      = indexed items ++ (indexed items').map fun t => ⟨items.length + t.index, t.task⟩ := by
  rw [indexed, indexed, indexed, List.zipIdx_append, List.map_append]
  congr 1
  rw [Nat.zero_add, List.zipIdx_eq_map_add, List.map_map, List.map_map]
  exact List.map_congr_left fun _ _ => by simp [Nat.add_comm]

variable {run : α → TaskResult R E}

/-- Behind other items, items have the records that they have alone, shifted. -/
lemma records_append (items items' : List α) :
    (indexed (items ++ items')).map (record run) = (indexed items).map (record run)
      ++ ((indexed items').map (record run)).map (Record.shift items.length) := by
  rw [indexed_append, List.map_append, List.map_map, List.map_map]
  rfl

/-- What is read off the records of two chunks is what is read off each, shifted. -/
lemma filterMap_records_append {β : Type*} {read : Record R E → Option β} {shift : Nat → β → β}
    (h : ∀ start record, read (record.shift start) = (read record).map (shift start))
    (items items' : List α) :
    ((indexed (items ++ items')).map (record run)).filterMap read
      = ((indexed items).map (record run)).filterMap read ++
        (((indexed items').map (record run)).filterMap read).map (shift items.length) := by
  rw [records_append, List.filterMap_append, List.map_filterMap]
  congr 1
  exact List.filterMap_map.trans (List.filterMap_congr fun record _ => h _ record)

/-- The failures of two chunks are those of each, shifted. -/
lemma failures_append (items items' : List α) :
    failures ((indexed (items ++ items')).map (record run))
      = failures ((indexed items).map (record run)) ++
        (failures ((indexed items').map (record run))).map
          (BatchTaskFailure.shift items.length) := by
  rw [failures_of_sorted (records_sorted _), failures_of_sorted (records_sorted items),
    failures_of_sorted (records_sorted items'), filterMap_records_append Record.failure?_shift]

/-- The outputs of two chunks are those of each, shifted. -/
lemma outputs_append (items items' : List α) :
    outputs ((indexed (items ++ items')).map (record run))
      = outputs ((indexed items).map (record run)) ++
        (outputs ((indexed items').map (record run))).map
          (BatchTaskOutput.shift items.length) := by
  rw [outputs_of_sorted (records_sorted _), outputs_of_sorted (records_sorted items),
    outputs_of_sorted (records_sorted items'), filterMap_records_append Record.output?_shift]

/-- What counts records whatever their positions, counts the records of two chunks apart. -/
lemma countP_records_append (p : Record R E → Bool) (items items' : List α)
    (positionless : ∀ start record, p (record.shift start) = p record) :
    ((indexed (items ++ items')).map (record run)).countP p
      = ((indexed items).map (record run)).countP p
        + ((indexed items').map (record run)).countP p := by
  rw [records_append, List.countP_append]
  congr 1
  exact List.countP_map.trans (List.countP_congr fun record _ => by
    rw [Function.comp_apply, positionless])

/-- Joining the results of two chunks gives the result of both in order. -/
lemma join_in_order (items items' : List α) :
    (in_order_call run items).join (in_order_call run items')
      = in_order_call run (items ++ items') := by
  simp only [in_order_call, BatchCallResult.join, outcome, failures_append, outputs_append,
    List.length_append, List.length_map, length_indexed,
    countP_records_append Record.succeeded items items' fun _ _ => rfl,
    countP_records_append Record.failed items items' fun _ _ => rfl,
    countP_records_append Record.panicked items items' fun _ _ => rfl]

/-- Joining the results of all chunks gives the result of the whole input in order. -/
lemma foldl_join_in_order (items : List α) (chunks : List (List α)) :
    (chunks.map (in_order_call run)).foldl BatchCallResult.join (in_order_call run items)
      = in_order_call run (items ++ chunks.flatten) := by
  induction chunks generalizing items with
  | nil => simp
  | cons chunk chunks ih =>
    rw [List.map_cons, List.foldl_cons, join_in_order, ih, List.flatten_cons, List.append_assoc]

end Join

variable {π ι σ α R E : Type*} [DecidableEq π] {qb : QubitBatch ι σ α R E}
  {supply : ι → Nat → Option α} {run : α → TaskResult R E}
  {ending : ParallelBatchTask α → Ending} {current_num_threads : π → Nat}

/-- A call over exactly the items of a chunk, on any executor that continues after failures. -/
def CallsOn (qb : QubitBatch ι σ α R E) (supply : ι → Nat → Option α)
    (ending : ParallelBatchTask α → Ending) (current_num_threads : π → Nat) (chunk : List α)
    (r : CallResult R E RayonBatchScheduleError) : Prop :=
  ∃ (self : RayonBatchExecutor π) (worker : Bool) (active : List π) (tasks : ι)
    (log : List (ParallelBatchTask α)), self.task_failure_policy = .Continue ∧
    0 < current_num_threads self.pool ∧ supply tasks = (chunk[·]?) ∧
    Calls qb ending current_num_threads self worker active tasks chunk.length log (.returned r)

/-- What a call on a chunk returns is the result of the chunk in order. -/
lemma CallsOn.in_order (doc : qb.Documented supply run)
    (rethrows : ∀ {log r}, ¬ qb.call_with_executor log .unwound (.returned r)) {chunk : List α} {r}
    (h : CallsOn qb supply ending current_num_threads chunk r) :
    r = .ok (in_order_call run chunk) := by
  obtain ⟨self, worker, active, tasks, log, policy, threads, source, ran⟩ := h
  obtain ⟨items, o, settled, rfl⟩ := ran.settled doc rethrows threads
  rw [source, policy] at settled
  have chunk' : available (chunk[·]?) 0 chunk.length = chunk := by
    rw [available_getElem?, List.drop_zero, List.take_length]
  obtain ⟨same, rfl⟩ := settled.eq_in_order (by simp [TaskFailurePolicy.limit])
  have all : items = chunk := by simpa [inOrder, TaskFailurePolicy.limit, chunk'] using same
  subst all
  have ended : inOrderObservation (items[·]?) (fails run)
      (TaskFailurePolicy.Continue.limit.map Subtype.val) items = .exhausted := by
    simp [inOrderObservation, TaskFailurePolicy.limit]
  rw [ended, verdict, if_neg (by simp [outcome])]
  rfl

/-- Where all tasks return, a call over the items of a chunk has a result, and no other one. -/
lemma Calls.returns_in_order (doc : qb.Documented supply run)
    (rethrows : ∀ {log r}, ¬ qb.call_with_executor log .unwound (.returned r))
    (goes : ∀ t, ending t = .returns) {self : RayonBatchExecutor π} {worker : Bool}
    {active : List π} {tasks : ι} {chunk : List α} (policy : self.task_failure_policy = .Continue)
    (threads : 0 < current_num_threads self.pool) (source : supply tasks = (chunk[·]?)) :
    (∃ log e, Calls qb ending current_num_threads self worker active tasks chunk.length log e) ∧
    ∀ log e, Calls qb ending current_num_threads self worker active tasks chunk.length log e →
      e = .returned (.ok (in_order_call run chunk)) := by
  refine ⟨Calls.total doc goes threads, fun log e ran => ?_⟩
  have few : Tolerated (fails run) (self.task_failure_policy.limit.map Subtype.val)
      (available (supply tasks) 0 chunk.length) := by
    rw [policy]
    rintro L ⟨⟩
  obtain ⟨-, rfl⟩ := ran.agrees doc goes threads few
  exact congrArg CallEnd.returned
    (CallsOn.in_order doc rethrows ⟨self, worker, active, tasks, log, policy, threads, source, ran⟩)

/-- Chunk by chunk, the joined results of calls on the chunks of an input, on whichever executors
and paths, are the result of running the whole input in order, which is what one call on the whole
input returns. Where all tasks return, every such call has a result. -/
theorem chunks_agree (doc : qb.Documented supply run)
    (rethrows : ∀ {log r}, ¬ qb.call_with_executor log .unwound (.returned r))
    (current_num_threads : π → Nat) (ending : ParallelBatchTask α → Ending)
    (chunks : List (List α)) (results : List (CallResult R E RayonBatchScheduleError))
    (ran : List.Forall₂ (CallsOn qb supply ending current_num_threads) chunks results) :
    (∃ parts : List (BatchCallResult R E), results = parts.map .ok ∧
      parts.foldl BatchCallResult.join .empty = in_order_call run chunks.flatten ∧
      ∀ r, CallsOn qb supply ending current_num_threads chunks.flatten r →
        r = .ok (parts.foldl BatchCallResult.join .empty)) ∧
    ((∀ t, ending t = .returns) → ∀ (self : RayonBatchExecutor π) (worker : Bool) (active : List π)
      (tasks : ι) (chunk : List α), self.task_failure_policy = .Continue →
      0 < current_num_threads self.pool → supply tasks = (chunk[·]?) →
      (∃ log e, Calls qb ending current_num_threads self worker active tasks chunk.length log e) ∧
      ∀ log e, Calls qb ending current_num_threads self worker active tasks chunk.length log e →
        e = .returned (.ok (in_order_call run chunk))) := by
  have joined : (chunks.map (in_order_call run)).foldl BatchCallResult.join .empty
      = in_order_call run chunks.flatten := foldl_join_in_order [] chunks
  refine ⟨⟨chunks.map (in_order_call run), ?_, joined, fun r h => ?_⟩, fun goes self worker active
    tasks chunk policy threads source => Calls.returns_in_order doc rethrows goes policy threads
    source⟩
  · clear joined
    induction ran with
    | nil => rfl
    | cons h _ ih => rw [ih, h.in_order doc rethrows, List.map_cons, List.map_cons]
  · rw [h.in_order doc rethrows]
    exact congrArg Except.ok joined.symm

/-- An executor of two workers that continues after failures. -/
def lenient (sequential_threshold : Nat) : RayonBatchExecutor Unit :=
  ⟨(), 2, sequential_threshold, ⟨0, 0⟩, .Continue, Nat.two_pos⟩

/-- A chunk that runs on the calling thread and a chunk that runs on the pool are joined. -/
theorem chunks_agree_lenient :
    ∃ (results : List (CallResult Nat Nat RayonBatchScheduleError))
      (parts : List (BatchCallResult Nat Nat)),
      List.Forall₂ (CallsOn (QubitBatch.ofLists checkTwenty) (fun items => (items[·]?))
        (fun _ => .returns) fun _ : Unit => 2) [[10, 20], [30]] results ∧
      results = parts.map .ok ∧ parts.foldl BatchCallResult.join .empty
        = ⟨⟨3, 3, 2, 1, 0, [⟨1, .Failed 20⟩]⟩, [⟨0, 10⟩, ⟨2, 30⟩]⟩ := by
  have doc := QubitBatch.ofLists_documented checkTwenty
  obtain ⟨log, e, ran⟩ : ∃ log e, Calls (QubitBatch.ofLists checkTwenty) (fun _ => .returns)
      (fun _ : Unit => 2) (lenient 0) false [] [30] 1 log e :=
    Calls.total doc (fun _ => rfl) (by decide)
  obtain ⟨-, rfl⟩ := ran.agrees doc (fun _ => rfl) (by decide)
    (by simp [Tolerated, lenient, TaskFailurePolicy.limit])
  have both : List.Forall₂ (CallsOn (QubitBatch.ofLists checkTwenty) (fun items => (items[·]?))
      (fun _ => .returns) fun _ : Unit => 2) [[10, 20], [30]] _ :=
    .cons ⟨lenient 100, false, [], [10, 20], _, rfl, by decide, rfl,
      .fallback (e := .returned _) rfl rfl ⟨rfl, rfl⟩⟩
      (.cons ⟨lenient 0, false, [], [30], log, rfl, by decide, rfl, ran⟩ .nil)
  obtain ⟨⟨parts, all, joined, -⟩, -⟩ := chunks_agree doc (fun h => by cases h) _ _ _ _ both
  exact ⟨_, parts, both, all, joined.trans rfl⟩

end RayonBatch
