import RayonBatch.Call.Agreement

/-!
# Stopping after failures

Under a policy that stops after `L` failures the parallel path stops late: tasks that are queued or
running when the `L`-th failure is recorded are still executed. `Ended.covers` says that the
executed tasks are the first `m` of the source and that `m` is never below the number `k` of tasks a
sequential run executes. With fewer than `L` failures both run everything (`stop_policy_covers`).
-/

namespace RayonBatch
open Relation

variable {π ι σ α R E : Type*} [DecidableEq π]

/-- The tasks `log` of a parallel run cover the tasks `seq` of a sequential run, without a hole. -/
structure Covers (run : α → TaskResult R E) (supply : Nat → Option α) (count L : Nat)
    (log seq : List (ParallelBatchTask α)) : Prop where
  /-- The parallel run has executed an initial segment. -/
  initial : (log.map ParallelBatchTask.index).Perm (List.range log.length)
  /-- So has the sequential run. -/
  sequential : seq.map ParallelBatchTask.index = List.range seq.length
  /-- The sequential segment is not longer. -/
  le : seq.length ≤ log.length
  /-- On the sequential segment the results are the same. -/
  same : ∀ r ∈ log.map (record run), r.index < seq.length → r ∈ seq.map (record run)
  /-- With fewer failures both have executed all there is, up to the count. -/
  all : (available supply 0 count).countP (fails run) < L →
    log.Perm seq ∧ log.length = (available supply 0 count).length

/-- An early task of a longer prefix is in a shorter one. -/
lemma mem_indexed_take {items : List α} {m k : Nat} {t : ParallelBatchTask α}
    (h : t ∈ indexed (items.take m)) (lt : t.index < k) : t ∈ indexed (items.take k) := by
  rw [mem_indexed, List.getElem?_take] at h ⊢
  split at h
  · rwa [if_pos lt]
  · cases h

/-- A parallel run covers the sequential run on the same source. -/
lemma Ended.covers {lazy : LazySource σ α} {supply : Nat → Option α} {run : α → TaskResult R E}
    {count L : Nat} {b : Batch σ α}
    (h : Ended lazy supply count (some L) (fails run) b) :
    Covers run supply count L b.executed
      (indexed (inOrder (fails run) (some L) (available supply 0 count))) := by
  have prefix' : inOrder (fails run) (some L) (available supply 0 count) <+:
    available supply 0 count := inOrder_prefix _ _
  have length := h.executed.length_eq
  have le : (inOrder (fails run) (some L) (available supply 0 count)).length
      ≤ b.yielded.length := by
    by_cases stopped : lazy.observed b.source = .stopped
    · -- the failures that stopped the source are among the executed tasks
      have why := h.observed
      rw [stopped] at why
      obtain ⟨_, ⟨⟩, le⟩ := why
      rw [h.recorded.countP_eq, h.yielded, countP_indexed] at le
      exact stopAfter_length_le le
    · rw [h.complete stopped]
      exact prefix'.length_le
  constructor
  case initial =>
    rw [length]
    refine (h.executed.map _).trans ?_
    rw [h.yielded, map_index_indexed, length_indexed]
  case sequential => rw [map_index_indexed, length_indexed]
  case le => rwa [length_indexed, length]
  case same =>
    intro r mem lt
    obtain ⟨t, ht, rfl⟩ := List.mem_map.mp mem
    have ht := h.executed.mem_iff.mp ht
    rw [h.yielded] at ht
    rw [length_indexed] at lt
    have early := mem_indexed_take ht lt
    rw [← List.prefix_iff_eq_take.mp prefix'] at early
    exact List.mem_map_of_mem early
  case all =>
    intro lt
    have few : Tolerated (fails run) (some L) (available supply 0 count) := by
      rintro _ ⟨⟩
      exact lt
    have all := h.all few
    rw [inOrder_of_tolerated few]
    exact ⟨all ▸ h.executed, by rw [length, all, length_indexed]⟩

variable {qb : QubitBatch ι σ α R E} {supply : ι → Nat → Option α} {run : α → TaskResult R E}
  {ending : ParallelBatchTask α → Ending}

/-- Under a stop policy every returning parallel run executes an initial segment of the source that
contains what the sequential fallback executes, with the same results there; with fewer failures
than the limit both execute everything and return the same. -/
theorem stop_policy_covers (doc : qb.Documented supply run) (goes : ∀ t, ending t = .returns)
    (current_num_threads : π → Nat) (self : RayonBatchExecutor π) (L : { n : Nat // 0 < n })
    (policy : self.task_failure_policy.limit = some L)
    (threads : 0 < current_num_threads self.pool) {worker : Bool} {active : List π} (entry : Entry)
    {count : Nat} (parallel : (self.dispatch entry worker count active).1 = .parallel)
    (tasks : ι) :
    (∀ log e seq e',
      Executes qb ending current_num_threads self worker active tasks count log e →
      qb.execute_sequentially self.sequential_executor tasks count seq e' →
      Covers run (supply tasks) count L log seq ∧
        ((available (supply tasks) 0 count).countP (fails run) < L →
          e = e'.map (Except.mapError (·.map_scheduler_error never)))) ∧
    (∀ log e seq e',
      Calls qb ending current_num_threads self worker active tasks count log e →
      qb.call_sequentially self.sequential_executor tasks count seq e' →
      Covers run (supply tasks) count L log seq ∧
        ((available (supply tasks) 0 count).countP (fails run) < L →
          e = e'.map (Except.mapError (·.map_scheduler_error never)))) := by
  have limit : self.task_failure_policy.limit.map Subtype.val = some L.val := by rw [policy]; rfl
  have covers : ∀ log e,
      Executes qb ending current_num_threads self worker active tasks count log e →
      Covers run (supply tasks) count L log
        (indexed (sequentialTasks (supply tasks) (fails run) self.task_failure_policy count)) := by
    intro log e h
    rw [self.dispatch_eq] at parallel
    obtain ⟨b, ended, rfl, -⟩ := h.parallel doc goes threads parallel
    rw [limit] at ended
    rw [sequentialTasks, limit]
    exact ended.covers
  have few : (available (supply tasks) 0 count).countP (fails run) < L →
      Tolerated (fails run) (self.task_failure_policy.limit.map Subtype.val)
        (available (supply tasks) 0 count) := by
    rw [limit]
    rintro lt _ ⟨⟩
    exact lt
  refine ⟨fun log e seq e' h hs => ?_, fun log e seq e' h hs => ?_⟩
  · obtain ⟨rfl, rfl⟩ := (doc.execute_sequentially _ _ _ _ _).mp hs
    refine ⟨covers log e h, fun lt => ?_⟩
    rw [(h.agrees doc goes threads (few lt)).2]
    exact congrArg CallEnd.returned mapError_verdict.symm
  · obtain ⟨rfl, rfl⟩ := (doc.call_sequentially _ _ _ _ _).mp hs
    have route : (self.dispatch .call_with_count worker count active).1 = .parallel := by
      rwa [self.dispatch_eq] at parallel ⊢
    obtain ⟨e₀, inner, collect⟩ := h.delegates route
    refine ⟨covers log e₀ inner, fun lt => ?_⟩
    rw [(h.agrees doc goes threads (few lt)).2]
    simp only [CallEnd.map, self.sequential_executor_task_failure_policy, mapError_withOutputs,
      sequentialResult, mapError_verdict, sequentialTasks, inOrder_of_tolerated (few lt)]

/-- Four items of which the second fails first: a sequential run stops behind it, and a parallel run
executes at least these two. -/
theorem stop_policy_covers_four :
    ∃ log e, Executes (QubitBatch.ofLists fun n : Nat =>
        if n = 20 then (.error (.Failed n) : TaskResult Nat Nat) else .ok n)
      (fun _ => .returns) (fun _ : Unit => 2) ⟨(), 2, 0, ⟨0, 0⟩, .StopOnFirstFailure, by decide⟩
      false [] [10, 20, 30, 40] 4 log e ∧
      Covers (fun n : Nat => if n = 20 then (.error (.Failed n) : TaskResult Nat Nat) else .ok n)
        ([10, 20, 30, 40][·]?) 4 1 log [⟨0, 10⟩, ⟨1, 20⟩] := by
  obtain ⟨log, e, ran⟩ := Executes.total (fun _ : Unit => 2)
    ⟨(), 2, 0, ⟨0, 0⟩, .StopOnFirstFailure, by decide⟩ (QubitBatch.ofLists_documented _)
    (fun _ => rfl) (by decide)
  exact ⟨log, e, ran, ((stop_policy_covers (QubitBatch.ofLists_documented _) (fun _ => rfl)
    (fun _ : Unit => 2) ⟨(), 2, 0, ⟨0, 0⟩, .StopOnFirstFailure, by decide⟩ ⟨1, Nat.one_pos⟩ rfl
    (by decide) .execute_with_count (by decide) _).1 log e _ _ ran ⟨rfl, rfl⟩).1⟩

end RayonBatch
