import RayonBatch.Batch.Calm
import RayonBatch.Call.Execute

/-!
# Parallel calls without unwinding

When neither the source nor a task unwinds, the scope of a parallel call returns `Ok(())`
(`Ended.value`), every admitted task has been executed and recorded once, in some order
(`Ended.executed`, `Ended.recorded`), and what the caller gets is the verdict on that log
(`Executes.parallel`). Such a call always ends (`Executes.total`).
-/

namespace RayonBatch
open Relation Runs

variable {π ι σ α R E : Type*} [DecidableEq π]

/-- The end of a parallel call over the source `supply`, in which nothing has unwound. -/
structure Ended (lazy : LazySource σ α) (supply : Nat → Option α) (count : Nat)
    (limit : Option Nat) (failed : α → Bool) (b : Batch σ α) : Prop where
  value : b.result = some (.value (.ok ()))
  executed : b.executed.Perm b.yielded
  recorded : b.recorded.Perm b.yielded
  position : lazy.position b.source = b.recorded.length
  yielded : b.yielded = indexed ((available supply 0 count).take b.yielded.length)
  observed : (lazy.observed b.source).Justified supply count limit failed b.recorded
    b.yielded.length
  complete : lazy.observed b.source ≠ .stopped →
    b.yielded.length = (available supply 0 count).length

/-- A scope that has ended without unwinding has drained its source. -/
lemma Ended.of_calm {lazy : LazySource σ α} {supply count limit failed}
    {ending : ParallelBatchTask α → Ending} {W : Nat} {b : Batch σ α}
    (doc : lazy.Documented supply count limit failed) (pos : 0 < W)
    (rs : ReflTransGen (Batch.Next lazy.next ending) (Batch.init W lazy.start) b)
    (ended : b.ended) (calm : b.unwound = []) : Ended lazy supply count limit failed b := by
  have h := Batch.Inv.run rs
  have admitted := Admitted.run doc rs
  have executed := h.executed_perm pos ended calm
  have recorded := (h.recorded_perm ended calm).trans executed
  obtain ⟨value, body⟩ := h.result_ok pos ended calm (Batch.calm_run (fun _ _ => doc.unwind) rs)
  constructor
  case value => exact value
  case executed => exact executed
  case recorded => exact recorded
  case position => rw [recorded.length_eq, admitted.position]
  case yielded =>
    rw [admitted.available_eq h.flow, List.take_left' (by simp)]
    exact Batch.yielded_eq_indexed h.flow
  case observed => exact admitted.ended _ body
  case complete =>
    intro ne
    rw [← admitted.yielded_of_not_stopped h.flow body ne, List.length_map]

/-- Where all tasks return, a scope that has ended has drained its source. -/
lemma Ended.of_run {lazy : LazySource σ α} {supply count limit failed}
    {ending : ParallelBatchTask α → Ending} {W : Nat} {b : Batch σ α}
    (doc : lazy.Documented supply count limit failed) (goes : ∀ t, ending t = .returns)
    (pos : 0 < W) (rs : ReflTransGen (Batch.Next lazy.next ending) (Batch.init W lazy.start) b)
    (ended : b.ended) : Ended lazy supply count limit failed b :=
  Ended.of_calm doc pos rs ended ((Batch.Inv.run rs).unwound_nil fun t => by simp [goes t])

/-- A source that was not stopped tells whether there was one more item. -/
lemma Observation.Justified.eq_of_ne_stopped {supply : Nat → Option α}
    {count limit failed log position o}
    (h : Observation.Justified supply count limit failed log position o) (ne : o ≠ .stopped) :
    o = if supply position = none then .exhausted else .exceeded := by
  cases o with
  | exhausted =>
    have none : supply position = none := h
    rw [if_pos none]
  | exceeded => rw [if_neg h.2]
  | stopped => exact absurd rfl ne

variable {qb : QubitBatch ι σ α R E} {supply : ι → Nat → Option α} {run : α → TaskResult R E}
  {ending : ParallelBatchTask α → Ending} {current_num_threads : π → Nat}
  {self : RayonBatchExecutor π} {worker : Bool} {active : List π} {tasks : ι} {count : Nat}

/-- On the parallel path a call returns the verdict on what it has recorded. -/
lemma Executes.parallel (doc : qb.Documented supply run) (goes : ∀ t, ending t = .returns)
    (threads : 0 < current_num_threads self.pool)
    (parallel : (self.execute_with_count_dispatch worker count active).1 = .parallel) {log e}
    (h : Executes qb ending current_num_threads self worker active tasks count log e) :
    ∃ b, Ended (qb.lazy tasks count self.task_failure_policy) (supply tasks) count
        (self.task_failure_policy.limit.map Subtype.val) (fails run) b ∧
      log = b.executed ∧
      e = .returned (verdict count
        ((qb.lazy tasks count self.task_failure_policy).observed b.source)
        (outcome count (b.recorded.map (record run)))) := by
  have pos := self.worker_count_pos .execute_with_count threads parallel
  have lazy := doc.lazy tasks count self.task_failure_policy
  cases h with
  | fallback sequential => simp [parallel] at sequential
  | abandoned _ run => exact absurd run (doc.abandon _ _ _)
  | scope_unwound _ rs result =>
    have ended := Ended.of_run lazy goes pos rs (by simp [Batch.ended, result])
    simp [ended.value] at result
  | @scope_returned b v _ _ rs result run =>
    have ended := Ended.of_run lazy goes pos rs (by simp [Batch.ended, result])
    have ok : v = .ok () := by simpa [ended.value] using result.symm
    subst ok
    exact ⟨b, ended, rfl, (doc.finish _ _ _ _ _ _ ended.position).mp run⟩

/-- Converting the error of a verdict that has no scheduling error. -/
lemma mapError_verdict {S S' : Type*} {f : S → S'} {count o} {outcome : BatchOutcome E} :
    (verdict count o outcome : ExecuteResult E S).mapError (·.map_scheduler_error f)
      = verdict count o outcome := by
  unfold verdict
  split
  · split <;> rfl
  · rfl
  · rfl

/-- On the fallback a call runs the items in order. -/
lemma Executes.sequential (doc : qb.Documented supply run)
    (sequential : (self.execute_with_count_dispatch worker count active).1 = .sequential) {log e}
    (h : Executes qb ending current_num_threads self worker active tasks count log e) :
    log = indexed (sequentialTasks (supply tasks) (fails run) self.task_failure_policy count) ∧
      e = .returned (sequentialResult (supply tasks) run self.task_failure_policy count) := by
  cases h with
  | fallback _ ran =>
    obtain ⟨rfl, rfl⟩ := (doc.execute_sequentially _ _ _ _ _).mp ran
    exact ⟨rfl, congrArg CallEnd.returned mapError_verdict⟩
  | abandoned parallel | scope_returned parallel | scope_unwound parallel =>
    simp [sequential] at parallel

/-- Where all tasks return `execute_with_count` has a result. -/
lemma Executes.total (current_num_threads : π → Nat) (self : RayonBatchExecutor π)
    (doc : qb.Documented supply run) (goes : ∀ t, ending t = .returns)
    (threads : 0 < current_num_threads self.pool) :
    ∃ log e, Executes qb ending current_num_threads self worker active tasks count log e := by
  have lazy := doc.lazy tasks count self.task_failure_policy
  cases path : (self.execute_with_count_dispatch worker count active).1 with
  | sequential =>
    exact ⟨_, _, .fallback path ((doc.execute_sequentially _ _ _ _ _).mpr ⟨rfl, rfl⟩)⟩
  | parallel =>
    have pos := self.worker_count_pos .execute_with_count threads path
    have fin := Batch.terminating
      (Batch.Inv.init ending (self.worker_count current_num_threads count)
        (qb.lazy tasks count self.task_failure_policy).start) lazy.finite
    obtain ⟨b, rs, stuck⟩ := fin.exists_stuck
    have ended : b.ended := fun open' => Batch.progress (Batch.Inv.run rs) lazy.responsive pos
      (fun t => by simp [goes t]) open' stuck
    have done := Ended.of_run lazy goes pos rs ended
    exact ⟨_, _, .scope_returned path rs done.value
      ((doc.finish _ _ _ _ _ _ done.position).mpr rfl)⟩

end RayonBatch
