import RayonBatch.Batch.Realised
import RayonBatch.Call.Agreement

/-!
# Capped pools

Rayon may give a pool fewer threads than were asked for, and `worker_count` follows the number of
threads it has. However few these are, a call ends in no way in which it could not end on a larger
pool: it executes the same tasks in the same order and returns the same (`capped_pool`).
-/

namespace RayonBatch
open Relation

section Scope

variable {σ α : Type*} {src : Source σ α} {ending : ParallelBatchTask α → Ending} {W W' : Nat}
  {s : σ} {b : Batch σ α} {r : ScopeResult}

/-- Where nothing unwinds, a scope returns `Ok(())`. -/
lemma Batch.result_of_run (pos : 0 < W) (source : ∀ log s, ¬ src log s .unwind)
    (goes : ∀ t, ending t ≠ .unwinds)
    (rs : ReflTransGen (Batch.Next src ending) (Batch.init W s) b) (ended : b.ended) :
    b.result = some (.value (.ok ())) := by
  have h := Batch.Inv.run rs
  exact (h.result_ok pos ended (h.unwound_nil goes) (Batch.calm_run source rs)).1

/-- A scope of more jobs can end as one of fewer. -/
lemma Batch.ends_mono (pos : 0 < W) (le : W ≤ W') (source : ∀ log s, ¬ src log s .unwind)
    (goes : ∀ t, ending t ≠ .unwinds)
    (rs : ReflTransGen (Batch.Next src ending) (Batch.init W s) b) (result : b.result = some r) :
    r = .value (.ok ()) ∧ ∃ b', ReflTransGen (Batch.Next src ending) (Batch.init W' s) b' ∧
      b'.result = some (.value (.ok ())) ∧ b'.source = b.source ∧ b'.recorded = b.recorded ∧
      b'.executed = b.executed := by
  have ok := Batch.result_of_run pos source goes rs (by simp [Batch.ended, result])
  obtain ⟨b', rs', same⟩ := Batch.reaches_mono pos le source goes rs
  have ended : b'.ended := by
    have flag : b'.result.isSome = b.result.isSome := congrArg Server.ended same
    rw [result] at flag
    exact Option.isSome_iff_ne_none.mp flag
  refine ⟨Option.some.inj (result.symm.trans ok), b', rs',
    Batch.result_of_run (pos.trans_le le) source goes rs' ended, ?_, ?_, ?_⟩
  · exact congrArg Server.source same
  · exact congrArg Server.log same
  · exact congrArg Server.done same

end Scope

variable {π ι σ α R E : Type*} [DecidableEq π] {qb : QubitBatch ι σ α R E}
  {ending : ParallelBatchTask α → Ending} {current_num_threads capped : π → Nat}
  {self : RayonBatchExecutor π} {worker : Bool} {active : List π} {tasks : ι} {count : Nat}

/-- What `execute_with_count` does on a capped pool it can do on the uncapped one. -/
lemma Executes.uncapped
    (calm : ∀ tasks count policy log s, ¬ (qb.lazy tasks count policy).next log s .unwind)
    (goes : ∀ t, ending t ≠ .unwinds) (threads : 0 < capped self.pool)
    (fewer : capped self.pool ≤ current_num_threads self.pool) {log e}
    (h : Executes qb ending capped self worker active tasks count log e) :
    Executes qb ending current_num_threads self worker active tasks count log e := by
  have le : self.worker_count capped count ≤ self.worker_count current_num_threads count :=
    min_le_min_right count fewer
  cases h with
  | fallback path run => exact .fallback path run
  | abandoned path run => exact .abandoned path run
  | @scope_returned b v _ path rs result finish =>
    have pos := self.worker_count_pos .execute_with_count threads path
    obtain ⟨ok, b', rs', result', source, recorded, executed⟩ :=
      Batch.ends_mono pos le (calm _ _ _) goes rs result
    cases ok
    rw [← source, ← recorded] at finish
    rw [← executed]
    exact .scope_returned path rs' result' finish
  | scope_unwound path rs result =>
    have pos := self.worker_count_pos .execute_with_count threads path
    obtain ⟨⟨⟩, -⟩ := Batch.ends_mono pos le (calm _ _ _) goes rs result

/-- What `call_with_count` does on a capped pool it can do on the uncapped one. -/
lemma Calls.uncapped
    (calm : ∀ tasks count policy log s, ¬ (qb.lazy tasks count policy).next log s .unwind)
    (goes : ∀ t, ending t ≠ .unwinds) (threads : 0 < capped self.pool)
    (fewer : capped self.pool ≤ current_num_threads self.pool) {log e}
    (h : Calls qb ending capped self worker active tasks count log e) :
    Calls qb ending current_num_threads self worker active tasks count log e := by
  cases h with
  | fallback enter sequential run => exact .fallback enter sequential run
  | delegated enter above run collect =>
    exact .delegated enter above (run.uncapped calm goes threads fewer) collect

/-- Where nothing unwinds, no call on a capped pool ends otherwise than one on the whole pool
could. -/
theorem capped_pool
    (calm : ∀ tasks count policy log s, ¬ (qb.lazy tasks count policy).next log s .unwind)
    (goes : ∀ t, ending t ≠ .unwinds) (self : RayonBatchExecutor π) (threads : 0 < capped self.pool)
    (fewer : capped self.pool ≤ current_num_threads self.pool) (worker : Bool) (active : List π)
    (tasks : ι) (count : Nat) :
    (∀ log e, Executes qb ending capped self worker active tasks count log e →
      Executes qb ending current_num_threads self worker active tasks count log e) ∧
    (∀ log e, Calls qb ending capped self worker active tasks count log e →
      Calls qb ending current_num_threads self worker active tasks count log e) :=
  ⟨fun _ _ h => h.uncapped calm goes threads fewer, fun _ _ h => h.uncapped calm goes threads fewer⟩

/-- A call that one thread has run for an executor of two, two threads could have run. -/
theorem capped_pool_one :
    ∃ log e, Executes (QubitBatch.ofLists fun n : Nat => (.ok n : TaskResult Nat Nat))
        (fun _ => .returns) (fun _ : Unit => 1) ⟨(), 2, 0, ⟨0, 0⟩, .Continue, by decide⟩ false []
        [10, 20, 30] 3 log e ∧
      Executes (QubitBatch.ofLists fun n : Nat => (.ok n : TaskResult Nat Nat))
        (fun _ => .returns) (fun _ : Unit => 2) ⟨(), 2, 0, ⟨0, 0⟩, .Continue, by decide⟩ false []
        [10, 20, 30] 3 log e := by
  have doc := QubitBatch.ofLists_documented fun n : Nat => (.ok n : TaskResult Nat Nat)
  obtain ⟨log, e, ran⟩ : ∃ log e, Executes _ (fun _ => .returns) (fun _ : Unit => 1)
      ⟨(), 2, 0, ⟨0, 0⟩, .Continue, by decide⟩ false [] [10, 20, 30] 3 log e :=
    Executes.total _ _ doc (fun _ => rfl) Nat.one_pos
  refine ⟨log, e, ran, ?_⟩
  exact (capped_pool (fun tasks count policy _ _ => (doc.lazy tasks count policy).unwind)
    (fun _ => by simp) _ (by decide) (by decide) false [] [10, 20, 30] 3).1 log e ran

end RayonBatch
