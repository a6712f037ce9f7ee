import RayonBatch.Call.Execute

/-!
# The scheduling error never reaches a caller

`WorkChannelDisconnected` is the only scheduling error. The scope body returns it when a send fails,
but then a job has unwound and the scope rethrows that panic in place of the body's value
(`Batch.Inv.value_ok`), so `execute_with_count` and `call_with_count` never return it
(`work_channel_disconnected_unreturned`).
-/

namespace RayonBatch
open Relation

variable {π ι σ α R E : Type*} [DecidableEq π] {qb : QubitBatch ι σ α R E}
  {ending : ParallelBatchTask α → Ending} {current_num_threads : π → Nat}
  {self : RayonBatchExecutor π} {worker : Bool} {active : List π} {tasks : ι} {count : Nat}

/-- An error that the sequential executor has no value for is never returned. -/
lemma not_scheduleFailed_mapError {S : Type*} {r : ExecuteResult E Empty} {e : S} :
    ¬ ExecuteResult.ScheduleFailed e (r.mapError (·.map_scheduler_error (never (S := S)))) := by
  rintro ⟨_, h⟩
  cases r with
  | ok => cases h
  | error error =>
    cases error with
    | ScheduleFailed source => exact source.elim
    | _ => cases h

/-- `execute_with_count` never returns an error of the scheduler. -/
lemma Executes.not_scheduleFailed (forwards : qb.ForwardsScheduleErrors)
    (threads : 0 < current_num_threads self.pool) {log r e}
    (h : Executes qb ending current_num_threads self worker active tasks count log (.returned r)) :
    ¬ r.ScheduleFailed e := by
  generalize eq : CallEnd.returned r = end' at h
  cases h with
  | @fallback _ e' _ run =>
    cases e' with
    | unwound => cases eq
    | returned r₀ =>
      cases eq
      exact not_scheduleFailed_mapError
  | abandoned _ run =>
    subst eq
    exact forwards.abandon run
  | scope_returned parallel rs value run =>
    subst eq
    intro failed
    have v := forwards.finish run failed
    subst v
    have pos := self.worker_count_pos .execute_with_count threads parallel
    cases (Batch.Inv.run rs).value_ok pos value
  | scope_unwound => cases eq

/-- `call_with_count` never returns an error of the scheduler. -/
lemma Calls.not_scheduleFailed (forwards : qb.ForwardsScheduleErrors)
    (threads : 0 < current_num_threads self.pool) {log r e}
    (h : Calls qb ending current_num_threads self worker active tasks count log (.returned r)) :
    ¬ r.ScheduleFailed e := by
  generalize eq : CallEnd.returned r = end' at h
  cases h with
  | @fallback _ _ _ e' _ _ run =>
    cases e' with
    | unwound => cases eq
    | returned r₀ =>
      cases eq
      rintro ⟨_, _, h⟩
      cases r₀ with
      | ok => cases h
      | error error =>
        obtain ⟨error, _⟩ := error
        cases error with
        | ScheduleFailed source => exact source.elim
        | _ => cases h
  | delegated _ _ run collect =>
    subst eq
    intro failed
    obtain ⟨r₀, rfl, failed⟩ := forwards.call_with_executor collect failed
    exact run.not_scheduleFailed forwards threads failed

/-- What keeps the scheduling error from the caller of a parallel call with `W` jobs. -/
structure Connected (W : Nat) (b : Batch σ α) : Prop where
  /-- There is a job, so the queue has room and receivers at the start. -/
  jobs : 1 ≤ W
  capacity : b.channel.capacity = W
  receivers : b.producer.handles = 0 → (∀ w ∈ b.workers, w.live = true) →
    b.channel.receivers = W
  /-- When a send fails, a job has unwound. -/
  send_fails : ∀ t, b.producer = .sending t → b.channel.send t = .disconnected →
    .unwound ∈ b.workers
  /-- A scope that returns returns `Ok(())`. -/
  value : ∀ v, b.result = some (.value v) → v = .ok ()

/-- `WorkChannelDisconnected` is never returned to a caller, through either entry point of any
executor. -/
theorem work_channel_disconnected_unreturned (current_num_threads : π → Nat)
    (self : RayonBatchExecutor π) (threads : 0 < current_num_threads self.pool)
    (forwards : qb.ForwardsScheduleErrors)
    (ending : ParallelBatchTask α → Ending) (worker : Bool) (active : List π) (tasks : ι)
    (count : Nat) :
    (∀ log r, Executes qb ending current_num_threads self worker active tasks count log
      (.returned r) → ¬ r.ScheduleFailed .WorkChannelDisconnected) ∧
    (∀ log r, Calls qb ending current_num_threads self worker active tasks count log
      (.returned r) → ¬ r.ScheduleFailed .WorkChannelDisconnected) ∧
    ∀ entry, (self.dispatch entry worker count active).1 = .parallel →
      ∀ b, ReflTransGen (Batch.Next (qb.lazy tasks count self.task_failure_policy).next ending)
        (Batch.init (self.worker_count current_num_threads count)
          (qb.lazy tasks count self.task_failure_policy).start) b →
        Connected (self.worker_count current_num_threads count) b := by
  refine ⟨fun log r h => h.not_scheduleFailed forwards threads,
    fun log r h => h.not_scheduleFailed forwards threads, fun entry parallel b rs => ?_⟩
  have h := Batch.Inv.run rs
  have pos := self.worker_count_pos entry threads parallel
  exact {
    jobs := pos
    capacity := h.shape.capacity
    receivers := h.receivers_of_live
    send_fails := fun t e none => h.unwound_of_send_fails pos e none
    value := fun v e => h.value_ok pos e }

/-- A failing send of a call whose only job unwinds: the body returns the error, the call does not.
-/
theorem work_channel_disconnected_unreturned_one :
    (∃ b : Batch (Nat × Observation) Nat,
      ReflTransGen (Batch.Next ((QubitBatch.ofLists (fun n => (.ok n : TaskResult Nat Nat))).lazy
        [10, 20, 30] 3 .Continue).next fun _ => .unwinds) (Batch.init 1 (0, .exhausted)) b ∧
      b.producer = .returned (.error .WorkChannelDisconnected)) ∧
    ∀ log r, Executes (QubitBatch.ofLists (fun n => (.ok n : TaskResult Nat Nat)))
      (fun _ => .unwinds) (fun _ : Unit => 1) ⟨(), 2, 0, ⟨0, 0⟩, .Continue, by decide⟩ false []
      [10, 20, 30] 3 log (.returned r) → ¬ r.ScheduleFailed .WorkChannelDisconnected :=
  ⟨⟨_, Batch.exec_run [.producer, .producer, .producer, .producer, .start 0, .work 0, .exit 0,
      .producer, .producer] rfl, rfl⟩,
    (work_channel_disconnected_unreturned (fun _ : Unit => 1)
      ⟨(), 2, 0, ⟨0, 0⟩, .Continue, by decide⟩ (by decide) (QubitBatch.ofLists_forwards _) _ _ _ _
      _).1⟩

end RayonBatch
