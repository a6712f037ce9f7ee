import RayonBatch.Batch.Answers
import RayonBatch.Batch.Unwinding

/-!
# Calls without unwinding

When neither the source nor a task unwinds, every yielded task has exactly one place
(`Inv.placed`), and the scope ends with `Ok(())`, every yielded task executed and recorded and every
job returned (`Inv.executed_perm`, `Inv.recorded_perm`, `Inv.result_ok`).
-/

namespace RayonBatch.Batch
open Relation

variable {σ α : Type*} {src : Source σ α} {ending : ParallelBatchTask α → Ending} {W : Nat}
  {b : Batch σ α}

/-- A source that never unwinds leaves the scope body without a panic. -/
lemma calm_run {s : σ} (calm : ∀ log s, ¬ src log s .unwind)
    (rs : ReflTransGen (Next src ending) (Batch.init W s) b) : b.producer ≠ .unwound := by
  refine Runs.invariant (I := fun b => b.producer ≠ .unwound) ?_ rs (by simp [Batch.init])
  rintro b b' ⟨label, st⟩ h
  cases st with
  | pull_unwind _ pull => exact absurd pull (calm _ _)
  | spawn | drop_receiver | pull_some | pull_none | send | send_error => simp
  | _ => exact h

/-- Tasks that do not unwind have not unwound. -/
lemma Inv.unwound_nil (h : Inv ending W b) (goes : ∀ t, ending t ≠ .unwinds) : b.unwound = [] := by
  refine List.eq_nil_iff_forall_not_mem.mpr fun t ht => ?_
  exact goes t (h.tally.unwinds t ht)

/-- Without unwinding a scope body that is over has returned `Ok(())`. -/
lemma Inv.body_ok (h : Inv ending W b) (pos : 0 < W) (calm : b.unwound = [])
    (body : b.producer ≠ .unwound) (done : b.producer.feeding = false) :
    b.producer = .returned (.ok ()) := by
  cases e : b.producer with
  | returned v =>
    cases v with
    | ok => rfl
    | error err =>
      have all := h.failed e
      rw [calm] at all
      exact absurd all pos.ne
  | unwound => exact absurd e body
  | _ => simp [e] at done

/-- With no task unwound, a scope body that is over leaves a source that has ended or unwound. -/
lemma Inv.phase_ne_polled (h : Inv ending W b) (pos : 0 < W) (calm : b.unwound = [])
    (done : b.producer.feeding = false) : b.producer.phase ≠ .polled := by
  by_cases body : b.producer = .unwound
  · simp [body]
  · simp [h.body_ok pos calm body done]

/-- Every yielded task is held, queued, being executed or executed, once. -/
lemma Inv.placed (h : Inv ending W b) (pos : 0 < W) (calm : b.unwound = []) :
    (b.producer.held ++ b.channel.queue ++ b.inHand ++ b.executed).Perm b.yielded := by
  have taken := h.tally.taken
  rw [calm, List.append_nil] at taken
  have order := h.flow.order
  rw [h.dropped_nil (by simpa [calm] using pos), List.append_nil, List.append_assoc] at order
  rw [order, List.append_assoc]
  exact (List.perm_append_comm.append taken).trans List.perm_append_comm

/-- After the scope the recorded tasks are the executed ones. -/
lemma Inv.recorded_perm (h : Inv ending W b) (ended : b.ended) (calm : b.unwound = []) :
    b.recorded.Perm b.executed := by
  obtain ⟨u, sub, records⟩ := h.tally.records
  rw [calm, List.sublist_nil] at sub
  have none : b.workers.filterMap Worker.recorded? = [] := by
    refine List.filterMap_eq_nil_iff.mpr fun w hw => ?_
    have gone := (h.closing.ended ended).2 w hw
    cases w with
    | returned | unwound => rfl
    | _ => simp at gone
  simpa [sub, none] using records.symm

/-- After the scope of a call without unwinding every yielded task has been executed. -/
lemma Inv.executed_perm (h : Inv ending W b) (pos : 0 < W) (ended : b.ended)
    (calm : b.unwound = []) : b.executed.Perm b.yielded := by
  simpa [calm] using h.drained ended (by simpa [calm] using pos)

/-- The scope of a call without unwinding returns `Ok(())`, as its body does. -/
lemma Inv.result_ok (h : Inv ending W b) (pos : 0 < W) (ended : b.ended)
    (calm : b.unwound = []) (body : b.producer ≠ .unwound) :
    b.result = some (.value (.ok ())) ∧ b.producer = .returned (.ok ()) := by
  cases e : b.result with
  | none => exact absurd e ended
  | some r =>
    cases r with
    | unwound =>
      have dead : .unwound ∈ b.workers := (h.closing.unwound e).resolve_left body
      have some : 0 < b.workers.countP Worker.dead := List.countP_pos_iff.mpr ⟨_, dead, rfl⟩
      simp [h.tally.deaths, calm] at some
    | value v =>
      have ok := h.value_ok pos e
      subst ok
      exact ⟨rfl, (h.closing.value _ e).1⟩

end RayonBatch.Batch
