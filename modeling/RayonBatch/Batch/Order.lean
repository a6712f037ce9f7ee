import RayonBatch.Batch.Window

/-!
# The order in which tasks start

The queue is first in, first out, so jobs receive the tasks in the order of the source
(`Flow.received_indexed`). A job that receives a task is not executing one, hence at most `W - 1`
earlier tasks have not returned, and all the others are completed and recorded (`start_order`).
-/

namespace RayonBatch
open Relation

variable {σ α : Type*} {src : Source σ α} {ending : ParallelBatchTask α → Ending} {W : Nat}

/-- A job executes at most one task, and none once it has unwound. -/
lemma Worker.length_filterMap_add_countP_le (workers : List (Worker α)) :
    (workers.filterMap Worker.task?).length + workers.countP Worker.dead ≤ workers.length := by
  induction workers with
  | nil => exact Nat.le_refl 0
  | cons w workers ih =>
    cases w <;> simp <;> omega

namespace Batch

variable {b b' : Batch σ α}

/-- Received tasks whose `execute_task` has not returned. -/
def unreturned (b : Batch σ α) : List (ParallelBatchTask α) :=
  b.received.filter fun t => t.index ∉ b.executed.map ParallelBatchTask.index

/-- What holds when a job of a call with `W` jobs is about to receive the task `t`. -/
structure Starts (W : Nat) (b : Batch σ α) (t : ParallelBatchTask α) : Prop where
  /-- All earlier tasks have been received. -/
  earlier : b.received.map ParallelBatchTask.index = List.range t.index
  /-- At most `W - 1` of them have not returned. -/
  unreturned : b.unreturned.length ≤ W - 1
  /-- The others are completed and recorded, each once. -/
  completed : t.index ≤ b.executed.length + (W - 1)
  once : (b.executed.map ParallelBatchTask.index).Nodup
  recorded : ∀ u ∈ b.executed, u.index < t.index ∧ u ∈ b.recorded

/-- The received tasks have the first positions, in order. -/
lemma Flow.received_indexed (h : Flow b) :
    b.received.map ParallelBatchTask.index = List.range b.received.length := by
  have first := List.prefix_iff_eq_take.mp (h.received_prefix.map ParallelBatchTask.index)
  have le := h.received_prefix.length_le
  rw [h.indexed, List.length_map, List.take_range, Nat.min_eq_left le] at first
  exact first

/-- A received task that has not returned is in a hand or has unwound. -/
lemma Inv.unreturned_perm (h : Inv ending W b) : b.unreturned.Perm (b.inHand ++ b.unwound) := by
  refine List.filter_key_notMem_perm ?_ (h.flow.received_indexed ▸ List.nodup_range)
  refine h.tally.taken.symm.trans ?_
  rw [List.append_assoc, List.append_assoc]
  exact List.perm_append_comm.append_left _

/-- Executed tasks are recorded. -/
lemma Inv.executed_subset_recorded (h : Inv ending W b) : b.executed ⊆ b.recorded := by
  obtain ⟨u, -, records⟩ := h.tally.records
  intro t ht
  exact records.subset (by simp [ht])

/-- No position is executed twice. -/
lemma Inv.executed_indices_nodup (h : Inv ending W b) :
    (b.executed.map ParallelBatchTask.index).Nodup := by
  have received : (b.received.map ParallelBatchTask.index).Nodup :=
    h.flow.received_indexed ▸ List.nodup_range
  have taken := (h.tally.taken.map ParallelBatchTask.index).nodup_iff.mpr received
  rw [List.map_append, List.map_append] at taken
  exact taken.of_append_left.of_append_right

/-- A call with a job that waits on the queue executes fewer tasks than it has jobs. -/
lemma Inv.unreturned_lt {l r : List (Worker α)} (h : Inv ending W b)
    (e : b.workers = l ++ .receiving :: r) : b.unreturned.length ≤ W - 1 := by
  have spawned := h.shape.spawned
  have left := Worker.length_filterMap_add_countP_le l
  have right := Worker.length_filterMap_add_countP_le r
  have count := h.unreturned_perm.length_eq
  rw [List.length_append, ← h.tally.deaths, inHand, e] at count
  rw [e] at spawned
  simp at count spawned
  omega

/-- Received tasks are an initial segment of the source, and when a job receives a task, all earlier
tasks have been received and all of them but `W - 1` are completed and recorded. -/
theorem start_order {π : Type*} (current_num_threads : π → Nat) (self : RayonBatchExecutor π)
    (count : Nat) (src : Source σ α) (ending : ParallelBatchTask α → Ending) (s : σ)
    (rs : ReflTransGen (Next src ending)
      (Batch.init (self.worker_count current_num_threads count) s) b) :
    b.received <+: b.yielded ∧
    b.received.map ParallelBatchTask.index = List.range b.received.length ∧
    ∀ label b' t, Step src ending b label b' → b'.received = b.received ++ [t] →
      ∃ job, label = .work job ∧ b.workers[job]? = some .receiving ∧
        b'.workers[job]? = some (.executing t) ∧
        Starts (self.worker_count current_num_threads count) b t := by
  have h := Inv.run rs
  refine ⟨h.flow.received_prefix, h.flow.received_indexed, fun label b' t st more => ?_⟩
  have index : t.index = b.received.length := by
    have indexed := (h.step st).flow.received_indexed
    rw [more] at indexed
    simpa [List.range_succ, h.flow.received_indexed] using indexed
  cases st with
  | @recv l r u c e received =>
    obtain rfl : u = t := by simpa using more
    have unreturned := h.unreturned_lt e
    refine ⟨l.length, rfl, by simp [e], by simp, ?_⟩
    constructor
    case earlier => rw [index, h.flow.received_indexed]
    case unreturned => exact unreturned
    case completed =>
      have taken := h.tally.taken.length_eq
      have open' := h.unreturned_perm.length_eq
      simp only [List.length_append] at taken open'
      omega
    case once => exact h.executed_indices_nodup
    case recorded =>
      intro v hv
      have received : v ∈ b.received := h.tally.taken.subset (by simp [hv])
      have early := List.mem_map_of_mem (f := ParallelBatchTask.index) received
      rw [h.flow.received_indexed, List.mem_range, ← index] at early
      exact ⟨early, h.executed_subset_recorded hv⟩
  | _ => simp at more

/-- While one job still executes the first task, the other receives the fourth. -/
theorem start_order_fourth :
    ∃ b : Batch Nat Nat,
      ReflTransGen (Next (.ofFun numbers) fun _ => .returns) (Batch.init 2 0) b ∧
      .executing ⟨0, 0⟩ ∈ b.workers ∧ Starts 2 b ⟨3, 3⟩ := by
  have rs : ReflTransGen (Next (.ofFun numbers) fun _ => .returns) (Batch.init 2 0) _ :=
    exec_run [.producer, .producer, .producer, .producer, .producer, .start 0, .work 0, .producer,
      .producer, .producer, .producer, .start 1, .work 1, .work 1, .work 1, .producer, .producer,
      .work 1, .work 1, .work 1] rfl
  obtain ⟨-, -, starts⟩ := start_order (fun _ : Unit => 2)
    ⟨(), 2, 0, ⟨0, 0⟩, .Continue, by decide⟩ 4 _ _ _ rs
  obtain ⟨job, -, -, -, start⟩ :=
    starts (.work 1) _ ⟨3, 3⟩ (exec_step rfl) rfl
  exact ⟨_, rs, List.mem_cons_self, start⟩

end Batch

end RayonBatch
