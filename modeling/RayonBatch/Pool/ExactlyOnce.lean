import RayonBatch.Pool.Progress

/-!
# Exactly-once execution of concurrent calls

Any number of parallel calls in flight together, on one pool or on several, without unwinding. Each
call of a reachable state is a reachable state of that call alone (`System.run_call`), so the items
that its source has returned are its tasks (`Batch.answered_run`), it keeps the books of
`Batch.Inv.placed`, and a thread that runs one of its jobs works for this call only
(`exactly_once`).
-/

namespace RayonBatch
open Relation Runs

variable {π ι θ σ α : Type*} [DecidableEq ι] [DecidableEq θ] [DecidableEq π] [Fintype θ]

/-- What one of many concurrent calls, with `W` jobs, keeps in every state, when its source has
returned `items` so far. -/
structure ExactlyOnce (src : Source σ α) (start : σ) (W : Nat) (items : List α)
    (b : Batch σ α) : Prop where
  /-- These are the items that the source has returned. -/
  answered : src.Answers start b.recorded items b.producer.phase b.source
  yielded : b.yielded = indexed items
  /-- Every one of them is held, queued, being executed or executed. -/
  placed : (b.producer.held ++ b.channel.queue ++ b.inHand ++ b.executed).Perm (indexed items)
  /-- It is so once. -/
  distinct : (b.producer.held ++ b.channel.queue ++ b.inHand ++ b.executed).Nodup
  /-- When the scope has ended, the source has, its closure has returned `Ok(())`, the queue is
  empty, every item has been executed and recorded and every job has returned. -/
  ended : b.ended → b.producer = .returned (.ok ()) ∧ b.result = some (.value (.ok ())) ∧
    b.channel.queue = [] ∧ b.executed.Perm (indexed items) ∧ b.recorded.Perm (indexed items) ∧
    b.workers = List.replicate W .returned

/-- A call on its own keeps its books. -/
lemma Batch.exactlyOnce {src : Source σ α} {ending : ParallelBatchTask α → Ending} {W : Nat}
    {s : σ} {b : Batch σ α} (pos : 0 < W) (calm : ∀ log s, ¬ src log s .unwind)
    (goes : ∀ t, ending t ≠ .unwinds)
    (rs : ReflTransGen (Batch.Next src ending) (Batch.init W s) b) :
    ExactlyOnce src s W (b.yielded.map ParallelBatchTask.task) b := by
  have inv := Batch.Inv.run rs
  have unwound := inv.unwound_nil goes
  have placed := inv.placed pos unwound
  have distinct := placed.nodup_iff.mpr inv.flow.yielded_nodup
  have all := Batch.yielded_eq_indexed inv.flow
  refine ⟨Batch.answered_run rs, all, all ▸ placed, distinct, fun ended => ?_⟩
  obtain ⟨value, body⟩ := inv.result_ok pos ended unwound (Batch.calm_run calm rs)
  have executed := inv.executed_perm pos ended unwound
  have recorded := (inv.recorded_perm ended unwound).trans executed
  refine ⟨body, value, inv.flow.orphan (inv.receivers_of_ended ended), all ▸ executed,
    all ▸ recorded, List.eq_replicate_iff.mpr ⟨?_, ?_⟩⟩
  · simpa [body] using inv.shape.spawned
  · exact (inv.closing.value _ value).2

/-- For any number of concurrent calls and every interleaving without unwinding: in every reachable
state each call has every item that its source has returned in exactly one place, a thread executes
for a call only items that the source of this call has returned, and no thread runs a job of a call
whose scope has ended; then all items of the source have been executed. -/
theorem exactly_once (home : θ → Option π) (call : ι → ParallelCall π) (src : ι → Source σ α)
    (ending : ι → ParallelBatchTask α → Ending) (start : ι → σ)
    (threads : ∀ i, 0 < current_num_threads home (call i).executor.pool)
    (calm : ∀ i log s, ¬ src i log s .unwind) (goes : ∀ i t, ending i t ≠ .unwinds)
    {s : System ι θ σ α}
    (rs : ReflTransGen (System.Step home call src ending) (System.init home call start) s) (i : ι) :
    ∃ items,
      ExactlyOnce (src i) (start i)
        ((call i).executor.worker_count (current_num_threads home) (call i).count) items
        (s.calls i) ∧
      (∀ t j w task, s.running t = some (i, j) → (s.calls i).workers[j]? = some w →
        w.task? = some task → task ∈ indexed items) ∧
      ((s.calls i).ended → ∀ t j, s.running t ≠ some (i, j)) := by
  have pos := (call i).executor.worker_count_pos (call i).entry (threads i) (call i).parallel
  have books := Batch.exactlyOnce pos (calm i) (goes i) (System.run_call i rs)
  refine ⟨_, books, fun t j w task _ hw hand => ?_, fun ended t j run => ?_⟩
  · have inHand : task ∈ (s.calls i).inHand :=
      List.mem_filterMap.mpr ⟨w, List.mem_of_getElem? hw, hand⟩
    exact books.placed.subset (by simp [inHand])
  · obtain ⟨w, hw, busy⟩ := (Manned.run rs).busy t i j run
    rw [(books.ended ended).2.2.2.2.2] at hw
    cases List.eq_of_mem_replicate (List.mem_of_getElem? hw)
    cases busy

/-- Of two calls on a pool of two threads each executes its own two tasks, once. -/
theorem exactly_once_two :
    ∃ s : System (Fin 2) (Fin 2) (List Nat) Nat,
      ReflTransGen (System.Step (fun _ => some ()) twoCalls (fun _ => .ofFun walk)
        fun _ _ => .returns) (System.init (fun _ => some ()) twoCalls twoTasks) s ∧
      (s.calls 0).executed.Perm [⟨0, 10⟩, ⟨1, 20⟩] ∧
      (s.calls 1).executed.Perm [⟨0, 30⟩, ⟨1, 40⟩] ∧
      ∀ i, (s.calls i).result = some (.value (.ok ())) ∧ ∀ t j, s.running t ≠ some (i, j) := by
  have shared := twoCalls_shared ∅
  obtain ⟨s, rs, stuck⟩ := shared.terminating.exists_stuck
  have books : ∀ i, (s.calls i).executed.Perm (indexed (twoTasks i)) ∧
      (s.calls i).result = some (.value (.ok ())) ∧ ∀ t j, s.running t ≠ some (i, j) := by
    intro i
    have ended := shared.ended (i := i) rs (by decide) stuck (by simp)
    obtain ⟨items, once, -, left⟩ := exactly_once _ twoCalls _ _ _ (by decide) shared.calm
      (fun _ => shared.not_unwinds) rs i
    obtain ⟨body, value, -, executed, -⟩ := once.ended ended
    have answered := once.answered
    rw [body] at answered
    obtain rfl := walk_ended answered
    exact ⟨executed, value, left ended⟩
  exact ⟨s, by simpa using rs, (books 0).1, (books 1).1, fun i => (books i).2⟩

end RayonBatch
