import RayonBatch.Batch.Exec
import RayonBatch.Batch.Progress
import RayonBatch.Model.Executor

/-!
# Unwinding tasks and sources

What a parallel call keeps when tasks unwind and end the jobs that run them, or the source unwinds.
No task is executed twice (`Inv.executed_once`). While one job is left every sent task is drained
(`Inv.drained`), and a task is lost, or a send fails, only after all jobs have unwound
(`Inv.all_unwound`, `Inv.send_disconnected`); the scope then rethrows, so that a scope that returns
returns `Ok(())` (`Inv.value_ok`).
-/

namespace RayonBatch.Batch
open Relation Runs

variable {σ α : Type*} {src : Source σ α} {ending : ParallelBatchTask α → Ending} {W : Nat}
  {b : Batch σ α}

/-- No task is yielded twice. -/
lemma Flow.yielded_nodup (h : Flow b) : b.yielded.Nodup := by
  have := h.indexed ▸ List.nodup_range (n := b.yielded.length)
  exact this.of_map

/-- Jobs receive the first of the yielded tasks. -/
lemma Flow.received_prefix (h : Flow b) : b.received <+: b.yielded := by
  rw [h.order, List.append_assoc, List.append_assoc]
  exact List.prefix_append _ _

/-- No task is received twice. -/
lemma Flow.received_nodup (h : Flow b) : b.received.Nodup :=
  h.yielded_nodup.sublist h.received_prefix.sublist

/-- No task is executed twice, whether it returns, unwinds or still runs. -/
lemma Inv.executed_once (h : Inv ending W b) : (b.inHand ++ b.executed ++ b.unwound).Nodup :=
  h.tally.taken.nodup_iff.mpr h.flow.received_nodup

/-- A task in a hand has been yielded. -/
lemma Inv.yielded_of_inHand (h : Inv ending W b) {t} (ht : t ∈ b.inHand) : t ∈ b.yielded := by
  have taken : t ∈ b.inHand ++ b.executed ++ b.unwound := by simp [ht]
  exact h.flow.received_prefix.subset (h.tally.taken.subset taken)

/-- An executed task has been yielded. -/
lemma Inv.yielded_of_executed (h : Inv ending W b) {t} (ht : t ∈ b.executed) : t ∈ b.yielded := by
  have taken : t ∈ b.inHand ++ b.executed ++ b.unwound := by simp [ht]
  exact h.flow.received_prefix.subset (h.tally.taken.subset taken)

/-- When no receiver handle is left and no job has returned, all jobs have unwound. -/
lemma Inv.all_unwound (h : Inv ending W b) (none : b.channel.receivers = 0)
    (ret : .returned ∉ b.workers) : b.unwound.length = W := by
  have receivers := h.shape.receivers
  have spawned := h.shape.spawned
  have live : ∀ w ∈ b.workers, ¬ w.live = true := by
    rw [← List.countP_eq_zero]
    omega
  have dead : b.workers.countP Worker.dead = b.workers.length := by
    refine List.countP_eq_length.mpr fun w hw => ?_
    cases w with
    | unwound => rfl
    | returned => exact absurd hw ret
    | _ => exact absurd rfl (live _ hw)
  have toSpawn : b.producer.toSpawn = 0 := Producer.toSpawn_of_handles (by omega)
  rw [← h.tally.deaths, dead]
  omega

/-- While a job has not unwound no task is dropped. -/
lemma Inv.dropped_nil (h : Inv ending W b) (few : b.unwound.length < W) : b.dropped = [] := by
  by_contra some
  obtain ⟨none, ret⟩ := h.flow.lost some
  exact few.ne (h.all_unwound none ret)

/-- A send fails only when all jobs have unwound. -/
lemma Inv.send_disconnected {t} (h : Inv ending W b) (e : b.producer = .sending t)
    (none : b.channel.send t = .disconnected) : b.unwound.length = W := by
  refine h.all_unwound (Channel.send_eq_disconnected.mp none) (h.flow.returned_notMem ?_)
  simp [h.shape.sender, e]

/-- The body returns the error only when all jobs have unwound. -/
lemma Inv.failed {e} (h : Inv ending W b) (err : b.producer = .returned (.error e)) :
    b.unwound.length = W := by
  obtain ⟨none, ret⟩ := h.flow.failed e err
  exact h.all_unwound none ret

/-- After the scope no receiver handle is left. -/
lemma Inv.receivers_of_ended (h : Inv ending W b) (ended : b.ended) : b.channel.receivers = 0 := by
  obtain ⟨done, exited⟩ := h.closing.ended ended
  rw [h.shape.receivers, Producer.handles_of_feeding done,
    List.countP_eq_zero.mpr (by simpa using exited)]

/-- After the scope no task is in a hand. -/
lemma Inv.inHand_of_ended (h : Inv ending W b) (ended : b.ended) : b.inHand = [] := by
  refine List.filterMap_eq_nil_iff.mpr fun w hw => ?_
  have gone := (h.closing.ended ended).2 w hw
  cases w with
  | returned | unwound => rfl
  | _ => simp at gone

/-- After the scope every yielded task has been received or dropped. -/
lemma Inv.yielded_of_ended (h : Inv ending W b) (ended : b.ended) :
    b.yielded = b.received ++ b.dropped := by
  have held := Producer.held_of_feeding (h.closing.ended ended).1
  rw [h.flow.order, held, h.flow.orphan (h.receivers_of_ended ended)]
  simp

/-- With a job that has not unwound, the scope ends with every yielded task executed. -/
lemma Inv.drained (h : Inv ending W b) (ended : b.ended) (few : b.unwound.length < W) :
    (b.executed ++ b.unwound).Perm b.yielded := by
  have taken := h.tally.taken
  rw [h.inHand_of_ended ended, List.nil_append] at taken
  rw [h.yielded_of_ended ended, h.dropped_nil few, List.append_nil]
  exact taken

/-- A scope that returns a value returns `Ok(())`. -/
lemma Inv.value_ok {v} (h : Inv ending W b) (pos : 0 < W)
    (e : b.result = some (.value v)) : v = .ok () := by
  obtain ⟨body, returned⟩ := h.closing.value v e
  cases v with
  | ok => rfl
  | error err =>
    have dead : b.workers.countP Worker.dead = 0 := by
      refine List.countP_eq_zero.mpr fun w hw => ?_
      simp [returned w hw]
    have all := h.failed body
    rw [← h.tally.deaths] at all
    omega

/-- When a send fails some job has unwound. -/
lemma Inv.unwound_of_send_fails {t} (h : Inv ending W b) (pos : 0 < W)
    (e : b.producer = .sending t) (none : b.channel.send t = .disconnected) :
    .unwound ∈ b.workers := by
  have all := h.send_disconnected e none
  rw [← h.tally.deaths] at all
  obtain ⟨w, hw, dead⟩ := List.countP_pos_iff.mp (all ▸ pos)
  cases w with
  | unwound => exact hw
  | _ => cases dead

/-- While no job has ended each holds a receiver handle. -/
lemma Inv.receivers_of_live (h : Inv ending W b) (spawned : b.producer.handles = 0)
    (live : ∀ w ∈ b.workers, w.live = true) : b.channel.receivers = W := by
  rw [h.shape.receivers, spawned, List.countP_eq_length.mpr live, ← h.shape.spawned,
    Producer.toSpawn_of_handles spawned]
  omega

/-- What a call over the source `s` keeps when tasks and the source may unwind. -/
structure UnwindingContract (src : Source σ α) (ending : ParallelBatchTask α → Ending) (W : Nat)
    (s : σ) (b : Batch σ α) : Prop where
  /-- No task is executed twice. -/
  once : (b.inHand ++ b.executed ++ b.unwound).Nodup
  /-- While a job is left, the scope ends with every yielded task executed, once. -/
  drained : b.ended → b.workers.countP Worker.dead < W →
    (b.executed ++ b.unwound).Perm b.yielded
  /-- A task stays unexecuted only when all jobs have unwound. -/
  lost : b.ended → ∀ t ∈ b.yielded, t ∉ b.executed ++ b.unwound →
    b.workers.countP Worker.dead = W
  /-- So does a task that is destroyed in the queue or in the producer's hand. -/
  dropped : ∀ t ∈ b.dropped, b.workers.countP Worker.dead = W
  /-- The send fails only when all jobs have unwound. -/
  send_fails : ∀ t, b.producer = .sending t → b.channel.send t = .disconnected →
    b.workers.countP Worker.dead = W
  /-- So does the scope body. -/
  body_fails : ∀ e, b.producer = .returned (.error e) → b.workers.countP Worker.dead = W
  /-- Over a finite source every run is finite. -/
  finite : src.Finite s → Terminating (Next src ending) b
  /-- Before the scope has ended there is always a step. -/
  live : src.Responsive → ¬ b.ended → ¬ Stuck (Next src ending) b

/-- Every parallel call keeps its contract under unwinding, in every state of every run. -/
theorem unwinding_contract {π : Type*} [DecidableEq π] (current_num_threads : π → Nat)
    (self : RayonBatchExecutor π) (entry : Entry) (worker : Bool) (count : Nat) (active : List π)
    (threads : 0 < current_num_threads self.pool)
    (parallel : (self.dispatch entry worker count active).1 = .parallel) (src : Source σ α)
    (goes : ∀ t, ending t ≠ .parks) (s : σ)
    (rs : ReflTransGen (Next src ending)
      (Batch.init (self.worker_count current_num_threads count) s) b) :
    UnwindingContract src ending (self.worker_count current_num_threads count) s b := by
  have h := Inv.run rs
  have pos := self.worker_count_pos entry threads parallel
  have all : ∀ {t}, t ∈ b.dropped →
      b.workers.countP Worker.dead = self.worker_count current_num_threads count := by
    intro t ht
    obtain ⟨none, ret⟩ := h.flow.lost (List.ne_nil_of_mem ht)
    exact h.tally.deaths.trans (h.all_unwound none ret)
  constructor
  case once => exact h.executed_once
  case drained => exact fun ended few => h.drained ended (h.tally.deaths ▸ few)
  case lost =>
    intro ended t yielded left
    by_contra some
    have few : b.workers.countP Worker.dead < self.worker_count current_num_threads count := by
      have := h.shape.spawned
      have := b.workers.countP_le_length (p := Worker.dead)
      omega
    exact left ((h.drained ended (h.tally.deaths ▸ few)).mem_iff.mpr yielded)
  case dropped => exact fun t ht => all ht
  case send_fails => exact fun t e none => h.tally.deaths.trans (h.send_disconnected e none)
  case body_fails => exact fun e err => h.tally.deaths.trans (h.failed err)
  case finite =>
    intro fin
    have start := terminating
      (Inv.init ending (self.worker_count current_num_threads count) s) fin
    exact start.run rs
  case live => exact fun live open' => progress h live pos goes (not_not.mp open')

/-- One of two jobs unwinds with its task, the source unwinds at its third pull, and the other job
still executes the second task. -/
theorem unwinding_contract_two :
    ∃ b : Batch (List (Option Nat)) Nat,
      ReflTransGen (Next (.ofFun script) fun t => if t.index = 0 then .unwinds else .returns)
        (Batch.init 2 [some 10, some 20, none]) b ∧
      b.result = some .unwound ∧ b.unwound = [⟨0, 10⟩] ∧ b.executed = [⟨1, 20⟩] ∧
      UnwindingContract (.ofFun script) (fun t => if t.index = 0 then .unwinds else .returns) 2
        [some 10, some 20, none] b := by
  have rs : ReflTransGen (Next (.ofFun script) fun t => if t.index = 0 then .unwinds else .returns)
      (Batch.init 2 [some 10, some 20, none]) _ :=
    exec_run [.producer, .producer, .producer, .producer, .producer, .start 0, .work 0, .exit 0,
      .producer, .producer, .producer, .start 1, .work 1, .work 1, .work 1, .exit 1, .scope] rfl
  exact ⟨_, rs, rfl, rfl, rfl, unwinding_contract (fun _ : Unit => 2)
    ⟨(), 2, 0, ⟨0, 0⟩, .Continue, by decide⟩ .execute_with_count false 3 [] (by decide) (by decide)
    _ (fun t => by grind) _ rs⟩

end RayonBatch.Batch
