import RayonBatch.Basis.Keyed
import RayonBatch.Batch.Calm

/-!
# The admission window of a parallel call

A task that the source has returned and that is not done with is in the producer's hand, in the
queue or in the hand of a job (`Inv.unfinished_perm`). A call with `W` jobs has room for one task,
for `W` and for `W` in these places, so it never runs ahead of its tasks by more than `2 * W + 1`
(`bounded_admission`).
-/

namespace RayonBatch
open Relation Runs

/-- A source that returns `n` tasks before it ends. -/
def Source.Exactly {σ α : Type*} (src : Source σ α) (s : σ) (n : Nat) : Prop :=
  ∃ left : σ → Nat, left s = n ∧ ∀ log s,
    (∀ s', src log s (.quiet s') → left s' = left s) ∧
    (∀ a s', src log s (.some a s') → left s = left s' + 1) ∧
    (∀ s', src log s (.none s') → left s = 0) ∧
    ¬ src log s .unwind

/-- A source that returns a number of tasks does not unwind. -/
lemma Source.Exactly.not_unwind {σ α : Type*} {src : Source σ α} {s : σ} {n : Nat}
    (h : src.Exactly s n) : ∀ log s, ¬ src log s .unwind := by
  obtain ⟨_, -, pull⟩ := h
  exact fun log s => (pull log s).2.2.2

/-- A source that counts down. -/
def countdown : List (ParallelBatchTask Nat) → Nat → Pull Nat Nat
  | _, k + 1 => .some k k
  | _, 0 => .none 0

/-- A countdown from `n` returns `n` tasks. -/
lemma countdown_exactly (n : Nat) : (Source.ofFun countdown).Exactly n n := by
  refine ⟨id, rfl, fun log k => ?_⟩
  cases k <;> simp [Source.ofFun, countdown]

/-- A countdown ends. -/
lemma countdown_finite (n : Nat) : (Source.ofFun countdown).Finite n := by
  refine .of_measure (I := fun _ => True) id ?_ trivial
  rintro k k' - ⟨log, h | ⟨a, h⟩⟩ <;> cases k <;> cases h
  exact ⟨trivial, Nat.lt_succ_self _⟩

namespace Batch

variable {σ α : Type*} {src : Source σ α} {ending : ParallelBatchTask α → Ending} {W : Nat}
  {b : Batch σ α}

/-- Tasks whose execution has ended, or that have been destroyed without one. -/
def settled (b : Batch σ α) : List (ParallelBatchTask α) :=
  b.executed ++ b.unwound ++ b.dropped

/-- Tasks the source has returned whose execution has neither finished nor been abandoned. -/
def unfinished (b : Batch σ α) : List (ParallelBatchTask α) :=
  b.yielded.filter fun t => t.index ∉ b.settled.map ParallelBatchTask.index

/-- At most one task is in the hand of each job. -/
lemma Shape.inHand_length_le (h : Shape W b) : b.inHand.length ≤ W := by
  have spawned := h.spawned
  have taken : b.inHand.length ≤ b.workers.length := List.length_filterMap_le _ _
  omega

/-- The producer holds at most one task. -/
lemma held_length_le (producer : Producer α) : producer.held.length ≤ 1 := by
  cases producer <;> simp

/-- A yielded task is on its way to a job, in the hand of one, or settled. -/
lemma Inv.yielded_perm (h : Inv ending W b) :
    b.yielded.Perm (b.inHand ++ b.channel.queue ++ b.producer.held ++ b.settled) := by
  have moved := (h.tally.taken.symm.append_right b.dropped).append_right
    (b.channel.queue ++ b.producer.held)
  rw [h.flow.order, List.append_assoc _ b.channel.queue]
  refine moved.trans ?_
  -- what is settled moves behind the queue and the task in the producer's hand
  simp only [settled, List.append_assoc]
  exact List.Perm.append_left b.inHand (by
    simpa only [List.append_assoc] using
      @List.perm_append_comm _ (b.executed ++ b.unwound ++ b.dropped)
        (b.channel.queue ++ b.producer.held))

/-- A task that is not done with is in a hand, queued or held. -/
lemma Inv.unfinished_perm (h : Inv ending W b) :
    b.unfinished.Perm (b.inHand ++ b.channel.queue ++ b.producer.held) := by
  refine List.filter_key_notMem_perm h.yielded_perm ?_
  rw [h.flow.indexed]
  exact List.nodup_range

/-- In every state of a call with `W` jobs at most `W` tasks are being executed, at most `W` are
queued and at most one is held by the producer, whatever the source does and whichever jobs unwind;
so at most `2 * W + 1` tasks that the source has returned are not done with. -/
theorem bounded_admission {π : Type*} (current_num_threads : π → Nat)
    (self : RayonBatchExecutor π) (count : Nat) (src : Source σ α)
    (ending : ParallelBatchTask α → Ending) (s : σ)
    (rs : ReflTransGen (Next src ending)
      (Batch.init (self.worker_count current_num_threads count) s) b) :
    b.inHand.length ≤ self.worker_count current_num_threads count ∧
    b.channel.queue.length ≤ self.worker_count current_num_threads count ∧
    b.producer.held.length ≤ 1 ∧
    b.unfinished.length ≤ 2 * self.worker_count current_num_threads count + 1 := by
  have h := Inv.run rs
  have hand := h.shape.inHand_length_le
  have room := h.shape.room
  have held := held_length_le b.producer
  refine ⟨hand, room, held, ?_⟩
  rw [h.unfinished_perm.length_eq, List.length_append, List.length_append]
  omega

/-- The source of all numbers. -/
def numbers : List (ParallelBatchTask Nat) → Nat → Pull Nat Nat :=
  fun _ n => .some n (n + 1)

/-- Over an endless source two jobs execute the first two tasks, the next two are queued, and the
producer waits with a fifth. -/
theorem bounded_admission_five :
    ∃ b : Batch Nat Nat,
      ReflTransGen (Next (.ofFun numbers) fun _ => .returns) (Batch.init 2 0) b ∧
      b.unfinished.map ParallelBatchTask.index = [0, 1, 2, 3, 4] ∧
      b.unfinished.length ≤ 2 * 2 + 1 := by
  have rs : ReflTransGen (Next (.ofFun numbers) fun _ => .returns) (Batch.init 2 0) _ :=
    exec_run [.producer, .producer, .producer, .producer, .producer, .start 0, .work 0, .producer,
      .producer, .start 1, .work 1, .producer, .producer, .producer, .producer, .producer] rfl
  obtain ⟨-, -, -, window⟩ := bounded_admission (fun _ : Unit => 2)
    ⟨(), 2, 0, ⟨0, 0⟩, .Continue, by decide⟩ 1000000 _ _ _ rs
  exact ⟨_, rs, rfl, window⟩

/-- Until its source ends, a call has yielded what the source has no longer left. -/
lemma yielded_exactly {n : Nat} {s : σ} (exact' : src.Exactly s n)
    (rs : ReflTransGen (Next src ending) (Batch.init W s) b) :
    b.yielded.length ≤ n ∧ (b.producer = .returned (.ok ()) → b.yielded.length = n) := by
  obtain ⟨left, start, pull⟩ := exact'
  have inv : (b.producer.feeding = true → left b.source + b.yielded.length = n) ∧
      b.yielded.length ≤ n ∧ (b.producer = .returned (.ok ()) → b.yielded.length = n) := by
    refine invariant (I := fun b =>
      (b.producer.feeding = true → left b.source + b.yielded.length = n) ∧
      b.yielded.length ≤ n ∧ (b.producer = .returned (.ok ()) → b.yielded.length = n)) ?_ rs
      (by simp [Batch.init, start])
    rintro b b' ⟨label, st⟩ ⟨budget, le, done⟩
    cases st with
    | pull_quiet e answer =>
      have same := (pull _ _).1 _ answer
      exact ⟨fun f => by simpa [same] using budget f, le, done⟩
    | pull_some e answer =>
      have one := (pull _ _).2.1 _ _ answer
      have budget := budget (by simp [e])
      refine ⟨fun _ => ?_, ?_, by simp⟩ <;> simp <;> omega
    | pull_none e answer =>
      have none := (pull _ _).2.2.1 _ answer
      have budget := budget (by simp [e])
      exact ⟨by simp, le, fun _ => by simpa [none] using budget⟩
    | pull_unwind _ answer => exact absurd answer (pull _ _).2.2.2
    | spawn e | drop_receiver e | send e =>
      exact ⟨fun _ => budget (by simp [e]), le, by simp⟩
    | send_error e => exact ⟨by simp, le, by simp⟩
    | _ => exact ⟨budget, le, done⟩
  exact inv.2

/-- A call that is at rest before its source has ended has filled its window. -/
lemma Idle.places_filled (idle : Idle src ending b) (h : Inv ending W b) (pos : 0 < W)
    (live : src.Responsive) (started : .unstarted ∉ b.workers)
    (open' : b.producer.feeding = true) :
    b.inHand.length + b.unwound.length = W ∧ b.channel.queue.length = W ∧
      b.producer.held.length = 1 := by
  have room := h.shape.room
  obtain ⟨t, sending, -, full⟩ := (idle.producer h live).resolve_right (by simp [open'])
  refine ⟨?_, by omega, by simp [sending]⟩
  -- every job has ended by unwinding or has a task
  have busy : ∀ l : List (Worker α), (∀ w ∈ l, w ∈ b.workers) →
      (l.filterMap Worker.task?).length + l.countP Worker.dead = l.length := by
    intro l
    induction l with
    | nil => exact fun _ => rfl
    | cons w l ih =>
      intro mem
      have ih := ih fun w hw => mem w (List.mem_cons_of_mem _ hw)
      have here := mem w List.mem_cons_self
      cases w with
      | unstarted => exact absurd here started
      | receiving => exact absurd here (idle.not_receiving h live pos)
      | returned =>
        have closed := (h.flow.closed here).1
        simp [h.shape.sender, open'] at closed
      | executing | recorded | unwound => simp; omega
  have all := busy b.workers fun _ => id
  have spawned := h.shape.spawned
  rw [h.tally.deaths] at all
  rw [sending] at spawned
  simp only [Producer.toSpawn, Nat.add_zero] at spawned
  rw [inHand, all, spawned]

/-- When no task ends, a call over a source of at least `2 * W + 1` tasks pulls exactly so many in
every schedule: one for each job, `W` into the queue, and one that the producer cannot send. -/
theorem window_filled {π : Type*} [DecidableEq π] (current_num_threads : π → Nat)
    (self : RayonBatchExecutor π) (entry : Entry) (worker : Bool) (count : Nat) (active : List π)
    (threads : 0 < current_num_threads self.pool)
    (parallel : (self.dispatch entry worker count active).1 = .parallel) {n : Nat} {s : σ}
    (live : src.Responsive) (fin : src.Finite s) (exact' : src.Exactly s n)
    (many : 2 * self.worker_count current_num_threads count + 1 ≤ n) :
    Terminating (Next src fun _ => .parks)
      (Batch.init (self.worker_count current_num_threads count) s) ∧
    ∀ b, ReflTransGen (Next src fun _ => .parks)
        (Batch.init (self.worker_count current_num_threads count) s) b →
      Stuck (Next src fun _ => .parks) b →
      b.yielded.length = 2 * self.worker_count current_num_threads count + 1 ∧
      b.inHand.length = self.worker_count current_num_threads count ∧
      b.channel.queue.length = self.worker_count current_num_threads count ∧
      b.producer.held.length = 1 := by
  have pos := self.worker_count_pos entry threads parallel
  refine ⟨terminating (Inv.init _ _ s) fin, fun b rs stuck => ?_⟩
  have h := Inv.run rs
  have idle : Idle src (fun _ => .parks) b := fun label b' st => absurd ⟨label, st⟩ (stuck b')
  have started : .unstarted ∉ b.workers := by
    intro mem
    obtain ⟨l, r, e⟩ := List.append_of_mem mem
    exact stuck _ ⟨_, .start e⟩
  have executed : b.executed = [] := by
    refine List.eq_nil_iff_forall_not_mem.mpr fun t ht => ?_
    cases h.tally.returns t ht
  have calm : b.unwound = [] := by
    refine List.eq_nil_iff_forall_not_mem.mpr fun t ht => ?_
    cases h.tally.unwinds t ht
  have dropped := h.dropped_nil (by simpa [calm] using pos)
  have yielded := h.yielded_perm.length_eq
  simp only [settled, executed, calm, dropped, List.append_nil, List.length_append] at yielded
  have hand := h.shape.inHand_length_le
  have room := h.shape.room
  have open' : b.producer.feeding = true := by
    by_contra closed
    have done : b.producer.feeding = false := by simpa using closed
    have all := (yielded_exactly exact' rs).2
      (h.body_ok pos calm (calm_run exact'.not_unwind rs) done)
    rw [Producer.held_of_feeding done, List.length_nil] at yielded
    omega
  obtain ⟨hands, queue, held⟩ := idle.places_filled h pos live started open'
  rw [calm, List.length_nil, Nat.add_zero] at hands
  exact ⟨by omega, hands, queue, held⟩

/-- With two jobs whose tasks never end, the producer stays behind with the fifth of nine tasks. -/
theorem window_filled_nine :
    ∃ b : Batch Nat Nat,
      ReflTransGen (Next (.ofFun countdown) fun _ => .parks) (Batch.init 2 9) b ∧
      b.yielded.length = 5 ∧ b.inHand.length = 2 ∧ b.channel.queue.length = 2 ∧
      b.producer.held.length = 1 := by
  have live : (Source.ofFun countdown).Responsive := fun _ _ => ⟨_, rfl⟩
  obtain ⟨fin, filled⟩ := window_filled (fun _ : Unit => 2)
    ⟨(), 2, 0, ⟨0, 0⟩, .Continue, by decide⟩ .call_with_count false 9 [] (by decide) (by decide)
    live (countdown_finite 9) (countdown_exactly 9) (by decide)
  obtain ⟨b, rs, stuck⟩ := fin.exists_stuck
  exact ⟨b, rs, filled b rs stuck⟩

end Batch

end RayonBatch
