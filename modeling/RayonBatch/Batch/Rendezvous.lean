import RayonBatch.Basis.Waiting
import RayonBatch.Batch.Calm
import RayonBatch.Batch.Order

/-!
# Tasks that wait for other tasks of their batch

A task may wait inside of its body until other tasks of the batch have completed. Jobs start the
tasks in the order of the source, so a task that waits for a later one holds its job until that one
has been reached. Such a batch completes in every schedule if at every position fewer tasks than
there are jobs wait across it, and otherwise in none: then no job is left to receive the task at
that position (`rendezvous`).
-/

namespace RayonBatch

open Relation Runs Waiting

namespace Batch

variable {σ α : Type*} {src : Source σ α} {waits : ℕ → ℕ → Prop} {W n : Nat} {s : σ}
  {b b' : Batch σ α}

/-- The tasks that a task waits for have completed. -/
def Open (waits : ℕ → ℕ → Prop) (b : Batch σ α) (j : ℕ) : Prop :=
  ∀ k, waits j k → k ∈ b.recorded.map ParallelBatchTask.index

/-- A step of a call in which a task completes only after those it waits for. -/
def Awaiting (src : Source σ α) (waits : ℕ → ℕ → Prop) (b b' : Batch σ α) : Prop :=
  ∃ label, Step src (fun _ => .returns) b label b' ∧
    ∀ t, b'.recorded = b.recorded ++ [t] → b.Open waits t.index

/-- A run in which tasks wait for one another is a run of the call. -/
lemma Awaiting.run (rs : ReflTransGen (Awaiting src waits) b b') :
    ReflTransGen (Next src fun _ => .returns) b b' :=
  ReflTransGen.mono (fun _ _ ⟨label, st, _⟩ => ⟨label, st⟩) _ _ rs

/-- A completed task does not wait for one that has not completed. -/
lemma open_of_recorded (rs : ReflTransGen (Awaiting src waits) (Batch.init W s) b) :
    ∀ j ∈ b.recorded.map ParallelBatchTask.index, b.Open waits j := by
  refine invariant (I := fun b => ∀ j ∈ b.recorded.map ParallelBatchTask.index, b.Open waits j) ?_
    rs (by simp [Batch.init])
  rintro b b' ⟨label, st, gate⟩ h
  cases st with
  | @record l r t =>
    have opened := gate t rfl
    intro j hj k waiting
    rw [List.map_append, List.mem_append] at hj ⊢
    rcases hj with hj | hj
    · exact .inl (h j hj k waiting)
    · obtain rfl : j = t.index := by simpa using hj
      exact .inl (opened k waiting)
  | _ => exact h

/-- Recorded tasks have been received. -/
lemma Inv.recorded_subset_received {ending : ParallelBatchTask α → Ending} (h : Inv ending W b) :
    b.recorded ⊆ b.received := by
  obtain ⟨u, sub, records⟩ := h.tally.records
  intro t ht
  have placed := records.symm.subset ht
  rw [List.mem_append, List.mem_append] at placed
  refine h.tally.taken.subset ?_
  rw [List.mem_append, List.mem_append]
  rcases placed with (hand | done) | dead
  · obtain ⟨w, hw, recorded⟩ := List.mem_filterMap.mp hand
    refine .inl (.inl (List.mem_filterMap.mpr ⟨w, hw, ?_⟩))
    cases w with
    | recorded => exact recorded
    | _ => cases recorded
  · exact .inl (.inr done)
  · exact .inr (sub.subset dead)

/-- A received task that has not completed is in a hand. -/
lemma Inv.index_inHand {ending : ParallelBatchTask α → Ending} (h : Inv ending W b)
    (calm : b.unwound = []) {j} (lt : j < b.received.length)
    (left : j ∉ b.recorded.map ParallelBatchTask.index) :
    j ∈ b.inHand.map ParallelBatchTask.index := by
  have received : j ∈ b.received.map ParallelBatchTask.index := by
    rw [h.flow.received_indexed]
    exact List.mem_range.mpr lt
  obtain ⟨t, ht, rfl⟩ := List.mem_map.mp received
  have placed := h.tally.taken.symm.subset ht
  rw [calm, List.append_nil, List.mem_append] at placed
  rcases placed with hand | done
  · exact List.mem_map_of_mem hand
  · exact absurd (List.mem_map_of_mem (h.executed_subset_recorded done)) left

/-- A task in a hand is one of the received ones. -/
lemma Inv.index_lt {ending : ParallelBatchTask α → Ending} (h : Inv ending W b) {j}
    (mem : j ∈ b.inHand.map ParallelBatchTask.index) : j < b.received.length := by
  obtain ⟨t, ht, rfl⟩ := List.mem_map.mp mem
  have received := List.mem_map_of_mem (f := ParallelBatchTask.index)
    (h.tally.taken.subset (List.mem_append_left _ (List.mem_append_left _ ht)))
  rw [h.flow.received_indexed] at received
  exact List.mem_range.mp received

/-- No position is in two hands. -/
lemma Inv.inHand_indices_nodup {ending : ParallelBatchTask α → Ending} (h : Inv ending W b) :
    (b.inHand.map ParallelBatchTask.index).Nodup := by
  have taken := (h.tally.taken.map ParallelBatchTask.index).nodup_iff.mpr
    (h.flow.received_indexed ▸ List.nodup_range)
  rw [List.map_append, List.map_append] at taken
  exact taken.of_append_left.of_append_left

/-- No job is left to receive a task across which as many tasks wait as there are jobs. -/
lemma received_length_le {k : ℕ} {held : Finset ℕ} (crossing : ∀ j ∈ held, Crosses waits k j)
    (many : W ≤ held.card) (pos : 0 < W)
    (rs : ReflTransGen (Awaiting src waits) (Batch.init W s) b) : b.received.length ≤ k := by
  induction rs with
  | refl => exact Nat.zero_le k
  | @tail b b' rs st ih =>
    obtain ⟨label, st, -⟩ := st
    have h := Inv.run (Awaiting.run rs)
    cases st with
    | @recv l r t c e =>
      rw [List.length_append, List.length_singleton]
      refine Nat.lt_of_le_of_ne ih fun full => ?_
      -- all that wait across the cut are in hands, and so in all hands but that of the job
      have inHand : held ⊆ (b.inHand.map ParallelBatchTask.index).toFinset := by
        intro j hj
        obtain ⟨lt, m, ge, path⟩ := crossing j hj
        refine List.mem_toFinset.mpr (h.index_inHand (h.unwound_nil (by simp)) (full ▸ lt) ?_)
        intro done
        have done := mem_of_transGen (p := (· ∈ b.recorded.map ParallelBatchTask.index))
          (fun hj waiting => open_of_recorded rs _ hj _ waiting) done path
        obtain ⟨u, hu, rfl⟩ := List.mem_map.mp done
        have received := List.mem_map_of_mem (f := ParallelBatchTask.index)
          (h.recorded_subset_received hu)
        rw [h.flow.received_indexed, List.mem_range] at received
        omega
      have card := (Finset.card_le_card inHand).trans (List.toFinset_card_le _)
      have free := h.unreturned_lt e
      rw [h.unreturned_perm.length_eq, List.length_append] at free
      rw [List.length_map] at card
      omega
    | _ => exact ih

/-- When the producer is done and the queue is empty, all tasks have been received. -/
lemma received_exactly (exact' : src.Exactly s n) (pos : 0 < W)
    (rs : ReflTransGen (Next src fun _ => .returns) (Batch.init W s) b)
    (done : b.producer.feeding = false) (queue : b.channel.queue = []) :
    b.received.length = n := by
  have h := Inv.run rs
  have calm := h.unwound_nil (by simp)
  have order := h.flow.order
  rw [h.dropped_nil (by simpa [calm] using pos), queue, Producer.held_of_feeding done] at order
  simp only [List.append_nil] at order
  rw [← order]
  exact (yielded_exactly exact' rs).2 (h.body_ok pos calm (calm_run exact'.not_unwind rs) done)

open Classical in
/-- In the eyes of a state, a task ends when what it waits for has completed. -/
noncomputable def settling (waits : ℕ → ℕ → Prop) (b : Batch σ α) (t : ParallelBatchTask α) :
    Ending :=
  if b.Open waits t.index then .returns else .parks

/-- A task parks as long as what it waits for is missing. -/
lemma settling_eq_parks {t : ParallelBatchTask α} :
    b.settling waits t = .parks ↔ ¬ b.Open waits t.index := by
  unfold settling
  split <;> simp_all

/-- The invariants of the call hold when its waiting tasks are taken to wait for ever. -/
lemma Inv.settling (h : Inv (fun _ => .returns) W b)
    (opened : ∀ j ∈ b.recorded.map ParallelBatchTask.index, b.Open waits j) :
    Inv (b.settling waits) W b := by
  have returns : ∀ t ∈ b.recorded, b.settling waits t = .returns :=
    fun t ht => if_pos (opened _ (List.mem_map_of_mem ht))
  refine { h with tally := { h.tally with returns := ?_, unwinds := ?_, ending := ?_ } }
  · exact fun t ht => returns t (h.executed_subset_recorded ht)
  · intro t ht
    rw [h.unwound_nil (by simp)] at ht
    cases ht
  · intro t hw
    obtain ⟨u, -, records⟩ := h.tally.records
    have recorded : t ∈ b.workers.filterMap Worker.recorded? :=
      List.mem_filterMap.mpr ⟨_, hw, rfl⟩
    rw [returns t (records.subset (by simp [recorded]))]
    simp

/-- A state in which nothing happens but for the waits is idle. -/
lemma idle_of_awaiting (stuck : Stuck (Awaiting src waits) b) :
    ∀ label b', ¬ Step src (b.settling waits) b label b' := by
  intro label b' st
  refine stuck b' ⟨label, st.mono (fun _ _ _ => id) fun t goes => ?_, fun t more => ?_⟩
  · rw [settling] at goes ⊢
    split
    · rfl
    next closed => exact absurd (settling_eq_parks.mpr closed) goes
  · cases st with
    | record e goes =>
      obtain rfl : _ = t := by simpa using more
      by_contra closed
      exact goes (settling_eq_parks.mpr closed)
    | _ => simp at more

/-- A task that is in a hand where nothing can happen waits across the position that has been
reached, and so do the tasks of all other jobs. -/
lemma held_of_stuck (live : src.Responsive) (exact' : src.Exactly s n) (pos : 0 < W)
    (bounded : ∀ {j k}, waits j k → k < n) (acyclic : ∀ j, ¬ TransGen waits j j)
    (rs : ReflTransGen (Awaiting src waits) (Batch.init W s) b)
    (stuck : Stuck (Awaiting src waits) b) {t} (ht : t ∈ b.inHand) :
    b.received.length < n ∧ b.inHand.length = W ∧
      ∀ j ∈ b.inHand.map ParallelBatchTask.index, Crosses waits b.received.length j := by
  have none := idle_of_awaiting stuck
  have idle : Idle src (b.settling waits) b := fun label b' st => absurd st (none label b')
  have h := Inv.run (Awaiting.run rs)
  have calm := h.unwound_nil (by simp)
  have h' := h.settling (open_of_recorded rs)
  -- every task in a hand waits, for one in a hand or for one that is not reached
  have next : ∀ j, j ∈ b.inHand.map ParallelBatchTask.index → ∃ m, waits j m ∧
      (m ∈ b.inHand.map ParallelBatchTask.index ∨ b.received.length ≤ m) := by
    intro j hj
    obtain ⟨u, hu, rfl⟩ := List.mem_map.mp hj
    obtain ⟨w, hw, task⟩ := List.mem_filterMap.mp hu
    obtain ⟨-, parks⟩ := idle.executing h' hw task
    have closed := settling_eq_parks.mp parks
    simp only [Open, not_forall] at closed
    obtain ⟨m, waiting, left⟩ := closed
    refine ⟨m, waiting, ?_⟩
    rcases Nat.lt_or_ge m b.received.length with lt | ge
    · exact .inl (h.index_inHand calm lt left)
    · exact .inr ge
  have cross : ∀ j ∈ b.inHand.map ParallelBatchTask.index,
      Crosses waits b.received.length j := fun j hj =>
    ⟨h.index_lt hj, exists_behind (wellFounded bounded acyclic) next hj⟩
  have lt : b.received.length < n := by
    obtain ⟨-, m, ge, path⟩ := cross _ (List.mem_map_of_mem ht)
    exact ge.trans_lt (lt_of_transGen bounded path)
  refine ⟨lt, ?_, cross⟩
  have silent : ∀ {p : Prop}, (b.producer = .pulling ∧ ∀ answer, ¬ src b.recorded b.source answer) →
      p := by
    rintro p ⟨-, silent⟩
    obtain ⟨answer, pull⟩ := live b.recorded b.source
    exact absurd pull (silent answer)
  -- with tasks to come, no job has returned, so all of them have a task
  have busy : ∀ w ∈ b.workers, w.task?.isSome = true := by
    intro w hw
    cases w with
    | unstarted =>
      obtain ⟨l, r, e⟩ := List.append_of_mem hw
      exact absurd (.start e) (none _ _)
    | receiving => exact silent (idle.silent_of_receiving h' pos hw)
    | executing | recorded => rfl
    | returned =>
      obtain ⟨sender, queue⟩ := h.flow.closed hw
      rw [h.shape.sender] at sender
      exact absurd (received_exactly exact' pos (Awaiting.run rs) sender queue) lt.ne
    | unwound =>
      have some : 0 < b.workers.countP Worker.dead := List.countP_pos_iff.mpr ⟨_, hw, rfl⟩
      rw [h.tally.deaths, calm] at some
      cases some
  have spawned := h.shape.spawned
  have toSpawn : b.producer.toSpawn = 0 := by
    obtain stays | ⟨u, e, -⟩ | done := idle.producer_or h'
    · exact silent stays
    · simp [e]
    · exact Producer.toSpawn_of_handles (Producer.handles_of_feeding done)
  rw [inHand, List.length_filterMap_eq_countP, List.countP_eq_length.mpr busy]
  omega

/-- A batch whose tasks wait for one another completes in every schedule when at every position
fewer tasks than there are jobs wait across it; otherwise there is a position that no schedule ever
reaches. -/
theorem rendezvous {π : Type*} [DecidableEq π] (current_num_threads : π → Nat)
    (self : RayonBatchExecutor π) (entry : Entry) (worker : Bool) (count : Nat) (active : List π)
    (threads : 0 < current_num_threads self.pool)
    (parallel : (self.dispatch entry worker count active).1 = .parallel)
    (live : src.Responsive) (fin : src.Finite s) (exact' : src.Exactly s n)
    (bounded : ∀ {j k}, waits j k → k < n) (acyclic : ∀ j, ¬ TransGen waits j j) :
    Terminating (Awaiting src waits)
      (Batch.init (self.worker_count current_num_threads count) s) ∧
    (Fits waits n (self.worker_count current_num_threads count) → ∀ b,
      ReflTransGen (Awaiting src waits)
        (Batch.init (self.worker_count current_num_threads count) s) b →
      Stuck (Awaiting src waits) b →
      b.result = some (.value (.ok ())) ∧ b.yielded.length = n ∧ b.executed.Perm b.yielded) ∧
    (¬ Fits waits n (self.worker_count current_num_threads count) → ∃ k < n, ∀ b,
      ReflTransGen (Awaiting src waits)
        (Batch.init (self.worker_count current_num_threads count) s) b →
      b.received.length ≤ k) := by
  have pos := self.worker_count_pos entry threads parallel
  refine ⟨?_, fun fits b rs stuck => ?_, fun crowded => ?_⟩
  · exact .of_image (I := fun _ => True) id (fun _ ⟨label, st, _⟩ => ⟨trivial, label, st⟩) trivial
      (terminating (Inv.init _ _ s) fin)
  · have steps := Awaiting.run rs
    have h := Inv.run steps
    have calm := h.unwound_nil (by simp)
    have none := idle_of_awaiting stuck
    -- a task that waits would leave no job for the position that has been reached
    have free : ¬ b.Held src (b.settling waits) := by
      rintro (⟨-, silent⟩ | ⟨t, ht, -⟩)
      · obtain ⟨answer, pull⟩ := live b.recorded b.source
        exact silent answer pull
      · obtain ⟨lt, all, cross⟩ := held_of_stuck live exact' pos bounded acyclic rs stuck ht
        have few := fits _ lt (b.inHand.map ParallelBatchTask.index).toFinset fun j hj =>
          cross j (List.mem_toFinset.mp hj)
        rw [List.toFinset_card_of_nodup h.inHand_indices_nodup, List.length_map, all] at few
        exact absurd few (Nat.lt_irrefl _)
    have ended : b.ended := by
      refine Idle.ended_of_started (fun label b' st => absurd st (none label b'))
        (h.settling (open_of_recorded rs)) pos free fun unstarted => ?_
      obtain ⟨l, r, e⟩ := List.append_of_mem unstarted
      exact none _ _ (.start e)
    obtain ⟨ok, body⟩ := h.result_ok pos ended calm (calm_run exact'.not_unwind steps)
    exact ⟨ok, (yielded_exactly exact' steps).2 body, h.executed_perm pos ended calm⟩
  · simp only [Fits, not_forall, Nat.not_lt] at crowded
    obtain ⟨k, lt, held, crossing, many⟩ := crowded
    exact ⟨k, lt, fun b rs => received_length_le crossing many pos rs⟩

/-- The first of four tasks waits for the last. -/
def firstForLast (j k : ℕ) : Prop :=
  j = 0 ∧ k = 3

/-- In the example nothing is waited for indirectly. -/
lemma firstForLast_of_transGen {j k} (h : TransGen firstForLast j k) : firstForLast j k := by
  cases h with
  | single st => exact st
  | tail path st =>
    obtain ⟨rfl, -⟩ := st
    cases path with
    | single st => cases st.2
    | tail _ st => cases st.2

/-- In the example only tasks of the source are waited for. -/
lemma firstForLast_bounded {j k} (h : firstForLast j k) : k < 4 := by
  obtain ⟨-, rfl⟩ := h
  decide

/-- In the example no task waits for itself. -/
lemma firstForLast_acyclic (j) : ¬ TransGen firstForLast j j := by
  intro cycle
  obtain ⟨first, last⟩ := firstForLast_of_transGen cycle
  omega

/-- Two jobs complete four tasks of which the first waits for the last. -/
theorem rendezvous_four :
    ∃ b : Batch Nat Nat,
      ReflTransGen (Awaiting (.ofFun countdown) firstForLast) (Batch.init 2 4) b ∧
      b.result = some (.value (.ok ())) ∧ b.executed.Perm b.yielded ∧ b.yielded.length = 4 := by
  have live : (Source.ofFun countdown).Responsive := fun _ _ => ⟨_, rfl⟩
  obtain ⟨fin, completes, -⟩ := rendezvous (fun _ : Unit => 2)
    ⟨(), 2, 0, ⟨0, 0⟩, .Continue, by decide⟩ .call_with_count false 4 [] (by decide) (by decide)
    live (countdown_finite 4) (countdown_exactly 4) firstForLast_bounded firstForLast_acyclic
  obtain ⟨b, rs, stuck⟩ := fin.exists_stuck
  have fits : Fits firstForLast 4 2 := by
    intro k _ held crossing
    have first : held ⊆ {0} := fun j hj => by
      obtain ⟨-, m, -, path⟩ := crossing j hj
      exact Finset.mem_singleton.mpr (firstForLast_of_transGen path).1
    exact (Finset.card_le_card first).trans_lt (by decide)
  obtain ⟨ok, all, executed⟩ := completes fits b rs stuck
  exact ⟨b, rs, ok, executed, all⟩

end Batch

end RayonBatch
