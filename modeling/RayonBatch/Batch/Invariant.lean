import RayonBatch.Batch.Step

/-!
# Invariants of a parallel call

`Shape` counts jobs, receiver handles and queue slots; `Flow` places every yielded task, in source
order, into received, dropped, queued or held, and says what a returned job, a dropped task and a
failed send imply; `Tally` relates the received tasks to the jobs that run them and to the record.
Each is kept by every step (`Shape.step`, `Flow.step`, `Tally.step`), so their conjunction `Inv`
holds along every run of a call (`Inv.run`).  `Closing` reads the result of an ended scope back.
-/

namespace RayonBatch.Batch
open Relation

variable {σ α : Type*} {src : Source σ α} {ending : ParallelBatchTask α → Ending}

/-- Jobs, handles and slots of a call with `W` workers. -/
structure Shape (W : Nat) (b : Batch σ α) : Prop where
  capacity : b.channel.capacity = W
  spawned : b.workers.length + b.producer.toSpawn = W
  room : b.channel.queue.length ≤ W
  receivers : b.channel.receivers = b.producer.handles + b.workers.countP Worker.live
  sender : b.channel.sender = b.producer.feeding

/-- Where the yielded tasks are, in source order. -/
structure Flow (b : Batch σ α) : Prop where
  order : b.yielded = b.received ++ b.dropped ++ b.channel.queue ++ b.producer.held
  indexed : b.yielded.map ParallelBatchTask.index = List.range b.yielded.length
  orphan : b.channel.receivers = 0 → b.channel.queue = []
  fresh : b.producer.handles = 1 → b.channel.queue = []
  closed : .returned ∈ b.workers → b.channel.sender = false ∧ b.channel.queue = []
  lost : b.dropped ≠ [] → b.channel.receivers = 0 ∧ .returned ∉ b.workers
  failed : ∀ e, b.producer = .returned (.error e) →
    b.channel.receivers = 0 ∧ .returned ∉ b.workers

/-- What the jobs have made of the received tasks. -/
structure Tally (ending : ParallelBatchTask α → Ending) (b : Batch σ α) : Prop where
  taken : (b.inHand ++ b.executed ++ b.unwound).Perm b.received
  records : ∃ u, u.Sublist b.unwound ∧
    (b.workers.filterMap Worker.recorded? ++ b.executed ++ u).Perm b.recorded
  deaths : b.workers.countP Worker.dead = b.unwound.length
  returns : ∀ t ∈ b.executed, ending t = .returns
  unwinds : ∀ t ∈ b.unwound, ending t = .unwinds
  ending : ∀ t, .recorded t ∈ b.workers → ending t ≠ .parks

/-- What the result of an ended scope says. -/
structure Closing (b : Batch σ α) : Prop where
  ended : b.ended → b.producer.feeding = false ∧ ∀ w ∈ b.workers, w.live = false
  value : ∀ v, b.result = some (.value v) →
    b.producer = .returned v ∧ ∀ w ∈ b.workers, w = .returned
  unwound : b.result = some .unwound → b.producer = .unwound ∨ .unwound ∈ b.workers

/-- The invariants of a call with `W` workers. -/
structure Inv (ending : ParallelBatchTask α → Ending) (W : Nat) (b : Batch σ α) : Prop where
  shape : Shape W b
  flow : Flow b
  tally : Tally ending b
  closing : Closing b

/-- A call begins with no jobs and one receiver handle. -/
lemma Shape.init (W : Nat) (s : σ) : Shape W (Batch.init W s : Batch σ α) := by
  constructor <;> simp [Batch.init, Producer.toSpawn, Producer.handles, Producer.feeding]

/-- Every step keeps the counts of jobs, handles and slots. -/
lemma Shape.step {W b label b'} (h : Shape W b) (st : Step src ending b label b') :
    Shape W b' := by
  have spawned := h.spawned
  have room := h.room
  have receivers := h.receivers
  have sender := h.sender
  cases st with
  | spawn e =>
    rw [e] at spawned receivers sender
    exact { h with
      spawned := by simp at spawned ⊢; omega
      receivers := by simp at receivers ⊢; omega
      sender := by simpa using sender }
  | drop_receiver e =>
    rw [e] at spawned receivers sender
    exact { h with
      spawned := by simpa using spawned
      room := b.channel.dropReceiver_queue_length_le.trans room
      receivers := by simp at receivers ⊢; omega
      sender := by simpa using sender }
  | pull_quiet => exact { h with }
  | pull_some e =>
    rw [e] at spawned receivers sender
    exact { h with spawned, receivers, sender }
  | pull_none e =>
    rw [e] at spawned receivers
    exact { h with spawned, receivers, sender := rfl }
  | pull_unwind e =>
    rw [e] at spawned receivers
    exact { h with spawned, receivers, sender := rfl }
  | send e sent =>
    obtain ⟨-, lt, rfl⟩ := Channel.send_eq_sent.mp sent
    rw [e] at spawned receivers sender
    have capacity := h.capacity
    exact { h with spawned, receivers, sender, room := by simp; omega }
  | send_error e =>
    rw [e] at spawned receivers
    exact { h with spawned, receivers, sender := rfl }
  | start e =>
    rw [e] at spawned receivers
    exact { h with
      spawned := by simpa using spawned
      receivers := by simpa [List.countP_cons] using receivers }
  | recv e received =>
    obtain ⟨queue, ec⟩ := Channel.recv_eq_received.mp received
    rw [ec]
    rw [e] at spawned receivers
    rw [queue] at room
    exact { h with
      spawned := by simpa using spawned
      room := by simp at room ⊢; omega
      receivers := by simpa [List.countP_cons] using receivers }
  | recv_closed e =>
    rw [e] at spawned receivers
    exact { h with
      spawned := by simpa using spawned
      room := b.channel.dropReceiver_queue_length_le.trans room
      receivers := by simp at receivers ⊢; omega }
  | record e =>
    rw [e] at spawned receivers
    exact { h with
      spawned := by simpa using spawned
      receivers := by simpa [List.countP_cons] using receivers }
  | task_returns e =>
    rw [e] at spawned receivers
    exact { h with
      spawned := by simpa using spawned
      receivers := by simpa [List.countP_cons] using receivers }
  | @task_unwinds l r w t e task =>
    have live := Worker.live_of_task? task
    rw [e] at spawned receivers
    exact { h with
      spawned := by simpa using spawned
      room := b.channel.dropReceiver_queue_length_le.trans room
      receivers := by simp [live] at receivers ⊢; omega }
  | scope_returns => exact { h with }
  | scope_unwinds => exact { h with }

/-- A call begins with no tasks. -/
lemma Flow.init (W : Nat) (s : σ) : Flow (Batch.init W s : Batch σ α) := by
  constructor <;> simp [Batch.init]

/-- While a receiver handle is left no task is dropped. -/
lemma Flow.dropped_eq_nil {b : Batch σ α} (h : Flow b) (pos : b.channel.receivers ≠ 0) :
    b.dropped = [] := by
  by_contra ne
  exact pos (h.lost ne).1

/-- While the sender handle is alive no job has returned. -/
lemma Flow.returned_notMem {b : Batch σ α} (h : Flow b) (open' : b.channel.sender = true) :
    .returned ∉ b.workers := by
  intro mem
  simp [(h.closed mem).1] at open'

/-- A job that has not ended holds a receiver handle. -/
lemma Shape.receivers_pos {W} {b : Batch σ α} {l r w} (sh : Shape W b)
    (e : b.workers = l ++ w :: r) (live : w.live = true) : 0 < b.channel.receivers := by
  rw [sh.receivers, e]
  simp [live]

/-- Every step keeps the places of the yielded tasks. -/
lemma Flow.step {W b label b'} (sh : Shape W b) (h : Flow b) (st : Step src ending b label b') :
    Flow b' := by
  cases st with
  | spawn e =>
    have pos : b.channel.receivers ≠ 0 := by simp [sh.receivers, e]
    exact { h with
      order := by simpa [e] using h.order
      orphan := by simp
      fresh := fun _ => h.fresh (by simp [e])
      closed := by simpa using h.closed
      lost := fun ne => absurd (h.dropped_eq_nil pos) ne
      failed := by simp }
  | drop_receiver e =>
    have pos : b.channel.receivers ≠ 0 := by simp [sh.receivers, e]
    have queue := b.channel.dropReceiver_queue_of_nil (h.fresh (by simp [e]))
    exact { h with
      order := by simpa [e, queue, h.fresh (by simp [e])] using h.order
      orphan := fun _ => queue
      fresh := fun _ => queue
      closed := fun mem => ⟨(h.closed mem).1, queue⟩
      lost := fun ne => absurd (h.dropped_eq_nil pos) ne
      failed := by simp }
  | pull_quiet => exact { h with }
  | pull_some e =>
    exact { h with
      order := by simp [h.order, e]
      indexed := by simp [h.indexed, List.range_succ]
      fresh := by simp
      failed := by simp }
  | pull_none e =>
    exact { h with
      order := by simpa [e] using h.order
      fresh := by simp
      closed := fun mem => ⟨rfl, (h.closed mem).2⟩
      failed := by simp }
  | pull_unwind e =>
    exact { h with
      order := by simpa [e] using h.order
      fresh := by simp
      closed := fun mem => ⟨rfl, (h.closed mem).2⟩
      failed := by simp }
  | send e sent =>
    obtain ⟨ne, -, rfl⟩ := Channel.send_eq_sent.mp sent
    have sender : b.channel.sender = true := by simp [sh.sender, e]
    exact { h with
      order := by simpa [e] using h.order
      orphan := fun z => absurd z ne
      fresh := by simp
      closed := fun mem => absurd mem (h.returned_notMem sender)
      failed := by simp }
  | send_error e none =>
    have none := Channel.send_eq_disconnected.mp none
    have sender : b.channel.sender = true := by simp [sh.sender, e]
    have alive := h.returned_notMem sender
    exact { h with
      order := by simpa [e, h.orphan none] using h.order
      fresh := by simp
      closed := fun mem => absurd mem alive
      lost := fun _ => ⟨none, alive⟩
      failed := fun _ _ => ⟨none, alive⟩ }
  | start e =>
    exact { h with
      closed := fun mem => h.closed (by simpa [e] using mem)
      lost := fun ne => by simpa [e] using h.lost ne
      failed := fun x ex => by simpa [e] using h.failed x ex }
  | recv e received =>
    obtain ⟨queue, ec⟩ := Channel.recv_eq_received.mp received
    rw [ec]
    have pos := (sh.receivers_pos e rfl).ne'
    have dropped := h.dropped_eq_nil pos
    exact { h with
      order := by simpa [queue, dropped] using h.order
      orphan := fun z => absurd z pos
      fresh := fun one => by simpa [queue] using h.fresh one
      closed := fun mem => by simpa [queue] using h.closed (by simpa [e] using mem)
      lost := fun ne => absurd dropped ne
      failed := fun x ex => absurd (h.failed x ex).1 pos }
  | recv_closed e none =>
    obtain ⟨queue, sender⟩ := Channel.recv_eq_disconnected.mp none
    have pos := (sh.receivers_pos e rfl).ne'
    have queue' := b.channel.dropReceiver_queue_of_nil queue
    exact { h with
      order := by simpa [queue, queue'] using h.order
      orphan := fun _ => queue'
      fresh := fun _ => queue'
      closed := fun _ => ⟨sender, queue'⟩
      lost := fun ne => absurd (h.dropped_eq_nil pos) ne
      failed := fun x ex => absurd (h.failed x ex).1 pos }
  | record e =>
    exact { h with
      closed := fun mem => h.closed (by simpa [e] using mem)
      lost := fun ne => by simpa [e] using h.lost ne
      failed := fun x ex => by simpa [e] using h.failed x ex }
  | task_returns e =>
    exact { h with
      closed := fun mem => h.closed (by simpa [e] using mem)
      lost := fun ne => by simpa [e] using h.lost ne
      failed := fun x ex => by simpa [e] using h.failed x ex }
  | @task_unwinds l r w t e task =>
    have live := Worker.live_of_task? task
    have pos := (sh.receivers_pos e live).ne'
    have ne : w ≠ .returned := by rintro rfl; cases live
    have members : .returned ∈ l ++ Worker.unwound :: r → .returned ∈ b.workers := by
      simp only [e, List.mem_append, List.mem_cons, reduceCtorEq, false_or]
      exact fun mem => mem.imp id Or.inr
    exact { h with
      order := by
        rw [h.order, ← b.channel.discarded_append_queue, h.dropped_eq_nil pos]
        simp
      orphan := fun z => b.channel.dropReceiver_queue_of_le (by simp at z; omega)
      fresh := fun one => b.channel.dropReceiver_queue_of_nil (h.fresh one)
      closed := fun mem =>
        ⟨(h.closed (members mem)).1,
          b.channel.dropReceiver_queue_of_nil (h.closed (members mem)).2⟩
      lost := fun some => by
        rw [h.dropped_eq_nil pos, List.nil_append] at some
        have last : b.channel.receivers ≤ 1 := by
          by_contra lt
          exact some (b.channel.discarded_of_lt (Nat.not_le.mp lt))
        have queue : b.channel.queue ≠ [] := fun nil => some (b.channel.discarded_of_nil nil)
        exact ⟨by simp; omega, fun mem => queue (h.closed (members mem)).2⟩
      failed := fun x ex => absurd (h.failed x ex).1 pos }
  | scope_returns => exact { h with }
  | scope_unwinds => exact { h with }

/-- A call begins with nothing received. -/
lemma Tally.init (W : Nat) (s : σ) : Tally ending (Batch.init W s : Batch σ α) := by
  constructor <;> simp [Batch.init, inHand]

/-- Every step keeps the books of the jobs. -/
lemma Tally.step {b label b'} (h : Tally ending b)
    (st : Step src ending b label b') : Tally ending b' := by
  classical
  have taken := fun x => h.taken.count_eq x
  obtain ⟨u, sub, records⟩ := h.records
  have tallied := fun x => records.count_eq x
  have deaths := h.deaths
  cases st with
  | spawn e =>
    exact { h with
      taken := by simpa [inHand] using h.taken
      records := by simpa using h.records
      deaths := by simpa using deaths
      ending := by simpa using h.ending }
  | drop_receiver => exact { h with }
  | pull_quiet => exact { h with }
  | pull_some => exact { h with }
  | pull_none => exact { h with }
  | pull_unwind => exact { h with }
  | send => exact { h with }
  | send_error => exact { h with }
  | start e =>
    exact { h with
      taken := by simpa [inHand, e] using h.taken
      records := by simpa [e] using h.records
      deaths := by simpa [e, List.countP_cons] using deaths
      ending := by simpa [e] using h.ending }
  | recv e =>
    refine { h with
      taken := ?_, records := ?_, deaths := ?_, ending := by simpa [e] using h.ending }
    · refine List.perm_iff_count.mpr fun x => ?_
      have := taken x
      simp [inHand, e, List.count_cons] at this ⊢
      omega
    · simpa [e] using h.records
    · simpa [e, List.countP_cons] using deaths
  | recv_closed e =>
    exact { h with
      taken := by simpa [inHand, e] using h.taken
      records := by simpa [e] using h.records
      deaths := by simpa [e, List.countP_cons] using deaths
      ending := by simpa [e] using h.ending }
  | record e goes =>
    refine { h with taken := ?_, records := ⟨u, sub, ?_⟩, deaths := ?_, ending := ?_ }
    · simpa [inHand, e] using h.taken
    · refine List.perm_iff_count.mpr fun x => ?_
      have := tallied x
      simp [e, List.count_cons] at this ⊢
      omega
    · simpa [e, List.countP_cons] using deaths
    · intro x hx
      simp only [List.mem_append, List.mem_cons, Worker.recorded.injEq] at hx
      rcases hx with hx | rfl | hx
      · exact h.ending x (by simp [e, hx])
      · exact goes
      · exact h.ending x (by simp [e, hx])
  | task_returns e ret =>
    refine { h with
      taken := ?_, records := ⟨u, sub, ?_⟩, deaths := ?_, returns := ?_, ending := ?_ }
    · refine List.perm_iff_count.mpr fun x => ?_
      have := taken x
      simp [inHand, e, List.count_cons] at this ⊢
      omega
    · refine List.perm_iff_count.mpr fun x => ?_
      have := tallied x
      simp [e, List.count_cons] at this ⊢
      omega
    · simpa [e, List.countP_cons] using deaths
    · simpa [or_imp, forall_and] using ⟨h.returns, ret⟩
    · intro x hx
      exact h.ending x (by simp [e] at hx ⊢; tauto)
  | @task_unwinds l r w t e task unw =>
    have dead := Worker.dead_of_task? task
    refine { h with taken := ?_, records := ?_, deaths := ?_, unwinds := ?_, ending := ?_ }
    · refine List.perm_iff_count.mpr fun x => ?_
      have := taken x
      simp [inHand, e, task, List.count_cons] at this ⊢
      omega
    · cases w with
      | executing t' =>
        exact ⟨u, sub.trans (List.sublist_append_left ..), by simpa [e] using records⟩
      | recorded t' =>
        cases task
        refine ⟨u ++ [t], sub.append (List.Sublist.refl _), ?_⟩
        refine List.perm_iff_count.mpr fun x => ?_
        have := tallied x
        simp [e, List.count_cons] at this ⊢
        omega
      | _ => simp at task
    · simp [e, dead] at deaths ⊢
      omega
    · simpa [or_imp, forall_and] using ⟨h.unwinds, unw⟩
    · intro x hx
      exact h.ending x (by simp [e] at hx ⊢; tauto)
  | scope_returns => exact { h with }
  | scope_unwinds => exact { h with }

/-- No step follows the end of the scope. -/
lemma Closing.not_ended {b label b'} (h : Closing b) (st : Step src ending b label b') :
    b.result = none := by
  by_contra some
  obtain ⟨done, exited⟩ := h.ended some
  have gone : ∀ {l w r}, b.workers = l ++ w :: r → w.live = false := fun e => exited _ (by simp [e])
  cases st with
  | spawn e | drop_receiver e | pull_quiet e | pull_some e | pull_none e | pull_unwind e
  | send e | send_error e => simp [e] at done
  | start e | recv e | recv_closed e | record e | task_returns e =>
    exact absurd (gone e) (by simp)
  | task_unwinds e task => exact absurd (gone e) (by simp [Worker.live_of_task? task])
  | scope_returns _ _ none => exact some none
  | scope_unwinds _ _ _ none => exact some none

/-- Every step keeps what the result of the scope says. -/
lemma Closing.step {b label b'} (h : Closing b) (st : Step src ending b label b') :
    Closing b' := by
  have none := h.not_ended st
  cases st with
  | scope_returns e exited =>
    constructor
    · exact fun _ => ⟨by simp [e], fun w hw => by simp [exited w hw]⟩
    · rintro v ⟨rfl⟩
      exact ⟨e, exited⟩
    · rintro ⟨⟩
  | scope_unwinds done exited unw =>
    constructor
    · exact fun _ => ⟨done, exited⟩
    · rintro v ⟨⟩
    · exact fun _ => unw
  | _ => constructor <;> simp [Batch.ended, none]

/-- A call begins with its invariants. -/
lemma Inv.init (ending : ParallelBatchTask α → Ending) (W : Nat) (s : σ) :
    Inv ending W (Batch.init W s : Batch σ α) where
  shape := Shape.init W s
  flow := Flow.init W s
  tally := Tally.init W s
  closing := by constructor <;> simp [Batch.init, Batch.ended]

/-- Every step keeps the invariants. -/
lemma Inv.step {W label b'} {b : Batch σ α} (h : Inv ending W b)
    (st : Step src ending b label b') : Inv ending W b' where
  shape := h.shape.step st
  flow := h.flow.step h.shape st
  tally := h.tally.step st
  closing := h.closing.step st

/-- The invariants hold along every run of a call. -/
theorem Inv.run {W s} {b : Batch σ α}
    (rs : ReflTransGen (Next src ending) (Batch.init W s) b) : Inv ending W b :=
  Runs.invariant (fun ⟨_, st⟩ h => h.step st) rs (Inv.init ending W s)

end RayonBatch.Batch
