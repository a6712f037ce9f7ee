import RayonBatch.Batch.Invariant

/-!
# Progress of a parallel call

A call is `Idle` when nothing but the start of a job can happen in it. `Idle.producer`,
`Idle.executing` and `Idle.not_receiving` say what its producer and its jobs are then doing: the
producer is done or faces a full queue, a running job executes a task that never returns, and no job
waits on the queue. `progress` follows for one call alone, and `Terminating` bounds its runs by the
pulls of its source.
-/

namespace RayonBatch
open Relation Runs

variable {σ α : Type*} {src : Source σ α} {ending : ParallelBatchTask α → Ending}

/-- A source that answers every poll. -/
def Source.Responsive (src : Source σ α) : Prop :=
  ∀ log s, ∃ answer, src log s answer

/-- A pull after which the source can be polled again. -/
def Source.Pulls (src : Source σ α) (s s' : σ) : Prop :=
  ∃ log, src log s (.quiet s') ∨ ∃ a, src log s (.some a s')

/-- A source that ends or unwinds after finitely many pulls. -/
def Source.Finite (src : Source σ α) (s : σ) : Prop :=
  Terminating src.Pulls s

/-- Steps that are left to a producer, those after a pull of its source apart. -/
def Producer.weight : Producer α → Nat
  | .spawning n => 5 * n + 2
  | .pulling => 1
  | .sending _ => 5
  | .returned _ | .unwound => 0

/-- Steps that are left to a job. -/
def Worker.weight : Worker α → Nat
  | .unstarted => 4
  | .receiving => 1
  | .executing _ => 3
  | .recorded _ => 2
  | .returned | .unwound => 0

attribute [simp] Producer.weight.eq_1 Producer.weight.eq_2 Producer.weight.eq_3
  Producer.weight.eq_4 Producer.weight.eq_5
attribute [simp] Worker.weight.eq_1 Worker.weight.eq_2 Worker.weight.eq_3 Worker.weight.eq_4
  Worker.weight.eq_5 Worker.weight.eq_6

/-- A job with a task has a step left. -/
lemma Worker.weight_pos_of_task? {w : Worker α} {t} (h : w.task? = some t) : 0 < w.weight := by
  cases w <;> simp at h ⊢

/-- A source that is polled no more, or its state after a pull. -/
def Source.Before (src : Source σ α) : Option σ → Option σ → Prop
  | none, some _ => True
  | some s', some s => src.Pulls s s'
  | _, none => False

/-- A source that is polled no more comes after every state. -/
@[simp] lemma Source.Before.none_some {s} : src.Before none (some s) :=
  trivial

/-- Nothing comes after a source that is polled no more. -/
lemma Source.Before.acc_none : Acc src.Before none :=
  ⟨_, fun x h => by cases x <;> exact h.elim⟩

/-- Before a finite source only finitely many pulls are left. -/
lemma Source.Before.acc_some {s} (fin : src.Finite s) : Acc src.Before (some s) := by
  induction fin with
  | intro s _ ih =>
    refine ⟨_, fun x h => ?_⟩
    cases x with
    | none => exact acc_none
    | some s' => exact ih s' h

namespace Batch

/-- Nothing but the start of a job can happen. -/
def Idle (src : Source σ α) (ending : ParallelBatchTask α → Ending) (b : Batch σ α) : Prop :=
  ∀ label b', Step src ending b label b' → ∃ job, label = .start job

/-- The producer of an idle call is done, waits for its source or waits for room in a full queue. -/
lemma Idle.producer_or {W} {b : Batch σ α} (idle : Idle src ending b) (h : Inv ending W b) :
    (b.producer = .pulling ∧ ∀ answer, ¬ src b.recorded b.source answer) ∨
      (∃ t, b.producer = .sending t ∧ b.channel.receivers ≠ 0 ∧ W ≤ b.channel.queue.length) ∨
      b.producer.feeding = false := by
  cases e : b.producer with
  | spawning n =>
    cases n with
    | zero => simpa using idle _ _ (.drop_receiver e)
    | succ n => simpa using idle _ _ (.spawn e)
  | pulling =>
    refine .inl ⟨rfl, fun answer pull => ?_⟩
    cases answer with
    | quiet => simpa using idle _ _ (.pull_quiet e pull)
    | some => simpa using idle _ _ (.pull_some e pull)
    | none => simpa using idle _ _ (.pull_none e pull)
    | unwind => simpa using idle _ _ (.pull_unwind e pull)
  | sending t =>
    cases sent : b.channel.send t with
    | sent c => simpa using idle _ _ (.send e sent)
    | disconnected => simpa using idle _ _ (.send_error e sent)
    | blocked =>
      obtain ⟨pos, full⟩ := Channel.send_eq_blocked.mp sent
      exact .inr (.inl ⟨t, rfl, pos, h.shape.capacity ▸ full⟩)
  | returned v => exact .inr (.inr rfl)
  | unwound => exact .inr (.inr rfl)

/-- Over a source that answers, the producer of an idle call is done or faces a full queue. -/
lemma Idle.producer {W} {b : Batch σ α} (idle : Idle src ending b) (h : Inv ending W b)
    (live : src.Responsive) :
    (∃ t, b.producer = .sending t ∧ b.channel.receivers ≠ 0 ∧ W ≤ b.channel.queue.length) ∨
      b.producer.feeding = false := by
  refine (idle.producer_or h).resolve_left fun ⟨_, silent⟩ => ?_
  obtain ⟨answer, pull⟩ := live b.recorded b.source
  exact silent answer pull

/-- A job of an idle call that has a task executes one that never returns. -/
lemma Idle.executing {W} {b : Batch σ α} {w t} (idle : Idle src ending b) (h : Inv ending W b)
    (mem : w ∈ b.workers) (task : w.task? = some t) : w = .executing t ∧ ending t = .parks := by
  obtain ⟨l, r, e⟩ := List.append_of_mem mem
  cases w with
  | executing u =>
    cases task
    by_contra goes
    simpa using idle _ _ (.record e (by simpa using goes))
  | recorded u =>
    cases task
    cases end' : ending t with
    | returns => simpa using idle _ _ (.task_returns e end')
    | unwinds => simpa using idle _ _ (.task_unwinds e rfl end')
    | parks => exact absurd end' (h.tally.ending t mem)
  | _ => cases task

/-- A job of an idle call waits on the queue only if the source does not answer: the producer would
have filled or closed the queue. -/
lemma Idle.silent_of_receiving {W} {b : Batch σ α} (idle : Idle src ending b) (h : Inv ending W b)
    (pos : 0 < W) (mem : .receiving ∈ b.workers) :
    b.producer = .pulling ∧ ∀ answer, ¬ src b.recorded b.source answer := by
  obtain ⟨l, r, e⟩ := List.append_of_mem mem
  cases received : b.channel.recv with
  | received t c => simpa using idle _ _ (.recv e received)
  | disconnected => simpa using idle _ _ (.recv_closed e received)
  | blocked =>
    obtain ⟨queue, sender⟩ := Channel.recv_eq_blocked.mp received
    obtain silent | ⟨t, -, -, full⟩ | done := idle.producer_or h
    · exact silent
    · rw [queue, List.length_nil] at full
      omega
    · simp [h.shape.sender, done] at sender

/-- Over a source that answers, no job of an idle call waits on the queue. -/
lemma Idle.not_receiving {W} {b : Batch σ α} (idle : Idle src ending b) (h : Inv ending W b)
    (live : src.Responsive) (pos : 0 < W) : .receiving ∉ b.workers := by
  intro mem
  obtain ⟨-, silent⟩ := idle.silent_of_receiving h pos mem
  obtain ⟨answer, pull⟩ := live b.recorded b.source
  exact silent answer pull

/-- The scope of a call ends when its body and all of its jobs have. -/
lemma scope_step {b : Batch σ α} (done : b.producer.feeding = false)
    (exited : ∀ w ∈ b.workers, w.live = false) (none : b.result = none) :
    ∃ result, Step src ending b .scope { b with result := some result } := by
  by_cases unw : b.producer = .unwound ∨ .unwound ∈ b.workers
  · exact ⟨_, .scope_unwinds done exited unw none⟩
  · rw [not_or] at unw
    have returned : ∀ w ∈ b.workers, w = .returned := by
      intro w hw
      cases w with
      | returned => rfl
      | unwound => exact absurd hw unw.2
      | _ => exact absurd (exited _ hw) (by simp)
    obtain ⟨v, e⟩ : ∃ v, b.producer = .returned v := by
      cases e : b.producer with
      | returned v => exact ⟨v, rfl⟩
      | unwound => exact absurd e unw.1
      | _ => simp [e] at done
    exact ⟨_, .scope_returns e returned none⟩

/-- The scope of an idle call has ended when its body and its jobs have. -/
lemma Idle.ended {b : Batch σ α} (idle : Idle src ending b)
    (done : b.producer.feeding = false) (exited : ∀ w ∈ b.workers, w.live = false) :
    b.result ≠ none := by
  intro none
  obtain ⟨result, st⟩ : ∃ result, Step src ending b .scope { b with result := some result } :=
    scope_step done exited none
  simpa using idle _ _ st

/-- In an idle call without unstarted jobs and parked tasks all jobs have ended. -/
lemma Idle.all_dead {W} {b : Batch σ α} (idle : Idle src ending b) (h : Inv ending W b)
    (live : src.Responsive) (pos : 0 < W) (started : .unstarted ∉ b.workers)
    (goes : ∀ t ∈ b.inHand, ending t ≠ .parks) : ∀ w ∈ b.workers, w.live = false := by
  intro w hw
  cases task : w.task? with
  | some t =>
    obtain ⟨-, parks⟩ := idle.executing h hw task
    exact absurd parks (goes t (List.mem_filterMap.mpr ⟨w, hw, task⟩))
  | none =>
    cases w with
    | unstarted => exact absurd hw started
    | receiving => exact absurd hw (idle.not_receiving h live pos)
    | executing | recorded => cases task
    | returned | unwound => rfl

/-- The source of the call is silent, or a task in a hand never ends. -/
def Held (src : Source σ α) (ending : ParallelBatchTask α → Ending) (b : Batch σ α) : Prop :=
  (b.producer = .pulling ∧ ∀ answer, ¬ src b.recorded b.source answer) ∨
    ∃ t ∈ b.inHand, ending t = .parks

/-- A source that answers and tasks that end do not hold up a call. -/
lemma not_held {b : Batch σ α} (live : src.Responsive) (goes : ∀ t, ending t ≠ .parks) :
    ¬ b.Held src ending := by
  rintro (⟨-, silent⟩ | ⟨t, -, parks⟩)
  · obtain ⟨answer, pull⟩ := live b.recorded b.source
    exact silent answer pull
  · exact goes t parks

/-- A started job of an idle call that has not ended shows that the call is held up. -/
lemma Idle.held {W} {b : Batch σ α} {w} (idle : Idle src ending b) (h : Inv ending W b)
    (pos : 0 < W) (mem : w ∈ b.workers) (live : w.live = true) :
    w = .unstarted ∨ b.Held src ending := by
  cases w with
  | unstarted => exact .inl rfl
  | receiving => exact .inr (.inl (idle.silent_of_receiving h pos mem))
  | executing t | recorded t =>
    obtain ⟨-, parks⟩ := idle.executing h mem rfl
    exact .inr (.inr ⟨t, List.mem_filterMap.mpr ⟨_, mem, rfl⟩, parks⟩)
  | returned | unwound => cases live

/-- An idle call whose jobs have all been started ends, unless it is held up. -/
lemma Idle.ended_of_started {W} {b : Batch σ α} (idle : Idle src ending b) (h : Inv ending W b)
    (pos : 0 < W) (free : ¬ b.Held src ending) (started : .unstarted ∉ b.workers) : b.ended := by
  have exited : ∀ w ∈ b.workers, w.live = false := by
    intro w hw
    by_contra live
    rcases idle.held h pos hw (by simpa using live) with rfl | stays
    · exact started hw
    · exact free stays
  obtain silent | ⟨t, e, some, -⟩ | done := idle.producer_or h
  · exact absurd (.inl silent) free
  · -- all receivers are gone, so the send does not block
    rw [h.shape.receivers, e] at some
    exact absurd (by simpa [List.countP_eq_zero] using exited) some
  · exact idle.ended done exited

/-- A call whose tasks all end never gets stuck before its scope has ended. -/
theorem progress {W} {b : Batch σ α} (h : Inv ending W b) (live : src.Responsive) (pos : 0 < W)
    (goes : ∀ t, ending t ≠ .parks) (open' : b.result = none) : ¬ Stuck (Next src ending) b := by
  intro stuck
  have none : ∀ label b', ¬ Step src ending b label b' := fun label b' st => stuck b' ⟨label, st⟩
  have idle : Idle src ending b := fun label b' st => (none label b' st).elim
  have started : .unstarted ∉ b.workers := by
    intro mem
    obtain ⟨l, r, e⟩ := List.append_of_mem mem
    exact none _ _ (.start e)
  have exited := idle.all_dead h live pos started fun t _ => goes t
  obtain ⟨t, e, some, -⟩ | done := idle.producer h live
  · -- all receivers are gone, so the send does not block
    rw [h.shape.receivers, e] at some
    exact some (by simpa [List.countP_eq_zero] using exited)
  · exact idle.ended done exited open'

/-- Steps that are left to a call, those after a pull of its source apart. -/
def weight (b : Batch σ α) : Nat :=
  b.producer.weight + 3 * b.channel.queue.length + (b.workers.map Worker.weight).sum
    + if b.result = none then 1 else 0

/-- The state of the source, as long as it can be polled. -/
def polled (b : Batch σ α) : Option σ :=
  if b.producer.feeding then some b.source else none

/-- A step uses up a step that is left, or a pull of the source. -/
lemma Step.weight {b label b'} (st : Step src ending b label b') (open' : b.result = none) :
    (b'.polled = b.polled ∧ b'.weight < b.weight) ∨ src.Before b'.polled b.polled := by
  cases st with
  | spawn e => left; simp [Batch.weight, polled, e]; omega
  | drop_receiver e =>
    left
    have := b.channel.dropReceiver_queue_length_le
    simp [Batch.weight, polled, e]; omega
  | pull_quiet e pull => right; simpa [polled, e] using ⟨_, .inl pull⟩
  | pull_some e pull => right; simpa [polled, e] using ⟨_, .inr ⟨_, pull⟩⟩
  | pull_none e => right; simp [polled, e]
  | pull_unwind e => right; simp [polled, e]
  | send e sent =>
    left
    obtain ⟨-, -, rfl⟩ := Channel.send_eq_sent.mp sent
    simp [Batch.weight, polled, e]; omega
  | send_error e => right; simp [polled, e]
  | start e => left; simp [Batch.weight, polled, e]
  | recv e received =>
    left
    obtain ⟨queue, ec⟩ := Channel.recv_eq_received.mp received
    simp [Batch.weight, polled, e, queue]; omega
  | recv_closed e =>
    left
    have := b.channel.dropReceiver_queue_length_le
    simp [Batch.weight, polled, e]; omega
  | record e => left; simp [Batch.weight, polled, e]
  | task_returns e => left; simp [Batch.weight, polled, e]
  | @task_unwinds l r w t e task =>
    left
    have := b.channel.dropReceiver_queue_length_le
    have := Worker.weight_pos_of_task? task
    simp [Batch.weight, polled, e]; omega
  | scope_returns => left; simp [Batch.weight, polled, open']
  | scope_unwinds => left; simp [Batch.weight, polled, open']

/-- Every run of a call over a finite source is finite. -/
theorem terminating {W} {b : Batch σ α} (h : Inv ending W b) (fin : src.Finite b.source) :
    Terminating (Next src ending) b := by
  have acc : Acc src.Before b.polled := by
    unfold polled
    split
    · exact Source.Before.acc_some fin
    · exact Source.Before.acc_none
  refine Terminating.of_image (I := Inv ending W) (fun b => (b.polled, b.weight))
    (Q := fun x y => Prod.Lex src.Before (· < ·) y x) ?_ h
    (Prod.lexAccessible acc (fun n => Nat.lt_wfRel.wf.apply n) _)
  rintro a c ha ⟨label, st⟩
  refine ⟨ha.step st, ?_⟩
  obtain ⟨e, lt⟩ | before := st.weight (ha.closing.not_ended st)
  · rw [e]
    exact .right _ lt
  · exact .left _ _ before

end Batch

end RayonBatch
