import RayonBatch.Batch.Invariant

/-!
# What the source of a call has returned

The tasks of a call are the items that its source has returned, and no others. `Source.Answers`
follows a source on its own: which items it has returned since a state, one after the other, while
tasks were recorded, and how it stands. In every state of a call the yielded tasks are exactly these
items with their positions, and the producer stands as the source does (`answers_run`,
`yielded_eq_indexed`).
-/

namespace RayonBatch
open Relation

variable {σ α : Type*}

/-- How a source stands. -/
inductive Phase where
  /-- It can be polled. -/
  | polled
  /-- It has returned `None`. -/
  | ended
  /-- It has unwound. -/
  | unwound
deriving DecidableEq

/-- What a source has answered since the state `s`: while the tasks of `log` were recorded, one by
one, it has returned `items`, and it stands as the phase and the new state say. -/
inductive Source.Answers (src : Source σ α) (s : σ) :
    List (ParallelBatchTask α) → List α → Phase → σ → Prop where
  | start : Answers src s [] [] .polled s
  | record {log items phase s'} (t : ParallelBatchTask α) :
    Answers src s log items phase s' →
    Answers src s (log ++ [t]) items phase s'
  | quiet {log items s' s''} :
    Answers src s log items .polled s' →
    src log s' (.quiet s'') →
    Answers src s log items .polled s''
  | some {log items s' a s''} :
    Answers src s log items .polled s' →
    src log s' (.some a s'') →
    Answers src s log (items ++ [a]) .polled s''
  | none {log items s' s''} :
    Answers src s log items .polled s' →
    src log s' (.none s'') →
    Answers src s log items .ended s''
  | unwind {log items s'} :
    Answers src s log items .polled s' →
    src log s' .unwind →
    Answers src s log items .unwound s'

/-- A source without unwinding has not unwound. -/
lemma Source.Answers.ne_unwound {src : Source σ α} {s s' : σ} {log items phase}
    (h : src.Answers s log items phase s') (calm : ∀ log s, ¬ src log s .unwind) :
    phase ≠ .unwound := by
  induction h with
  | record _ _ ih => exact ih
  | unwind _ pull => exact absurd pull (calm _ _)
  | start | quiet | some | none => exact nofun

/-- How the producer has left its source. -/
def Producer.phase : Producer α → Phase
  | spawning _ | pulling | sending _ | returned (.error _) => .polled
  | returned (.ok ()) => .ended
  | unwound => .unwound

attribute [simp] Producer.phase.eq_1 Producer.phase.eq_2 Producer.phase.eq_3 Producer.phase.eq_4
  Producer.phase.eq_5 Producer.phase.eq_6

/-- Items with their positions. -/
def indexed (items : List α) : List (ParallelBatchTask α) :=
  items.zipIdx.map fun (a, i) => ⟨i, a⟩

/-- The positions of items are the first numbers. -/
@[simp] lemma map_index_indexed (items : List α) :
    (indexed items).map ParallelBatchTask.index = List.range items.length := by
  simp only [indexed, List.map_map, List.range_eq_range', ← List.zipIdx_map_snd 0 items]
  rfl

/-- Without their positions items are what they were. -/
@[simp] lemma map_task_indexed (items : List α) :
    (indexed items).map ParallelBatchTask.task = items := by
  simp only [indexed, List.map_map]
  exact List.zipIdx_map_fst 0 items

/-- There is a task for each item. -/
@[simp] lemma length_indexed (items : List α) : (indexed items).length = items.length := by
  rw [← List.length_map (f := ParallelBatchTask.task), map_task_indexed]

/-- A task among items is the item at its position. -/
lemma mem_indexed {items : List α} {t : ParallelBatchTask α} :
    t ∈ indexed items ↔ items[t.index]? = some t.task := by
  obtain ⟨i, a⟩ := t
  simp [indexed, List.mem_zipIdx_iff_getElem?]

/-- Tasks are determined by their positions and their items. -/
lemma eq_of_map_eq {l l' : List (ParallelBatchTask α)}
    (index : l.map ParallelBatchTask.index = l'.map ParallelBatchTask.index)
    (task : l.map ParallelBatchTask.task = l'.map ParallelBatchTask.task) : l = l' := by
  induction l generalizing l' with
  | nil => simpa using index
  | cons t l ih =>
    cases l' with
    | nil => simp at index
    | cons t' l' =>
      simp only [List.map_cons, List.cons.injEq] at index task
      obtain ⟨i, a⟩ := t
      obtain ⟨i', a'⟩ := t'
      obtain ⟨rfl, index⟩ := index
      obtain ⟨rfl, task⟩ := task
      rw [ih index task]

namespace Batch

variable {src : Source σ α} {ending : ParallelBatchTask α → Ending} {W : Nat} {s : σ}
  {b b' : Batch σ α} {label : Label}

/-- Yielded tasks are the items at their positions. -/
lemma yielded_eq_indexed (flow : b.Flow) :
    b.yielded = indexed (b.yielded.map ParallelBatchTask.task) :=
  eq_of_map_eq (by simp [flow.indexed]) (by simp)

/-- The source of a call has returned the yielded tasks and stands as its producer says. -/
def Answered (src : Source σ α) (s : σ) (b : Batch σ α) : Prop :=
  src.Answers s b.recorded (b.yielded.map ParallelBatchTask.task) b.producer.phase b.source

/-- A step of the call is followed by the source. -/
lemma Answered.step (h : Answered src s b) (st : Step src ending b label b') :
    Answered src s b' := by
  unfold Answered at h ⊢
  cases st with
  | pull_quiet e pull =>
    rw [e] at h ⊢
    exact h.quiet pull
  | pull_some e pull =>
    rw [e] at h
    rw [List.map_append]
    exact h.some pull
  | pull_none e pull =>
    rw [e] at h
    exact h.none pull
  | pull_unwind e pull =>
    rw [e] at h
    exact h.unwind pull
  | spawn e | drop_receiver e | send e | send_error e =>
    rw [e] at h
    exact h
  | record => exact h.record _
  | start | recv | recv_closed | task_returns | task_unwinds | scope_returns | scope_unwinds =>
    exact h

/-- In every state of a call the yielded tasks are those that its source has returned. -/
lemma answered_run (rs : ReflTransGen (Next src ending) (Batch.init W s) b) : Answered src s b :=
  Runs.invariant (fun ⟨_, st⟩ h => h.step st) rs .start

end Batch

end RayonBatch
