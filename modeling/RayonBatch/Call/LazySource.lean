import RayonBatch.Batch.Answers
import RayonBatch.Batch.Unwinding

/-!
# The lazy source of a call

The lazy source belongs to the batch library. `LazySource` is what the scheduling closure sees of
it, and `LazySource.Documented` what that library documents: tasks come in the order of the user's
source, at most `count` of them, and the source ends when the tasks run out, when there is one more
than declared, or when enough failures are recorded. `Admitted` carries this along the runs of a
parallel call.
-/

namespace RayonBatch
open Relation

variable {σ α : Type*}

/-- Why a lazy source has ended. -/
inductive Observation where
  /-- The tasks have run out. -/
  | exhausted
  /-- There is a task beyond the declared count. -/
  | exceeded
  /-- The failure policy has stopped admission. -/
  | stopped
deriving DecidableEq

/-- The lazy source that `execute_with_source` hands to the scheduling closure. -/
structure LazySource (σ α : Type*) where
  next : Source σ α
  start : σ
  /-- Number of tasks returned so far. -/
  position : σ → Nat
  /-- Why the source has ended, once it has. -/
  observed : σ → Observation

/-- When a source over the tasks `supply` may end after `position` tasks, with `log` recorded. -/
def Observation.Justified (supply : Nat → Option α) (count : Nat) (limit : Option Nat)
    (failed : α → Bool) (log : List (ParallelBatchTask α)) (position : Nat) : Observation → Prop
  | exhausted => supply position = none
  | exceeded => count ≤ position ∧ supply position ≠ none
  | stopped => ∃ L, limit = some L ∧ L ≤ log.countP (failed ·.task)

/-- The documented behaviour of the lazy source, over a source that does not unwind. -/
structure LazySource.Documented (lazy : LazySource σ α) (supply : Nat → Option α) (count : Nat)
    (limit : Option Nat) (failed : α → Bool) : Prop where
  start : lazy.position lazy.start = 0
  quiet : ∀ {log s s'}, lazy.next log s (.quiet s') → lazy.position s' = lazy.position s
  some : ∀ {log s a s'}, lazy.next log s (.some a s') → lazy.position s < count ∧
    supply (lazy.position s) = some a ∧ lazy.position s' = lazy.position s + 1
  none : ∀ {log s s'}, lazy.next log s (.none s') → lazy.position s' = lazy.position s ∧
    (lazy.observed s').Justified supply count limit failed log (lazy.position s)
  unwind : ∀ {log s}, ¬ lazy.next log s .unwind
  responsive : lazy.next.Responsive
  finite : lazy.next.Finite lazy.start

/-- A lazy source over a list, as the library documents it. -/
def LazySource.ofList (items : List α) (count : Nat) (limit : Option Nat) (failed : α → Bool) :
    LazySource (Nat × Observation) α where
  next := .ofFun fun log (i, o) =>
    if ∃ L ∈ limit, L ≤ log.countP (failed ·.task) then .none (i, .stopped)
    else
      match items[i]? with
      | some a => if i < count then .some a (i + 1, o) else .none (i, .exceeded)
      | none => .none (i, .exhausted)
  start := (0, .exhausted)
  position := Prod.fst
  observed := Prod.snd

/-- A reason to end stays one when more tasks are recorded. -/
lemma Observation.Justified.append {supply : Nat → Option α} {count limit failed log position o}
    (h : Observation.Justified supply count limit failed log position o) (log') :
    Observation.Justified supply count limit failed (log ++ log') position o := by
  cases o with
  | exhausted => exact h
  | exceeded => exact h
  | stopped =>
    obtain ⟨L, e, le⟩ := h
    exact ⟨L, e, by rw [List.countP_append]; omega⟩

/-- The first items of a source, at most `k` of them, from position `i` on. -/
def available (supply : Nat → Option α) : Nat → Nat → List α
  | _, 0 => []
  | i, k + 1 =>
    match supply i with
    | some a => a :: available supply (i + 1) k
    | none => []

/-- Items that are available come before those that are available behind them. -/
lemma available_append {supply : Nat → Option α} {l : List α} {i k}
    (h : ∀ j (hj : j < l.length), supply (i + j) = some l[j]) (le : l.length ≤ k) :
    available supply i k = l ++ available supply (i + l.length) (k - l.length) := by
  induction l generalizing i k with
  | nil => simp
  | cons a l ih =>
    obtain ⟨k, rfl⟩ := Nat.exists_eq_succ_of_ne_zero (Nat.ne_of_gt (Nat.zero_lt_of_lt le))
    have head : supply i = some a := h 0 (by simp)
    have tail : ∀ j (hj : j < l.length), supply (i + 1 + j) = some l[j] := fun j hj => by
      have := h (j + 1) (by simpa using hj)
      simpa [Nat.add_assoc, Nat.add_comm 1 j] using this
    have rest := ih tail (by simpa using le)
    have position : i + 1 + l.length = i + (l.length + 1) := by omega
    have room : k - l.length = k + 1 - (l.length + 1) := by omega
    simp only [available, head, rest, List.length_cons, List.cons_append, position, room]

/-- Of a list the available items are its next ones. -/
lemma available_getElem? (items : List α) (i k : Nat) :
    available (items[·]?) i k = (items.drop i).take k := by
  induction k generalizing i with
  | zero => simp [available]
  | succ k ih =>
    cases e : items[i]? with
    | none =>
      simp [available, e, List.drop_eq_nil_of_le (List.getElem?_eq_none_iff.mp e)]
    | some a =>
      obtain ⟨lt, ea⟩ := List.getElem?_eq_some_iff.mp e
      simp [available, e, ih, List.drop_eq_getElem_cons lt, ea]

/-- The source over a list answers with one of four answers. -/
lemma LazySource.ofList_next {items : List α} {count limit failed log i o answer}
    (h : (LazySource.ofList items count limit failed).next log (i, o) answer) :
    ((∃ L, limit = some L ∧ L ≤ log.countP (failed ·.task)) ∧ answer = .none (i, .stopped)) ∨
    (∃ a, items[i]? = some a ∧ i < count ∧ answer = .some a (i + 1, o)) ∨
    ((∃ a, items[i]? = some a) ∧ count ≤ i ∧ answer = .none (i, .exceeded)) ∨
    (items[i]? = none ∧ answer = .none (i, .exhausted)) := by
  simp only [ofList, Source.ofFun] at h
  split at h
  next stop =>
    obtain ⟨L, mem, le⟩ := stop
    exact .inl ⟨⟨L, by simpa using mem, le⟩, h⟩
  next =>
    split at h
    next a e =>
      split at h
      next lt => exact .inr (.inl ⟨a, e, lt, h⟩)
      next ge => exact .inr (.inr (.inl ⟨⟨a, e⟩, Nat.not_lt.mp ge, h⟩))
    next e => exact .inr (.inr (.inr ⟨e, h⟩))

/-- The lazy source over a list behaves as documented. -/
lemma LazySource.ofList_documented (items : List α) (count limit failed) :
    (LazySource.ofList items count limit failed).Documented (items[·]?) count limit failed where
  start := rfl
  quiet := fun {log s s'} h => by
    obtain ⟨i, o⟩ := s
    obtain ⟨-, ⟨⟩⟩ | ⟨_, -, -, ⟨⟩⟩ | ⟨-, -, ⟨⟩⟩ | ⟨-, ⟨⟩⟩ := ofList_next h
  some := fun {log s a s'} h => by
    obtain ⟨i, o⟩ := s
    obtain ⟨-, ⟨⟩⟩ | ⟨_, e, lt, ⟨⟩⟩ | ⟨-, -, ⟨⟩⟩ | ⟨-, ⟨⟩⟩ := ofList_next h
    exact ⟨lt, e, rfl⟩
  none := fun {log s s'} h => by
    obtain ⟨i, o⟩ := s
    obtain ⟨stop, ⟨⟩⟩ | ⟨_, -, -, ⟨⟩⟩ | ⟨⟨a, e⟩, ge, ⟨⟩⟩ | ⟨e, ⟨⟩⟩ := ofList_next h
    · exact ⟨rfl, stop⟩
    · exact ⟨rfl, ge, by simp [ofList, e]⟩
    · exact ⟨rfl, e⟩
  unwind := fun {log s} h => by
    obtain ⟨i, o⟩ := s
    obtain ⟨-, ⟨⟩⟩ | ⟨_, -, -, ⟨⟩⟩ | ⟨-, -, ⟨⟩⟩ | ⟨-, ⟨⟩⟩ := ofList_next h
  responsive := fun log s => ⟨_, rfl⟩
  finite := by
    -- every pull that returns a task brings the position closer to the count
    refine Runs.Terminating.of_measure (I := fun _ => True) (fun s => count - s.1) ?_ trivial
    rintro ⟨i, o⟩ s' - ⟨log, h | ⟨a, h⟩⟩
    · obtain ⟨-, ⟨⟩⟩ | ⟨_, -, -, ⟨⟩⟩ | ⟨-, -, ⟨⟩⟩ | ⟨-, ⟨⟩⟩ := ofList_next h
    · obtain ⟨-, ⟨⟩⟩ | ⟨_, e, lt, ⟨⟩⟩ | ⟨-, -, ⟨⟩⟩ | ⟨-, ⟨⟩⟩ := ofList_next h
      exact ⟨trivial, by simp only; omega⟩

/-- What a parallel call has admitted from its lazy source. -/
structure Admitted (lazy : LazySource σ α) (supply : Nat → Option α) (count : Nat)
    (limit : Option Nat) (failed : α → Bool) (b : Batch σ α) : Prop where
  position : lazy.position b.source = b.yielded.length
  bound : b.yielded.length ≤ count
  supplied : ∀ t ∈ b.yielded, supply t.index = some t.task
  ended : ∀ v, b.producer = .returned (.ok v) →
    (lazy.observed b.source).Justified supply count limit failed b.recorded b.yielded.length

namespace Admitted

variable {lazy : LazySource σ α} {supply : Nat → Option α} {count : Nat} {limit : Option Nat}
  {failed : α → Bool} {ending : ParallelBatchTask α → Ending} {b b' : Batch σ α} {label : Label}

/-- A call begins with nothing admitted. -/
lemma init (doc : lazy.Documented supply count limit failed) (W : Nat) :
    Admitted lazy supply count limit failed (Batch.init W lazy.start) := by
  constructor <;> simp [Batch.init, doc.start]

/-- Every step admits what the source supplies next. -/
lemma step (doc : lazy.Documented supply count limit failed)
    (h : Admitted lazy supply count limit failed b) (st : Batch.Step lazy.next ending b label b') :
    Admitted lazy supply count limit failed b' := by
  cases st with
  | pull_quiet e pull =>
    exact { h with
      position := (doc.quiet pull).trans h.position
      ended := by simp [e] }
  | pull_some e pull =>
    obtain ⟨lt, some, next⟩ := doc.some pull
    rw [h.position] at lt some next
    exact { h with
      position := by simp [next]
      bound := by simpa using lt
      supplied := by simpa [or_imp, forall_and] using ⟨h.supplied, some⟩
      ended := by simp }
  | pull_none e pull =>
    obtain ⟨same, why⟩ := doc.none pull
    exact { h with
      position := same.trans h.position
      ended := fun _ _ => h.position ▸ why }
  | pull_unwind _ pull => exact absurd pull doc.unwind
  | record => exact { h with ended := fun v e => (h.ended v e).append _ }
  | spawn | drop_receiver | send | send_error => exact { h with ended := by simp }
  | start | recv | recv_closed | task_returns | task_unwinds | scope_returns | scope_unwinds =>
    exact { h with }

/-- What is admitted is what the source supplies, along every run. -/
lemma run (doc : lazy.Documented supply count limit failed) {W : Nat}
    (rs : ReflTransGen (Batch.Next lazy.next ending) (Batch.init W lazy.start) b) :
    Admitted lazy supply count limit failed b :=
  Runs.invariant (fun ⟨_, st⟩ h => h.step doc st) rs (init doc W)

/-- The available items are the admitted ones and those behind them. -/
lemma available_eq (h : Admitted lazy supply count limit failed b) (flow : b.Flow) :
    available supply 0 count = b.yielded.map ParallelBatchTask.task
      ++ available supply b.yielded.length (count - b.yielded.length) := by
  have items : ∀ j (hj : j < (b.yielded.map ParallelBatchTask.task).length),
      supply (0 + j) = some (b.yielded.map ParallelBatchTask.task)[j] := by
    intro j hj
    have lt : j < b.yielded.length := by simpa using hj
    have index : b.yielded[j].index = j := by
      have := congrArg (·[j]?) flow.indexed
      simpa [lt] using this
    have := h.supplied _ (List.getElem_mem lt)
    rw [index] at this
    simpa using this
  simpa using available_append (k := count) items (by simpa using h.bound)

/-- A source that was not stopped has admitted all that it had, up to the count. -/
lemma yielded_of_not_stopped (h : Admitted lazy supply count limit failed b) (flow : b.Flow)
    {v} (e : b.producer = .returned (.ok v)) (ne : lazy.observed b.source ≠ .stopped) :
    b.yielded.map ParallelBatchTask.task = available supply 0 count := by
  have why := h.ended v e
  rw [h.available_eq flow]
  cases o : lazy.observed b.source with
  | exhausted =>
    rw [o] at why
    have none : supply b.yielded.length = none := why
    cases count - b.yielded.length with
    | zero => simp [available]
    | succ k => simp [available, none]
  | exceeded =>
    rw [o] at why
    simp [Nat.sub_eq_zero_of_le why.1, available]
  | stopped => exact absurd o ne

end Admitted

end RayonBatch
