import RayonBatch.Batch.Order
import RayonBatch.Call.Results

/-!
# How late a stop policy can stop

The lazy source reads the number of recorded failures once for every pull (`LazySource.Polls`). When
it does so after `k` tasks, up to `W` tasks are queued, and of the others all but the last one
received and `W - 1` more are recorded (`Lag`). So it finds fewer failures than the limit `L` only
if fewer than `L + (W - 1)` of the first `k - (W + 1)` tasks fail (`Few`), and a call can end only
as `EndsAt` says.
-/

namespace RayonBatch
open Relation

variable {σ α : Type*}

/-- Fewer failures than the limit are recorded. -/
def Below (limit : Option Nat) (failed : α → Bool) (log : List (ParallelBatchTask α)) : Prop :=
  ∀ L ∈ limit, log.countP (failed ·.task) < L

/-- A step of a lazy source inside a pull. -/
def LazySource.Goes (lazy : LazySource σ α) (log : List (ParallelBatchTask α)) (s s' : σ) : Prop :=
  lazy.next log s (.quiet s')

/-- How a lazy source polls its failure policy, where `read` tells whether it has found the failures
below the limit for the pull that it is in. -/
structure LazySource.Polls (lazy : LazySource σ α) (read : σ → Prop) (supply : Nat → Option α)
    (count : Nat) (limit : Option Nat) (failed : α → Bool) : Prop where
  start : ¬ read lazy.start
  quiet : ∀ {log s s'}, lazy.next log s (.quiet s') → read s' → read s ∨ Below limit failed log
  returns : ∀ {log s a s'}, lazy.next log s (.some a s') →
    (read s ∨ Below limit failed log) ∧ ¬ read s'
  closes : ∀ {log s s'}, lazy.next log s (.none s') → lazy.observed s' ≠ .stopped →
    read s ∨ Below limit failed log
  /-- Below the limit a pull returns the next task. -/
  pulls : ∀ {log s a}, ¬ read s → Below limit failed log → lazy.position s < count →
    supply (lazy.position s) = some a →
    ∃ s₁ s', ReflTransGen (lazy.Goes log) s s₁ ∧ lazy.next log s₁ (.some a s')
  /-- Below the limit a pull behind the last task ends the source. -/
  ends : ∀ {log s}, ¬ read s → Below limit failed log →
    (lazy.position s < count → supply (lazy.position s) = none) →
    ∃ s₁ s', ReflTransGen (lazy.Goes log) s s₁ ∧ lazy.next log s₁ (.none s') ∧
      lazy.observed s' ≠ .stopped
  /-- At the limit a pull stops the source. -/
  stops : ∀ {log s}, ¬ read s → ¬ Below limit failed log →
    ∃ s₁ s', ReflTransGen (lazy.Goes log) s s₁ ∧ lazy.next log s₁ (.none s') ∧
      lazy.observed s' = .stopped

section OfList

variable {items : List α} {count : Nat} {limit : Option Nat} {failed : α → Bool}
  {log : List (ParallelBatchTask α)} {s : Nat × Observation} {answer : Pull (Nat × Observation) α}

/-- At the limit a source over a list is stopped. -/
lemma LazySource.ofList_stop (stopped : ¬ Below limit failed log) :
    (LazySource.ofList items count limit failed).next log s answer ↔
      answer = .none (s.1, .stopped) := by
  have stop : ∃ L ∈ limit, L ≤ log.countP (failed ·.task) := by simpa [Below] using stopped
  simp only [ofList, Source.ofFun, if_pos stop]

/-- A source over a list polls in the step in which it answers. -/
lemma LazySource.ofList_polls (items : List α) (count limit failed) :
    (LazySource.ofList items count limit failed).Polls (fun _ => False) (items[·]?) count limit
      failed where
  start := id
  quiet := fun _ => False.elim
  returns := fun h => by
    refine ⟨.inr ?_, id⟩
    by_contra stop
    cases (ofList_stop stop).mp h
  closes := fun h ne => by
    refine .inr ?_
    by_contra stop
    cases (ofList_stop stop).mp h
    exact ne rfl
  pulls := fun {log s a} _ below lt supply => by
    have go : ¬ ∃ L ∈ limit, L ≤ log.countP (failed ·.task) := by simpa [Below] using below
    simp only [ofList] at lt supply
    refine ⟨s, (s.1 + 1, s.2), .refl, ?_⟩
    simp only [ofList, Source.ofFun, if_neg go, supply, if_pos lt]
  ends := fun {log s} _ below last => by
    have go : ¬ ∃ L ∈ limit, L ≤ log.countP (failed ·.task) := by simpa [Below] using below
    simp only [ofList] at last
    cases e : items[s.1]? with
    | none =>
      refine ⟨s, (s.1, .exhausted), .refl, ?_, by simp [ofList]⟩
      simp only [ofList, Source.ofFun, if_neg go, e]
    | some a =>
      have ge : ¬ s.1 < count := fun lt => by simp [last lt] at e
      refine ⟨s, (s.1, .exceeded), .refl, ?_, by simp [ofList]⟩
      simp only [ofList, Source.ofFun, if_neg go, e, if_neg ge]
  stops := fun {log s} _ stop => ⟨s, (s.1, .stopped), .refl, (ofList_stop stop).mpr rfl, rfl⟩

end OfList

namespace Batch

variable {src : Source σ α} {ending : ParallelBatchTask α → Ending} {W : Nat} {b b' : Batch σ α}
  {label : Label}

/-- Of the tasks received before the last one, no more than `W - 1` are missing from the record, and
these are all the failures that can be. -/
def Lag (failing : ParallelBatchTask α → Bool) (W : Nat) (b : Batch σ α) : Prop :=
  b.received.dropLast.countP failing ≤ b.recorded.countP failing + (W - 1)

/-- A job that receives a task leaves at most `W - 1` behind. -/
lemma Inv.received_lag {failing : ParallelBatchTask α → Bool} {l r : List (Worker α)}
    (h : Inv ending W b) (e : b.workers = l ++ .receiving :: r) :
    b.received.countP failing ≤ b.recorded.countP failing + (W - 1) := by
  obtain ⟨u, -, records⟩ := h.tally.records
  have open' := h.unreturned_lt e
  rw [h.unreturned_perm.length_eq, List.length_append] at open'
  have running := b.inHand.countP_le_length (p := failing)
  have gone := b.unwound.countP_le_length (p := failing)
  have taken := h.tally.taken.countP_eq failing
  have recorded := records.countP_eq failing
  simp only [List.countP_append] at taken recorded
  omega

/-- Every step keeps the record close behind the received tasks. -/
lemma Lag.step {failing : ParallelBatchTask α → Bool} (lag : Lag failing W b) (h : Inv ending W b)
    (st : Step src ending b label b') : Lag failing W b' := by
  cases st with
  | recv e =>
    have behind : b.received.countP failing ≤ b.recorded.countP failing + (W - 1) :=
      h.received_lag e
    simpa [Lag] using behind
  | record =>
    unfold Lag at lag ⊢
    simp only [List.countP_append]
    omega
  | _ => exact lag

end Batch

/-- Of the first `k` items so few fail that a call of `W` jobs can still find fewer than the limit
recorded. -/
def Few (failed : α → Bool) (limit : Option Nat) (W : Nat) (items : List α) (k : Nat) : Prop :=
  ∀ L ∈ limit, (items.take k).countP failed < L + (W - 1)

/-- After how many tasks a call of `W` jobs can end, and why: the last poll that found the failures
below the limit was made before the last task when the policy has stopped the source, and after it
otherwise. -/
structure EndsAt (supply : Nat → Option α) (failed : α → Bool) (limit : Option Nat)
    (count W m : Nat) (o : Observation) : Prop where
  le : m ≤ (available supply 0 count).length
  justified : o.Justified supply count limit failed
    (indexed ((available supply 0 count).take m)) m
  few : Few failed limit W (available supply 0 count)
    (m - if o = .stopped then W + 2 else W + 1)

section Sound

variable {lazy : LazySource σ α} {read : σ → Prop} {supply : Nat → Option α} {count : Nat}
  {limit : Option Nat} {failed : α → Bool} {ending : ParallelBatchTask α → Ending} {W : Nat}
  {b b' : Batch σ α} {label : Label}

/-- A longer list has the same first items. -/
lemma Few.append {items items' : List α} {k : Nat} (few : Few failed limit W items k)
    (le : k ≤ items.length) : Few failed limit W (items ++ items') k := by
  intro L mem
  rw [List.take_append_of_le_length le]
  exact few L mem

/-- What the polls of a call have found. -/
structure Polled (lazy : LazySource σ α) (read : σ → Prop) (failed : α → Bool)
    (limit : Option Nat) (W : Nat) (b : Batch σ α) : Prop where
  lag : b.Lag (failed ·.task) W
  read : b.producer.feeding = true → read b.source →
    Few failed limit W (b.yielded.map ParallelBatchTask.task) (b.yielded.length - (W + 1))
  yielded : b.yielded ≠ [] →
    Few failed limit W (b.yielded.map ParallelBatchTask.task) (b.yielded.length - (W + 2))
  ended : ∀ v, b.producer = .returned (.ok v) → lazy.observed b.source ≠ .stopped →
    Few failed limit W (b.yielded.map ParallelBatchTask.task) (b.yielded.length - (W + 1))

/-- A poll that finds the failures below the limit. -/
lemma Batch.Inv.few (h : Batch.Inv ending W b) (pos : 0 < W) (calm : b.unwound = [])
    (lag : b.Lag (failed ·.task) W) (e : b.producer = .pulling)
    (below : Below limit failed b.recorded) :
    Few failed limit W (b.yielded.map ParallelBatchTask.task) (b.yielded.length - (W + 1)) := by
  intro L mem
  have order := h.flow.order
  rw [h.dropped_nil (by simpa [calm] using pos), e] at order
  simp only [List.append_nil, Producer.held] at order
  have room := h.shape.room
  have length := congrArg List.length order
  rw [List.length_append] at length
  -- the first tasks have all been received before the last one
  have early : b.yielded.take (b.yielded.length - (W + 1)) <+: b.received.dropLast := by
    rw [List.dropLast_eq_take]
    have le : b.yielded.length - (W + 1) ≤ b.received.length - 1 := by omega
    have received : b.yielded.take (b.received.length - 1)
        = b.received.take (b.received.length - 1) := by
      rw [order, List.take_append_of_le_length (by omega)]
    rw [← received]
    exact List.take_prefix_take_left le
  have counted := early.sublist.countP_le (p := (failed ·.task))
  have few := below L mem
  have behind : b.received.dropLast.countP (failed ·.task)
      ≤ b.recorded.countP (failed ·.task) + (W - 1) := lag
  rw [← List.map_take, List.countP_map]
  change (b.yielded.take _).countP (failed ·.task) < _
  omega

/-- Every step keeps what the polls have found. -/
lemma Polled.step (polls : lazy.Polls read supply count limit failed)
    (h : Polled lazy read failed limit W b) (inv : Batch.Inv ending W b) (pos : 0 < W)
    (calm : b.unwound = []) (st : Batch.Step lazy.next ending b label b') :
    Polled lazy read failed limit W b' := by
  have lag := h.lag.step inv st
  cases st with
  | pull_quiet e pull =>
    refine ⟨lag, fun feeding now => ?_, h.yielded, by simp [e]⟩
    rcases polls.quiet pull now with before | below
    · exact h.read feeding before
    · exact inv.few pos calm h.lag e below
  | pull_some e pull =>
    obtain ⟨polled, unread⟩ := polls.returns pull
    have few : Few failed limit W (b.yielded.map ParallelBatchTask.task)
        (b.yielded.length - (W + 1)) :=
      polled.elim (h.read (by simp [e])) (inv.few pos calm h.lag e)
    refine ⟨lag, fun _ now => absurd now unread, fun _ => ?_, by simp⟩
    rw [List.map_append, List.length_append, List.length_singleton, Nat.add_sub_add_right]
    exact few.append (by simp)
  | pull_none e pull =>
    refine ⟨lag, by simp, h.yielded, fun _ _ ne => ?_⟩
    exact (polls.closes pull ne).elim (h.read (by simp [e])) (inv.few pos calm h.lag e)
  | pull_unwind e pull => exact ⟨lag, by simp, h.yielded, by simp⟩
  | spawn e | drop_receiver e | send e =>
    exact { h with lag, read := fun _ => h.read (by simp [e]), ended := by simp }
  | send_error => exact { h with lag, read := by simp, ended := by simp }
  | _ => exact { h with lag }

/-- What the polls have found holds along every run. -/
lemma Polled.run (polls : lazy.Polls read supply count limit failed) (pos : 0 < W)
    (goes : ∀ t, ending t ≠ .unwinds)
    (rs : ReflTransGen (Batch.Next lazy.next ending) (Batch.init W lazy.start) b) :
    Polled lazy read failed limit W b := by
  have init : Polled lazy read failed limit W (Batch.init W lazy.start) := by
    refine ⟨?_, fun _ now => absurd now polls.start, ?_, ?_⟩ <;> simp [Batch.init, Batch.Lag]
  refine (Runs.invariant (I := fun b => Batch.Inv ending W b ∧ Polled lazy read failed limit W b)
    (fun next both => ?_) rs ⟨.init _ _ _, init⟩).2
  obtain ⟨label, st⟩ := next
  obtain ⟨inv, h⟩ := both
  exact ⟨inv.step st, h.step polls inv pos (inv.unwound_nil goes) st⟩

/-- A parallel call ends only so. -/
lemma Ended.endsAt {R E : Type*} {run : α → TaskResult R E}
    (doc : lazy.Documented supply count limit (fails run))
    (polls : lazy.Polls read supply count limit (fails run)) (limits : ∀ L ∈ limit, 0 < L)
    (pos : 0 < W) (goes : ∀ t, ending t ≠ .unwinds)
    (rs : ReflTransGen (Batch.Next lazy.next ending) (Batch.init W lazy.start) b)
    (ended : b.ended) :
    EndsAt supply (fails run) limit count W b.yielded.length (lazy.observed b.source) ∧
      b.recorded.Perm (indexed ((available supply 0 count).take b.yielded.length)) := by
  have inv := Batch.Inv.run rs
  have calm := inv.unwound_nil goes
  have done := Ended.of_calm doc pos rs ended calm
  have polled := Polled.run polls pos goes rs
  obtain ⟨-, body⟩ := inv.result_ok pos ended calm (Batch.calm_run (fun _ _ => doc.unwind) rs)
  obtain ⟨items, settled, recorded⟩ := done.settled
  have length : items.length = b.yielded.length := by
    rw [← length_indexed, ← recorded.length_eq, done.recorded.length_eq]
  have first := List.prefix_iff_eq_take.mp settled.first
  rw [length] at first
  have yielded : b.yielded.map ParallelBatchTask.task = items := by
    rw [done.yielded, map_task_indexed, first]
  refine ⟨⟨length ▸ settled.first.length_le, first ▸ length ▸ settled.observed, ?_⟩,
    first ▸ recorded⟩
  have few : Few (fails run) limit W items
      (b.yielded.length - if lazy.observed b.source = .stopped then W + 2 else W + 1) := by
    rw [← yielded]
    split
    next stopped =>
      rcases eq_or_ne b.yielded [] with none | some
      · intro L mem
        have := limits L mem
        simp only [none, List.map_nil, List.take_nil, List.countP_nil]
        omega
      · exact polled.yielded some
    next on => exact polled.ended _ body on
  obtain ⟨rest, all⟩ := settled.first
  rw [← all]
  exact few.append (length ▸ Nat.sub_le _ _)

end Sound

end RayonBatch
