import RayonBatch.Batch.Calm
import RayonBatch.Batch.Window
import RayonBatch.Model.Outcome

/-!
# How far a stop policy is overshot

The lazy source reads the number of recorded failures before it pulls an item
(`Source.Checks`). Between the read and the pull other tasks may fail, so one more item can be
admitted after the limit is reached, but no second one (`Step.admitted_le`). When the last failure
is recorded, a job has its result behind it, so no more than `2 * W` results are still to come
(`overshoot_bounded`).
-/

namespace RayonBatch
open Relation Batch

variable {σ α R E : Type*}

/-- How the lazy source of a batch with the failure limit `L` pulls, where `read` tells whether it
has read the failures for the next pull. -/
structure Source.Checks (src : Source σ α) (read : σ → Bool) (failed : ParallelBatchTask α → Bool)
    (L : Nat) : Prop where
  /-- A pull first reads the number of recorded failures, and either gives up or goes on. -/
  unread : ∀ {log s answer}, src log s answer → read s = false →
    (L ≤ log.countP failed ∧ ∃ s', answer = .none s' ∧ read s' = false) ∨
      log.countP failed < L ∧ ∃ s', answer = .quiet s' ∧ read s' = true
  /-- It then pulls one item. -/
  some : ∀ {log s a s'}, src log s (.some a s') → read s' = false

/-- A lazy source over a user's iterator `next`, as the library documents it. -/
def checked {ρ : Type*} (failed : ParallelBatchTask α → Bool) (L : Nat) (next : ρ → Pull ρ α) :
    List (ParallelBatchTask α) → ρ × Bool → Pull (ρ × Bool) α
  | log, (s, false) => if L ≤ log.countP failed then .none (s, false) else .quiet (s, true)
  | _, (s, true) =>
    match next s with
    | .quiet s' => .quiet (s', true)
    | .some a s' => .some a (s', false)
    | .none s' => .none (s', false)
    | .unwind => .unwind

/-- A source that is checked before every pull reads the failures as assumed. -/
lemma checked_checks {ρ : Type*} (failed : ParallelBatchTask α → Bool) (L : Nat)
    (next : ρ → Pull ρ α) : (Source.ofFun (checked failed L next)).Checks Prod.snd failed L where
  unread := by
    rintro log ⟨s, read⟩ answer rfl unread
    obtain rfl : read = false := unread
    rcases Nat.lt_or_ge (log.countP failed) L with go | stop
    · exact .inr ⟨go, (s, true), if_neg (Nat.not_le.mpr go), rfl⟩
    · exact .inl ⟨stop, (s, false), if_pos stop, rfl⟩
  some := by
    rintro log ⟨s, read⟩ a s' h
    cases read with
    | false =>
      simp only [Source.ofFun, checked] at h
      split at h <;> cases h
    | true =>
      simp only [Source.ofFun, checked] at h
      split at h <;> cases h
      rfl

variable {src : Source σ α} {ending : ParallelBatchTask α → Ending} {read : σ → Bool}
  {failed : ParallelBatchTask α → Bool} {L W : Nat} {b b' : Batch σ α} {label : Label}

/-- A recorded task in a hand is a task in a hand. -/
lemma Worker.length_filterMap_recorded?_le (workers : List (Worker α)) :
    (workers.filterMap Worker.recorded?).length ≤ (workers.filterMap Worker.task?).length := by
  induction workers with
  | nil => exact Nat.le_refl 0
  | cons w workers ih => cases w <;> simp <;> omega

/-- The elements that a list has in addition to a prefix of it are all that can be counted more. -/
lemma countP_le_of_prefix {l l' : List α} (p : α → Bool) (h : l <+: l') :
    l'.countP p + l.length ≤ l.countP p + l'.length := by
  obtain ⟨r, rfl⟩ := h
  have := r.countP_le_length (p := p)
  rw [List.countP_append, List.length_append]
  omega

namespace Batch

/-- Tasks the source has returned, and the one it may return without another read. -/
def admitted (read : σ → Bool) (b : Batch σ α) : Nat :=
  b.yielded.length + (read b.source).toNat

/-- A step only adds to the yielded tasks. -/
lemma Step.yielded_prefix (st : Step src ending b label b') : b.yielded <+: b'.yielded := by
  cases st with
  | pull_some => exact List.prefix_append _ _
  | _ => exact List.prefix_refl _

/-- A step only adds to the recorded tasks. -/
lemma Step.recorded_prefix (st : Step src ending b label b') : b.recorded <+: b'.recorded := by
  cases st with
  | record => exact List.prefix_append _ _
  | _ => exact List.prefix_refl _

/-- A run only adds to the yielded tasks. -/
lemma yielded_prefix_of_run (rs : ReflTransGen (Next src ending) b b') :
    b.yielded <+: b'.yielded :=
  Runs.invariant (I := fun c => b.yielded <+: c.yielded)
    (fun ⟨_, st⟩ h => h.trans st.yielded_prefix) rs (List.prefix_refl _)

/-- A run only adds to the recorded tasks. -/
lemma recorded_prefix_of_run (rs : ReflTransGen (Next src ending) b b') :
    b.recorded <+: b'.recorded :=
  Runs.invariant (I := fun c => b.recorded <+: c.recorded)
    (fun ⟨_, st⟩ h => h.trans st.recorded_prefix) rs (List.prefix_refl _)

/-- A step records at most one task. -/
lemma Step.recorded_length_le (st : Step src ending b label b') :
    b'.recorded.length ≤ b.recorded.length + 1 := by
  cases st with
  | record => simp
  | _ => exact Nat.le_succ _

/-- A producer with a task in its hand has not read the failures for the next one. -/
lemma unread_of_sending (checks : src.Checks read failed L) {s : σ}
    (rs : ReflTransGen (Next src ending) (Batch.init W s) b) :
    ∀ t, b.producer = .sending t → read b.source = false := by
  refine Runs.invariant (I := fun b => ∀ t, b.producer = .sending t → read b.source = false)
    ?_ rs (by simp [Batch.init])
  rintro b b' ⟨label, st⟩ h
  cases st with
  | pull_some _ pull => exact fun _ _ => checks.some pull
  | pull_quiet e => simp [e]
  | spawn | drop_receiver | pull_none | pull_unwind | send | send_error => simp
  | _ => exact h

/-- Once the limit is reached a step admits nothing. -/
lemma Step.admitted_le (checks : src.Checks read failed L) (enough : L ≤ b.recorded.countP failed)
    (st : Step src ending b label b') : b'.admitted read ≤ b.admitted read := by
  have stopped : ∀ {answer}, src b.recorded b.source answer → read b.source = false →
      ∃ s', answer = .none s' ∧ read s' = false := by
    intro answer pull unread
    rcases checks.unread pull unread with ⟨-, stop⟩ | ⟨few, -⟩
    · exact stop
    · omega
  unfold admitted
  cases st with
  | @pull_quiet s _ pull =>
    cases e : read b.source with
    | false =>
      obtain ⟨_, ⟨⟩, -⟩ := stopped pull e
    | true => simpa using (read s).toNat_le
  | @pull_some a s _ pull =>
    cases e : read b.source with
    | false =>
      obtain ⟨_, ⟨⟩, -⟩ := stopped pull e
    | true => simp [checks.some pull]
  | @pull_none s _ pull =>
    cases e : read b.source with
    | false =>
      obtain ⟨_, ⟨⟩, unread⟩ := stopped pull e
      simp [unread]
    | true => simpa using (read s).toNat_le
  | _ => exact Nat.le_refl _

/-- At the limit a run admits nothing more. -/
lemma admitted_le_of_run (checks : src.Checks read failed L)
    (enough : L ≤ b.recorded.countP failed) (rs : ReflTransGen (Next src ending) b b') :
    b'.admitted read ≤ b.admitted read := by
  have kept : L ≤ b'.recorded.countP failed ∧ b'.admitted read ≤ b.admitted read := by
    refine Runs.invariant (I := fun c => L ≤ c.recorded.countP failed ∧
      c.admitted read ≤ b.admitted read) ?_ rs ⟨enough, Nat.le_refl _⟩
    rintro c c' ⟨label, st⟩ ⟨enough, le⟩
    exact ⟨enough.trans st.recorded_prefix.sublist.countP_le,
      (st.admitted_le checks enough).trans le⟩
  exact kept.2

/-- Without unwinding, a task that is not recorded is in a hand or in the queue. -/
lemma Inv.yielded_length (h : Inv ending W b) (pos : 0 < W) (calm : b.unwound = []) :
    b.yielded.length + (b.workers.filterMap Worker.recorded?).length
      = b.recorded.length + b.inHand.length + b.channel.queue.length + b.producer.held.length := by
  obtain ⟨u, sub, records⟩ := h.tally.records
  rw [calm, List.sublist_nil] at sub
  subst sub
  have placed := (h.placed pos calm).length_eq
  have recorded := records.length_eq
  simp only [List.length_append, List.length_nil] at placed recorded
  omega

/-- Only yielded tasks are recorded. -/
lemma Inv.recorded_length_le (h : Inv ending W b) (pos : 0 < W) (calm : b.unwound = []) :
    b.recorded.length ≤ b.yielded.length := by
  have length := h.yielded_length pos calm
  have some : (b.workers.filterMap Worker.recorded?).length ≤ b.inHand.length :=
    Worker.length_filterMap_recorded?_le b.workers
  omega

/-- When a result is recorded, at most `2 * W` further results can be recorded without admitting
another task. -/
lemma Step.admitted_of_record (checks : src.Checks read failed L) (pos : 0 < W)
    (goes : ∀ t, ending t ≠ .unwinds) {s : σ}
    (rs : ReflTransGen (Next src ending) (Batch.init W s) b) (st : Step src ending b label b')
    (more : b'.recorded ≠ b.recorded) : b'.admitted read ≤ b'.recorded.length + 2 * W := by
  have h := (Inv.run rs).step st
  have hand := h.shape.inHand_length_le
  have room := h.shape.room
  have length := h.yielded_length pos (h.unwound_nil goes)
  -- the job that has just recorded its task holds one that needs no further result
  have recorder : 0 < (b'.workers.filterMap Worker.recorded?).length := by
    cases st with
    | record => simp
    | _ => exact absurd rfl more
  have ahead : b'.producer.held.length + (read b'.source).toNat ≤ 1 := by
    have unread := unread_of_sending checks (rs.tail ⟨label, st⟩)
    have flag := (read b'.source).toNat_le
    cases e : b'.producer with
    | sending t => simp [unread t e]
    | _ => simpa using flag
  unfold admitted
  omega

/-- Behind the failure that reaches the limit at most `2 * W` results are recorded. -/
lemma results_le (checks : src.Checks read failed L) (pos : 0 < W)
    (goes : ∀ t, ending t ≠ .unwinds) {s : σ} {a b c : Batch σ α}
    (first : ReflTransGen (Next src ending) (Batch.init W s) a) (st : Next src ending a b)
    (few : a.recorded.countP failed < L) (enough : L ≤ b.recorded.countP failed)
    (rest : ReflTransGen (Next src ending) b c) :
    c.recorded.length ≤ b.recorded.length + 2 * W := by
  have h := Inv.run ((first.tail st).trans rest)
  obtain ⟨label, st⟩ := st
  have more : b.recorded ≠ a.recorded := by
    intro same
    rw [same] at enough
    omega
  have window := st.admitted_of_record checks pos goes first more
  have shut := admitted_le_of_run checks enough rest
  have length := h.recorded_length_le pos (h.unwound_nil goes)
  calc c.recorded.length
    _ ≤ c.yielded.length := length
    _ ≤ c.admitted read := Nat.le_add_right _ _
    _ ≤ b.admitted read := shut
    _ ≤ b.recorded.length + 2 * W := window

/-- At most `L + 2 * W` failures are recorded. -/
lemma failures_le (checks : src.Checks read failed L) (limit : 0 < L) (pos : 0 < W)
    (goes : ∀ t, ending t ≠ .unwinds) {s : σ}
    (rs : ReflTransGen (Next src ending) (Batch.init W s) b) :
    b.recorded.countP failed ≤ L + 2 * W := by
  rcases Nat.lt_or_ge (b.recorded.countP failed) L with few | enough
  · omega
  · obtain ⟨a, c, first, few, st, reached, rest⟩ := Runs.exists_crossing
      (P := fun b => L ≤ b.recorded.countP failed) rs (Nat.not_le.mpr limit) enough
    have results := results_le checks pos goes first st (Nat.not_le.mp few) reached rest
    obtain ⟨label, st⟩ := st
    -- the failure that reaches the limit is the only one of its step
    have one := st.recorded_length_le
    have cross := countP_le_of_prefix failed st.recorded_prefix
    have behind := countP_le_of_prefix failed (recorded_prefix_of_run rest)
    omega

end Batch

/-- The record of a task, whose result may depend on its position. -/
def completion (result : ParallelBatchTask α → TaskResult R E) (t : ParallelBatchTask α) :
    Record R E :=
  ⟨t.index, result t⟩

/-- Whether a task fails or panics. -/
def failing (result : ParallelBatchTask α → TaskResult R E) (t : ParallelBatchTask α) : Bool :=
  ! (completion result t).succeeded

/-- Under a policy that stops after `L` failures, over any source and with any results: when the
`L`-th failure is recorded, at most `2 * W` results are still to come, and all tasks that the
source has returned by then are executed before the scope ends; so there are never more than
`L + 2 * W` failures. -/
theorem overshoot_bounded {π : Type*} [DecidableEq π] (current_num_threads : π → Nat)
    (self : RayonBatchExecutor π) (threads : 0 < current_num_threads self.pool)
    {L : { n : Nat // 0 < n }} (policy : self.task_failure_policy.limit = some L) (entry : Entry)
    {worker : Bool} {count : Nat} {active : List π}
    (parallel : (self.dispatch entry worker count active).1 = .parallel)
    {result : ParallelBatchTask α → TaskResult R E}
    (checks : ∀ L, self.task_failure_policy.limit = some L → src.Checks read (failing result) L)
    (goes : ∀ t, ending t ≠ .unwinds) (s : σ) :
    (∀ a b c, ReflTransGen (Next src ending)
        (Batch.init (self.worker_count current_num_threads count) s) a →
      Next src ending a b → a.recorded.countP (failing result) < L →
      L ≤ b.recorded.countP (failing result) → ReflTransGen (Next src ending) b c →
      c.recorded.length ≤ b.recorded.length + 2 * self.worker_count current_num_threads count ∧
        (c.ended → ∀ t ∈ b.yielded, t ∈ c.executed)) ∧
    ∀ c, ReflTransGen (Next src ending)
        (Batch.init (self.worker_count current_num_threads count) s) c →
      (outcome count (c.recorded.map (completion result))).failure_count
        ≤ L + 2 * self.worker_count current_num_threads count := by
  have checks := checks L policy
  have pos := self.worker_count_pos entry threads parallel
  refine ⟨fun a b c first st few enough rest => ?_, fun c rs => ?_⟩
  · have h := Inv.run ((first.tail st).trans rest)
    refine ⟨results_le checks pos goes first st few enough rest, fun ended t ht => ?_⟩
    have yielded := (yielded_prefix_of_run rest).subset ht
    exact (h.executed_perm pos ended (h.unwound_nil goes)).mem_iff.mpr yielded
  · rw [outcome_failure_count, List.countP_map]
    change c.recorded.countP (failing result) ≤ _
    exact failures_le checks L.2 pos goes rs

/-- A task that fails. -/
def broken : ParallelBatchTask Nat → TaskResult Nat Nat :=
  fun t => .error (.Failed t.task)

/-- A source without an end, under a limit of one failure. -/
def endless : List (ParallelBatchTask Nat) → Nat × Bool → Pull (Nat × Bool) Nat :=
  checked (failing broken) 1 fun n => .some n (n + 1)

/-- A run of two jobs in which the first failure is recorded just after the producer has read the
failures for its fifth pull. -/
def overshooting : List Label :=
  [List.replicate 6 .producer, [.start 0, .work 0], List.replicate 3 .producer,
    [.start 1, .work 1], List.replicate 7 .producer, [.work 0, .producer, .work 0, .work 0],
    List.replicate 2 .producer, List.replicate 8 (.work 0), [.exit 0, .work 1, .work 1, .exit 1],
    [.scope]].flatten

/-- The bound is reached: four tasks fail behind the first. -/
theorem overshoot_bounded_five :
    ∃ b : Batch (Nat × Bool) Nat,
      ReflTransGen (Next (.ofFun endless) fun _ => .returns) (Batch.init 2 (0, false)) b ∧
      b.result = some (.value (.ok ())) ∧
      (outcome 1000000 (b.recorded.map (completion broken))).failure_count = 5 ∧
      (outcome 1000000 (b.recorded.map (completion broken))).failure_count ≤ 1 + 2 * 2 := by
  obtain ⟨b, followed, ok⟩ := (Option.any_eq_true _ _).mp
    (show (Runs.follow (exec endless fun _ => .returns) (Batch.init 2 (0, false)) overshooting).any
      (fun b => decide (b.result = some (.value (.ok ())) ∧
        (outcome 1000000 (b.recorded.map (completion broken))).failure_count = 5)) = true by
      decide +kernel)
  obtain ⟨value, failures⟩ := of_decide_eq_true ok
  have checks : (Source.ofFun endless).Checks Prod.snd (failing broken) 1 := checked_checks _ 1 _
  have parallel : ((⟨(), 2, 0, ⟨0, 0⟩, .StopOnFirstFailure, by decide⟩ : RayonBatchExecutor Unit)
      |>.dispatch .execute_with_count false 1000000 []).1 = .parallel := by decide
  have bounded := overshoot_bounded (fun _ : Unit => 2) _ (by decide) rfl .execute_with_count
    parallel (fun _ e => by cases e; exact checks)
    (fun _ => (nofun : Ending.returns ≠ .unwinds)) (0, false)
  have rs := exec_run _ followed
  exact ⟨b, rs, value, failures, bounded.2 b rs⟩

end RayonBatch
