import Mathlib.Data.Finset.Card
import RayonBatch.Batch.Answers
import RayonBatch.Batch.Calm
import RayonBatch.Pool.System

/-!
# Progress of calls that share a pool

Calls on one pool of `P` threads, in which fewer than `P` tasks never return. Every run is finite
(`System.terminating`). In a stuck state every call is `Idle`, so a running job executes a task that
never returns (`SharedPool.executing`), and a thread is left over (`SharedPool.idle_thread`) that
would start any job that is not started. A task is left in a queue only if all jobs of its call hold
a task that never returns; these are `P` tasks, or as many as the call has (`SharedPool.queue_nil`).
So the source of every call is used up and exactly the tasks that return have been executed
(`SharedPool.progressed`).
-/

namespace List

/-- What the elements of a list have in common tells their positions apart if it is distinct. -/
lemma getElem?_inj_of_nodup_filterMap {α β : Type*} {f : α → Option β} {l : List α}
    (nodup : (l.filterMap f).Nodup) {i j : Nat} {a b : α} {c : β} (hi : l[i]? = some a)
    (hj : l[j]? = some b) (ha : f a = some c) (hb : f b = some c) : i = j := by
  rw [Nodup, pairwise_filterMap, pairwise_iff_getElem] at nodup
  obtain ⟨lti, rfl⟩ := getElem?_eq_some_iff.mp hi
  obtain ⟨ltj, rfl⟩ := getElem?_eq_some_iff.mp hj
  rcases Nat.lt_trichotomy i j with lt | eq | gt
  · exact absurd rfl (nodup i j lti ltj lt c ha c hb)
  · exact eq
  · exact absurd rfl (nodup j i ltj lti gt c hb c ha)

end List

namespace RayonBatch
open Relation Runs

variable {π ι θ σ α : Type*}

/-- A source that returns at most `n` tasks from a state on. -/
def Source.AtMost (src : Source σ α) (s : σ) (n : Nat) : Prop :=
  ∃ left : σ → Nat, left s ≤ n ∧ ∀ log s s', (src log s (.quiet s') → left s' ≤ left s) ∧
    ∀ a, src log s (.some a s') → left s' < left s

/-- A call never yields more than its source returns. -/
lemma Batch.yielded_length_le {src : Source σ α} {ending : ParallelBatchTask α → Ending} {W : Nat}
    {s : σ} {n : Nat} {b : Batch σ α} (bound : src.AtMost s n)
    (rs : ReflTransGen (Batch.Next src ending) (Batch.init W s) b) : b.yielded.length ≤ n := by
  obtain ⟨left, start, pull⟩ := bound
  -- while the source is polled its budget bounds what is still to come
  have inv : b.yielded.length ≤ n ∧
      (b.producer.feeding = true → left b.source + b.yielded.length ≤ n) := by
    refine invariant (I := fun b => b.yielded.length ≤ n ∧
      (b.producer.feeding = true → left b.source + b.yielded.length ≤ n)) ?_ rs
      ⟨by simp [Batch.init], by simpa [Batch.init] using start⟩
    rintro b b' ⟨label, st⟩ ⟨le, budget⟩
    cases st with
    | pull_quiet e answer =>
      have := (pull _ _ _).1 answer
      have := budget (by simp [e])
      exact ⟨le, fun _ => by simp only; omega⟩
    | pull_some e answer =>
      have := (pull _ _ _).2 _ answer
      have := budget (by simp [e])
      exact ⟨by simp; omega, fun _ => by simp; omega⟩
    | pull_none | pull_unwind | send_error => exact ⟨le, by simp⟩
    | spawn e | drop_receiver e | send e => exact ⟨le, fun _ => budget (by simp [e])⟩
    | _ => exact ⟨le, budget⟩
  exact inv.1

namespace System

variable [DecidableEq ι] [DecidableEq θ] [DecidableEq π] {home : θ → Option π}
  {call : ι → ParallelCall π}
  {src : ι → Source σ α} {ending : ι → ParallelBatchTask α → Ending} {s : System ι θ σ α}

/-- Calls over finite sources have finite runs, however they interleave. -/
lemma terminating [Finite ι] [Fintype θ] {start : ι → σ}
    (fin : ∀ i, (src i).Finite (start i)) :
    Terminating (Step home call src ending) (init home call start) := by
  refine Terminating.of_image (I := fun _ => True) System.calls
    (fun _ st => ⟨trivial, step_calls st⟩)
    trivial (Terminating.interleave fun i => ?_)
  exact Batch.terminating (Batch.Inv.init (ending i) _ (start i)) (fin i)

/-- In a stuck state nothing but the start of a job can happen in a call. -/
lemma idle_of_stuck (manned : Manned s) (stuck : Stuck (Step home call src ending) s) (i : ι) :
    (s.calls i).Idle (src i) (ending i) := by
  intro label b st
  cases label with
  | producer => exact absurd (.producer st) (stuck _)
  | scope => exact absurd (.scope st) (stuck _)
  | start j => exact ⟨j, rfl⟩
  | work j =>
    obtain ⟨w, -, hw, busy, -⟩ := st.moves
    obtain ⟨t, run⟩ := manned.manned i j w hw busy
    exact absurd (.work run st) (stuck _)
  | exit j =>
    obtain ⟨w, -, hw, busy, -⟩ := st.moves
    obtain ⟨t, run⟩ := manned.manned i j w hw busy
    exact absurd (.exit run st) (stuck _)

end System

/-- What the call `i` has come to where nothing can happen any more, when its source has returned
`items` and exactly the tasks of `S` never return. -/
structure Progressed [DecidableEq ι] (src : Source σ α) (start : σ) (S : Finset (ι × Nat)) (i : ι)
    (items : List α) (b : Batch σ α) : Prop where
  /-- The source has returned these items and ended. -/
  answered : src.Answers start b.recorded items .ended b.source
  /-- The scope body has returned `Ok(())`. -/
  body : b.producer = .returned (.ok ())
  yielded : b.yielded = indexed items
  /-- Exactly the tasks outside `S` have been executed, each once. -/
  executed : b.executed.Perm ((indexed items).filter fun t => (i, t.index) ∉ S)
  /-- With no task in `S` the call has returned. -/
  returned : (∀ t ∈ indexed items, (i, t.index) ∉ S) → b.result = some (.value (.ok ()))
  /-- No job is left unstarted or waits on the queue. -/
  jobs : ∀ w ∈ b.workers, w = .returned ∨ ∃ t, w = .executing t ∧ (i, t.index) ∈ S

/-- Calls on one pool, over sources that do not unwind, in which exactly the tasks of `S` never
return. -/
structure SharedPool [DecidableEq ι] [DecidableEq π] (home : θ → Option π)
    (call : ι → ParallelCall π)
    (src : ι → Source σ α) (ending : ι → ParallelBatchTask α → Ending) (start : ι → σ)
    (S : Finset (ι × Nat)) : Prop where
  pool : ∀ i t, home t = some (call i).executor.pool
  calm : ∀ i log s, ¬ src i log s .unwind
  responsive : ∀ i, (src i).Responsive
  finite : ∀ i, (src i).Finite (start i)
  bounded : ∀ i, (src i).AtMost (start i) (call i).count
  ending : ∀ i t, ending i t = if (i, t.index) ∈ S then .parks else .returns

namespace SharedPool

variable [DecidableEq ι] [DecidableEq θ] [DecidableEq π] [Fintype θ] {home : θ → Option π}
  {call : ι → ParallelCall π} {src : ι → Source σ α} {ending : ι → ParallelBatchTask α → Ending}
  {start : ι → σ} {S : Finset (ι × Nat)} {s : System ι θ σ α} {i : ι}

omit [DecidableEq θ] [Fintype θ] in
/-- A task that never returns is in `S`. -/
lemma mem_of_parks (h : SharedPool home call src ending start S) {t}
    (parks : ending i t = .parks) : (i, t.index) ∈ S := by
  by_contra out
  rw [h.ending, if_neg out] at parks
  cases parks

omit [DecidableEq θ] [Fintype θ] in
/-- No task unwinds. -/
lemma not_unwinds (h : SharedPool home call src ending start S) (t) : ending i t ≠ .unwinds := by
  rw [h.ending]
  split <;> simp

omit [DecidableEq θ] in
/-- The threads of the pool are all threads. -/
lemma threads (h : SharedPool home call src ending start S) (i : ι) :
    current_num_threads home (call i).executor.pool = Fintype.card θ := by
  rw [current_num_threads]
  exact Fintype.card_congr (Equiv.subtypeUnivEquiv (h.pool i))

/-- Every run of the calls is finite. -/
lemma terminating [Finite ι] (h : SharedPool home call src ending start S) :
    Terminating (System.Step home call src ending) (System.init home call start) :=
  System.terminating h.finite

omit [DecidableEq ι] [DecidableEq θ] in
/-- Each call has a job. -/
lemma jobs_pos (call : ι → ParallelCall π) (few : S.card < Fintype.card θ) (i : ι) :
    0 < min (Fintype.card θ) (call i).count := by
  obtain ⟨-, -, tasks, -⟩ := (call i).executor.dispatch_fst_eq_parallel.mp (call i).parallel
  exact Nat.lt_min.mpr ⟨Nat.zero_lt_of_lt few, Nat.zero_lt_of_lt tasks⟩

section Reachable

variable (h : SharedPool home call src ending start S)
  (rs : ReflTransGen (System.Step home call src ending) (System.init home call start) s)

include h rs

/-- Each call keeps its invariants. -/
lemma inv (i : ι) : (s.calls i).Inv (ending i) (min (Fintype.card θ) (call i).count) := by
  have := Batch.Inv.run (System.run_call i rs)
  rwa [RayonBatchExecutor.worker_count, h.threads] at this

/-- Tasks in the hands of a call are known by their positions. -/
lemma inHand_index_inj {t t'} (ht : t ∈ (s.calls i).inHand) (ht' : t' ∈ (s.calls i).inHand)
    (e : t.index = t'.index) : t = t' := by
  have inv := h.inv rs i
  have nodup : ((s.calls i).yielded.map ParallelBatchTask.index).Nodup := by
    rw [inv.flow.indexed]
    exact List.nodup_range
  exact List.inj_on_of_nodup_map nodup (inv.yielded_of_inHand ht) (inv.yielded_of_inHand ht') e

/-- The tasks in hand that never return are among `S`. -/
lemma inHand_length_le
    (parked : ∀ t ∈ (s.calls i).inHand, (i, t.index) ∈ S) : (s.calls i).inHand.length ≤ S.card := by
  have nodup := (h.inv rs i).executed_once
  rw [List.append_assoc] at nodup
  have distinct : ((s.calls i).inHand.map fun t => (i, t.index)).Nodup := by
    refine nodup.of_append_left.map_on fun t ht t' ht' e => ?_
    exact h.inHand_index_inj rs ht ht' (Prod.mk.inj e).2
  rw [← List.length_map (f := fun t => (i, t.index)), ← List.toFinset_card_of_nodup distinct]
  refine Finset.card_le_card fun x hx => ?_
  obtain ⟨t, ht, rfl⟩ := List.mem_map.mp (List.mem_toFinset.mp hx)
  exact parked t ht

variable (few : S.card < Fintype.card θ)
  (stuck : Stuck (System.Step home call src ending) s)

include few stuck

/-- A thread that has not gone idle in a stuck state executes a task of `S`. -/
lemma executing {t i j} (run : s.running t = some (i, j)) :
    ∃ task, (s.calls i).workers[j]? = some (.executing task) ∧ (i, task.index) ∈ S := by
  have manned := Manned.run rs
  have idle := System.idle_of_stuck manned stuck i
  have inv := h.inv rs i
  obtain ⟨w, hw, busy⟩ := manned.busy t i j run
  have mem := List.mem_of_getElem? hw
  cases w with
  | receiving =>
    exact absurd mem (idle.not_receiving inv (h.responsive i) (jobs_pos call few i))
  | executing task =>
    obtain ⟨-, parks⟩ := idle.executing inv mem rfl
    exact ⟨task, hw, h.mem_of_parks parks⟩
  | recorded task =>
    obtain ⟨⟨⟩, -⟩ := idle.executing inv mem rfl
  | _ => cases busy

/-- In a stuck state some thread is idle: the others execute different tasks of `S`. -/
lemma idle_thread : ∃ t, s.running t = none := by
  by_contra all
  have runs : ∀ t, ∃ i j, s.running t = some (i, j) := by
    intro t
    cases e : s.running t with
    | none => exact absurd ⟨t, e⟩ all
    | some x => exact ⟨x.1, x.2, rfl⟩
  choose call' job run using runs
  choose task hand inS using fun t => h.executing rs few stuck (run t)
  have inHand : ∀ t, task t ∈ (s.calls (call' t)).inHand := fun t =>
    List.mem_filterMap.mpr ⟨_, List.mem_of_getElem? (hand t), rfl⟩
  have inj : Function.Injective fun t => (⟨(call' t, (task t).index), inS t⟩ : S) := by
    intro t t' eq
    simp only [Subtype.mk.injEq, Prod.mk.injEq] at eq
    obtain ⟨ec, ei⟩ := eq
    have hand' := hand t'
    have inHand' := inHand t'
    rw [← ec] at hand' inHand'
    have et := h.inHand_index_inj rs (inHand t) inHand' ei
    rw [← et] at hand'
    have nodup := (h.inv rs (call' t)).executed_once
    rw [List.append_assoc] at nodup
    have ej := List.getElem?_inj_of_nodup_filterMap nodup.of_append_left (hand t) hand' rfl rfl
    exact (Manned.run rs).single t t' _ (run t) (by rw [run t', ← ec, ← ej])
  have le := Fintype.card_le_of_injective _ inj
  rw [Fintype.card_coe] at le
  omega

/-- In a stuck state all jobs have been started. -/
lemma started : .unstarted ∉ (s.calls i).workers := by
  intro mem
  obtain ⟨t, idle⟩ := h.idle_thread rs few stuck
  obtain ⟨l, r, e⟩ := List.append_of_mem mem
  exact stuck _ (.start idle (h.pool i t) (.start e))

/-- In a stuck state a job has returned or executes a task of `S`. -/
lemma job {w} (hw : w ∈ (s.calls i).workers) :
    w = .returned ∨ ∃ t, w = .executing t ∧ (i, t.index) ∈ S := by
  have idle := System.idle_of_stuck (Manned.run rs) stuck i
  have inv := h.inv rs i
  cases w with
  | unstarted => exact absurd hw (h.started rs few stuck)
  | receiving => exact absurd hw (idle.not_receiving inv (h.responsive i) (jobs_pos call few i))
  | executing t => exact .inr ⟨t, rfl, h.mem_of_parks (idle.executing inv hw rfl).2⟩
  | recorded t =>
    obtain ⟨⟨⟩, -⟩ := idle.executing inv hw rfl
  | returned => exact .inl rfl
  | unwound =>
    have some : 0 < (s.calls i).workers.countP Worker.dead := List.countP_pos_iff.mpr ⟨_, hw, rfl⟩
    rw [inv.tally.deaths, inv.unwound_nil (h.not_unwinds (i := i))] at some
    cases some

omit few in
/-- In a stuck state all jobs have been spawned. -/
lemma spawned : (s.calls i).workers.length = min (Fintype.card θ) (call i).count := by
  have inv := h.inv rs i
  have toSpawn : (s.calls i).producer.toSpawn = 0 := by
    obtain ⟨t, e, -⟩ | done :=
      (System.idle_of_stuck (Manned.run rs) stuck i).producer inv (h.responsive i)
    · simp [e]
    · exact Producer.toSpawn_of_handles (Producer.handles_of_feeding done)
  rw [← inv.shape.spawned, toSpawn, Nat.add_zero]

/-- In a stuck state all queues are empty. -/
lemma queue_nil : (s.calls i).channel.queue = [] := by
  by_contra ne
  have inv := h.inv rs i
  -- a job that has returned has seen the queue empty and closed
  have hands : ∀ w ∈ (s.calls i).workers, ∃ t, w = .executing t ∧ (i, t.index) ∈ S := by
    intro w hw
    obtain rfl | some := h.job rs few stuck hw
    · exact absurd (inv.flow.closed hw).2 ne
    · exact some
  have all : (s.calls i).inHand.length = (s.calls i).workers.length := by
    rw [Batch.inHand, List.length_filterMap_eq_countP]
    refine List.countP_eq_length.mpr fun w hw => ?_
    obtain ⟨t, rfl, -⟩ := hands w hw
    rfl
  have le : (s.calls i).inHand.length ≤ S.card := by
    refine h.inHand_length_le rs fun t ht => ?_
    obtain ⟨w, hw, task⟩ := List.mem_filterMap.mp ht
    obtain ⟨t', rfl, inS⟩ := hands w hw
    cases task
    exact inS
  -- so the call has fewer jobs than the pool has threads, one for each of its tasks
  rw [all, h.spawned rs stuck] at le
  have jobs : min (Fintype.card θ) (call i).count = (call i).count := by omega
  have bound := Batch.yielded_length_le (h.bounded i) (System.run_call i rs)
  have taken := inv.tally.taken.length_eq
  have queue := List.length_pos_iff.mpr ne
  rw [inv.flow.order] at bound
  simp only [List.length_append, all, h.spawned rs stuck, jobs] at bound taken
  omega

/-- In a stuck state all scope bodies are over. -/
lemma done : (s.calls i).producer.feeding = false := by
  obtain ⟨t, -, -, full⟩ | done :=
    (System.idle_of_stuck (Manned.run rs) stuck i).producer (h.inv rs i) (h.responsive i)
  · have pos := jobs_pos call few i
    rw [h.queue_nil rs few stuck, List.length_nil] at full
    omega
  · exact done

/-- In a stuck state only tasks of `S` are in a hand. -/
lemma inHand {t} (ht : t ∈ (s.calls i).inHand) : (i, t.index) ∈ S := by
  obtain ⟨w, hw, task⟩ := List.mem_filterMap.mp ht
  obtain rfl | ⟨t', rfl, inS⟩ := h.job rs few stuck hw
  · cases task
  · cases task
    exact inS

/-- The scope body of a call has returned `Ok(())`. -/
lemma body : (s.calls i).producer = .returned (.ok ()) :=
  (h.inv rs i).body_ok (jobs_pos call few i) ((h.inv rs i).unwound_nil (h.not_unwinds (i := i)))
    (Batch.calm_run (h.calm i) (System.run_call i rs)) (h.done rs few stuck)

/-- A task that returns has been executed. -/
lemma executed {t} (ht : t ∈ (s.calls i).yielded) (out : (i, t.index) ∉ S) :
    t ∈ (s.calls i).executed := by
  have inv := h.inv rs i
  have calm := inv.unwound_nil (h.not_unwinds (i := i))
  have placed := (inv.placed (jobs_pos call few i) calm).mem_iff.mpr ht
  rw [h.body rs few stuck, h.queue_nil rs few stuck, Producer.held, List.append_nil,
    List.nil_append, List.mem_append] at placed
  exact placed.resolve_left fun hand => out (h.inHand rs few stuck hand)

/-- The executed tasks are the yielded ones that return. -/
lemma executed_perm : (s.calls i).executed.Perm
    ((s.calls i).yielded.filter fun t => (i, t.index) ∉ S) := by
  have inv := h.inv rs i
  have once : (s.calls i).executed.Nodup := inv.executed_once.of_append_left.of_append_right
  refine (List.perm_ext_iff_of_nodup once (inv.flow.yielded_nodup.filter _)).mpr fun t => ?_
  rw [List.mem_filter, decide_eq_true_iff]
  constructor
  · intro ht
    refine ⟨inv.yielded_of_executed ht, fun inS => ?_⟩
    have returns := inv.tally.returns t ht
    rw [h.ending, if_pos inS] at returns
    cases returns
  · exact fun ⟨ht, out⟩ => h.executed rs few stuck ht out

/-- A call none of whose tasks is in `S` has ended. -/
lemma ended (out : ∀ t ∈ (s.calls i).yielded, (i, t.index) ∉ S) : (s.calls i).ended := by
  refine (System.idle_of_stuck (Manned.run rs) stuck i).ended (h.done rs few stuck) fun w hw => ?_
  obtain rfl | ⟨t, rfl, inS⟩ := h.job rs few stuck hw
  · rfl
  · have hand : t ∈ (s.calls i).inHand := List.mem_filterMap.mpr ⟨_, hw, rfl⟩
    exact absurd inS (out t ((h.inv rs i).yielded_of_inHand hand))

/-- Where nothing can happen any more, every call has come as far as its tasks allow. -/
lemma progressed (i : ι) :
    ∃ items, Progressed (src i) (start i) S i items (s.calls i) := by
  have inv := h.inv rs i
  have body := h.body (i := i) rs few stuck
  have all := Batch.yielded_eq_indexed inv.flow
  have answered : Batch.Answered (src i) (start i) (s.calls i) :=
    Batch.answered_run (System.run_call i rs)
  rw [Batch.Answered, body] at answered
  refine ⟨_, answered, body, all, ?_, fun out => ?_, fun w hw => h.job rs few stuck hw⟩
  · rw [← all]
    exact h.executed_perm rs few stuck
  · rw [← all] at out
    exact (inv.result_ok (jobs_pos call few i) (h.ended rs few stuck out)
      (inv.unwound_nil (h.not_unwinds (i := i))) (by simp [body])).1

end Reachable

end SharedPool

/-- Concurrent calls on a pool of `P` threads with fewer than `P` tasks that never return: every run
is finite, and where it stops every other task of every source has been executed, every call without
such a task has returned, and every thread that does not execute such a task is idle. -/
theorem shared_pool_progress [DecidableEq ι] [DecidableEq θ] [DecidableEq π] [Finite ι] [Fintype θ]
    {home : θ → Option π} {call : ι → ParallelCall π} {src : ι → Source σ α}
    {ending : ι → ParallelBatchTask α → Ending} {start : ι → σ} {S : Finset (ι × Nat)}
    (h : SharedPool home call src ending start S) (few : S.card < Fintype.card θ) :
    Terminating (System.Step home call src ending) (System.init home call start) ∧
    ∀ s, ReflTransGen (System.Step home call src ending) (System.init home call start) s →
      Stuck (System.Step home call src ending) s →
      (∀ i, ∃ items, Progressed (src i) (start i) S i items (s.calls i)) ∧
      ∀ t, s.running t = none ∨ ∃ i j task, s.running t = some (i, j) ∧
        (s.calls i).workers[j]? = some (.executing task) ∧ (i, task.index) ∈ S := by
  refine ⟨h.terminating, fun s rs stuck => ⟨h.progressed rs few stuck, fun t => ?_⟩⟩
  cases e : s.running t with
  | none => exact .inl rfl
  | some x =>
    obtain ⟨task, hand, inS⟩ := h.executing rs few stuck e
    exact .inr ⟨x.1, x.2, task, rfl, hand, inS⟩

/-- A source that walks a list. -/
def walk {ρ : Type*} : List ρ → List α → Pull (List α) α
  | _, a :: tasks => .some a tasks
  | _, [] => .none []

/-- A source that walks a list has returned the items before its position, in the end all. -/
lemma walk_answers {tasks rest items : List α} {log phase}
    (h : (Source.ofFun walk).Answers tasks log items phase rest) :
    items ++ rest = tasks ∧ (phase = .ended → rest = []) := by
  induction h with
  | start => exact ⟨rfl, nofun⟩
  | record _ _ ih => exact ih
  | @quiet _ _ rest _ _ pull => cases rest <;> cases pull
  | @some _ _ rest _ _ _ pull ih =>
    cases rest with
    | nil => cases pull
    | cons a rest =>
      cases pull
      exact ⟨by rw [List.append_assoc, List.singleton_append, ih.1], nofun⟩
  | @none _ _ rest _ _ pull ih =>
    cases rest with
    | nil =>
      cases pull
      exact ⟨ih.1, fun _ => rfl⟩
    | cons => cases pull
  | @unwind _ _ rest _ pull => cases rest <;> cases pull

/-- A source that walks a list has ended with all of its items. -/
lemma walk_ended {tasks rest items : List α} {log}
    (h : (Source.ofFun walk).Answers tasks log items .ended rest) : items = tasks := by
  obtain ⟨all, none⟩ := walk_answers h
  rwa [none rfl, List.append_nil] at all

/-- Two calls of two tasks on one pool. -/
def twoCalls : Fin 2 → ParallelCall Unit := fun _ =>
  ⟨⟨(), 2, 0, ⟨0, 0⟩, .Continue, by decide⟩, .execute_with_count, false, 2, [], by decide⟩

/-- The tasks of these calls. -/
def twoTasks : Fin 2 → List Nat
  | 0 => [10, 20]
  | 1 => [30, 40]

/-- They share a pool of two threads. -/
lemma twoCalls_shared (S : Finset (Fin 2 × Nat)) :
    SharedPool (fun _ : Fin 2 => some ()) twoCalls (fun _ => .ofFun walk)
      (fun i t => if (i, t.index) ∈ S then .parks else .returns) twoTasks S where
  pool := fun _ _ => rfl
  calm := fun _ _ tasks h => by cases tasks <;> cases h
  responsive := fun _ _ _ => ⟨_, rfl⟩
  finite := fun _ => by
    refine Terminating.of_measure (I := fun _ => True) List.length ?_ trivial
    rintro tasks rest - ⟨log, h | ⟨a, h⟩⟩ <;> cases tasks <;> cases h
    exact ⟨trivial, by simp⟩
  bounded := fun i => by
    refine ⟨List.length, Nat.le_of_eq ?_, fun log tasks rest => ⟨fun h => ?_, fun a h => ?_⟩⟩
    · match i with
      | 0 | 1 => rfl
    · cases tasks <;> cases h
    · cases tasks <;> cases h
      simp
  ending := fun _ _ => rfl

/-- With the first of their four tasks never returning, the other three are executed, and the other
call returns. -/
theorem shared_pool_progress_two :
    ∃ s : System (Fin 2) (Fin 2) (List Nat) Nat,
      ReflTransGen (System.Step (fun _ => some ()) twoCalls (fun _ => .ofFun walk)
        fun i t => if (i, t.index) ∈ ({(0, 0)} : Finset _) then .parks else .returns)
        (System.init (fun _ => some ()) twoCalls twoTasks) s ∧
      (s.calls 0).executed = [⟨1, 20⟩] ∧ (s.calls 1).executed.Perm [⟨0, 30⟩, ⟨1, 40⟩] ∧
      (s.calls 1).result = some (.value (.ok ())) := by
  obtain ⟨fin, settled⟩ := shared_pool_progress (twoCalls_shared {(0, 0)}) (by decide)
  obtain ⟨s, rs, stuck⟩ := fin.exists_stuck
  obtain ⟨progressed, -⟩ := settled s rs stuck
  obtain ⟨items, first⟩ := progressed 0
  obtain ⟨items', second⟩ := progressed 1
  obtain rfl : items = [10, 20] := walk_ended first.answered
  obtain rfl : items' = [30, 40] := walk_ended second.answered
  exact ⟨s, rs, List.perm_singleton.mp first.executed, second.executed, second.returned (by simp)⟩

end RayonBatch
