import RayonBatch.Pool.Progress

/-!
# What a call on a shared pool waits for

Calls on any number of pools, whose sources may be silent for a while and whose tasks may never end.
When nothing can happen in the calls of one pool, a call that has not ended is held up by its own
source or by a task of its own (`Batch.Held`), or it has no thread: then every thread of its pool
runs a job of a call that is held up so (`delay`). Calls on other pools do not matter, and a silent
source that answers again lets everything end (`drains_after_resume`).
-/

namespace RayonBatch
open Relation Runs

variable {π ι θ σ α : Type*}

namespace System

variable [DecidableEq ι] [DecidableEq θ] [DecidableEq π] {home : θ → Option π}
  {call : ι → ParallelCall π} {src : ι → Source σ α}
  {ending : ι → ParallelBatchTask α → Ending} {s : System ι θ σ α} {pool : π}

/-- Nothing can happen in the calls on a pool: only jobs are left to be started, and no thread of
the pool is free. -/
def Resting (home : θ → Option π) (call : ι → ParallelCall π) (src : ι → Source σ α)
    (ending : ι → ParallelBatchTask α → Ending) (pool : π) (s : System ι θ σ α) : Prop :=
  ∀ i, (call i).executor.pool = pool → ∀ label b,
    Batch.Step (src i) (ending i) (s.calls i) label b →
      ∃ j, label = .start j ∧ ∀ t, home t = some pool → s.running t ≠ none

omit [DecidableEq ι] [DecidableEq θ] in
/-- A call on a pool at rest is idle. -/
lemma Resting.idle (rest : Resting home call src ending pool s) {i}
    (on : (call i).executor.pool = pool) : (s.calls i).Idle (src i) (ending i) := by
  intro label b st
  obtain ⟨j, start, -⟩ := rest i on label b st
  exact ⟨j, start⟩

/-- In a stuck state all pools are at rest. -/
lemma resting_of_stuck (manned : Manned s) (stuck : Stuck (Step home call src ending) s)
    (pool : π) : Resting home call src ending pool s := by
  rintro i rfl label b st
  cases label with
  | producer => exact absurd (.producer st) (stuck _)
  | scope => exact absurd (.scope st) (stuck _)
  | start j => exact ⟨j, rfl, fun t at_home free => stuck _ (.start free at_home st)⟩
  | work j =>
    obtain ⟨w, -, hw, busy, -⟩ := st.moves
    obtain ⟨t, run⟩ := manned.manned i j w hw busy
    exact absurd (.work run st) (stuck _)
  | exit j =>
    obtain ⟨w, -, hw, busy, -⟩ := st.moves
    obtain ⟨t, run⟩ := manned.manned i j w hw busy
    exact absurd (.exit run st) (stuck _)

/-- A thread runs jobs of calls on its own pool only. -/
lemma home_of_running [Fintype θ] {start : ι → σ}
    (rs : ReflTransGen (Step home call src ending) (init home call start) s) :
    ∀ t i j, s.running t = some (i, j) → home t = some (call i).executor.pool := by
  refine invariant (I := fun s => ∀ t i j, s.running t = some (i, j) →
    home t = some (call i).executor.pool) ?_ rs (by simp [init])
  intro a a' st h t' i' j' run
  cases st with
  | producer | scope | work => exact h t' i' j' run
  | @start i j b t _ at_home =>
    by_cases ht : t' = t
    · subst ht
      obtain ⟨rfl, rfl⟩ : i = i' ∧ j = j' := by simpa using run
      exact at_home
    · exact h t' i' j' (by simpa [ht] using run)
  | @exit i j b t =>
    by_cases ht : t' = t
    · subst ht
      simp at run
    · exact h t' i' j' (by simpa [ht] using run)

/-- Every thread of the pool of the call runs a job of a call that is held up. -/
structure Starved (home : θ → Option π) (call : ι → ParallelCall π) (src : ι → Source σ α)
    (ending : ι → ParallelBatchTask α → Ending) (s : System ι θ σ α) (i : ι) : Prop where
  waiting : .unstarted ∈ (s.calls i).workers
  taken : ∀ t, home t = some (call i).executor.pool → ∃ k j, s.running t = some (k, j) ∧
    (call k).executor.pool = (call i).executor.pool ∧ (s.calls k).Held (src k) (ending k)

/-- When nothing can happen in the calls on a pool, each of them has ended, or is held up by its own
source or by one of its own tasks, or has no thread because such calls have them all. With no call
on the pool held up, all calls on it have ended and its threads are free, whatever the calls on the
other pools do. -/
theorem delay [Fintype θ] (home : θ → Option π) (call : ι → ParallelCall π) (src : ι → Source σ α)
    (ending : ι → ParallelBatchTask α → Ending) (start : ι → σ) (pool : π)
    (threads : 0 < current_num_threads home pool)
    (rs : ReflTransGen (Step home call src ending) (init home call start) s)
    (rest : Resting home call src ending pool s) :
    (∀ i, (call i).executor.pool = pool → (s.calls i).ended ∨
      (s.calls i).Held (src i) (ending i) ∨ Starved home call src ending s i) ∧
    ((∀ i, (call i).executor.pool = pool → ¬ (s.calls i).Held (src i) (ending i)) →
      (∀ i, (call i).executor.pool = pool → (s.calls i).ended) ∧
      ∀ t, home t = some pool → s.running t = none) := by
  have manned := Manned.run rs
  have inv := fun i => Batch.Inv.run (run_call i rs)
  have pos : ∀ i, (call i).executor.pool = pool →
      0 < (call i).executor.worker_count (current_num_threads home) (call i).count := by
    rintro i rfl
    exact (call i).executor.worker_count_pos (call i).entry threads (call i).parallel
  -- a thread of the pool that is not free shows a call that is held up
  have held : ∀ t, home t = some pool → s.running t ≠ none → ∃ k j, s.running t = some (k, j) ∧
      (call k).executor.pool = pool ∧ (s.calls k).Held (src k) (ending k) := by
    intro t at_home taken
    obtain ⟨⟨k, j⟩, run⟩ := Option.ne_none_iff_exists'.mp taken
    have on : (call k).executor.pool = pool := by
      have same := home_of_running rs t k j run
      rw [at_home] at same
      exact (Option.some.inj same).symm
    obtain ⟨w, hw, busy⟩ := manned.busy t k j run
    have some := (rest.idle on).held (inv k) (pos k on) (List.mem_of_getElem? hw)
    cases w with
    | receiving | executing | recorded => exact ⟨k, j, run, on, (some rfl).resolve_left nofun⟩
    | unstarted | returned | unwound => cases busy
  have delayed : ∀ i, (call i).executor.pool = pool → (s.calls i).ended ∨
      (s.calls i).Held (src i) (ending i) ∨ Starved home call src ending s i := by
    rintro i on
    by_cases waiting : .unstarted ∈ (s.calls i).workers
    · obtain ⟨l, r, e⟩ := List.append_of_mem waiting
      obtain ⟨-, -, taken⟩ := rest i on _ _ (.start e)
      subst on
      exact .inr (.inr ⟨waiting, fun t at_home => held t at_home (taken t at_home)⟩)
    · by_cases free : (s.calls i).Held (src i) (ending i)
      · exact .inr (.inl free)
      · exact .inl ((rest.idle on).ended_of_started (inv i) (pos i on) free waiting)
  refine ⟨delayed, fun free => ⟨fun i on => ?_, fun t at_home => ?_⟩⟩
  · obtain ended | stays | ⟨-, taken⟩ := delayed i on
    · exact ended
    · exact absurd stays (free i on)
    · subst on
      obtain ⟨⟨t, at_home⟩⟩ := Fintype.card_pos_iff.mp threads
      obtain ⟨k, -, -, on, stays⟩ := taken t at_home
      exact absurd stays (free k on)
  · by_contra taken
    obtain ⟨k, -, -, on, stays⟩ := held t at_home taken
    exact free k on stays

/-- A run over sources that may be silent is a run over sources that answer more often. -/
lemma run_answered {src' : ι → Source σ α} (answers : ∀ i log s a, src i log s a → src' i log s a)
    {s s' : System ι θ σ α} (rs : ReflTransGen (Step home call src ending) s s') :
    ReflTransGen (Step home call src' ending) s s' := by
  refine ReflTransGen.mono (fun a a' st => ?_) _ _ rs
  cases st with
  | producer st => exact .producer (st.mono (answers _) fun _ _ => rfl)
  | start free at_home st => exact .start free at_home (st.mono (answers _) fun _ _ => rfl)
  | work run st => exact .work run (st.mono (answers _) fun _ _ => rfl)
  | exit run st => exact .exit run (st.mono (answers _) fun _ _ => rfl)
  | scope st => exact .scope (st.mono (answers _) fun _ _ => rfl)

/-- A call that has ended, when its source has returned `items`. -/
structure Emptied (src : Source σ α) (start : σ) (items : List α) (b : Batch σ α) : Prop where
  ended : b.ended
  /-- These are the items that the source has returned. -/
  answered : src.Answers start b.recorded items b.producer.phase b.source
  yielded : b.yielded = indexed items
  /-- With no task unwound, the source has no more items, and they all have been executed, once. -/
  executed : b.unwound = [] → b.producer.phase ≠ .polled ∧ b.executed.Perm (indexed items)
  /-- If the source has not unwound either, the call has returned. -/
  returned : b.unwound = [] → b.producer.phase = .ended → b.result = some (.value (.ok ()))

/-- Sources that were silent for a while do no lasting harm: when they answer, every run is finite,
and where it stops all calls have ended, with all the tasks of their sources executed if none has
unwound, and all threads are free. -/
theorem drains_after_resume [Finite ι] [Fintype θ] (home : θ → Option π) (call : ι → ParallelCall π)
    (src src' : ι → Source σ α) (ending : ι → ParallelBatchTask α → Ending) (start : ι → σ)
    (threads : ∀ i, 0 < current_num_threads home (call i).executor.pool)
    (answers : ∀ i log s a, src i log s a → src' i log s a) (live : ∀ i, (src' i).Responsive)
    (fin : ∀ i, (src' i).Finite (start i)) (goes : ∀ i t, ending i t ≠ .parks)
    (rs : ReflTransGen (Step home call src ending) (init home call start) s) :
    Terminating (Step home call src' ending) s ∧
    ∀ s', ReflTransGen (Step home call src' ending) s s' →
      Stuck (Step home call src' ending) s' →
      (∀ i, ∃ items, Emptied (src' i) (start i) items (s'.calls i)) ∧
      ∀ t, s'.running t = none := by
  have resumed := run_answered answers rs
  refine ⟨(terminating fin).run resumed, fun s' rest stuck => ?_⟩
  have rs' := resumed.trans rest
  have settled := fun i => (delay home call src' ending start _ (threads i) rs'
    (resting_of_stuck (Manned.run rs') stuck _)).2 fun k _ => Batch.not_held (live k) (goes k)
  refine ⟨fun i => ?_, fun t => ?_⟩
  · have ended := (settled i).1 i rfl
    have inv := Batch.Inv.run (run_call i rs')
    have pos := (call i).executor.worker_count_pos (call i).entry (threads i) (call i).parallel
    have all := Batch.yielded_eq_indexed inv.flow
    refine ⟨_, ended, Batch.answered_run (run_call i rs'), all, fun calm => ⟨?_, ?_⟩,
      fun calm phase => ?_⟩
    · exact inv.phase_ne_polled pos calm (inv.closing.ended ended).1
    · exact all ▸ inv.executed_perm pos ended calm
    · refine (inv.result_ok pos ended calm fun body => ?_).1
      simp [body] at phase
  · by_contra taken
    obtain ⟨⟨k, j⟩, run⟩ := Option.ne_none_iff_exists'.mp taken
    rw [(settled k).2 t (home_of_running rs' t k j run)] at run
    cases run

end System

/-- A source that returns the items of a list and is silent then. -/
def paused : Source (List Nat) Nat :=
  fun _ tasks answer => ∃ a rest, tasks = a :: rest ∧ answer = .some a rest

/-- The first of two calls has a source that is silent at its end. -/
def pausing (i : Fin 2) : Source (List Nat) Nat :=
  if i = 0 then paused else .ofFun walk

/-- What the silent sources answer is what the lists answer. -/
lemma pausing_walk (i : Fin 2) (log tasks answer) (h : pausing i log tasks answer) :
    Source.ofFun walk log tasks answer := by
  unfold pausing at h
  split at h
  · obtain ⟨a, rest, rfl, rfl⟩ := h
    rfl
  · exact h

/-- A source that is silent at its end never ends. -/
lemma paused_polled {tasks rest items : List Nat} {log phase}
    (h : paused.Answers tasks log items phase rest) : phase = .polled := by
  induction h with
  | start | quiet | some => rfl
  | record _ _ ih => exact ih
  | none _ pull | unwind _ pull =>
    obtain ⟨a, rest, -, ⟨⟩⟩ := pull

/-- Every run of these two calls is finite. -/
lemma pausing_terminating :
    Terminating (System.Step (fun _ : Fin 2 => some ()) twoCalls pausing fun _ _ => .returns)
      (System.init (fun _ => some ()) twoCalls twoTasks) := by
  refine System.terminating fun i => ?_
  refine .of_image (Q := Source.Pulls (.ofFun walk)) (I := fun _ => True) id ?_ trivial
    ((twoCalls_shared ∅).finite i)
  rintro tasks rest - ⟨log, h⟩
  exact ⟨trivial, log, h.imp (pausing_walk i _ _ _) fun ⟨a, h⟩ => ⟨a, pausing_walk i _ _ _ h⟩⟩

/-- The first call does not end while its source is silent. -/
lemma pausing_open {s : System (Fin 2) (Fin 2) (List Nat) Nat}
    (rs : ReflTransGen (System.Step (fun _ => some ()) twoCalls pausing fun _ _ => .returns)
      (System.init (fun _ => some ()) twoCalls twoTasks) s) : ¬ (s.calls 0).ended := by
  intro ended
  have inv := Batch.Inv.run (System.run_call 0 rs)
  have answered : Batch.Answered paused (twoTasks 0) (s.calls 0) :=
    Batch.answered_run (System.run_call 0 rs)
  exact inv.phase_ne_polled (by decide) (inv.unwound_nil (by simp)) (inv.closing.ended ended).1
    (paused_polled answered)

/-- Where two calls stop of which one has a silent source, this one is held up by it, and the other
has ended, or the first one has all threads. -/
theorem delay_two :
    ∃ s : System (Fin 2) (Fin 2) (List Nat) Nat,
      ReflTransGen (System.Step (fun _ => some ()) twoCalls pausing fun _ _ => .returns)
        (System.init (fun _ => some ()) twoCalls twoTasks) s ∧
      System.Resting (fun _ => some ()) twoCalls pausing (fun _ _ => .returns) () s ∧
      (s.calls 0).Held (pausing 0) (fun _ => .returns) ∧
      ((s.calls 1).ended ∨
        System.Starved (fun _ => some ()) twoCalls pausing (fun _ _ => .returns) s 1) := by
  obtain ⟨s, rs, stuck⟩ := pausing_terminating.exists_stuck
  have rest := System.resting_of_stuck (Manned.run rs) stuck ()
  obtain ⟨delayed, -⟩ := System.delay _ twoCalls _ _ _ () (by decide) rs rest
  have free : ¬ (s.calls 1).Held (pausing 1) fun _ => .returns :=
    Batch.not_held (fun _ _ => ⟨_, rfl⟩) (fun _ => by simp)
  refine ⟨s, rs, rest, ?_, (delayed 1 rfl).imp id fun h => h.resolve_left free⟩
  obtain ended | held | starved := delayed 0 rfl
  · exact absurd ended (pausing_open rs)
  · exact held
  · -- the threads that the first call lacks are those of a call that is held up
    obtain ⟨k, -, -, -, held⟩ := starved.taken 0 rfl
    match k with
    | 0 => exact held
    | 1 => exact absurd held free

/-- When the silent source then ends, both calls end with all their tasks executed. -/
theorem drains_after_resume_two :
    ∃ s s' : System (Fin 2) (Fin 2) (List Nat) Nat,
      ReflTransGen (System.Step (fun _ => some ()) twoCalls pausing fun _ _ => .returns)
        (System.init (fun _ => some ()) twoCalls twoTasks) s ∧
      ¬ (s.calls 0).ended ∧
      ReflTransGen (System.Step (fun _ => some ()) twoCalls (fun _ => .ofFun walk)
        fun _ _ => .returns) s s' ∧
      (s'.calls 0).executed.Perm [⟨0, 10⟩, ⟨1, 20⟩] ∧
      (s'.calls 1).executed.Perm [⟨0, 30⟩, ⟨1, 40⟩] ∧
      (∀ i, (s'.calls i).ended) ∧ ∀ t, s'.running t = none := by
  have shared := twoCalls_shared ∅
  obtain ⟨s, rs, -⟩ := pausing_terminating.exists_stuck
  obtain ⟨fin, settled⟩ := System.drains_after_resume (fun _ => some ()) twoCalls pausing
    (fun _ => .ofFun walk) (fun _ _ => .returns) twoTasks (by decide) pausing_walk
    shared.responsive shared.finite (by simp) rs
  obtain ⟨s', rest, stuck⟩ := fin.exists_stuck
  obtain ⟨emptied, free⟩ := settled s' rest stuck
  have run := (System.run_answered pausing_walk rs).trans rest
  have all : ∀ i, (s'.calls i).executed.Perm (indexed (twoTasks i)) ∧ (s'.calls i).ended := by
    intro i
    obtain ⟨items, h⟩ := emptied i
    have inv := Batch.Inv.run (System.run_call i run)
    obtain ⟨finished, executed⟩ := h.executed (inv.unwound_nil (by simp))
    have answered := h.answered
    have calm := answered.ne_unwound (shared.calm i)
    cases phase : (s'.calls i).producer.phase with
    | polled => exact absurd phase finished
    | unwound => exact absurd phase calm
    | ended =>
      rw [phase] at answered
      obtain rfl := walk_ended answered
      exact ⟨executed, h.ended⟩
  exact ⟨s, s', rs, pausing_open rs, rest, (all 0).1, (all 1).1, fun i => (all i).2, free⟩

end RayonBatch
