import RayonBatch.Batch.Unwinding

/-!
# Concurrent calls on shared pools

Any number of parallel calls, in flight together, whose jobs are run by the threads of their pools.
A thread runs at most one job at a time and keeps it until it ends; which idle thread starts which
job, and when, is open, and so is the order of all other steps. Each call has its own scope, channel
and source, so a step of the system is a step of one call (`System.step_call`, `System.run_call`);
`Manned` says which thread runs which job.
-/

namespace RayonBatch
open Relation Runs

variable {π ι θ σ α : Type*}

/-- A call that has been dispatched to the parallel path. -/
structure ParallelCall (π : Type*) [DecidableEq π] where
  executor : RayonBatchExecutor π
  entry : Entry
  worker : Bool
  count : Nat
  active : List π
  parallel : (executor.dispatch entry worker count active).1 = .parallel

/-- State of the calls, and the job (a call and a position in its spawn order) each thread runs. -/
structure System (ι θ σ α : Type*) where
  calls : ι → Batch σ α
  running : θ → Option (ι × Nat)

namespace System

section Defs

variable [DecidableEq ι] [DecidableEq θ] [DecidableEq π]

/-- All calls are dispatched and no thread has started a job. -/
def init [Fintype θ] (home : θ → Option π) (call : ι → ParallelCall π) (start : ι → σ) :
    System ι θ σ α where
  calls := fun i => .init
    ((call i).executor.worker_count (current_num_threads home) (call i).count) (start i)
  running := fun _ => none

/-- One step of one call, made by its producer or its scope or by the thread that runs the job. -/
inductive Step (home : θ → Option π) (call : ι → ParallelCall π) (src : ι → Source σ α)
    (ending : ι → ParallelBatchTask α → Ending) : System ι θ σ α → System ι θ σ α → Prop where
  | producer {s i b} :
    Batch.Step (src i) (ending i) (s.calls i) .producer b →
    Step home call src ending s { s with calls := Function.update s.calls i b }
  /-- An idle thread of the pool takes a job that is not started. -/
  | start {s i j b t} :
    s.running t = none →
    home t = some (call i).executor.pool →
    Batch.Step (src i) (ending i) (s.calls i) (.start j) b →
    Step home call src ending s {
      calls := Function.update s.calls i b
      running := Function.update s.running t (some (i, j)) }
  | work {s i j b t} :
    s.running t = some (i, j) →
    Batch.Step (src i) (ending i) (s.calls i) (.work j) b →
    Step home call src ending s { s with calls := Function.update s.calls i b }
  /-- The job ends and its thread is idle again. -/
  | exit {s i j b t} :
    s.running t = some (i, j) →
    Batch.Step (src i) (ending i) (s.calls i) (.exit j) b →
    Step home call src ending s {
      calls := Function.update s.calls i b
      running := Function.update s.running t none }
  | scope {s i b} :
    Batch.Step (src i) (ending i) (s.calls i) .scope b →
    Step home call src ending s { s with calls := Function.update s.calls i b }

end Defs

variable [DecidableEq ι] [DecidableEq θ] [DecidableEq π] {home : θ → Option π}
  {call : ι → ParallelCall π}
  {src : ι → Source σ α} {ending : ι → ParallelBatchTask α → Ending} {s s' : System ι θ σ α}

/-- A step of the system is a step of one of its calls. -/
lemma step_calls (st : Step home call src ending s s') :
    Interleave (fun i => Batch.Next (src i) (ending i)) s.calls s'.calls := by
  cases st with
  | producer st | scope st => exact ⟨_, _, ⟨_, st⟩, rfl⟩
  | work _ st | exit _ st => exact ⟨_, _, ⟨_, st⟩, rfl⟩
  | start _ _ st => exact ⟨_, _, ⟨_, st⟩, rfl⟩

/-- A step of the system is a step of a call or leaves it as it is. -/
lemma step_call (i : ι) (st : Step home call src ending s s') :
    Batch.Next (src i) (ending i) (s.calls i) (s'.calls i) ∨ s.calls i = s'.calls i := by
  obtain ⟨k, b, next, e⟩ := step_calls st
  by_cases h : i = k
  · subst h
    left
    simpa [e] using next
  · right
    simp [e, h]

/-- A run of the system is a run of each call. -/
theorem run_call [Fintype θ] {start : ι → σ} (i : ι)
    (rs : ReflTransGen (Step home call src ending) (init home call start) s) :
    ReflTransGen (Batch.Next (src i) (ending i))
      (.init ((call i).executor.worker_count (current_num_threads home) (call i).count) (start i))
      (s.calls i) :=
  project (fun st => step_call i st) rs

end System

/-- A job that a thread is running. -/
def Worker.busy : Worker α → Bool
  | receiving | executing _ | recorded _ => true
  | unstarted | returned | unwound => false

attribute [simp] Worker.busy.eq_1 Worker.busy.eq_2 Worker.busy.eq_3 Worker.busy.eq_4
  Worker.busy.eq_5 Worker.busy.eq_6

/-- A job with a task is run by a thread. -/
lemma Worker.busy_of_task? {w : Worker α} {t} (h : w.task? = some t) : w.busy = true := by
  cases w <;> simp at h ⊢

/-- What a label does to the jobs of a call. -/
def Label.Moves (label : Label) (l l' : List (Worker α)) : Prop :=
  match label with
  | .producer => l' = l ∨ l' = l ++ [.unstarted]
  | .scope => l' = l
  | .start j => l[j]? = some .unstarted ∧ l' = l.set j .receiving
  | .work j => ∃ w w', l[j]? = some w ∧ w.busy = true ∧ w'.busy = true ∧ l' = l.set j w'
  | .exit j => ∃ w w', l[j]? = some w ∧ w.busy = true ∧ w'.busy = false ∧ l' = l.set j w'

/-- A step moves the jobs as its label tells. -/
lemma Batch.Step.moves {src : Source σ α} {ending : ParallelBatchTask α → Ending} {label}
    {b b' : Batch σ α} (st : Batch.Step src ending b label b') :
    label.Moves b.workers b'.workers := by
  cases st with
  | spawn => exact .inr rfl
  | drop_receiver | pull_quiet | pull_some | pull_none | pull_unwind | send | send_error =>
    exact .inl rfl
  | start e => exact ⟨by simp [e], by simp [e]⟩
  | @recv l r t c e => exact ⟨.receiving, .executing t, by simp [e], rfl, rfl, by simp [e]⟩
  | recv_closed e => exact ⟨.receiving, .returned, by simp [e], rfl, rfl, by simp [e]⟩
  | @record l r t e => exact ⟨.executing t, .recorded t, by simp [e], rfl, rfl, by simp [e]⟩
  | @task_returns l r t e => exact ⟨.recorded t, .receiving, by simp [e], rfl, rfl, by simp [e]⟩
  | @task_unwinds l r w t e task =>
    exact ⟨w, .unwound, by simp [e], Worker.busy_of_task? task, rfl, by simp [e]⟩
  | scope_returns | scope_unwinds => rfl

/-- The threads run the started jobs, one each. -/
structure Manned (s : System ι θ σ α) : Prop where
  busy : ∀ t i j, s.running t = some (i, j) →
    ∃ w, (s.calls i).workers[j]? = some w ∧ w.busy = true
  manned : ∀ i j w, (s.calls i).workers[j]? = some w → w.busy = true →
    ∃ t, s.running t = some (i, j)
  single : ∀ t t' x, s.running t = some x → s.running t' = some x → t = t'

namespace Manned

variable [DecidableEq ι] [DecidableEq θ] {s : System ι θ σ α} {i : ι} {b : Batch σ α} {t : θ}
  {j : Nat}

omit [DecidableEq θ] in
/-- A step that neither starts nor ends a job keeps the threads at their jobs. -/
lemma keep (h : Manned s) {label : Label} (moves : label.Moves (s.calls i).workers b.workers)
    (plain : (∀ j, label ≠ .start j) ∧ ∀ j, label ≠ .exit j) :
    Manned { s with calls := Function.update s.calls i b } := by
  -- the busy jobs of the call are the same as before
  have same : ∀ j : Nat, (∃ w : Worker α, b.workers[j]? = some w ∧ w.busy = true) ↔
      ∃ w : Worker α, (s.calls i).workers[j]? = some w ∧ w.busy = true := by
    intro j
    cases label with
    | producer =>
      obtain e | e := moves
      · rw [e]
      · rw [e, List.getElem?_append]
        split
        · rfl
        next ge =>
          have none : (s.calls i).workers[j]? = none := by simpa using ge
          rw [none, List.getElem?_singleton]
          split <;> simp
    | scope => rw [show b.workers = (s.calls i).workers from moves]
    | work k =>
      obtain ⟨w, w', hw, busy, busy', e⟩ := moves
      obtain ⟨lt, -⟩ := List.getElem?_eq_some_iff.mp hw
      rw [e, List.getElem?_set]
      by_cases hk : k = j
      · subst hk
        exact ⟨fun _ => ⟨w, hw, busy⟩, fun _ => ⟨w', by simp [lt], busy'⟩⟩
      · rw [if_neg hk]
    | start k => exact absurd rfl (plain.1 k)
    | exit k => exact absurd rfl (plain.2 k)
  constructor
  case busy =>
    intro t i' j' run
    by_cases hi : i' = i
    · subst hi
      simpa using (same j').mpr (h.busy t _ j' run)
    · simpa [hi] using h.busy t i' j' run
  case manned =>
    intro i' j' w hw busy
    by_cases hi : i' = i
    · subst hi
      obtain ⟨w', hw', busy'⟩ := (same j').mp ⟨w, by simpa using hw, busy⟩
      exact h.manned _ j' w' hw' busy'
    · exact h.manned i' j' w (by simpa [hi] using hw) busy
  case single => exact h.single

/-- A thread that starts a job is the one that runs it. -/
lemma start (h : Manned s) (idle : s.running t = none)
    (moves : (Label.start j).Moves (s.calls i).workers b.workers) :
    Manned { calls := Function.update s.calls i b,
             running := Function.update s.running t (some (i, j)) } := by
  obtain ⟨hj, e⟩ := moves
  obtain ⟨lt, -⟩ := List.getElem?_eq_some_iff.mp hj
  have fresh : ∀ t', s.running t' ≠ some (i, j) := by
    intro t' run
    obtain ⟨w, hw, busy⟩ := h.busy t' i j run
    rw [hj] at hw
    cases hw
    cases busy
  constructor
  case busy =>
    intro t' i' j' run
    by_cases ht : t' = t
    · subst ht
      obtain ⟨rfl, rfl⟩ : i = i' ∧ j = j' := by simpa using run
      exact ⟨.receiving, by simp [e, lt], rfl⟩
    · have before : s.running t' = some (i', j') := by simpa [ht] using run
      by_cases hi : i' = i
      · subst hi
        have hj : j ≠ j' := fun eq => fresh t' (eq ▸ before)
        simpa [e, hj] using h.busy t' _ j' before
      · simpa [hi] using h.busy t' i' j' before
  case manned =>
    intro i' j' w hw busy
    by_cases hx : i = i' ∧ j = j'
    · obtain ⟨rfl, rfl⟩ := hx
      exact ⟨t, by simp⟩
    · have old : (s.calls i').workers[j']? = some w := by
        by_cases hi : i' = i
        · subst hi
          have hj : j ≠ j' := fun eq => hx ⟨rfl, eq⟩
          simpa [e, hj] using hw
        · simpa [hi] using hw
      obtain ⟨t', run⟩ := h.manned i' j' w old busy
      have ht : t' ≠ t := fun eq => by simp [← eq, run] at idle
      exact ⟨t', by simpa [ht] using run⟩
  case single =>
    intro t₁ t₂ x run₁ run₂
    by_cases h₁ : t₁ = t
    · subst h₁
      by_cases h₂ : t₂ = t₁
      · exact h₂.symm
      · simp only [Function.update_self, Function.update_of_ne h₂] at run₁ run₂
        exact absurd (run₂.trans run₁.symm) (fresh t₂)
    · by_cases h₂ : t₂ = t
      · subst h₂
        simp only [Function.update_self, Function.update_of_ne h₁] at run₁ run₂
        exact absurd (run₁.trans run₂.symm) (fresh t₁)
      · simp only [Function.update_of_ne h₁, Function.update_of_ne h₂] at run₁ run₂
        exact h.single t₁ t₂ x run₁ run₂

/-- A thread whose job ends is free. -/
lemma exit (h : Manned s) (run : s.running t = some (i, j))
    (moves : (Label.exit j).Moves (s.calls i).workers b.workers) :
    Manned { calls := Function.update s.calls i b,
             running := Function.update s.running t none } := by
  obtain ⟨w₀, w', hj, -, idle, e⟩ := moves
  obtain ⟨lt, -⟩ := List.getElem?_eq_some_iff.mp hj
  constructor
  case busy =>
    intro t' i' j' run'
    by_cases ht : t' = t
    · subst ht
      simp at run'
    · have before : s.running t' = some (i', j') := by simpa [ht] using run'
      by_cases hi : i' = i
      · subst hi
        have hj : j ≠ j' := fun eq => ht (h.single _ _ _ before (eq ▸ run))
        simpa [e, hj] using h.busy t' _ j' before
      · simpa [hi] using h.busy t' i' j' before
  case manned =>
    intro i' j' w hw busy
    have other : ¬ (i = i' ∧ j = j') := by
      rintro ⟨rfl, rfl⟩
      have hw : w' = w := by simpa [e, lt] using hw
      rw [hw, busy] at idle
      cases idle
    have old : (s.calls i').workers[j']? = some w := by
      by_cases hi : i' = i
      · subst hi
        have hj : j ≠ j' := fun eq => other ⟨rfl, eq⟩
        simpa [e, hj] using hw
      · simpa [hi] using hw
    obtain ⟨t', run'⟩ := h.manned i' j' w old busy
    have ht : t' ≠ t := by
      rintro rfl
      exact other (by simpa using run.symm.trans run')
    exact ⟨t', by simpa [ht] using run'⟩
  case single =>
    intro t₁ t₂ x run₁ run₂
    by_cases h₁ : t₁ = t
    · simp [h₁] at run₁
    · by_cases h₂ : t₂ = t
      · simp [h₂] at run₂
      · simp only [Function.update_of_ne h₁, Function.update_of_ne h₂] at run₁ run₂
        exact h.single t₁ t₂ x run₁ run₂

/-- Every step keeps the threads at their jobs. -/
lemma step [DecidableEq π] {home : θ → Option π} {call : ι → ParallelCall π} {src : ι → Source σ α}
    {ending : ι → ParallelBatchTask α → Ending} {s' : System ι θ σ α} (h : Manned s)
    (st : System.Step home call src ending s s') : Manned s' := by
  cases st with
  | producer st | scope st => exact h.keep st.moves (by simp)
  | work _ st => exact h.keep st.moves (by simp)
  | start idle _ st => exact h.start idle st.moves
  | exit run st => exact h.exit run st.moves

/-- In every reachable state the threads run the started jobs. -/
lemma run [DecidableEq π] [Fintype θ] {home : θ → Option π} {call : ι → ParallelCall π}
    {src : ι → Source σ α} {ending : ι → ParallelBatchTask α → Ending} {begin : ι → σ}
    (rs : ReflTransGen (System.Step home call src ending) (System.init home call begin) s) :
    Manned s :=
  invariant (fun st h => h.step st) rs
    ⟨by simp [System.init], by simp [System.init, Batch.init], by simp [System.init]⟩

end Manned

end RayonBatch
