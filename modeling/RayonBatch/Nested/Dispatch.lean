import RayonBatch.Nested.Exec
import RayonBatch.Nested.Reentry

/-!
# Which calls run on the calling thread

The documentation names four reasons for which a call runs sequentially (`Documented`). The code
knows three of them from the call itself; instead of the fourth, that the thread is producing for
the same pool, it asks the registry whether the thread is inside of any call on that pool. The two
differ where the thread is inside of such a call without producing for it: in a task of a call that
runs on the thread itself, or in a job on top of a call that waits (`Overlooked`). Elsewhere the
code does what is documented (`dispatch_documented`).
-/

namespace RayonBatch.Nested
open Relation Runs

universe u
variable {π : Type u} {θ : Type*}

/-- The documented reasons for running a call on the calling thread. -/
inductive Documented (home : Option π) (stack : List (Frame π)) (executor : RayonBatchExecutor π)
    (count : Nat) : Prop where
  | small : count ≤ executor.sequential_threshold → Documented home stack executor count
  | one_worker : executor.thread_count = 1 → Documented home stack executor count
  | worker : home = some executor.pool → Documented home stack executor count
  /-- The thread is inside of the source of a call on the same pool, or of its conversion. -/
  | producer {f} :
    f ∈ stack →
    f.pool? = some executor.pool →
    f.producing = true →
    Documented home stack executor count

/-- The thread is inside of a call on the pool, but not inside of its source, and no other reason
applies. -/
structure Overlooked (home : Option π) (stack : List (Frame π)) (executor : RayonBatchExecutor π)
    (count : Nat) : Prop where
  large : executor.sequential_threshold < count
  many : executor.thread_count ≠ 1
  outside : home ≠ some executor.pool
  inside : ∃ f ∈ stack, f.pool? = some executor.pool
  idle : ∀ f ∈ stack, f.pool? = some executor.pool → f.producing = false

variable [DecidableEq π]

/-- A call runs on the calling thread for a documented reason exactly if it is not overlooked. -/
theorem Shaped.documented {home : Option π} {stack : List (Frame π)} {active}
    (h : Shaped home stack active) (entry : Entry) (executor : RayonBatchExecutor π) (count : Nat) :
    ((executor.dispatch entry (decide (home = some executor.pool)) count active).1 = .sequential →
      Documented home stack executor count) ↔ ¬ Overlooked home stack executor count := by
  constructor
  · rintro documented ⟨large, many, outside, inside, idle⟩
    have sequential : (executor.dispatch entry (decide (home = some executor.pool)) count active).1
        = .sequential := by
      cases e : (executor.dispatch entry (decide (home = some executor.pool)) count active).1 with
      | sequential => rfl
      | parallel =>
        obtain ⟨fresh, -⟩ := executor.dispatch_fst_eq_parallel.mp e
        exact absurd (h.mem_active.mpr inside) fresh
    cases documented sequential with
    | small small => exact absurd large (Nat.not_lt.mpr small)
    | one_worker one => exact many one
    | worker worker => exact outside worker
    | producer hf on producing =>
      rw [idle _ hf on] at producing
      cases producing
  · intro known sequential
    by_contra undocumented
    have large : executor.sequential_threshold < count :=
      Nat.not_le.mp fun small => undocumented (.small small)
    have many : executor.thread_count ≠ 1 := fun one => undocumented (.one_worker one)
    have outside : home ≠ some executor.pool := fun worker => undocumented (.worker worker)
    -- nothing is left but the registry, which holds the pools of the calls on the stack
    have inside : executor.pool ∈ active := by
      by_contra fresh
      have pos := executor.thread_count_pos
      have parallel : (executor.dispatch entry (decide (home = some executor.pool)) count active).1
          = .parallel :=
        executor.dispatch_fst_eq_parallel.mpr ⟨fresh, decide_eq_false outside, large, by omega⟩
      rw [sequential] at parallel
      cases parallel
    refine known ⟨large, many, outside, h.mem_active.mp inside, fun f hf on => ?_⟩
    rw [← Bool.not_eq_true]
    exact fun producing => undocumented (.producer hf on producing)

/-- The call a thread is about to make. -/
def Thread.calling (thread : Thread π) : Option (Entry × RayonBatchExecutor π × Nat) :=
  match thread.stack with
  | .running _ (.call entry executor count _ _ _) :: _ => some (entry, executor, count)
  | _ => none

/-- Every call on a stack that runs on its thread does so for a documented reason. -/
inductive Justified (home : Option π) : List (Frame π) → Prop where
  | nil : Justified home []
  | cons {f below} :
    (∀ call, f.call? = some (.sequential, call) →
      Documented home below call.executor call.count) →
    Justified home below →
    Justified home (f :: below)

omit [DecidableEq π] in
/-- The reasons do not depend on the code that is left. -/
lemma Documented.recode {home : Option π} {ctx code code'} {below : List (Frame π)} {executor count}
    (h : Documented home (.running ctx code :: below) executor count) :
    Documented home (.running ctx code' :: below) executor count := by
  cases h with
  | small small => exact .small small
  | one_worker one => exact .one_worker one
  | worker worker => exact .worker worker
  | producer hf on producing =>
    rcases List.mem_cons.mp hf with rfl | hf
    · exact .producer (f := .running ctx code') List.mem_cons_self on producing
    · exact .producer (List.mem_cons_of_mem _ hf) on producing

/-- A step that is not an overlooked call keeps all calls justified. -/
lemma Justified.step {threads : π → Nat} {home} {thread thread' : Thread π} {e}
    (h : Justified home thread.stack) (shaped : Shaped home thread.stack thread.active)
    (seen : ∀ entry executor count, thread.calling = some (entry, executor, count) →
      ¬ Overlooked home thread.stack executor count)
    (st : Thread.Step threads home thread e thread') : Justified home thread'.stack := by
  cases st with
  | @call ctx entry executor count _ _ _ _ _ _ _ _ _ _ _ dispatch =>
    obtain - | ⟨caller, under⟩ := h
    refine .cons (fun call is_call => ?_) (.cons caller under)
    cases is_call
    -- the new call is the only one to be justified; those under it have not moved
    have documented := (shaped.documented entry executor count).mpr (seen _ _ _ rfl)
    rw [dispatch] at documented
    exact (documented rfl).recode
  | moves m =>
    obtain - | ⟨top, under⟩ := h
    refine .cons ?_ under
    rw [m.same.1]
    exact top
  | returns =>
    obtain - | ⟨-, - | ⟨caller, under⟩⟩ := h
    exact .cons caller under
  | start =>
    refine .cons ?_ h
    rintro call ⟨⟩
  | exits =>
    obtain - | ⟨-, under⟩ := h
    exact under

variable [DecidableEq θ] [Fintype θ]

/-- A step that is not an overlooked call. -/
def Regular (home : θ → Option π) (s s' : State θ π) : Prop :=
  ∃ t e, Acts home s t e s' ∧ ∀ entry executor count,
    (s.threads t).calling = some (entry, executor, count) →
      ¬ Overlooked (home t) (s.threads t).stack executor count

/-- A regular run is a run. -/
lemma Regular.run {home : θ → Option π} {s s' : State θ π} (rs : ReflTransGen (Regular home) s s') :
    ReflTransGen (Step home) s s' :=
  ReflTransGen.mono (fun _ _ ⟨t, e, st, _⟩ => ⟨t, e, st⟩) _ _ rs

/-- In a regular run every call on a stack has a documented path. -/
lemma Justified.run {home : θ → Option π} {program s}
    (rs : ReflTransGen (Regular home) (init home program) s) (t : θ) :
    Justified (home t) (s.threads t).stack := by
  induction rs generalizing t with
  | refl =>
    simp only [init]
    split
    · refine .cons ?_ .nil
      rintro call ⟨⟩
    · exact .nil
  | tail rs st ih =>
    obtain ⟨u, e, st, seen⟩ := st
    rcases eq_or_ne t u with rfl | ne
    · exact (ih t).step (Shaped.run (Regular.run rs) t) seen st.self
    · rw [st.other ne]
      exact ih t

/-- In every reachable state a call runs on its thread for documented reasons only, exactly if it is
not overlooked. In a run without overlooked calls, every call that runs on its thread does so for a
documented reason, and all jobs run on workers of their pools. -/
theorem dispatch_documented {home : θ → Option π} {program : θ → Code π} :
    (∀ s, ReflTransGen (Step home) (init home program) s → ∀ t entry executor count,
      (s.threads t).calling = some (entry, executor, count) →
      (((RayonBatchExecutor.dispatch executor entry (decide (home t = some executor.pool)) count
          (s.threads t).active).1 = .sequential →
        Documented (home t) (s.threads t).stack executor count) ↔
      ¬ Overlooked (home t) (s.threads t).stack executor count)) ∧
    ∀ s, ReflTransGen (Regular home) (init home program) s → ∀ t,
      Justified (home t) (s.threads t).stack ∧
      ∀ f ∈ (s.threads t).stack, ∀ pool b, f.job? = some (pool, b) →
        home t = some pool ∧ ∃ scope : Scope π, s.scopes[b]? = some scope ∧ scope.pool = pool := by
  refine ⟨fun s rs t entry executor count _ => ?_, fun s rs t => ⟨Justified.run rs t, ?_⟩⟩
  · exact (Shaped.run rs t).documented entry executor count
  · intro f hf pool b is_job
    have steps := Regular.run rs
    exact ⟨(Shaped.run steps t).home_of_mem hf is_job,
      Placed.run steps t f hf pool b (Frame.scope?_of_job? is_job)⟩

/-- An executor of two workers that runs single tasks on the calling thread. -/
def cautious : RayonBatchExecutor Unit :=
  ⟨(), 2, 1, ⟨0, 0⟩, .Continue, Nat.two_pos⟩

/-- A batch of two tasks. -/
def pair : Code Unit :=
  .call .execute_with_count cautious 2 .done
    (.item .done .done (.item .done .done (.exhausted .done))) .done

/-- A batch of one task, which makes a batch of two tasks. -/
def outer : Code Unit :=
  .call .execute_with_count cautious 1 .done (.item .done pair (.exhausted .done)) .done

/-- A call above the threshold runs sequentially on an ordinary thread, since it is made in a task
of a batch that runs on that thread for its size. -/
theorem overlooked_call :
    ∃ s, ReflTransGen (Step twoWorkers) (init twoWorkers fun _ => outer) s ∧
      (s.threads 2).calling = some (.execute_with_count, cautious, 2) ∧
      (cautious.dispatch .execute_with_count (decide (twoWorkers 2 = some ())) 2
        (s.threads 2).active).1 = .sequential ∧
      ¬ Documented (twoWorkers 2) (s.threads 2).stack cautious 2 := by
  have followed : (follow (exec twoWorkers) (init twoWorkers fun _ => outer)
      (List.replicate 4 (.go 2))).map (fun s => s.threads 2)
      = some ⟨[.running (.executing ⟨cautious, 1, some ⟨()⟩⟩ 1 (.exhausted .done)) pair,
          .running .root .done], [()]⟩ := by
    rfl
  obtain ⟨s, hs, thread⟩ := Option.map_eq_some_iff.mp followed
  refine ⟨s, follow_run exec_step hs, ?_, ?_, ?_⟩
  · rw [thread]
    rfl
  · rw [thread]
    rfl
  · rw [thread]
    rintro (small | one | worker | ⟨hf, -, producing⟩)
    · cases small with
      | step small => cases small
    · cases one
    · cases worker
    · rcases List.mem_cons.mp hf with rfl | hf
      · cases producing
      · rw [List.mem_singleton.mp hf] at producing
        cases producing

/-- The outer batch itself is run on its thread for its size. -/
theorem dispatch_documented_outer :
    ∃ s, ReflTransGen (Regular twoWorkers) (init twoWorkers fun _ => outer) s ∧
      (∃ f ∈ (s.threads 2).stack, ∃ call, f.call? = some (.sequential, call)) ∧
      ∀ t, Justified (twoWorkers t) (s.threads t).stack := by
  have st : Acts twoWorkers (init twoWorkers fun _ => outer) 2 .silent
      ⟨Function.update (init twoWorkers fun _ => outer).threads 2
        ⟨[.running (.converting .sequential ⟨cautious, 1, some ⟨()⟩⟩
            (.item .done pair (.exhausted .done))) .done, .running .root .done], [()]⟩, []⟩ :=
    .act (.call .eagerly rfl) .silent
  have rs : ReflTransGen (Regular twoWorkers) (init twoWorkers fun _ => outer) _ :=
    .single ⟨2, .silent, st, fun entry executor count calling => ?_⟩
  · exact ⟨_, rs, ⟨_, List.mem_cons_self, _, rfl⟩, fun t => (dispatch_documented.2 _ rs t).1⟩
  · cases calling
    rintro ⟨large, -⟩
    exact absurd large (by decide)

end RayonBatch.Nested
