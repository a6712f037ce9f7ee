import RayonBatch.Nested.Progress
import RayonBatch.Nested.Termination

/-!
# Calls on one pool from anywhere

All calls are made on one pool, from outside of it, from tasks, from sources and from their
conversions, to any depth. The dispatch keeps a thread from opening a scope on a pool that it works
for or that it has already opened a scope on (`Thread.Step.opens_fresh`), so a call that feeds a
channel never has a job on top of it, and no state of a run is stuck before all calls have returned.
-/

namespace RayonBatch.Nested
open Relation Runs

universe u
variable {π : Type u} {θ : Type*} [DecidableEq π]

/-- A scope is opened off the workers of its pool and while no frame uses a scope on that pool. -/
lemma Thread.Step.opens_fresh {threads : π → Nat} {home : Option π} {thread thread' : Thread π}
    {b pool n} (h : Shaped home thread.stack thread.active)
    (st : Thread.Step threads home thread (.opens b pool n) thread') :
    home ≠ some pool ∧ ∀ f ∈ thread.stack, ∀ c, f.scope? ≠ some (pool, c) := by
  cases st with
  | returns fin => cases fin
  | exits exit => cases exit
  | @moves f _ _ below active m =>
    cases m with
    | opens =>
      obtain ⟨away, alone, -⟩ := h.parallel rfl
      refine ⟨away, fun g hg c used => ?_⟩
      rcases Frame.job?_or_pool?_of_scope? used with is_job | on
      · exact away (h.home_of_mem hg is_job)
      · rcases List.mem_cons.mp hg with rfl | hg
        · cases used
        · exact alone g hg on

variable [DecidableEq θ] [Fintype θ]

omit [DecidableEq θ] [Fintype θ] in
/-- With all calls on one pool, nothing is ever entangled. -/
lemma Confined.not_entangled {home : θ → Option π} {pool : π} {s : State θ π}
    (h : Confined (fun _ Y => Y = pool) s) (placed : Placed s)
    (shaped : ∀ t, Shaped (home t) (s.threads t).stack (s.threads t).active) : ¬ Entangled s := by
  rintro ⟨t, q, b, below, -, u, upper, g, lower, split, feeding, f, hf, job⟩
  have one : ∀ f ∈ (s.threads u).stack, ∀ q, f.batch? = some q → q = pool := by
    intro f hf q on
    obtain ⟨-, same⟩ := h.allowed placed hf on
    exact same
  -- the job shows that the thread works for the pool, the source that it does not
  obtain ⟨⟨q', c⟩, is_job⟩ := Option.ne_none_iff_exists'.mp job
  obtain ⟨call, par⟩ := Frame.call?_of_feeding? feeding
  have on := Frame.batch?_of_pool? (Frame.pool?_of_call? par)
  have hg : g ∈ (s.threads u).stack := by simp [split]
  have hf : f ∈ (s.threads u).stack := by simp [split, hf]
  have at_home := (shaped u).home_of_mem hf is_job
  rw [one f hf q' (Frame.batch?_of_job? is_job), ← one g hg _ on] at at_home
  exact (shaped u).away_of_mem hg par at_home

/-- Calls on one pool, nested to any depth and made from tasks, sources and conversions: a thread
never opens a scope on the pool as a worker of it or above another of its scopes on it, every run is
finite, and a state without a step is one in which all calls have returned. -/
theorem same_pool_reentry {home : θ → Option π} {pool : π} {program : θ → Code π}
    (threads : 2 ≤ current_num_threads home pool)
    (one_pool : ∀ t, home t = none → (program t).Within (fun _ Y => Y = pool) none) :
    (∀ s, ReflTransGen (Step home) (init home program) s → ∀ t b q n s',
      Acts home s t (.opens b q n) s' → q = pool ∧ home t ≠ some pool ∧
        ∀ f ∈ (s.threads t).stack, ∀ c, f.scope? ≠ some (pool, c)) ∧
    Terminating (Step home) (init home program) ∧
    ∀ s, ReflTransGen (Step home) (init home program) s → Stuck (Step home) s →
      ∀ t, (s.threads t).finished := by
  refine ⟨fun s rs t b q n s' st => ?_, terminating home _, fun s rs stuck t => ?_⟩
  · obtain ⟨-, rfl⟩ := st.self.opens_allowed ((Confined.run one_pool rs).frames t)
    exact ⟨rfl, st.self.opens_fresh (Shaped.run rs t)⟩
  · have pos : ∀ (X : Option π) Y, Y = pool → 0 < current_num_threads home Y := by
      rintro - Y rfl
      exact Nat.lt_of_lt_of_le Nat.two_pos threads
    -- one pool lies below all others, and none below it
    have wf : WellFounded fun Y X : π => Y = pool ∧ X ≠ pool := by
      refine ⟨fun X => ⟨_, fun Y below => ⟨_, fun Z lower => ?_⟩⟩⟩
      exact absurd below.1 lower.2
    refine (Halted.of_run one_pool pos rs stuck).finished wf (fun X Y same => ?_) ?_ t
    · rcases eq_or_ne X pool with rfl | other
      · exact .inl same
      · exact .inr ⟨same, other⟩
    · exact (Confined.run one_pool rs).not_entangled (.run rs) (Shaped.run rs)

/-- The executor of the examples: `threads` workers on a pool, and no size fallback. -/
def eager (pool : π) (threads : Nat) (pos : 0 < threads) : RayonBatchExecutor π :=
  ⟨pool, threads, 0, ⟨0, 0⟩, .Continue, pos⟩

/-- A call of two tasks that makes no further calls. -/
def leaf : Code Unit :=
  .call .execute_with_count (eager () 2 Nat.two_pos) 2 .done
    (.item .done .done (.item .done .done (.exhausted .done))) .done

/-- A call that makes further calls from its conversion, its source and its tasks. -/
def forest : Code Unit :=
  .call .call_with_count (eager () 2 Nat.two_pos) 2 leaf
    (.item leaf leaf (.item .done leaf (.exhausted leaf))) leaf

/-- Two workers of one pool and a thread outside of it. -/
def twoWorkers (t : Fin 3) : Option Unit :=
  if t.val = 2 then none else some ()

/-- On a pool of two threads all these calls return. -/
theorem same_pool_reentry_forest :
    ∃ s : State (Fin 3) Unit,
      ReflTransGen (Step twoWorkers) (init twoWorkers fun _ => forest) s ∧
        ∀ t, (s.threads t).finished := by
  obtain ⟨-, fin, settled⟩ := @same_pool_reentry Unit (Fin 3) _ _ _ twoWorkers () (fun _ => forest)
    (by decide) (fun _ _ => by simp [forest, leaf, Code.Within])
  obtain ⟨s, rs, stuck⟩ := fin.exists_stuck
  exact ⟨s, rs, settled s rs stuck⟩

end RayonBatch.Nested
