import RayonBatch.Basis.Runs
import RayonBatch.Nested.Step

/-!
# The shape of a thread's stack

`Shaped` says how the frames of a thread fit together and what its registry holds: the registry is
the one that the calls on the stack have built up by their dispatches, one on top of the other. It
is an invariant of every run (`Shaped.run`). Two facts follow from it by induction along the stack:
the registry holds exactly the pools of the calls on the stack (`Shaped.mem_active`), and a call on
the parallel path is the only one on its pool down to the bottom (`Shaped.parallel`).
-/

namespace RayonBatch.Nested
open Relation Runs

universe u
variable {π : Type u} {θ : Type*}

namespace Frame

/-- A frame of a call is none of a job. -/
lemma job?_of_call? {f : Frame π} {x} (h : f.call? = some x) : f.job? = none := by
  cases f with
  | running ctx code => cases ctx <;> first | rfl | cases h
  | receiving => cases h
  | _ => rfl

/-- A frame of a job is none of a call. -/
lemma call?_of_job? {f : Frame π} {x} (h : f.job? = some x) : f.call? = none := by
  cases e : f.call? with
  | none => rfl
  | some call =>
    rw [job?_of_call? e] at h
    cases h

/-- A frame that holds a sender is one of a parallel call. -/
lemma call?_of_feeding? {f : Frame π} {b} (h : f.feeding? = some b) :
    ∃ call, f.call? = some (.parallel, call) := by
  cases f with
  | running ctx code =>
    cases ctx with
    | pulling call k tasks scope =>
      cases show scope = some b from h
      exact ⟨call, rfl⟩
    | _ => cases h
  | spawning call => exact ⟨call, rfl⟩
  | polling call k tasks scope =>
    cases show scope = some b from h
    exact ⟨call, rfl⟩
  | sending call => exact ⟨call, rfl⟩
  | _ => cases h

/-- A frame of a call is on the pool of its executor. -/
lemma pool?_of_call? {f : Frame π} {path call} (h : f.call? = some (path, call)) :
    f.pool? = some call.executor.pool := by
  simp [pool?, h]

end Frame

/-- A frame that moves on stays one of its call or job. -/
lemma Moves.same {threads : π → Nat} {f f' : Frame π} {e} (h : Moves threads f e f') :
    f'.call? = f.call? ∧ f'.job? = f.job? := by
  cases h <;> exact ⟨rfl, rfl⟩

/-- The code of a thread itself does not move on by itself. -/
lemma Moves.not_root {threads : π → Nat} {code : Code π} {e f'}
    (h : Moves threads (.running .root code) e f') : False := by
  cases h

/-- What finishes is a frame of the call. -/
lemma Finishes.call? {f : Frame π} {e call unwound} (h : Finishes f e call unwound) :
    ∃ path, f.call? = some (path, call) := by
  cases h <;> exact ⟨_, rfl⟩

/-- What exits is a frame of a job. -/
lemma Exits.job? {f : Frame π} {e} (h : Exits f e) : ∃ job, f.job? = some job := by
  cases h <;> exact ⟨_, rfl⟩

variable [DecidableEq π]

/-- A step of the system leaves a thread alone or is a step of it. -/
lemma Step.thread [DecidableEq θ] [Fintype θ] {home : θ → Option π} {s s' : State θ π}
    (st : Step home s s') (t : θ) : s'.threads t = s.threads t ∨
      ∃ e, Thread.Step (current_num_threads home) (home t) (s.threads t) e (s'.threads t) := by
  obtain ⟨u, e, st⟩ := st
  rcases eq_or_ne t u with rfl | ne
  · exact .inr ⟨e, st.self⟩
  · exact .inl (st.other ne)

/-- How the frames of a thread fit together, with the registry they leave behind. -/
inductive Shaped (home : Option π) : List (Frame π) → List π → Prop where
  | idle {pool} :
    home = some pool →
    Shaped home [] []
  | root {code} :
    home = none →
    Shaped home [.running .root code] []
  /-- A call lies on the code that made it and was dispatched on the registry of that code. -/
  | call {f path call entry ctx code below active active'} :
    Shaped home (.running ctx code :: below) active →
    f.call? = some (path, call) →
    call.executor.dispatch entry (decide (home = some call.executor.pool)) call.count active
      = (path, call.guard, active') →
    Shaped home (f :: .running ctx code :: below) active'
  /-- A job lies at the bottom or on a call that waits, and belongs to the pool of its thread. -/
  | job {f pool b below active} :
    Shaped home below active →
    (∀ g ∈ below.head?, g.waits = true) →
    home = some pool →
    f.job? = some (pool, b) →
    Shaped home (f :: below) active

namespace Shaped

variable {home : Option π} {stack below upper : List (Frame π)} {active : List π} {f : Frame π}

/-- The code on top of a stack may be exchanged. -/
lemma recode {ctx code code'} (h : Shaped home (.running ctx code :: below) active) :
    Shaped home (.running ctx code' :: below) active := by
  cases h with
  | root e => exact .root e
  | call under e dispatch => exact .call under e dispatch
  | job under waits e job => exact .job under waits e job

/-- A frame on top of a stack may be exchanged for one of the same call or job. -/
lemma exchange {f' : Frame π} (h : Shaped home (f :: below) active)
    (own : ∀ code, f ≠ .running .root code) (call : f'.call? = f.call?) (job : f'.job? = f.job?) :
    Shaped home (f' :: below) active := by
  cases h with
  | root => exact absurd rfl (own _)
  | call under e dispatch => exact .call under (call.trans e) dispatch
  | job under waits e e' => exact .job under waits e (job.trans e')

/-- Every step keeps the shape of a stack. -/
lemma step {threads : π → Nat} {thread thread' : Thread π} {e}
    (h : Shaped home thread.stack thread.active)
    (st : Thread.Step threads home thread e thread') :
    Shaped home thread'.stack thread'.active := by
  cases st with
  | call _ dispatch => exact .call h.recode rfl dispatch
  | moves m =>
    refine h.exchange (fun code own => ?_) m.same.1 m.same.2
    subst own
    exact m.not_root
  | @returns f e call unwound ctx rest rest' below active fin =>
    obtain ⟨path, is_call⟩ := fin.call?
    cases h with
    | @call _ path' call' entry _ _ _ active₀ _ under is_call' dispatch =>
      cases is_call.symm.trans is_call'
      -- the guard was entered last, so dropping it restores the registry of the code under the call
      have left : active = active₀ ++ guarded call.guard :=
        (call.executor.registry_of_dispatch dispatch).2
      show Shaped home (.running ctx rest' :: below) (dropGuard call.guard active)
      rw [left, dropGuard_append_guarded]
      exact under.recode
    | job _ _ _ is_job =>
      rw [Frame.job?_of_call? is_call] at is_job
      cases is_job
  | start home waits => exact .job h waits home rfl
  | exits exit =>
    obtain ⟨job, is_job⟩ := exit.job?
    cases h with
    | root => cases is_job
    | call _ is_call =>
      rw [Frame.job?_of_call? is_call] at is_job
      cases is_job
    | job under => exact under

/-- Stacks have their shape in every reachable state. -/
lemma run [DecidableEq θ] [Fintype θ] {home : θ → Option π} {program s}
    (rs : ReflTransGen (Step home) (init home program) s) (t : θ) :
    Shaped (home t) (s.threads t).stack (s.threads t).active := by
  refine invariant (I := fun s => ∀ t, Shaped (home t) (s.threads t).stack (s.threads t).active)
    (fun {a b} st h t => ?_) rs (fun t => ?_) t
  · rcases st.thread t with same | ⟨e, local_step⟩
    · rw [same]
      exact h t
    · exact (h t).step local_step
  · show Shaped (home t) ((init home program).threads t).stack
      ((init home program).threads t).active
    simp only [init]
    split
    next e => exact .root e
    next e => exact .idle e

/-- Below the innermost frame lies a stack of the same shape, or nothing. -/
lemma tail (h : Shaped home (f :: below) active) :
    (∃ active', Shaped home below active') ∨ ∃ code, f = .running .root code ∧ below = [] := by
  cases h with
  | root => exact .inr ⟨_, rfl, rfl⟩
  | call under => exact .inl ⟨_, under⟩
  | job under => exact .inl ⟨_, under⟩

/-- Below any frames lies a stack of the same shape. -/
lemma suffix (h : Shaped home (upper ++ f :: below) active) :
    ∃ active', Shaped home (f :: below) active' := by
  induction upper generalizing active with
  | nil => exact ⟨active, h⟩
  | cons g upper ih =>
    obtain ⟨active', under⟩ | ⟨code, -, nil⟩ := h.tail
    · exact ih under
    · simp at nil

/-- The registry holds the pools of the calls on the stack. -/
theorem mem_active (h : Shaped home stack active) {pool : π} :
    pool ∈ active ↔ ∃ f ∈ stack, f.pool? = some pool := by
  induction h with
  | idle => simp
  | root => simp [Frame.pool?, Frame.call?, Context.call?]
  | @call f path call entry ctx code below active active' under is_call dispatch ih =>
    have kept := call.executor.dispatch_snd entry (decide (home = some call.executor.pool))
      call.count active
    rw [dispatch] at kept
    have e : active' = (ActiveBatchGuard.enter call.executor.pool active).2 :=
      congrArg Prod.snd kept
    -- a refused entry adds nothing, but then the pool is registered already
    have mem : pool ∈ active' ↔ call.executor.pool = pool ∨ pool ∈ active := by
      rw [e, ActiveBatchGuard.enter]
      split
      next known =>
        exact ⟨Or.inr, fun h => h.elim (fun eq => eq ▸ known) id⟩
      · simp [or_comm, eq_comm]
    rw [mem, ih]
    simp only [List.exists_mem_cons_iff, Frame.pool?_of_call? is_call, Option.some.injEq]
  | @job f pool' b below active under waits e is_job ih =>
    have none : f.pool? = none := by simp [Frame.pool?, Frame.call?_of_job? is_job]
    rw [ih, List.exists_mem_cons_iff, none]
    simp

/-- A parallel call is on no worker of its pool and the only call on its pool down the stack. -/
theorem parallel (h : Shaped home (f :: below) active) {call}
    (par : f.call? = some (.parallel, call)) :
    home ≠ some call.executor.pool ∧ (∀ g ∈ below, g.pool? ≠ some call.executor.pool) ∧
      call.executor.sequential_threshold < call.count ∧ 1 < call.executor.thread_count := by
  cases h with
  | root => cases par
  | @call _ path call' entry ctx code under active _ below is_call dispatch =>
    cases is_call.symm.trans par
    obtain ⟨fresh, outside, large, many⟩ :=
      call.executor.dispatch_fst_eq_parallel.mp (congrArg Prod.fst dispatch)
    refine ⟨of_decide_eq_false outside, fun g hg e => ?_, large, many⟩
    exact fresh (below.mem_active.mpr ⟨g, hg, e⟩)
  | job _ _ _ is_job =>
    rw [Frame.job?_of_call? par] at is_job
    cases is_job

/-- The code of a thread itself is found at the bottom, outside of all pools. -/
lemma bottom_of_root {code} (h : Shaped home (.running .root code :: below) active) :
    home = none ∧ below = [] := by
  cases h with
  | root outside => exact ⟨outside, rfl⟩
  | call _ is_call => cases is_call
  | job _ _ _ is_job => cases is_job

/-- The innermost frame is of a job of the thread's own pool, if of a job. -/
lemma home_of_job (h : Shaped home (f :: below) active) {job} (e : f.job? = some job) :
    home = some job.1 := by
  cases h with
  | root => cases e
  | call _ is_call =>
    rw [Frame.job?_of_call? is_call] at e
    cases e
  | job _ _ at_home is_job =>
    cases is_job.symm.trans e
    exact at_home

/-- A job on a stack is one of the thread's own pool. -/
lemma home_of_mem (h : Shaped home stack active) (hf : f ∈ stack) {job} (e : f.job? = some job) :
    home = some job.1 := by
  obtain ⟨upper, lower, rfl⟩ := List.append_of_mem hf
  obtain ⟨active', under⟩ := h.suffix
  exact under.home_of_job e

/-- A parallel call on a stack is on another pool than the thread's own. -/
lemma away_of_mem (h : Shaped home stack active) (hf : f ∈ stack) {call}
    (par : f.call? = some (.parallel, call)) : home ≠ some call.executor.pool := by
  obtain ⟨upper, lower, rfl⟩ := List.append_of_mem hf
  obtain ⟨active', under⟩ := h.suffix
  exact (under.parallel par).1

end Shaped

end RayonBatch.Nested
