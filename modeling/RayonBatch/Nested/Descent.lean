import RayonBatch.Nested.Ledger

/-!
# Calls that go where they may

If the programs of the threads make their calls only where `R` allows (`Code.Within`), then so does
all code on the stacks and in the channels, in every reachable state (`Confined.run`). On a stack
every call is then allowed from the batch of the code it lies on; along a relation that `R`
descends, the pools go down from the bottom to the top (`descends`).
-/

namespace RayonBatch.Nested
open Relation Runs

universe u
variable {π : Type u} {θ : Type*} {R : Option π → π → Prop}

/-- The pool of the batch some user code belongs to. -/
def Context.batch? : Context π → Option π
  | root => none
  | converting _ call _ | pulling call .. | executing call .. => some call.executor.pool
  | working pool _ => some pool

/-- The pool of the batch a frame belongs to. -/
def Frame.batch? : Frame π → Option π
  | running context _ => context.batch?
  | spawning call .. | polling call .. | sending call .. | waiting call .. =>
    some call.executor.pool
  | receiving pool _ => some pool

namespace Frame

/-- A frame of a call belongs to the batch of its pool. -/
lemma batch?_of_pool? {f : Frame π} {pool} (h : f.pool? = some pool) : f.batch? = some pool := by
  cases f with
  | running ctx code => cases ctx <;> first | exact h | cases h
  | receiving => cases h
  | _ => exact h

/-- A frame of a job belongs to the batch of its pool. -/
lemma batch?_of_job? {f : Frame π} {job} (h : f.job? = some job) : f.batch? = some job.1 := by
  cases f with
  | running ctx code =>
    cases ctx with
    | working =>
      cases h
      rfl
    | _ => cases h
  | receiving =>
    cases h
    rfl
  | _ => cases h

/-- A frame of a batch that is no job belongs to a call. -/
lemma pool?_of_batch? {f : Frame π} {pool} (h : f.batch? = some pool) (job : f.job? = none) :
    f.pool? = some pool := by
  cases f with
  | running ctx code => cases ctx <;> first | exact h | cases job
  | receiving => cases job
  | _ => exact h

end Frame

/-- The sources at hand in a context make allowed calls. -/
def Context.Bounded (R : Option π → π → Prop) : Context π → Prop
  | converting _ call tasks | pulling call _ tasks _ | executing call _ tasks =>
    tasks.Within R (some call.executor.pool)
  | root | working .. => True

/-- The code and the sources of a frame make allowed calls. -/
def Frame.Bounded (R : Option π → π → Prop) : Frame π → Prop
  | running context code => code.Within R context.batch? ∧ context.Bounded R
  | spawning call tasks _ _ | polling call _ tasks _ => tasks.Within R (some call.executor.pool)
  | sending call _ rest _ task =>
    task.Within R (some call.executor.pool) ∧ rest.Within R (some call.executor.pool)
  | waiting .. | receiving .. => True

/-- All frames of a stack make allowed calls, and every call on it was allowed where it was made. -/
inductive Ordered (R : Option π → π → Prop) : List (Frame π) → Prop where
  | nil : Ordered R []
  | cons {f below} :
    f.Bounded R →
    (∀ pool, f.pool? = some pool → ∃ g ∈ below.head?, R g.batch? pool) →
    Ordered R below →
    Ordered R (f :: below)

/-- A frame that moves on keeps to allowed calls, if the tasks it receives do. -/
lemma Moves.bounded {threads : π → Nat} {f f' : Frame π} {e} (h : Moves threads f e f')
    (bounded : f.Bounded R) (given : ∀ pool b task, f = .receiving pool b →
      e = .on b (.recv task) → task.Within R (some pool)) : f'.Bounded R := by
  cases h with
  | converted | opens => exact bounded.2
  | spawn | spawned => exact bounded
  | next => exact ⟨bounded.next, bounded⟩
  | execute e => exact ⟨(bounded.2.pulled e).1, (bounded.2.pulled e).2⟩
  | executed => exact bounded.2
  | item e => exact bounded.2.pulled e
  | send => exact bounded.2
  | recv => exact ⟨given _ _ _ rfl rfl, trivial⟩
  | send_error | exhausted | stopped | source_unwinds | worked => exact trivial

/-- A task that is sent stays within the bounds of its call. -/
lemma Moves.sends {threads : π → Nat} {f f' : Frame π} {b task}
    (h : Moves threads f (.on b (.send task)) f') (bounded : f.Bounded R) :
    ∃ pool, f.scope? = some (pool, b) ∧ task.Within R (some pool) := by
  cases h with
  | send => exact ⟨_, rfl, bounded.1⟩

/-- A step of a thread keeps the order of its calls. -/
lemma Ordered.step [DecidableEq π] {threads : π → Nat} {home} {thread thread' : Thread π} {e}
    (h : Ordered R thread.stack) (st : Thread.Step threads home thread e thread')
    (given : ∀ pool b task, .receiving pool b ∈ thread.stack → e = .on b (.recv task) →
      task.Within R (some pool)) : Ordered R thread'.stack := by
  cases st with
  | call conv =>
    obtain - | ⟨⟨code, ctx⟩, allowed, below⟩ := h
    obtain ⟨may, into_iter, tasks, rest⟩ := Code.within_call.mp code
    obtain ⟨first, later⟩ := conv.within into_iter tasks
    -- the new call lies on the code that made it, and that code was bounded
    refine .cons ⟨first, later⟩ ?_ (.cons ⟨rest, ctx⟩ allowed below)
    rintro pool ⟨⟩
    exact ⟨_, rfl, may⟩
  | moves m =>
    obtain - | ⟨bounded, allowed, below⟩ := h
    refine .cons (m.bounded bounded fun pool b task e => ?_) ?_ below
    · exact given pool b task (e ▸ List.mem_cons_self)
    · rw [Frame.pool?, m.same.1]
      exact allowed
  | returns fin res =>
    obtain - | ⟨-, -, - | ⟨⟨rest, ctx⟩, allowed, below⟩⟩ := h
    refine .cons ⟨?_, ctx⟩ allowed below
    cases res with
    | rethrown => exact Code.within_unwinds
    | returned | caught => exact rest
  | start =>
    refine .cons trivial ?_ h
    rintro pool ⟨⟩
  | exits =>
    obtain - | ⟨-, -, below⟩ := h
    exact below

/-- A task that is sent comes from a frame that uses the scope it is sent to. -/
lemma Thread.Step.sends [DecidableEq π] {threads : π → Nat} {home} {thread thread' : Thread π}
    {b task} (st : Thread.Step threads home thread (.on b (.send task)) thread')
    (h : Ordered R thread.stack) :
    ∃ f ∈ thread.stack, ∃ pool, f.scope? = some (pool, b) ∧ task.Within R (some pool) := by
  cases st with
  | moves m =>
    obtain - | ⟨bounded, -, -⟩ := h
    exact ⟨_, List.mem_cons_self, m.sends bounded⟩
  | returns fin => cases fin
  | exits exit => cases exit

/-- A call on a stack was allowed somewhere. -/
lemma Ordered.allowed {stack : List (Frame π)} (h : Ordered R stack) {f pool} (hf : f ∈ stack)
    (on : f.pool? = some pool) : ∃ X, R X pool := by
  induction h with
  | nil => cases hf
  | cons _ allowed _ ih =>
    rcases List.mem_cons.mp hf with rfl | hf
    · obtain ⟨g, -, may⟩ := allowed pool on
      exact ⟨_, may⟩
    · exact ih hf

/-- A scope is opened by a call, which was allowed somewhere. -/
lemma Thread.Step.opens_allowed [DecidableEq π] {threads : π → Nat} {home}
    {thread thread' : Thread π} {b pool n}
    (st : Thread.Step threads home thread (.opens b pool n) thread') (h : Ordered R thread.stack) :
    ∃ X, R X pool := by
  cases st with
  | moves m =>
    cases m with
    | opens => exact h.allowed List.mem_cons_self rfl
  | returns fin => cases fin
  | exits exit => cases exit

/-- All code on the stacks and in the channels makes allowed calls, which opened all scopes. -/
structure Confined (R : Option π → π → Prop) (s : State θ π) : Prop where
  frames : ∀ t, Ordered R (s.threads t).stack
  scopes : ∀ (b : Nat) (scope : Scope π), s.scopes[b]? = some scope → ∃ X, R X scope.pool
  queues : ∀ (b : Nat) (scope : Scope π), s.scopes[b]? = some scope → ∀ task ∈ scope.channel.queue,
    task.Within R (some scope.pool)

/-- What is in a channel after a step was there before or has just been sent. -/
lemma Scope.Step.queue {s s' : Scope π} {op} (st : s.Step op s') {task}
    (h : task ∈ s'.channel.queue) : task ∈ s.channel.queue ∨ op = .send task := by
  cases st with
  | drop_receiver | exit | unwind =>
    left
    rw [← s.channel.discarded_append_queue]
    exact List.mem_append_right _ h
  | send e =>
    obtain ⟨-, -, rfl⟩ := Channel.send_eq_sent.mp e
    rcases List.mem_append.mp h with old | new
    · exact .inl old
    · exact .inr (by rw [List.mem_singleton.mp new])
  | recv e =>
    obtain ⟨queue, -⟩ := Channel.recv_eq_received.mp e
    left
    rw [queue]
    exact List.mem_cons_of_mem _ h
  | _ => exact .inl h

/-- A task that is received was queued. -/
lemma Scope.Step.received {s s' : Scope π} {task} (st : s.Step (.recv task) s') :
    task ∈ s.channel.queue := by
  cases st with
  | recv e =>
    obtain ⟨queue, -⟩ := Channel.recv_eq_received.mp e
    simp [queue]

section Runs

variable [DecidableEq π] [DecidableEq θ] [Fintype θ] {home : θ → Option π} {s s' : State θ π}

/-- A step keeps all calls within bounds. -/
lemma Confined.act {t e} (h : Confined R s) (placed : Placed s) (st : Acts home s t e s') :
    Confined R s' := by
  have local_step := st.self
  have global_step := st.scopes
  constructor
  case frames =>
    intro u
    rcases eq_or_ne u t with rfl | ne
    · refine (h.frames u).step local_step fun pool b task mem e => ?_
      subst e
      generalize s'.scopes = scopes at global_step
      cases global_step with
      | @on _ _ scope _ hb st =>
        -- a received task was in the channel of the job's own pool
        obtain rfl := placed.pool_eq mem rfl hb
        exact h.queues b scope hb task st.received
    · rw [st.other ne]
      exact h.frames u
  case scopes =>
    intro b scope hb
    rcases global_step.origin hb with ⟨old, -⟩ | ⟨n, -, rfl, -⟩ | ⟨op, before, rfl, old, st⟩
    · exact h.scopes b scope old
    · exact local_step.opens_allowed (h.frames t)
    · rw [st.pool]
      exact h.scopes b before old
  case queues =>
    intro b scope hb task mem
    rcases global_step.origin hb with ⟨old, -⟩ | ⟨n, -, rfl, new⟩ | ⟨op, before, rfl, old, st⟩
    · exact h.queues b scope old task mem
    · rw [new] at mem
      cases mem
    · rw [st.pool]
      rcases st.queue mem with mem | rfl
      · exact h.queues b before old task mem
      · -- a task that has just been sent comes from the source of a call on the scope's pool
        obtain ⟨f, mem, pool, used, within⟩ := local_step.sends (h.frames t)
        obtain rfl := placed.pool_eq mem used old
        exact within

/-- All code makes allowed calls along every run, if the programs do. -/
theorem Confined.run {program} (allowed : ∀ t, home t = none → (program t).Within R none)
    (rs : ReflTransGen (Step home) (init home program) s) : Confined R s := by
  induction rs with
  | refl =>
    refine ⟨fun t => ?_, fun _ _ hb => (by cases hb), fun _ _ hb => (by cases hb)⟩
    simp only [init]
    split
    next outside =>
      refine .cons ⟨allowed t outside, trivial⟩ ?_ .nil
      rintro pool ⟨⟩
    · exact .nil
  | tail rs st ih =>
    obtain ⟨t, e, st⟩ := st
    exact ih.act (Placed.run rs) st

omit [DecidableEq π] [DecidableEq θ] [Fintype θ] in
/-- The pool of a batch on a stack is one that some code may call. -/
lemma Confined.allowed (h : Confined R s) (placed : Placed s) {t f} (hf : f ∈ (s.threads t).stack)
    {pool} (on : f.batch? = some pool) : ∃ X, R X pool := by
  cases e : f.job? with
  | none => exact (h.frames t).allowed hf (Frame.pool?_of_batch? on e)
  | some job =>
    obtain ⟨scope, hb, at_pool⟩ := placed t f hf _ _ (Frame.scope?_of_job? e)
    cases (Frame.batch?_of_job? e).symm.trans on
    rw [← at_pool]
    exact h.scopes _ scope hb

end Runs

/-- On the upper part of a stack, over code of a batch on `Y` and with jobs of `Y` only, all batches
are on `Y` or below it. -/
theorem descends [DecidableEq π] {r : π → π → Prop} (desc : ∀ X Y, R (some X) Y → Y = X ∨ r Y X)
    {home : Option π} {upper lower : List (Frame π)} {active} {Y : π}
    (shaped : Shaped home (upper ++ lower) active) (ordered : Ordered R (upper ++ lower))
    (jobs : ∀ f ∈ upper, ∀ job, f.job? = some job → job.1 = Y)
    (base : ∀ g ∈ lower.head?, g.batch? = some Y) (bottom : lower = [] → home ≠ none) :
    ∀ f ∈ upper, ∃ Z, f.batch? = some Z ∧ ReflTransGen r Z Y := by
  induction upper generalizing active with
  | nil => simp
  | cons f upper ih =>
    rw [List.cons_append] at shaped ordered
    generalize e : upper ++ lower = rest at shaped ordered
    obtain - | ⟨-, allowed, below⟩ := ordered
    have jobs' : ∀ g ∈ upper, ∀ job, g.job? = some job → job.1 = Y := fun g hg =>
      jobs g (List.mem_cons_of_mem _ hg)
    intro g hg
    cases shaped with
    | root outside =>
      exact absurd outside (bottom (List.append_eq_nil_iff.mp e).2)
    | @call _ path call _ ctx code under active₀ _ shaped is_call =>
      rw [← e] at shaped below
      have ih := ih shaped below jobs'
      rcases List.mem_cons.mp hg with rfl | hg
      · have pool := Frame.pool?_of_call? is_call
        -- the batch of the code under the call is on `Y` or below it
        obtain ⟨X, batch, down⟩ : ∃ X, ctx.batch? = some X ∧ ReflTransGen r X Y := by
          cases upper with
          | nil =>
            rw [List.nil_append] at e
            exact ⟨Y, base (.running ctx code) (by simp [e]), .refl⟩
          | cons h upper =>
            obtain ⟨rfl, -⟩ := List.cons_eq_cons.mp e
            exact ih _ List.mem_cons_self
        refine ⟨call.executor.pool, Frame.batch?_of_pool? pool, ?_⟩
        obtain ⟨_, ⟨⟩, may⟩ := allowed _ pool
        rcases desc X call.executor.pool (batch ▸ may) with same | lower
        · rw [same]
          exact down
        · exact .head lower down
      · exact ih g hg
    | @job _ pool b _ _ shaped _ _ is_job =>
      rw [← e] at shaped below
      rcases List.mem_cons.mp hg with rfl | hg
      · exact ⟨Y, by rw [Frame.batch?_of_job? is_job, jobs g List.mem_cons_self _ is_job], .refl⟩
      · exact ih shaped below jobs' g hg

end RayonBatch.Nested
