import Mathlib.Data.Fintype.Option
import RayonBatch.Nested.Exec
import RayonBatch.Nested.Reentry

/-!
# The registry before and after a call

`Above` follows one call of a thread: the frames of everything that the call brings about lie above
the code that made it, and the registry is the one before the call, then the guard of the call, then
the guards of the frames above, each at the place where it was entered. A frame goes only when it is
on top, so its guard is then the last entry. Hence a call of any kind and with any end leaves the
registry of its thread as it found it, and keeps its pool registered meanwhile
(`registry_restored`).
-/

namespace RayonBatch.Nested
open Relation Runs

universe u
variable {π : Type u} {θ : Type*}

/-- The registrations that go with a frame. -/
def Frame.guarded (f : Frame π) : List π :=
  (f.call?.map fun call => RayonBatch.guarded call.2.guard).getD []

/-- A frame stands for the registration of its call. -/
lemma Frame.guarded_of_call? {f : Frame π} {path call} (h : f.call? = some (path, call)) :
    f.guarded = RayonBatch.guarded call.guard := by
  simp [guarded, h]

/-- The stack and the registry of a thread during a call that was made on the stack `base` and with
the registry `before`. -/
inductive Above (call : OpenCall π) (base : List (Frame π)) (before : List π) :
    List (Frame π) → List π → Prop where
  | own {f path} :
    f.call? = some (path, call) →
    Above call base before (f :: base) (before ++ guarded call.guard)
  | frame {f stack active} :
    Above call base before stack active →
    Above call base before (f :: stack) (active ++ f.guarded)

namespace Above

variable {call : OpenCall π} {base below stack : List (Frame π)} {before active : List π}
  {f f' : Frame π}

/-- A frame may be exchanged for one of the same call. -/
lemma exchange (h : Above call base before (f :: below) active) (same : f'.call? = f.call?) :
    Above call base before (f' :: below) active := by
  cases h with
  | own is_call => exact .own (same.trans is_call)
  | frame h =>
    have guarded : f.guarded = f'.guarded := by rw [Frame.guarded, Frame.guarded, same]
    rw [guarded]
    exact .frame h

/-- During a call the stack is higher than before. -/
lemma length_lt (h : Above call base before stack active) : base.length < stack.length := by
  induction h with
  | own => exact Nat.lt_succ_self _
  | frame _ ih => exact Nat.lt_succ_of_lt ih

/-- During a call its registration follows those from before. -/
lemma prefix_active (h : Above call base before stack active) :
    before ++ guarded call.guard <+: active := by
  induction h with
  | own => exact List.prefix_refl _
  | frame _ ih => exact ih.trans (List.prefix_append _ _)

end Above

/-- A thread that is back in the code that made a call, with the registry it had then. -/
def Restored (ctx : Context π) (below : List (Frame π)) (before : List π) (thread : Thread π) :
    Prop :=
  (∃ rest, thread.stack = .running ctx rest :: below) ∧ thread.active = before

variable [DecidableEq π]

/-- During a call a step stays above the code that made it, or it ends the call. -/
lemma Above.step {call : OpenCall π} {ctx rest} {below : List (Frame π)} {before : List π}
    {threads : π → Nat} {home} {thread thread' : Thread π} {e}
    (h : Above call (.running ctx rest :: below) before thread.stack thread.active)
    (st : Thread.Step threads home thread e thread') :
    Above call (.running ctx rest :: below) before thread'.stack thread'.active ∨
      Restored ctx below before thread' := by
  cases st with
  | call _ dispatch =>
    left
    rw [(RayonBatchExecutor.registry_of_dispatch _ dispatch).2]
    exact .frame (h.exchange rfl)
  | moves m => exact .inl (h.exchange m.same.1)
  | @returns f _ call' _ ctx' rest' rest'' below' _ fin =>
    obtain ⟨path, is_call⟩ := fin.call?
    cases h with
    | own own =>
      cases own.symm.trans is_call
      exact .inr ⟨⟨_, rfl⟩, dropGuard_append_guarded _ _⟩
    | @frame _ _ under h =>
      left
      -- the guard of a nested call was entered last of all, and is dropped first
      have dropped := dropGuard_append_guarded call'.guard under
      rw [← Frame.guarded_of_call? is_call] at dropped
      show Above call _ before (.running ctx' rest'' :: below') (dropGuard call'.guard (under ++ _))
      rw [dropped]
      exact h.exchange rfl
  | start =>
    left
    -- a job registers nothing
    simpa [Frame.guarded, Frame.call?] using h.frame (f := .receiving _ _)
  | exits exit =>
    obtain ⟨job, is_job⟩ := exit.job?
    cases h with
    | own own =>
      rw [Frame.job?_of_call? own] at is_job
      cases is_job
    | frame h =>
      left
      simpa [Frame.guarded, Frame.call?_of_job? is_job] using h

/-- No step registers a pool twice. -/
lemma Thread.Step.nodup {threads : π → Nat} {home} {thread thread' : Thread π} {e}
    (st : Thread.Step threads home thread e thread') (h : thread.active.Nodup) :
    thread'.active.Nodup := by
  cases st with
  | call _ dispatch =>
    obtain ⟨kept, registered⟩ := RayonBatchExecutor.registry_of_dispatch _ dispatch
    rw [registered, kept, ← enter_snd]
    exact enter_snd_nodup _ h
  | returns => exact h.sublist (dropGuard_sublist _ _)
  | moves | start | exits => exact h

/-- A thread that is about to make a call can do nothing else. -/
lemma Thread.Step.of_call {threads : π → Nat} {home} {thread thread' : Thread π} {e ctx entry
    executor count into_iter tasks rest} {below : List (Frame π)}
    (calling : thread.stack
      = .running ctx (.call entry executor count into_iter tasks rest) :: below)
    (st : Thread.Step threads home thread e thread') :
    ∃ guard, Above ⟨executor, count, guard⟩ (.running ctx rest :: below) thread.active
        thread'.stack thread'.active ∧
      guard = (ActiveBatchGuard.enter executor.pool thread.active).1 := by
  cases st with
  | @call _ _ _ _ _ _ _ _ _ _ _ _ guard _ _ dispatch =>
    cases calling
    obtain ⟨kept, registered⟩ := executor.registry_of_dispatch dispatch
    refine ⟨guard, ?_, kept⟩
    rw [registered]
    exact .own rfl
  | moves m =>
    cases calling
    cases m with
    | executed ended | worked ended => cases ended
  | returns fin =>
    cases calling
    cases fin
  | start _ waits =>
    subst calling
    cases waits _ rfl
  | exits exit =>
    cases calling
    cases exit

variable [DecidableEq θ] [Fintype θ]

/-- A step with which a thread stays inside of a call that it made with `depth` frames. -/
def During (home : θ → Option π) (t : θ) (depth : Nat) (s s' : State θ π) : Prop :=
  Step home s s' ∧ depth < (s'.threads t).stack.length

/-- Until a call returns, what lies above it keeps its registration. -/
lemma Above.run {home : θ → Option π} {t : θ} {s s' : State θ π} {call : OpenCall π} {ctx rest}
    {below : List (Frame π)} {before : List π}
    (h : Above call (.running ctx rest :: below) before (s.threads t).stack (s.threads t).active)
    (nodup : (s.threads t).active.Nodup)
    (rs : ReflTransGen (During home t (below.length + 1)) s s') :
    Above call (.running ctx rest :: below) before (s'.threads t).stack (s'.threads t).active ∧
      (s'.threads t).active.Nodup := by
  refine invariant (I := fun s => Above call (.running ctx rest :: below) before
    (s.threads t).stack (s.threads t).active ∧ (s.threads t).active.Nodup) ?_ rs ⟨h, nodup⟩
  rintro a b ⟨st, inside⟩ ⟨h, nodup⟩
  rcases st.thread t with same | ⟨e, local_step⟩
  · rw [same]
    exact ⟨h, nodup⟩
  · refine ⟨?_, local_step.nodup nodup⟩
    rcases h.step local_step with above | ⟨⟨rest', back⟩, -⟩
    · exact above
    · rw [back] at inside
      exact absurd inside (Nat.lt_irrefl _)

/-- However a call is dispatched, whatever calls its tasks, its source and stacked jobs make and in
whatever way they and the call end: while the call is in progress its pool is registered once, and
when it is over the registry is the one before it, entry for entry. Above the fallbacks
`call_with_count` drops its guard, and the `execute_with_count` it delegates to finds the registry
as it was and takes the parallel path too. -/
theorem registry_restored {home : θ → Option π} {t : θ} {s₀ s₁ : State θ π} {e ctx entry executor
    count into_iter tasks rest below}
    (calling : (s₀.threads t).stack
      = .running ctx (.call entry executor count into_iter tasks rest) :: below)
    (nodup : (s₀.threads t).active.Nodup) (called : Acts home s₀ t e s₁) :
    (∀ s₂, ReflTransGen (During home t (s₀.threads t).stack.length) s₁ s₂ →
      (s₂.threads t).active.count executor.pool = 1 ∧
      ∀ s₃, Step home s₂ s₃ → (s₃.threads t).stack.length ≤ (s₀.threads t).stack.length →
        Restored ctx below (s₀.threads t).active (s₃.threads t)) ∧
    ∀ worker guard active,
      ActiveBatchGuard.enter executor.pool (s₀.threads t).active = (guard, active) →
      executor.call_with_count_dispatch worker count (s₀.threads t).active
        = executor.execute_with_count_dispatch worker count (s₀.threads t).active ∧
      (executor.runs_sequentially guard worker count = false →
        dropGuard guard active = (s₀.threads t).active ∧
        (executor.execute_with_count_dispatch worker count (dropGuard guard active)).1
          = .parallel) := by
  refine ⟨fun s₂ rs => ?_, fun worker guard active entered => ⟨?_, fun above => ?_⟩⟩
  · have depth : (s₀.threads t).stack.length = below.length + 1 := by
      rw [calling]
      rfl
    rw [depth] at rs ⊢
    obtain ⟨guard, above, kept⟩ := called.self.of_call calling
    obtain ⟨above, distinct⟩ := above.run (called.self.nodup nodup) rs
    refine ⟨List.count_eq_one_of_mem distinct (above.prefix_active.subset ?_), fun s₃ st ends => ?_⟩
    · rw [kept, ← enter_snd]
      exact enter_registers _ _
    · rcases st.thread t with same | ⟨e, local_step⟩
      · rw [same] at ends
        exact absurd above.length_lt (Nat.not_lt.mpr ends)
      · rcases above.step local_step with above | restored
        · exact absurd above.length_lt (Nat.not_lt.mpr ends)
        · exact restored
  · exact executor.call_with_count_dispatch_eq worker count _
  · exact executor.delegation entered above

/-- The step a choice stands for, if a thread stays inside of its call. -/
def exec_during (home : θ → Option π) (t : θ) (depth : Nat) (s : State θ π) (choice : Choice θ) :
    Option (State θ π) :=
  (exec home s choice).filter fun s' => decide (depth < (s'.threads t).stack.length)

/-- What `exec_during` computes is a step during the call. -/
lemma exec_during_step {home : θ → Option π} {t : θ} {depth : Nat} {s s' : State θ π} {choice}
    (h : exec_during home t depth s choice = some s') : During home t depth s s' := by
  obtain ⟨executed, inside⟩ := Option.filter_eq_some_iff.mp h
  exact ⟨exec_step executed, of_decide_eq_true inside⟩

/-- Two workers of one of two pools, and a thread outside of both. -/
def twoOfOne (t : Option Bool) : Option Bool :=
  t.map fun _ => true

/-- A parallel call whose source calls the same pool. -/
def reentrant : Code Bool :=
  .call .call_with_count (eager true 2 Nat.two_pos) 2 .done
    (.item (.call .execute_with_count (eager true 2 Nat.two_pos) 1 .done (.exhausted .done) .done)
      .done (.exhausted .done)) .done

/-- The call, on a thread that is inside of a call on the other pool. -/
def reentering : State (Option Bool) Bool where
  threads := fun t => if t = none then ⟨[.running .root reentrant], [false]⟩ else ⟨[], []⟩
  scopes := []

/-- The rest of the call up to the end of its scope. -/
def reentering_schedule : List (Choice (Option Bool)) :=
  [List.replicate 13 (.go none), [.start (some false) 0], List.replicate 3 (.go (some false)),
    [.start (some true) 0, .go (some true)]].flatten

/-- Until the call returns its pool is registered behind the other one, then it is gone. -/
theorem registry_restored_reentering :
    ∃ s₁ s₂ s₃ : State (Option Bool) Bool, Acts twoOfOne reentering none .silent s₁ ∧
      ReflTransGen (During twoOfOne none 1) s₁ s₂ ∧ (s₂.threads none).active = [false, true] ∧
      (s₂.threads none).active.count true = 1 ∧ Step twoOfOne s₂ s₃ ∧
      Restored .root [] [false] (s₃.threads none) := by
  obtain ⟨s₁, called, s₂, inside, s₃, ends, active, depth⟩ : ∃ s₁,
      Acts twoOfOne reentering none .silent s₁ ∧
      ∃ s₂, follow (exec_during twoOfOne none 1) s₁ reentering_schedule = some s₂ ∧
      ∃ s₃, exec twoOfOne s₂ (.go none) = some s₃ ∧ (s₂.threads none).active = [false, true] ∧
        (s₃.threads none).stack.length ≤ 1 :=
    ⟨_, .act (.call .eagerly rfl) .silent, _, rfl, _, rfl, rfl, Nat.le_refl 1⟩
  obtain ⟨during, -⟩ := registry_restored rfl (by decide) called
  have rs := follow_run exec_during_step inside
  obtain ⟨once, restored⟩ := during s₂ rs
  exact ⟨s₁, s₂, s₃, called, rs, active, once, exec_step ends, restored s₃ (exec_step ends) depth⟩

end RayonBatch.Nested
