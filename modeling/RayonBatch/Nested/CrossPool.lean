import Mathlib.Data.Fintype.EquivFin
import RayonBatch.Nested.Exec
import RayonBatch.Nested.Reentry

/-!
# Calls that go down an order of pools

Every call made by a source or a task of a batch on a pool goes to that pool or to one below it in
some order, so no cycle of pools is possible. That does not exclude a deadlock
(`descending_deadlock`): a worker that is in the middle of a source and waits for a lower pool may
pick up a job whose own source waits for the workers of the half-produced call. Every deadlock has
this form (`descending_calls`).
-/

namespace RayonBatch.Nested
open Relation Runs

universe u
variable {π : Type u} {θ : Type*} [DecidableEq π] [DecidableEq θ] [Fintype θ]

omit [DecidableEq θ] in
/-- There are finitely many pools, since each has a thread of its own. -/
lemma finite_of_threads {home : θ → Option π}
    (threads : ∀ pool, 2 ≤ current_num_threads home pool) : Finite π := by
  have worker : ∀ pool, ∃ t, home t = some pool := by
    intro pool
    have pos : 0 < current_num_threads home pool := Nat.lt_of_lt_of_le Nat.two_pos (threads pool)
    obtain ⟨⟨t, at_home⟩⟩ := Fintype.card_pos_iff.mp pos
    exact ⟨t, at_home⟩
  choose worker at_home using worker
  refine Finite.of_injective worker fun p q e => ?_
  have same := at_home p
  rw [e, at_home q] at same
  exact (Option.some.inj same).symm

/-- Where calls go down an order of pools, a state without a step is one in which all calls have
returned, unless some worker has a job on a source that it is still producing for a job that waits.
-/
theorem descending_calls [PartialOrder π] {home : θ → Option π} {program : θ → Code π}
    (threads : ∀ pool, 2 ≤ current_num_threads home pool)
    (down : ∀ t, home t = none → (program t).Within (fun X Y => ∀ x ∈ X, Y ≤ x) none) :
    ∀ s, ReflTransGen (Step home) (init home program) s → Stuck (Step home) s →
      (∀ t, (s.threads t).finished) ∨ Entangled s := by
  intro s rs stuck
  have := finite_of_threads threads
  have pos : ∀ (X : Option π) Y, (∀ x ∈ X, Y ≤ x) → 0 < current_num_threads home Y := fun _ Y _ =>
    Nat.lt_of_lt_of_le Nat.two_pos (threads Y)
  have halted := Halted.of_run down pos rs stuck
  rcases Classical.em (Entangled s) with entangled | free
  · exact .inr entangled
  · refine .inl fun t => halted.finished wellFounded_lt (fun X Y le => ?_) free t
    exact eq_or_lt_of_le (le X rfl)

/-- A call of one task. -/
def single (pool : Fin 3) (next task : Code (Fin 3)) : Code (Fin 3) :=
  .call .execute_with_count (eager pool 2 Nat.two_pos) 1 .done
    (.item next task (.exhausted .done)) .done

/-- A call of two tasks, of which the first is produced by `next`. -/
def double (pool : Fin 3) (next : Code (Fin 3)) : Code (Fin 3) :=
  .call .execute_with_count (eager pool 2 Nat.two_pos) 2 .done
    (.item next .done (.item .done .done (.exhausted .done))) .done

/-- Two workers for each of three pools, and two threads outside of them. -/
def threePools (t : Fin 8) : Option (Fin 3) :=
  if t.val < 2 then some 2 else if t.val < 4 then some 1 else if t.val < 6 then some 0 else none

/-- One thread calls the top pool, whose task calls the middle pool, whose source calls the bottom
pool; the other calls the top pool with a source that calls the middle pool. -/
def crossing (t : Fin 8) : Code (Fin 3) :=
  if t.val = 6 then single 2 .done (double 1 (single 0 .done .done))
  else single 2 (single 1 .done .done) .done

/-- A worker of the top pool waits for the bottom pool in the middle of its source, while both
workers of the middle pool wait for that source. It picks up the job of the second call, whose
source calls the middle pool. -/
def crossing_schedule : List (Choice (Fin 8)) :=
  List.replicate 9 (.go 6) ++ .start 0 0 :: List.replicate 7 (.go 0) ++
    [.start 2 1, .start 3 1] ++ List.replicate 9 (.go 0) ++ List.replicate 5 (.go 7) ++
    .start 0 3 :: List.replicate 9 (.go 7) ++ .start 4 2 :: List.replicate 3 (.go 4)

/-- The calls of the example go down the order of the pools. -/
lemma crossing_down (t : Fin 8) :
    (crossing t).Within (fun X Y => ∀ x ∈ X, Y ≤ x) none := by
  unfold crossing
  split <;> simp [single, double, eager]

/-- A run of the example gets stuck with both outer calls open. -/
lemma crossing_stuck : ∃ s, ReflTransGen (Step threePools) (init threePools crossing) s ∧
    Stuck (Step threePools) s ∧ ¬ (s.threads 6).finished ∧ ¬ (s.threads 7).finished := by
  obtain ⟨s, rs, ok⟩ := exec_reaches crossing_schedule
    (show (follow (exec threePools) (init threePools crossing) crossing_schedule).any (fun s =>
      decide ((∀ t, (s.threads t).stands (threePools t) s.scopes = true) ∧
        ¬ (s.threads 6).finished ∧ ¬ (s.threads 7).finished)) = true by decide +kernel)
  obtain ⟨stands, first, second⟩ := of_decide_eq_true ok
  exact ⟨s, rs, stuck_of_stands stands, first, second⟩

/-- Calls that go down an order of pools can deadlock. -/
theorem descending_deadlock :
    (∀ pool, 2 ≤ current_num_threads threePools pool) ∧
    (∀ t, threePools t = none → (crossing t).Within (fun X Y => ∀ x ∈ X, Y ≤ x) none) ∧
    ∃ s, ReflTransGen (Step threePools) (init threePools crossing) s ∧
      Stuck (Step threePools) s ∧ ¬ (s.threads 6).finished ∧ ¬ (s.threads 7).finished :=
  ⟨by decide, fun t _ => crossing_down t, crossing_stuck⟩

/-- In that deadlock a worker has a job on a source that it is still producing. -/
theorem descending_calls_crossing :
    ∃ s, ReflTransGen (Step threePools) (init threePools crossing) s ∧ Entangled s := by
  obtain ⟨s, rs, stuck, unfinished, -⟩ := crossing_stuck
  refine ⟨s, rs, ?_⟩
  obtain returned | entangled :=
    descending_calls (by decide) (fun t _ => crossing_down t) s rs stuck
  · exact absurd (returned 6) unfinished
  · exact entangled

end RayonBatch.Nested
