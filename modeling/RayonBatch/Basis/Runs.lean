import Mathlib.Data.DFinsupp.WellFounded
import Mathlib.Logic.Relation
import Mathlib.SetTheory.Ordinal.Rank
import Mathlib.Tactic.Common

/-!
# Runs of a transition relation

Reachability is `Relation.ReflTransGen R`. This file adds what a development about interleavings
needs on top of it: the invariant rule `invariant`, states without a step (`Stuck`), states all of
whose runs are finite (`Terminating`), the measure and image rules for the latter, the projection
of a run along a map that may stutter (`project`), the step at which a run comes to have a property
(`exists_crossing`), runs given by a computable step (`follow`), and the fact that finitely many
components that terminate one by one also terminate when their steps interleave
(`Terminating.interleave`).
-/

namespace Runs
open Relation

variable {S T ι : Type*} {R : S → S → Prop} {Q : T → T → Prop}

/-- No step leaves the state. -/
def Stuck (R : S → S → Prop) (s : S) : Prop :=
  ∀ s', ¬ R s s'

/-- Every run from the state is finite: no steps descend from it for ever. -/
def Terminating (R : S → S → Prop) (s : S) : Prop :=
  Acc (fun b a => R a b) s

/-- What every step keeps is kept by every run. -/
lemma invariant {I : S → Prop} {s s'} (step : ∀ {a b}, R a b → I a → I b)
    (rs : ReflTransGen R s s') (h : I s) : I s' := by
  induction rs with
  | refl => exact h
  | tail _ st ih => exact step st ih

/-- A run is mapped to a run when every step is mapped to a step or to nothing. -/
lemma project {f : S → T} {s s'} (step : ∀ {a b}, R a b → Q (f a) (f b) ∨ f a = f b)
    (rs : ReflTransGen R s s') : ReflTransGen Q (f s) (f s') := by
  induction rs with
  | refl => exact .refl
  | tail _ st ih =>
    obtain q | e := step st
    · exact ih.tail q
    · rwa [← e]

/-- A run that comes to have a property has a step that gives it the property. -/
lemma exists_crossing {P : S → Prop} {s s'} (rs : ReflTransGen R s s') (before : ¬ P s)
    (after : P s') :
    ∃ a b, ReflTransGen R s a ∧ ¬ P a ∧ R a b ∧ P b ∧ ReflTransGen R b s' := by
  induction rs with
  | refl => exact absurd after before
  | @tail a b rs st ih =>
    by_cases had : P a
    · obtain ⟨a', b', first, no, cross, yes, rest⟩ := ih had
      exact ⟨a', b', first, no, cross, yes, rest.tail st⟩
    · exact ⟨a, b, rs, had, st, after, .refl⟩

/-- A state that is not stuck has a step. -/
lemma exists_step_of_not_stuck {s} (h : ¬ Stuck R s) : ∃ s', R s s' := by
  simpa [Stuck] using h

namespace Terminating

/-- After a step all runs are still finite. -/
lemma step {s s'} (h : Terminating R s) (st : R s s') : Terminating R s' :=
  Acc.inv h st

/-- After a run all further runs are still finite. -/
lemma run {s s'} (h : Terminating R s) (rs : ReflTransGen R s s') : Terminating R s' :=
  invariant (fun st h => h.step st) rs h

/-- Where all runs are finite, some run ends in a stuck state. -/
lemma exists_stuck {s} (h : Terminating R s) : ∃ s', ReflTransGen R s s' ∧ Stuck R s' := by
  induction h with
  | intro a _ ih =>
    by_cases hs : Stuck R a
    · exact ⟨a, .refl, hs⟩
    · obtain ⟨b, st⟩ := exists_step_of_not_stuck hs
      obtain ⟨c, rs, hc⟩ := ih b st
      exact ⟨c, .head st rs, hc⟩

/-- Termination is reflected by a map that sends the steps of an invariant's states to steps. -/
lemma of_image {I : S → Prop} {s} (f : S → T)
    (step : ∀ {a b}, I a → R a b → I b ∧ Q (f a) (f b)) (h : I s)
    (fin : Terminating Q (f s)) : Terminating R s := by
  generalize e : f s = x at fin
  induction fin generalizing s with
  | intro x _ ih =>
    subst e
    refine ⟨_, fun b st => ?_⟩
    obtain ⟨hb, q⟩ := step h st
    exact ih (f b) q hb rfl

/-- Runs that decrease a number are finite. -/
lemma of_measure {I : S → Prop} {s} (m : S → ℕ)
    (step : ∀ {a b}, I a → R a b → I b ∧ m b < m a) (h : I s) : Terminating R s :=
  of_image (Q := fun a b => b < a) m step h (Nat.lt_wfRel.wf.apply _)

end Terminating

/-- The run that takes the given steps one by one, if each is possible. -/
def follow {L : Type*} (step : S → L → Option S) : S → List L → Option S
  | s, [] => some s
  | s, l :: ls => (step s l).bind (follow step · ls)

/-- A followed run is a run of every relation that has its steps. -/
lemma follow_run {L : Type*} {step : S → L → Option S}
    (sound : ∀ {s l s'}, step s l = some s' → R s s') {s ls s'} (h : follow step s ls = some s') :
    ReflTransGen R s s' := by
  induction ls generalizing s with
  | nil =>
    cases h
    exact .refl
  | cons l ls ih =>
    obtain ⟨m, st, rest⟩ := Option.bind_eq_some_iff.mp h
    exact .head (sound st) (ih rest)

/-- One component moves by its own relation, the others stay. -/
def Interleave [DecidableEq ι] (R : ι → S → S → Prop) (x y : ι → S) : Prop :=
  ∃ i s, R i (x i) s ∧ y = Function.update x i s

open Classical in
/-- The height of a terminating state, `0` elsewhere. -/
noncomputable def height (R : S → S → Prop) (s : S) : Ordinal :=
  if h : Terminating R s then Acc.rank h else 0

/-- A step decreases the height. -/
lemma height_lt {s s'} (h : Terminating R s) (st : R s s') : height R s' < height R s := by
  rw [height, height, dif_pos h, dif_pos (h.step st)]
  exact Acc.rank_lt_of_rel h st

/-- Finitely many terminating components terminate under every interleaving. -/
lemma Terminating.interleave [DecidableEq ι] [Finite ι] {R : ι → S → S → Prop} {x : ι → S}
    (h : ∀ i, Terminating (R i) (x i)) : Terminating (Interleave R) x := by
  induction e : (fun i => height (R i) (x i)) using WellFoundedLT.induction generalizing x with
  | ind f ih =>
    subst e
    refine ⟨_, fun y st => ?_⟩
    obtain ⟨i, s, st, rfl⟩ := st
    refine ih _ (Pi.lt_def.mpr ⟨fun j => ?_, i, ?_⟩) (fun j => ?_) rfl
    · by_cases hj : j = i
      · subst hj
        simpa using (height_lt (h j) st).le
      · simp [hj]
    · simpa using height_lt (h i) st
    · by_cases hj : j = i
      · subst hj
        simpa using (h j).step st
      · simpa [hj] using h j

end Runs
