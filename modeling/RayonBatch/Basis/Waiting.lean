import Mathlib.Data.Finset.Card
import Mathlib.Data.Fintype.Pi
import Mathlib.Logic.Relation
import Mathlib.Order.WellFounded
import Mathlib.Tactic.Common

/-!
# Jobs that wait for one another

Jobs are numbered in the order in which they are started, and `waits j k` says that the job `j`
waits for the job `k`. A job crosses a cut when it is before the cut and waits, through others
perhaps, for one behind it. With `W` servers that start the jobs in order, the number that cross a
cut must stay below `W`, or no server is left to start a job behind the cut (`Fits`).
-/

namespace Waiting
open Relation

variable {waits : ℕ → ℕ → Prop} {n k j m : ℕ}

/-- A job before `k` that waits for one from `k` on, through others perhaps. -/
def Crosses (waits : ℕ → ℕ → Prop) (k j : ℕ) : Prop :=
  j < k ∧ ∃ m, k ≤ m ∧ TransGen waits j m

/-- At every cut fewer jobs than `W` wait across it. -/
def Fits (waits : ℕ → ℕ → Prop) (n W : ℕ) : Prop :=
  ∀ k < n, ∀ s : Finset ℕ, (∀ j ∈ s, Crosses waits k j) → s.card < W

/-- Whatever is waited for, even indirectly, is below the bound. -/
lemma lt_of_transGen (bounded : ∀ {j k}, waits j k → k < n) (h : TransGen waits j m) : m < n := by
  cases h with
  | single st => exact bounded st
  | tail _ st => exact bounded st

/-- Without a cycle among finitely many jobs nothing waits for ever. -/
lemma wellFounded (bounded : ∀ {j k}, waits j k → k < n) (acyclic : ∀ j, ¬ TransGen waits j j) :
    WellFounded (flip waits) := by
  have trans : IsTrans (Fin n) fun b a => TransGen waits a b :=
    ⟨fun _ _ _ h h' => TransGen.trans h' h⟩
  have irrefl : Std.Irrefl fun b a : Fin n => TransGen waits a b := ⟨fun j => acyclic j⟩
  have wf := Finite.wellFounded_of_trans_of_irrefl fun b a : Fin n => TransGen waits a b
  have acc : ∀ x : Fin n, Acc (flip waits) x := by
    intro x
    induction x using wf.induction with
    | h x ih => exact ⟨_, fun k st => ih ⟨k, bounded st⟩ (.single st)⟩
  exact ⟨fun j => ⟨_, fun k st => acc ⟨k, bounded st⟩⟩⟩

/-- Jobs of which each waits for another of them or for one behind the cut, all cross the cut. -/
lemma exists_behind (wf : WellFounded (flip waits)) {held : ℕ → Prop}
    (next : ∀ j, held j → ∃ m, waits j m ∧ (held m ∨ k ≤ m)) (h : held j) :
    ∃ m, k ≤ m ∧ TransGen waits j m := by
  induction j using wf.induction with
  | h j ih =>
    obtain ⟨m, st, again | behind⟩ := next j h
    · obtain ⟨m', behind, path⟩ := ih m st again
      exact ⟨m', behind, .head st path⟩
    · exact ⟨m, behind, .single st⟩

/-- What has all the jobs that its jobs wait for has those they wait for through others. -/
lemma mem_of_transGen {p : ℕ → Prop} (kept : ∀ {j k}, p j → waits j k → p k)
    (h : p j) (path : TransGen waits j m) : p m := by
  induction path with
  | single st => exact kept h st
  | tail _ st ih => exact kept ih st

end Waiting
