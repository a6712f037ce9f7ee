import Mathlib.Algebra.BigOperators.Group.Finset.Piecewise
import Mathlib.Algebra.Order.BigOperators.Group.Finset
import Mathlib.Algebra.Ring.Nat
import Mathlib.Tactic.Common

/-!
# Sums over components of which one moves

A quantity that is the sum of its values at finitely many components, or at the elements of a list,
changes by the change at the one component that moves. Multisets whose elements are related one by
one agree in every count that the relation respects.
-/

open Function

variable {ι X : Type*} [Fintype ι] [DecidableEq ι]

/-- The sum after one component moved, stated without subtraction. -/
lemma sum_update_add {M : Type*} [AddCommMonoid M] (g : X → M) (f : ι → X) (i : ι) (x : X) :
    (∑ j, g (update f i x j)) + g (f i) = (∑ j, g (f j)) + g x := by
  have e : ∀ j, g (update f i x j) = update (fun k => g (f k)) i (g x) j :=
    fun j => apply_update (fun _ => g) f i x j
  have split := Finset.sum_sdiff (Finset.subset_univ {i}) (f := fun j => g (f j))
  rw [Finset.sum_congr rfl fun j _ => e j, Finset.sum_update_of_mem (Finset.mem_univ i)]
  rw [Finset.sum_singleton] at split
  rw [← split, add_assoc, add_comm]

omit [DecidableEq ι] in
/-- A component is at most the sum. -/
lemma le_sum_component (g : X → ℕ) (f : ι → X) (i : ι) : g (f i) ≤ ∑ j, g (f j) :=
  Finset.single_le_sum (f := fun j => g (f j)) (fun _ _ => Nat.zero_le _) (Finset.mem_univ i)

omit [DecidableEq ι] in
/-- A positive sum has a positive component. -/
lemma exists_component_pos {g : X → ℕ} {f : ι → X} (h : 0 < ∑ j, g (f j)) : ∃ i, 0 < g (f i) := by
  obtain ⟨i, -, hi⟩ := Finset.exists_ne_zero_of_sum_ne_zero h.ne'
  exact ⟨i, Nat.pos_of_ne_zero hi⟩

/-- Exchanging an element of a list changes a sum by the difference of the two. -/
lemma List.sum_map_set_add {α M : Type*} [AddCommMonoid M] (g : α → M) {l : List α} {b : ℕ} {x : α}
    (h : l[b]? = some x) (y : α) : ((l.set b y).map g).sum + g x = (l.map g).sum + g y := by
  induction l generalizing b with
  | nil => cases h
  | cons z l ih =>
    cases b with
    | zero =>
      cases h
      simp only [List.set_cons_zero, List.map_cons, List.sum_cons]
      rw [add_comm (g y), add_comm (g x), add_right_comm]
    | succ b =>
      have := ih (b := b) h
      simp only [List.set_cons_succ, List.map_cons, List.sum_cons]
      rw [add_assoc, this, add_assoc]

/-- What related elements agree in is found equally often on both sides. -/
lemma Multiset.Rel.countP_congr {α β : Type*} {r : α → β → Prop} {s t} {p : α → Bool} {q : β → Bool}
    (same : ∀ a b, r a b → p a = q b) (rel : Multiset.Rel r s t) :
    s.countP (p ·) = t.countP (q ·) := by
  induction rel with
  | zero => rfl
  | cons related _ ih => simp only [Multiset.countP_cons, same _ _ related, ih]
