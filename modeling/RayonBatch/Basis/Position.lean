import Mathlib.Tactic.Common

/-!
# Last position in a list

`rposition` finds the last element that satisfies a test, `removeLast` removes the last occurrence
of a value. On a list where the value does not occur again the two single out one split of the list,
so entries that were pushed in any order can be taken out in any order.
-/

namespace List

variable {α : Type*}

/-- Index of the last element that satisfies the test. -/
def rposition (p : α → Bool) (l : List α) : Option Nat :=
  (l.reverse.findIdx? p).map (l.length - 1 - ·)

/-- Removes the last occurrence of a value, if there is one. -/
def removeLast [DecidableEq α] (l : List α) (a : α) : List α :=
  match l.rposition (fun b => decide (b = a)) with
  | some i => l.eraseIdx i
  | none => l

/-- The last match is the one behind which there is none. -/
lemma rposition_append_cons {p : α → Bool} {l r : List α} {a} (ha : p a = true)
    (hr : ∀ b ∈ r, p b = false) : (l ++ a :: r).rposition p = some l.length := by
  have none : r.reverse.findIdx? p = none := by
    simpa [findIdx?_eq_none_iff] using hr
  simp [rposition, none, findIdx?_cons, ha]

/-- The last occurrence of an element is removed. -/
lemma removeLast_append_cons [DecidableEq α] {l r : List α} {a} (hr : a ∉ r) :
    (l ++ a :: r).removeLast a = l ++ r := by
  have pos : (l ++ a :: r).rposition (fun b => decide (b = a)) = some l.length := by
    refine rposition_append_cons (by simp) (fun b hb => ?_)
    simpa using ne_of_mem_of_not_mem hb hr
  simp [removeLast, pos, eraseIdx_append_of_length_le]

/-- Removing an element keeps the order of the others. -/
lemma removeLast_sublist [DecidableEq α] (l : List α) (a) : (l.removeLast a).Sublist l := by
  unfold removeLast
  split
  · exact eraseIdx_sublist _ _
  · exact Sublist.refl l

/-- An element that has just been appended is the one that is removed. -/
@[simp] lemma removeLast_concat [DecidableEq α] (l : List α) (a) :
    (l ++ [a]).removeLast a = l := by
  simpa using removeLast_append_cons (l := l) (r := []) (a := a) (by simp)

end List
