import Mathlib.Data.List.Sort

/-!
# Lists with a key

`sortOn key` sorts a list by a numeric key. When the keys are distinct the result depends on the
elements alone, not on their order (`sortOn_eq_of_perm`), and the keys of some elements select the
others (`filter_key_notMem_perm`).
-/

namespace List

variable {α β : Type*} {key : α → Nat}

/-- Sorts by a key. -/
def sortOn (key : α → Nat) (l : List α) : List α :=
  l.insertionSort (key · ≤ key ·)

/-- Sorting keeps the elements. -/
lemma sortOn_perm (l : List α) : (l.sortOn key).Perm l :=
  l.perm_insertionSort _

/-- A sorted list is in the order of its keys. -/
lemma sortOn_pairwise (l : List α) : (l.sortOn key).Pairwise (key · ≤ key ·) := by
  have : Std.Total (fun a b : α => key a ≤ key b) := ⟨fun a b => Nat.le_total (key a) (key b)⟩
  have : IsTrans α (fun a b => key a ≤ key b) := ⟨fun _ _ _ => Nat.le_trans⟩
  exact pairwise_insertionSort _ l

/-- With distinct keys an element is known by its key. -/
lemma eq_of_key_eq {l : List α} (nodup : (l.map key).Nodup) {a b} (ha : a ∈ l) (hb : b ∈ l)
    (e : key a = key b) : a = b :=
  inj_on_of_nodup_map nodup ha hb e

/-- Sorting by distinct keys forgets the order of the elements. -/
lemma sortOn_eq_of_perm {l l' : List α} (nodup : (l.map key).Nodup) (h : l.Perm l') :
    l.sortOn key = l'.sortOn key := by
  refine Perm.eq_of_pairwise (fun a b ha hb le ge => ?_) l.sortOn_pairwise l'.sortOn_pairwise
    (l.sortOn_perm.trans (h.trans l'.sortOn_perm.symm))
  have ha := l.sortOn_perm.mem_iff.mp ha
  have hb := h.mem_iff.mpr (l'.sortOn_perm.mem_iff.mp hb)
  exact eq_of_key_eq nodup ha hb (Nat.le_antisymm le ge)

/-- Taking the elements with some keys out of a list leaves the others, if the keys are distinct. -/
lemma filter_key_notMem_perm {l rest out : List α} (h : l.Perm (rest ++ out))
    (nodup : (l.map key).Nodup) : (l.filter fun a => key a ∉ out.map key).Perm rest := by
  have apart : ∀ a ∈ rest, key a ∉ out.map key := by
    have nodup := (h.map key).nodup_iff.mp nodup
    rw [map_append] at nodup
    exact fun a ha => disjoint_of_nodup_append nodup (mem_map_of_mem ha)
  have kept : rest.filter (fun a => key a ∉ out.map key) = rest :=
    filter_eq_self.mpr fun a ha => decide_eq_true (apart a ha)
  have left : out.filter (fun a => key a ∉ out.map key) = [] :=
    filter_eq_nil_iff.mpr fun a ha => by simpa using ⟨a, ha, rfl⟩
  have split := h.filter fun a => key a ∉ out.map key
  rwa [filter_append, kept, left, append_nil] at split

end List
