import Mathlib.Data.Finset.Card
import Mathlib.Data.List.Sort

/-! # Finite sets that are visited in increasing order

A C++ `std::set` is a finite set whose iterators run through its elements in
increasing order. The set itself is a `Finset`; `inOrder` is the sequence its
iterators produce. The sort is structurally recursive, so loops over a set can
be evaluated by the kernel.
-/
namespace SwapDetector.Base.OrderedSet

/-- Removing one element from each of two disjoint sets leaves the same
remainder only when both sets have no other element. -/
theorem erase_eq_erase_iff {α : Type} [DecidableEq α] {s t : Finset α} {a b : α} (hd : Disjoint s t)
    (ha : a ∈ s) (hb : b ∈ t) : s.erase a = t.erase b ↔ s = {a} ∧ t = {b} := by
  constructor
  · intro h
    have hs : s.erase a = ∅ := by
      rw [Finset.eq_empty_iff_forall_notMem]
      intro x hx
      have hx' : x ∈ t.erase b := h ▸ hx
      exact (Finset.disjoint_left.mp hd (Finset.mem_of_mem_erase hx)) (Finset.mem_of_mem_erase hx')
    have ht : t.erase b = ∅ := h ▸ hs
    constructor
    · rw [← Finset.insert_erase ha, hs, insert_empty_eq]
    · rw [← Finset.insert_erase hb, ht, insert_empty_eq]
  · rintro ⟨rfl, rfl⟩
    simp

/-- Of two different sets of one size, each has an element the other one has not. -/
theorem sdiff_ne_empty {α : Type} [DecidableEq α] {s t : Finset α} (hcard : s.card = t.card)
    (hne : s ≠ t) : s \ t ≠ ∅ := by
  intro hempty
  exact hne (Finset.eq_of_subset_of_card_le (Finset.sdiff_eq_empty_iff_subset.mp hempty) hcard.ge)

/-- When one difference of sets contains another one, and the sets have one size, the two
differences are the same exactly when the overlaps have one size. -/
theorem sdiff_subset_iff_card_inter {α : Type} [DecidableEq α] {s t u v : Finset α}
    (h : s \ t ⊆ u \ v) (hcard : s.card = u.card) :
    u \ v ⊆ s \ t ↔ (u ∩ v).card = (s ∩ t).card := by
  have hst := Finset.card_sdiff_add_card_inter s t
  have huv := Finset.card_sdiff_add_card_inter u v
  constructor
  · intro hsub
    have heq : u \ v = s \ t := Finset.Subset.antisymm hsub h
    rw [heq] at huv
    omega
  · intro hinter
    exact (Finset.eq_of_subset_of_card_le h (by omega)).ge

variable {α : Type} [LinearOrder α]

theorem insertionSort_eq_of_perm {l l' : List α} (h : l.Perm l') :
    l.insertionSort (· ≤ ·) = l'.insertionSort (· ≤ ·) :=
  (((List.perm_insertionSort _ l).trans h).trans (List.perm_insertionSort _ l').symm).eq_of_pairwise
    (fun _ _ _ _ hab hba => le_antisymm hab hba)
    (List.pairwise_insertionSort _ l) (List.pairwise_insertionSort _ l')

/-- The elements of a set in the order its iterators visit them. -/
def inOrder (s : Finset α) : List α :=
  Quot.liftOn s.val (List.insertionSort (· ≤ ·)) fun _ _ h => insertionSort_eq_of_perm h

theorem coe_inOrder (s : Finset α) : (inOrder s : Multiset α) = s.val := by
  obtain ⟨m, hm⟩ := s
  induction m using Quot.inductionOn with
  | h l => exact Multiset.coe_eq_coe.mpr (List.perm_insertionSort (· ≤ ·) l)

@[simp] theorem mem_inOrder {s : Finset α} {a : α} : a ∈ inOrder s ↔ a ∈ s := by
  rw [← Multiset.mem_coe, coe_inOrder, Finset.mem_val]

theorem inOrder_nodup (s : Finset α) : (inOrder s).Nodup := by
  rw [← Multiset.coe_nodup, coe_inOrder]
  exact s.nodup

theorem inOrder_inj {s t : Finset α} : inOrder s = inOrder t ↔ s = t := by
  constructor
  · intro h
    ext a
    rw [← mem_inOrder, h, mem_inOrder]
  · exact congrArg inOrder

@[simp] theorem inOrder_empty : inOrder (∅ : Finset α) = [] := rfl

@[simp] theorem inOrder_singleton (a : α) : inOrder ({a} : Finset α) = [a] := rfl

theorem inOrder_ne_nil {s : Finset α} (hs : s ≠ ∅) :
    ∃ a rest, inOrder s = a :: rest := by
  cases horder : inOrder s with
  | nil => exact absurd (inOrder_inj.mp (horder.trans inOrder_empty.symm)) hs
  | cons a rest => exact ⟨a, rest, rfl⟩

end SwapDetector.Base.OrderedSet
