import SwapDetector.Base.Permutations
import Mathlib.Data.List.Lex
import Mathlib.Order.Bounds.Basic

/-! # The order of the arrangements of a list

The arrangements of a list are its permutations, in lexicographic order. The smallest
one is in increasing order and the greatest one in decreasing order. `prevPermutation`
steps down: its value is the greatest of the smaller arrangements, and the smallest
arrangement has none.
-/
namespace SwapDetector.Base.PermutationOrder
open SwapDetector.Base.Permutations

variable {α : Type}

/-- Where a sorted list and another arrangement of it part, the sorted list has the
element that comes first. -/
theorem sorted_first_difference {r : α → α → Prop} {l x : List α} (hl : l.Pairwise r)
    (hx : x.Perm l) :
    x = l ∨ ∃ p a b l' x', l = p ++ a :: l' ∧ x = p ++ b :: x' ∧ a ≠ b ∧ r a b := by
  induction l generalizing x with
  | nil => exact .inl hx.eq_nil
  | cons a l ih =>
    obtain ⟨hhead, htail⟩ := List.pairwise_cons.mp hl
    cases x with
    | nil => exact absurd hx.length_eq (by simp)
    | cons b x =>
      by_cases hab : a = b
      · subst hab
        rcases ih htail hx.cons_inv with heq | ⟨p, c, d, l', x', rfl, rfl, hne, hr⟩
        · exact .inl (by rw [heq])
        · exact .inr ⟨a :: p, c, d, l', x', rfl, rfl, hne, hr⟩
      · have hb : b ∈ l := (List.mem_cons.mp (hx.subset List.mem_cons_self)).resolve_left (Ne.symm hab)
        exact .inr ⟨[], a, b, l, x, rfl, rfl, hab, hhead b hb⟩

section Order
variable [LinearOrder α] {l l' x : List α} {a z : α}

theorem append_lt_append {p s t : List α} (h : s < t) : p ++ s < p ++ t :=
  List.Lex.append_left (· < ·) h p

/-- The increasing arrangement is the smallest one. -/
theorem le_of_increasing (hl : l.Pairwise (· ≤ ·)) (hx : x.Perm l) : l ≤ x := by
  rcases sorted_first_difference hl hx with rfl | ⟨p, a, b, l', x', rfl, rfl, hne, hle⟩
  · exact le_rfl
  · exact (append_lt_append (List.Lex.rel (lt_of_le_of_ne hle hne))).le

/-- The decreasing arrangement is the greatest one. -/
theorem le_of_decreasing (hl : l.Pairwise (· ≥ ·)) (hx : x.Perm l) : x ≤ l := by
  rcases sorted_first_difference hl hx with rfl | ⟨p, a, b, l', x', rfl, rfl, hne, hle⟩
  · exact le_rfl
  · exact (append_lt_append (List.Lex.rel (lt_of_le_of_ne hle hne.symm))).le

/-! ## The element to exchange -/

theorem swapLast_none (h : swapLast a l = none) : ∀ y ∈ l, a ≤ y := by
  induction l with
  | nil => simp
  | cons b l ih =>
    cases htail : swapLast a l with
    | some p => simp [swapLast, htail] at h
    | none =>
      by_cases hlt : b < a
      · simp [swapLast, htail, hlt] at h
      · intro y hy
        rcases List.mem_cons.mp hy with rfl | hy
        · exact not_lt.mp hlt
        · exact ih htail y hy

/-- The exchanged element is the last one below the given one. -/
theorem swapLast_some (h : swapLast a l = some (z, l')) :
    ∃ p q, l = p ++ z :: q ∧ l' = p ++ a :: q ∧ z < a ∧ ∀ y ∈ q, a ≤ y := by
  induction l generalizing l' with
  | nil => cases h
  | cons b l ih =>
    cases htail : swapLast a l with
    | some found =>
      obtain ⟨z', m⟩ := found
      simp only [swapLast, htail, Option.some.injEq, Prod.mk.injEq] at h
      obtain ⟨rfl, rfl⟩ := h
      obtain ⟨p, q, rfl, rfl, hlt, hq⟩ := ih htail
      exact ⟨b :: p, q, rfl, rfl, hlt, hq⟩
    | none =>
      by_cases hlt : b < a
      · simp only [swapLast, htail, hlt, if_true, Option.some.injEq, Prod.mk.injEq] at h
        obtain ⟨rfl, rfl⟩ := h
        exact ⟨[], l, rfl, rfl, hlt, swapLast_none htail⟩
      · simp [swapLast, htail, hlt] at h

/-- In an increasing list the exchanged element is the greatest one below the given one,
and the exchange keeps the list increasing. -/
theorem swapLast_increasing (hl : l.Pairwise (· ≤ ·)) (h : swapLast a l = some (z, l')) :
    (∀ y ∈ l, y < a → y ≤ z) ∧ l'.Pairwise (· ≤ ·) := by
  obtain ⟨p, q, rfl, rfl, hlt, hq⟩ := swapLast_some h
  obtain ⟨hp, hzq, hcross⟩ := List.pairwise_append.mp hl
  obtain ⟨hz, hqs⟩ := List.pairwise_cons.mp hzq
  constructor
  · intro y hy hya
    rcases List.mem_append.mp hy with hy | hy
    · exact hcross y hy z List.mem_cons_self
    · rcases List.mem_cons.mp hy with rfl | hy
      · exact le_rfl
      · exact absurd (hq y hy) (not_le.mpr hya)
  · refine List.pairwise_append.mpr ⟨hp, List.pairwise_cons.mpr ⟨hq, hqs⟩, ?_⟩
    intro y hy w hw
    rcases List.mem_cons.mp hw with rfl | hw
    · exact (hcross y hy z List.mem_cons_self).trans hlt.le
    · exact hcross y hy w (List.mem_cons_of_mem z hw)

theorem swapLast_perm (h : swapLast a l = some (z, l')) : (z :: l').Perm (a :: l) := by
  obtain ⟨p, q, rfl, rfl, -, -⟩ := swapLast_some h
  have hleft : (z :: (p ++ a :: q)).Perm (z :: a :: (p ++ q)) := List.perm_middle.cons z
  have hright : (a :: (p ++ z :: q)).Perm (a :: z :: (p ++ q)) := List.perm_middle.cons a
  exact hleft.trans ((List.Perm.swap a z _).trans hright.symm)

/-! ## Stepping down -/

/-- Only an increasing list has no previous arrangement. -/
theorem increasing_of_prev_none (h : prevPermutation l = none) : l.Pairwise (· ≤ ·) := by
  induction l with
  | nil => exact List.Pairwise.nil
  | cons a l ih =>
    cases htail : prevPermutation l with
    | some l' => simp [prevPermutation, htail] at h
    | none =>
      simp only [prevPermutation, htail, Option.map_eq_none_iff] at h
      exact List.pairwise_cons.mpr ⟨swapLast_none h, ih htail⟩

/-- The previous arrangement is the greatest of the smaller ones. -/
theorem prev_isGreatest (h : prevPermutation l = some l') :
    IsGreatest {x | x.Perm l ∧ x < l} l' := by
  induction l generalizing l' with
  | nil => cases h
  | cons a l ih =>
    cases htail : prevPermutation l with
    | some m =>
      simp only [prevPermutation, htail, Option.some.injEq] at h
      subst h
      obtain ⟨⟨hperm, hlt⟩, hgreatest⟩ := ih htail
      refine ⟨⟨hperm.cons a, List.Lex.cons hlt⟩, fun x hx => ?_⟩
      obtain ⟨hxperm, hxlt⟩ := hx
      cases hxlt with
      | nil => exact absurd hxperm.length_eq (by simp)
      | rel hba => exact le_of_lt (List.Lex.rel hba)
      | cons hxlt => exact List.cons_le_cons a (hgreatest ⟨hxperm.cons_inv, hxlt⟩)
    | none =>
      -- the tail is its smallest arrangement: the head has to change
      have hinc := increasing_of_prev_none htail
      simp only [prevPermutation, htail, Option.map_eq_some_iff] at h
      obtain ⟨⟨z, m⟩, hswap, rfl⟩ := h
      obtain ⟨p, q, hl, -, hza, -⟩ := swapLast_some hswap
      obtain ⟨hbelow, hm⟩ := swapLast_increasing hinc hswap
      have hperm := swapLast_perm hswap
      refine ⟨⟨((List.reverse_perm m).cons z).trans hperm, List.Lex.rel hza⟩, fun x hx => ?_⟩
      obtain ⟨hxperm, hxlt⟩ := hx
      cases hxlt with
      | nil => exact absurd hxperm.length_eq (by simp)
      | @rel b x _ _ hba =>
        have hb : b ∈ l := (List.mem_cons.mp (hxperm.subset List.mem_cons_self)).resolve_left hba.ne
        rcases (hbelow b hb hba).lt_or_eq with hbz | rfl
        · exact le_of_lt (List.Lex.rel hbz)
        · have hxm : x.Perm m.reverse :=
            ((hxperm.trans hperm.symm).cons_inv).trans (List.reverse_perm m).symm
          exact List.cons_le_cons b (le_of_decreasing (List.pairwise_reverse.mpr hm) hxm)
      | cons hxlt => exact absurd (le_of_increasing hinc hxperm.cons_inv) (not_le.mpr hxlt)

/-- A step to the next smaller arrangement, which fails at the smallest one. -/
structure StepsDown (prev : List α → Option (List α)) : Prop where
  next : ∀ l l', prev l = some l' → IsGreatest {x | x.Perm l ∧ x < l} l'
  last : ∀ l, prev l = none → IsLeast {x | x.Perm l} l

theorem prevPermutation_stepsDown : StepsDown (prevPermutation (α := α)) where
  next := fun _ _ h => prev_isGreatest h
  last := fun l h => ⟨List.Perm.refl l, fun _ hx => le_of_increasing (increasing_of_prev_none h) hx⟩

/-- Nothing else steps down. -/
theorem StepsDown.unique {prev prev' : List α → Option (List α)} (h : StepsDown prev)
    (h' : StepsDown prev') : prev = prev' := by
  funext l
  cases hprev : prev l with
  | none =>
    cases hprev' : prev' l with
    | none => rfl
    | some m =>
      obtain ⟨⟨hperm, hlt⟩, -⟩ := h'.next l m hprev'
      exact absurd ((h.last l hprev).2 hperm) (not_le.mpr hlt)
  | some m =>
    have hm := h.next l m hprev
    cases hprev' : prev' l with
    | none => exact absurd ((h'.last l hprev').2 hm.1.1) (not_le.mpr hm.1.2)
    | some m' => rw [hm.unique (h'.next l m' hprev')]

end Order

end SwapDetector.Base.PermutationOrder
