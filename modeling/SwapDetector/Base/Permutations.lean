import Mathlib.Data.Bool.Basic
import Mathlib.Data.List.Basic
import Mathlib.Algebra.BigOperators.Intervals

/-! # Previous permutations of bit vectors, and pairs in lexicographic order

`prevPermutation` is `std::prev_permutation` on lists. On a vector with two set
bits it moves the second bit one place to the right; when there is no place left,
it moves the first bit and puts the second directly behind it. Started from the
greatest vector, it therefore visits the pairs of positions in lexicographic
order.
-/
namespace SwapDetector.Base.Permutations

section
variable {α : Type} [LT α] [DecidableLT α]

/-- Put `x` in the place of the last element below it, which is returned. -/
def swapLast (x : α) : List α → Option (α × List α)
  | [] => none
  | y :: ys => match swapLast x ys with
    | some (z, ys') => some (z, y :: ys')
    | none => if y < x then some (y, x :: ys) else none

/-- The next smaller arrangement in lexicographic order, if there is one. When
the tail has none it is in increasing order, and the largest smaller arrangement
starts with the last element below the head, followed by the rest in decreasing
order. -/
def prevPermutation : List α → Option (List α)
  | [] => none
  | x :: xs => match prevPermutation xs with
    | some xs' => some (x :: xs')
    | none => (swapLast x xs).map fun p => p.1 :: p.2.reverse

end

/-! ## Two set bits -/

theorem swapLast_false (l : List Bool) : swapLast false l = none := by
  induction l with
  | nil => rfl
  | cons y ys ih => cases y <;> simp [swapLast, ih]

theorem swapLast_true (b : Nat) :
    swapLast true (List.replicate (b + 1) false) = some (false, List.replicate b false ++ [true]) := by
  induction b with
  | zero => rfl
  | succ b ih => rw [List.replicate_succ, swapLast, ih]; rfl

theorem swapLast_true_append (b : Nat) :
    swapLast true (List.replicate (b + 1) false ++ [true]) =
      some (false, List.replicate b false ++ [true, true]) := by
  induction b with
  | zero => rfl
  | succ b ih => rw [List.replicate_succ, List.cons_append, swapLast, ih]; rfl

theorem prev_false_cons {l l' : List Bool} (h : prevPermutation l = some l') :
    prevPermutation (false :: l) = some (false :: l') := by
  simp [prevPermutation, h]

theorem prev_false_cons_none {l : List Bool} (h : prevPermutation l = none) :
    prevPermutation (false :: l) = none := by
  simp [prevPermutation, h, swapLast_false]

theorem prev_zeros_append {l l' : List Bool} (a : Nat) (h : prevPermutation l = some l') :
    prevPermutation (List.replicate a false ++ l) = some (List.replicate a false ++ l') := by
  induction a with
  | zero => exact h
  | succ a ih =>
    rw [List.replicate_succ, List.cons_append, List.cons_append]
    exact prev_false_cons ih

theorem prev_zeros_append_none {l : List Bool} (a : Nat) (h : prevPermutation l = none) :
    prevPermutation (List.replicate a false ++ l) = none := by
  induction a with
  | zero => exact h
  | succ a ih =>
    rw [List.replicate_succ, List.cons_append]
    exact prev_false_cons_none ih

theorem prev_zeros (c : Nat) : prevPermutation (List.replicate c false) = none := by
  simpa using prev_zeros_append_none c (l := []) rfl

/-- The vector whose set bits have `a` clear bits before the first, `b` between
them and `c` behind the second. -/
def twoBits (a b c : Nat) : List Bool :=
  List.replicate a false ++ true :: (List.replicate b false ++ true :: List.replicate c false)

theorem prev_oneBit (b c : Nat) :
    prevPermutation (List.replicate b false ++ true :: List.replicate (c + 1) false) =
      some (List.replicate (b + 1) false ++ true :: List.replicate c false) := by
  have hhead : prevPermutation (true :: List.replicate (c + 1) false) =
      some (false :: true :: List.replicate c false) := by
    rw [prevPermutation, prev_zeros, swapLast_true]
    simp
  rw [prev_zeros_append b hhead, List.replicate_succ']
  simp

theorem prev_oneBit_last (b : Nat) : prevPermutation (List.replicate b false ++ [true]) = none :=
  prev_zeros_append_none b rfl

/-- The second bit moves to the right. -/
theorem prev_twoBits_inner (a b c : Nat) :
    prevPermutation (twoBits a b (c + 1)) = some (twoBits a (b + 1) c) := by
  apply prev_zeros_append
  rw [prevPermutation, prev_oneBit]

/-- The second bit has no place left: the first bit moves and the second follows. -/
theorem prev_twoBits_carry (a b : Nat) :
    prevPermutation (twoBits a (b + 1) 0) = some (twoBits (a + 1) 0 b) := by
  have hhead : prevPermutation (true :: (List.replicate (b + 1) false ++ [true])) =
      some (false :: true :: true :: List.replicate b false) := by
    rw [prevPermutation, prev_oneBit_last, swapLast_true_append]
    simp
  unfold twoBits
  rw [List.replicate_zero, prev_zeros_append a hhead, List.replicate_succ']
  simp

theorem prev_twoBits_last (a : Nat) : prevPermutation (twoBits a 0 0) = none :=
  prev_zeros_append_none a rfl

/-! ## Pairs of positions -/

/-- The pairs with first component `i` and second component from `j` on. -/
def pairsInRow (n i j : Nat) : List (Nat × Nat) := (List.range' j (n - j)).map (Prod.mk i)

/-- All pairs `i < j < n` in lexicographic order. -/
def allPairs (n : Nat) : List (Nat × Nat) := (List.range n).flatMap fun i => pairsInRow n i (i + 1)

/-- The pairs from `(i, j)` on, in lexicographic order. -/
def pairsFrom (n i j : Nat) : List (Nat × Nat) :=
  pairsInRow n i j ++ (List.range' (i + 1) (n - (i + 1))).flatMap fun i => pairsInRow n i (i + 1)

theorem mem_pairsInRow {n i j : Nat} {p : Nat × Nat} :
    p ∈ pairsInRow n i j ↔ p.1 = i ∧ j ≤ p.2 ∧ p.2 < n := by
  obtain ⟨x, y⟩ := p
  simp only [pairsInRow, List.mem_map, List.mem_range'_1, Prod.mk.injEq]
  constructor
  · rintro ⟨k, hk, rfl, rfl⟩; exact ⟨rfl, hk.1, by omega⟩
  · rintro ⟨rfl, hj, hn⟩; exact ⟨y, ⟨hj, by omega⟩, rfl, rfl⟩

@[simp] theorem mem_allPairs {n : Nat} {p : Nat × Nat} : p ∈ allPairs n ↔ p.1 < p.2 ∧ p.2 < n := by
  simp only [allPairs, List.mem_flatMap, List.mem_range, mem_pairsInRow]
  constructor
  · rintro ⟨i, hi, rfl, hj, hn⟩; exact ⟨by omega, hn⟩
  · rintro ⟨hij, hn⟩; exact ⟨p.1, by omega, rfl, by omega, hn⟩

/-- Both components of a pair are positions. -/
theorem lt_of_mem_allPairs {n : Nat} {p : Nat × Nat} (hp : p ∈ allPairs n) : p.1 < n ∧ p.2 < n := by
  have hlt := mem_allPairs.mp hp
  omega

/-- `(i, j)` comes before `(i', j')` in lexicographic order. -/
def LexBefore (p q : Nat × Nat) : Prop := p.1 < q.1 ∨ p.1 = q.1 ∧ p.2 < q.2

theorem LexBefore.asymm (p q : Nat × Nat) (h : LexBefore p q) : ¬ LexBefore q p := by
  unfold LexBefore at *
  omega

theorem allPairs_sorted (n : Nat) : (allPairs n).Pairwise LexBefore := by
  refine List.pairwise_flatMap.mpr ⟨fun i _ => ?_, ?_⟩
  · exact List.pairwise_map.mpr ((List.pairwise_lt_range' ..).imp fun h => .inr ⟨rfl, h⟩)
  · refine List.pairwise_lt_range.imp fun {i i'} h => ?_
    intro p hp q hq
    have hi := (mem_pairsInRow.mp hp).1
    have hi' := (mem_pairsInRow.mp hq).1
    exact .inl (by omega)

theorem allPairs_nodup (n : Nat) : (allPairs n).Nodup := by
  refine (allPairs_sorted n).imp fun {p q} hpq heq => ?_
  rw [heq, LexBefore] at hpq
  omega

theorem allPairs_of_lt_two {n : Nat} (hn : n < 2) : allPairs n = [] := by
  refine List.eq_nil_iff_forall_not_mem.mpr fun p hp => ?_
  rw [mem_allPairs] at hp
  omega

theorem allPairs_eq_pairsFrom {n : Nat} (hn : 0 < n) : allPairs n = pairsFrom n 0 1 := by
  obtain ⟨m, rfl⟩ : ∃ m, n = m + 1 := ⟨n - 1, by omega⟩
  unfold allPairs pairsFrom
  rw [List.range_eq_range', List.range'_succ, List.flatMap_cons]
  rfl

/-- The first of the pairs from `(i, j)` on, and the ones after it. -/
theorem pairsFrom_cons {n i j : Nat} (hj : j < n) :
    pairsFrom n i j = (i, j) :: pairsFrom n i (j + 1) := by
  have hrow : pairsInRow n i j = (i, j) :: pairsInRow n i (j + 1) := by
    unfold pairsInRow
    rw [show n - j = (n - (j + 1)) + 1 by omega, List.range'_succ, List.map_cons]
  unfold pairsFrom
  rw [hrow, List.cons_append]

theorem pairsInRow_end {n i j : Nat} (hj : n ≤ j) : pairsInRow n i j = [] := by
  rw [pairsInRow, Nat.sub_eq_zero_of_le hj]
  rfl

/-- Behind the last pair of a row comes the first pair of the next row. -/
theorem pairsFrom_end {n i : Nat} (hi : i + 1 < n) : pairsFrom n i n = pairsFrom n (i + 1) (i + 2) := by
  unfold pairsFrom
  rw [pairsInRow_end le_rfl, List.nil_append, show n - (i + 1) = (n - (i + 2)) + 1 by omega,
    List.range'_succ, List.flatMap_cons]

theorem pairsFrom_last {n i : Nat} (hi : n ≤ i + 2) : pairsFrom n i n = [] := by
  unfold pairsFrom
  rw [pairsInRow_end le_rfl, List.nil_append, List.flatMap_eq_nil_iff]
  intro i' hi'
  rw [List.mem_range'_1] at hi'
  exact pairsInRow_end (by omega)

theorem length_allPairs (n : Nat) : (allPairs n).length = n * (n - 1) / 2 := by
  have hrow (i : Nat) : (pairsInRow n i (i + 1)).length = n - 1 - i := by
    simp [pairsInRow]
    omega
  unfold allPairs
  rw [List.length_flatMap]
  simp only [hrow]
  calc ((List.range n).map fun i => n - 1 - i).sum
      = ∑ i ∈ Finset.range n, (n - 1 - i) := rfl
    _ = ∑ i ∈ Finset.range n, i := Finset.sum_range_reflect (fun i => i) n
    _ = n * (n - 1) / 2 := Finset.sum_range_id n

theorem length_allPairs_le (n : Nat) : (allPairs n).length ≤ n * n := by
  rw [length_allPairs]
  exact (Nat.div_le_self _ 2).trans (Nat.mul_le_mul_left n (Nat.sub_le n 1))

/-- The pairs below a smaller bound are those whose second component is below it. -/
theorem filter_allPairs {k n : Nat} (hk : k ≤ n) :
    (allPairs n).filter (fun p => p.2 < k) = allPairs k := by
  have hrow : ∀ i, (pairsInRow n i (i + 1)).filter (fun p => p.2 < k) = pairsInRow k i (i + 1) := by
    intro i
    unfold pairsInRow
    rw [List.filter_map]
    congr 1
    by_cases hi : i + 1 ≤ k
    · rw [show n - (i + 1) = (k - (i + 1)) + (n - k) by omega, ← List.range'_append_1,
        List.filter_append, List.filter_eq_self.mpr, List.filter_eq_nil_iff.mpr, List.append_nil]
      · intro j hj; simp at hj ⊢; omega
      · intro j hj; simp at hj ⊢; omega
    · rw [show k - (i + 1) = 0 by omega, List.filter_eq_nil_iff.mpr]
      · rfl
      · intro j hj; simp at hj ⊢; omega
  unfold allPairs
  rw [List.filter_flatMap]
  simp only [hrow]
  rw [show n = k + (n - k) by omega, List.range_add, List.flatMap_append]
  have htail : ((List.range (n - k)).map (k + ·)).flatMap (fun i => pairsInRow k i (i + 1)) = [] := by
    rw [List.flatMap_eq_nil_iff]
    intro i hi
    obtain ⟨d, _, rfl⟩ := List.mem_map.mp hi
    exact pairsInRow_end (by omega)
  rw [htail, List.append_nil]

/-! ## Exchanging two entries -/

section Exchange
variable {α : Type} {l : List α} {i j : Nat}

/-- The list with the entries at two positions exchanged. -/
def exchange (l : List α) (i j : Nat) : List α :=
  match l[i]?, l[j]? with
  | some a, some b => (l.set i b).set j a
  | _, _ => l

theorem exchange_of_lt (hi : i < l.length) (hj : j < l.length) :
    exchange l i j = (l.set i l[j]).set j l[i] := by
  unfold exchange
  rw [List.getElem?_eq_getElem hi, List.getElem?_eq_getElem hj]

theorem length_exchange (hi : i < l.length) (hj : j < l.length) :
    (exchange l i j).length = l.length := by
  rw [exchange_of_lt hi hj, List.length_set, List.length_set]

theorem getElem?_exchange_left (hi : i < l.length) (hj : j < l.length) (hne : i ≠ j) :
    (exchange l i j)[i]? = l[j]? := by
  rw [exchange_of_lt hi hj, List.getElem?_set_ne hne.symm, List.getElem?_set_self hi,
    List.getElem?_eq_getElem hj]

theorem getElem?_exchange_right (hi : i < l.length) (hj : j < l.length) :
    (exchange l i j)[j]? = l[i]? := by
  rw [exchange_of_lt hi hj, List.getElem?_set_self (by rw [List.length_set]; exact hj),
    List.getElem?_eq_getElem hi]

theorem mem_of_mem_exchange {x : α} (hi : i < l.length) (hj : j < l.length)
    (h : x ∈ exchange l i j) : x ∈ l := by
  rw [exchange_of_lt hi hj] at h
  rcases List.mem_or_eq_of_mem_set h with h | rfl
  · rcases List.mem_or_eq_of_mem_set h with h | rfl
    · exact h
    · exact List.getElem_mem hj
  · exact List.getElem_mem hi

end Exchange

end SwapDetector.Base.Permutations
