import SwapDetector.Base.PermutationOrder
import SwapDetector.Model.SwappedArgChecker

/-! # The pairs a check visits

`pairwiseCombinations n` lists all pairs `i < j < n` in lexicographic order as
long as every index is below the 32-bit mark for "no index yet"; from `2 ^ 32`
arguments on its second assertion fails at the pair whose second index is the
mark. The invariant of the loop is that the bit vector is the one of the next
pair and that the pairs before it have been collected.
-/
namespace SwapDetector.Proofs.PairEnumeration
open SwapDetector.Base.PermutationOrder SwapDetector.Base.Permutations
open SwapDetector.Model.Types SwapDetector.Model.SwappedArgChecker

theorem findBits_zeros (k : Nat) (l : List Bool) (idx first second : Nat) :
    findBits (List.replicate k false ++ l) idx first second = findBits l (idx + k) first second := by
  induction k generalizing idx with
  | zero => rfl
  | succ k ih =>
    rw [List.replicate_succ, List.cons_append, findBits, ih, show idx + 1 + k = idx + (k + 1) by omega]

theorem findBits_only_zeros (k idx first second : Nat) :
    findBits (List.replicate k false) idx first second = .ok (first, second) := by
  have h := findBits_zeros k [] idx first second
  rw [List.append_nil] at h
  exact h

/-- The scan finds the two set bits, also when the second index is the mark. -/
theorem findBits_twoBits {a b : Nat} (c : Nat) (ha : a < noIndex) :
    findBits (twoBits a b c) 0 noIndex noIndex = .ok (a, a + 1 + b) := by
  have hne : ¬ a = noIndex := by omega
  rw [twoBits, findBits_zeros, Nat.zero_add, findBits, if_pos rfl, findBits_zeros, findBits,
    if_neg hne, if_pos rfl, findBits_only_zeros]

/-- From the vector of a pair on, the loop collects the pairs from that pair on. -/
theorem combinationLoop_twoBits {n : Nat} (hn : n < 2 ^ 32) (bound : Nat) :
    ∀ (a b c : Nat) (ret : List (Nat × Nat)), a + 1 + b + 1 + c = n →
      (pairsFrom n a (a + 1 + b)).length ≤ bound →
      combinationLoop bound (twoBits a b c) ret = .ok (ret ++ pairsFrom n a (a + 1 + b)) := by
  induction bound with
  | zero =>
    intro a b c ret hlen hbound
    rw [pairsFrom_cons (by omega)] at hbound
    simp at hbound
  | succ bound ih =>
    intro a b c ret hlen hbound
    have hfind := findBits_twoBits c (show a < noIndex by unfold noIndex; omega) (b := b)
    have hmarks : a ≠ noIndex ∧ a + 1 + b ≠ noIndex := by unfold noIndex; omega
    rw [pairsFrom_cons (by omega), List.length_cons] at hbound
    rw [combinationLoop, hfind, pairsFrom_cons (by omega), List.append_cons]
    show (if a ≠ noIndex ∧ a + 1 + b ≠ noIndex then _ else _) = _
    rw [if_pos hmarks]
    -- the next vector: the second bit moves, the first bit moves, or this was the last one
    cases c with
    | succ c =>
      rw [prev_twoBits_inner]
      exact ih a (b + 1) c _ (by omega) (by rw [← Nat.add_assoc]; omega)
    | zero =>
      have hend : a + 1 + b + 1 = n := by omega
      rw [hend] at hbound ⊢
      cases b with
      | succ b =>
        rw [pairsFrom_end (by omega)] at hbound ⊢
        rw [prev_twoBits_carry]
        exact ih (a + 1) 0 b _ (by omega) (Nat.le_of_succ_le_succ hbound)
      | zero =>
        rw [prev_twoBits_last, pairsFrom_last (by omega), List.append_nil]
        rfl

/-- In a vector longer than the mark the loop reaches the pair of the mark. -/
theorem combinationLoop_mark (bound : Nat) :
    ∀ (b c : Nat) (ret : List (Nat × Nat)), 1 + b ≤ noIndex → noIndex < 1 + b + 1 + c →
      noIndex ≤ b + bound →
      combinationLoop bound (twoBits 0 b c) ret = .error .missingBit := by
  induction bound with
  | zero => intro b c ret hb _ hbound; omega
  | succ bound ih =>
    intro b c ret hb hlen hbound
    have hfind := findBits_twoBits c (show 0 < noIndex by decide) (b := b)
    rw [combinationLoop, hfind]
    show (if 0 ≠ noIndex ∧ 0 + 1 + b ≠ noIndex then _ else _) = _
    by_cases hmark : 0 + 1 + b = noIndex
    · rw [if_neg fun h => h.2 hmark]
      rfl
    · rw [if_pos ⟨by decide, hmark⟩]
      obtain ⟨c, rfl⟩ : ∃ c', c = c' + 1 := ⟨c - 1, by omega⟩
      rw [prev_twoBits_inner]
      exact ih (b + 1) c _ (by omega) (by omega) (by omega)

theorem initial_vector {n : Nat} (hn : 2 ≤ n) :
    ([true, true] ++ List.replicate (n - 2) false).take n = twoBits 0 0 (n - 2) := by
  rw [List.take_of_length_le (by simp; omega)]
  rfl

/-- Below the 32-bit mark the loop ends with all pairs. -/
theorem pairwiseCombinations_ok {n : Nat} (h2 : 2 ≤ n) (hn : n < 2 ^ 32) :
    pairwiseCombinations n = .ok (allPairs n) := by
  have hfrom := allPairs_eq_pairsFrom (show 0 < n by omega)
  have hlen := length_allPairs_le n
  rw [hfrom] at hlen ⊢
  unfold pairwiseCombinations
  rw [initial_vector h2]
  exact combinationLoop_twoBits hn _ 0 0 (n - 2) [] (by omega) hlen

theorem pairwiseCombinations_large {n : Nat} (hn : 2 ^ 32 ≤ n) :
    pairwiseCombinations n = .error .missingBit := by
  have hsq : n ≤ n * n := Nat.le_mul_self n
  unfold pairwiseCombinations
  rw [initial_vector (by omega)]
  exact combinationLoop_mark _ 0 (n - 2) [] (by decide) (by unfold noIndex; omega)
    (by unfold noIndex; omega)

/-- **The pair enumeration is exact** below the 32-bit mark: it ends, no assertion of it
fails, and it returns every pair `i < j < n` once, in lexicographic order. The step from one
bit vector to the next is the one to the next smaller arrangement. -/
theorem pairwiseCombinations_exact (n : Nat) (h2 : 2 ≤ n) (hn : n < 2 ^ 32) :
    (∀ prev : List Bool → Option (List Bool), StepsDown prev ↔ prev = prevPermutation) ∧
      ∃ pairs, pairwiseCombinations n = .ok pairs ∧
        (∀ i j, (i, j) ∈ pairs ↔ i < j ∧ j < n) ∧
        pairs.Nodup ∧ pairs.Pairwise LexBefore ∧ pairs.length = n * (n - 1) / 2 := by
  refine ⟨fun prev => ⟨fun h => h.unique prevPermutation_stepsDown, ?_⟩, allPairs n,
    pairwiseCombinations_ok h2 hn, fun i j => mem_allPairs, allPairs_nodup n, allPairs_sorted n,
    length_allPairs n⟩
  intro h
  rw [h]
  exact prevPermutation_stepsDown

theorem pairwiseCombinations_exact_four :
    ∃ pairs, pairwiseCombinations 4 = .ok pairs ∧ pairs.length = 6 ∧ (1, 3) ∈ pairs := by
  obtain ⟨-, pairs, hok, hmem, -, -, hlen⟩ :=
    pairwiseCombinations_exact 4 (by decide) (by decide)
  exact ⟨pairs, hok, hlen, (hmem 1 3).mpr (by decide)⟩

end SwapDetector.Proofs.PairEnumeration
