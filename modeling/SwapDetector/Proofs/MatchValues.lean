import SwapDetector.Proofs.Assertions

/-! # The values of the match tests

Against a nonempty set the match is 1 or 0: optimistically, whether one morpheme
of the parameter is found; pessimistically, whether all of them are. From this
come the set-theoretic reading of the gates and the score of a report.
-/
namespace SwapDetector.Proofs.MatchValues
open SwapDetector.Base.ExactFloat SwapDetector.Base.ExactFloat.XRat SwapDetector.Base.OrderedSet
open SwapDetector.Model.Bytes SwapDetector.Model.IdentifierSplitting SwapDetector.Model.Types
open SwapDetector.Model.SwappedArgChecker SwapDetector.Spec.Judgement
open SwapDetector.Proofs.Assertions

/-- The truth values of the match tests. -/
def truth (p : Prop) [Decidable p] : XRat := if p then .fin 1 else .fin 0

theorem truth_congr {p q : Prop} [Decidable p] [Decidable q] (h : p ↔ q) : truth p = truth q := by
  unfold truth
  by_cases hp : p
  · rw [if_pos hp, if_pos (h.mp hp)]
  · rw [if_neg hp, if_neg (mt h.mpr hp)]

theorem anyAreSynonyms_eq (morph : ByteString) (arg : Finset ByteString) :
    (anyAreSynonyms morph arg : XRat) = truth (morph ∈ arg) := by
  unfold anyAreSynonyms truth
  have hany : (inOrder arg).any (· == morph) = true ↔ morph ∈ arg := by
    simp [List.any_eq_true]
  by_cases h : morph ∈ arg
  · rw [if_pos h, if_pos (hany.mpr h)]
    rfl
  · rw [if_neg h, if_neg (mt hany.mp h)]
    rfl

/-- The optimistic search keeps a 1 and takes the first one it meets. -/
theorem foldl_optimistic (arg : Finset ByteString) (param : List ByteString) (p : Prop)
    [Decidable p] : param.foldl (moreExtreme arg .optimistic) (some (truth p)) =
      some (truth (p ∨ ∃ morph ∈ param, morph ∈ arg)) := by
  induction param generalizing p with
  | nil => exact congrArg some (truth_congr (by simp))
  | cons morph param ih =>
    have hstep : moreExtreme arg .optimistic (some (truth p)) morph =
        some (truth (p ∨ morph ∈ arg)) := by
      simp only [moreExtreme, anyAreSynonyms_eq, biasComp]
      by_cases hp : p <;> by_cases hmorph : morph ∈ arg <;> simp [truth, hp, hmorph]
    rw [List.foldl_cons, hstep, ih]
    refine congrArg some (truth_congr ?_)
    simp only [List.mem_cons, exists_eq_or_imp, or_assoc]

/-- The pessimistic search keeps a 0 and takes the first one it meets. -/
theorem foldl_pessimistic (arg : Finset ByteString) (param : List ByteString) (p : Prop)
    [Decidable p] : param.foldl (moreExtreme arg .pessimistic) (some (truth p)) =
      some (truth (p ∧ ∀ morph ∈ param, morph ∈ arg)) := by
  induction param generalizing p with
  | nil => exact congrArg some (truth_congr (by simp))
  | cons morph param ih =>
    have hstep : moreExtreme arg .pessimistic (some (truth p)) morph =
        some (truth (p ∧ morph ∈ arg)) := by
      simp only [moreExtreme, anyAreSynonyms_eq, biasComp]
      by_cases hp : p <;> by_cases hmorph : morph ∈ arg <;> simp [truth, hp, hmorph]
    rw [List.foldl_cons, hstep, ih]
    refine congrArg some (truth_congr ?_)
    simp only [List.forall_mem_cons, and_assoc]

theorem matchValue_optimistic (arg : Finset ByteString) {param : Finset ByteString}
    (hparam : param ≠ ∅) :
    matchValue arg param .optimistic = truth (¬ Disjoint param arg) := by
  obtain ⟨morph, rest, horder⟩ := inOrder_ne_nil hparam
  unfold matchValue
  rw [horder, List.foldl_cons, moreExtreme, anyAreSynonyms_eq, foldl_optimistic, Option.getD_some]
  refine truth_congr ?_
  rw [Finset.not_disjoint_iff]
  simp only [← mem_inOrder (s := param), horder, List.mem_cons, exists_eq_or_imp]

theorem matchValue_pessimistic (arg : Finset ByteString) {param : Finset ByteString}
    (hparam : param ≠ ∅) :
    matchValue arg param .pessimistic = truth (param ⊆ arg) := by
  obtain ⟨morph, rest, horder⟩ := inOrder_ne_nil hparam
  unfold matchValue
  rw [horder, List.foldl_cons, moreExtreme, anyAreSynonyms_eq, foldl_pessimistic, Option.getD_some]
  refine truth_congr ?_
  rw [← List.forall_mem_cons (p := (· ∈ arg)), ← horder]
  simp only [mem_inOrder]
  rfl

/-! ## The gates, as relations between the sets -/

/-- Thresholds that a match of 0 does not exceed where the morphemes are, and that only
a match of 1 reaches once they are exchanged. -/
structure CoverMatch (opts : CheckerConfiguration XRat) : Prop where
  existing : .fin 0 ≤ opts.existingMorphemeMatchMax
  positive : .fin 0 < opts.swappedMorphemeMatchMin
  atMostOne : opts.swappedMorphemeMatchMin ≤ .fin 1

theorem not_truth_gt {p : Prop} [Decidable p] {t : XRat} (ht : .fin 0 ≤ t) (hp : ¬ p) :
    ¬ truth p > t := by
  rw [truth, if_neg hp]
  exact ((le_def _ _).mp ht).2.2

theorem truth_lt_iff {p : Prop} [Decidable p] {t : XRat} (hpos : .fin 0 < t) (hle : t ≤ .fin 1) :
    truth p < t ↔ ¬ p := by
  unfold truth
  by_cases hp : p
  · rw [if_pos hp]
    exact iff_of_false ((le_def _ _).mp hle).2.2 (not_not.mpr hp)
  · rw [if_neg hp]
    exact iff_of_true hpos hp

section Gates
variable {d : PairData XRat}

/-- The morphemes in which two arguments differ are not the same on both sides. -/
theorem disjoint_unique_of_subset {P : Finset ByteString} :
    (P ⊆ d.unique2 → Disjoint P d.unique1) ∧ (P ⊆ d.unique1 → Disjoint P d.unique2) := by
  have hdisjoint : Disjoint d.unique2 d.unique1 := disjoint_sdiff_sdiff
  exact ⟨hdisjoint.mono_left, hdisjoint.symm.mono_left⟩

/-- The gates ask for a crosswise cover; the tests of the morphemes where they are
follow from it. -/
theorem gates_iff_crosswise (hopts : CoverMatch d.opts) : d.Gates ↔
    ((split d.param1).card = (split d.param2).card ∧
      (argMorphemes d.arg1).card = (argMorphemes d.arg2).card ∧
      (split d.param1).card = (argMorphemes d.arg1).card) ∧
    (split d.param1 \ split d.param2 ≠ ∅ ∧ split d.param2 \ split d.param1 ≠ ∅ ∧
      d.unique1 ≠ ∅ ∧ d.unique2 ≠ ∅) ∧
    split d.param2 \ split d.param1 ⊆ d.unique1 ∧ split d.param1 \ split d.param2 ⊆ d.unique2 := by
  have hexisting {A P : Finset ByteString} (hP : P ≠ ∅) (h : Disjoint P A) :
      ¬ matchValue A P .optimistic > d.opts.existingMorphemeMatchMax := by
    rw [matchValue_optimistic A hP]
    exact not_truth_gt hopts.existing (not_not.mpr h)
  have hswapped {A P : Finset ByteString} (hP : P ≠ ∅) :
      ¬ matchValue A P .pessimistic < d.opts.swappedMorphemeMatchMin ↔ P ⊆ A := by
    rw [matchValue_pessimistic A hP, truth_lt_iff hopts.positive hopts.atMostOne, not_not]
  constructor
  · intro h
    obtain ⟨hunique1, hunique2, -⟩ := h.unique
    exact ⟨h.sizes, h.unique, (hswapped hunique2).mp h.swapped1, (hswapped hunique1).mp h.swapped2⟩
  · intro h
    obtain ⟨hsizes, hunique, hswapped1, hswapped2⟩ := h
    exact ⟨hsizes, hunique, hexisting hunique.1 (disjoint_unique_of_subset.1 hswapped2),
      hexisting hunique.2.1 (disjoint_unique_of_subset.2 hswapped1),
      (hswapped hunique.2.1).mpr hswapped1, (hswapped hunique.1).mpr hswapped2⟩

/-- A pair that passes the gates has the score 1 / 0.01. -/
theorem worstPsi_of_crosswise (hopts : CoverMatch d.opts) (h : d.Gates) :
    d.worstPsi = .fin 100 := by
  obtain ⟨-, ⟨hunique1, hunique2, -⟩, hswapped1, hswapped2⟩ := (gates_iff_crosswise hopts).mp h
  have hexisting1 := disjoint_unique_of_subset.1 hswapped2
  have hexisting2 := disjoint_unique_of_subset.2 hswapped1
  unfold PairData.worstPsi
  simp only [matchValue_optimistic _ hunique1, matchValue_optimistic _ hunique2,
    matchValue_pessimistic _ hunique1, matchValue_pessimistic _ hunique2]
  simp only [truth, hexisting1, hexisting2, hswapped1, hswapped2, not_true, if_true, if_false]
  decide +kernel

end Gates

/-! ## The default thresholds -/

/-- The default thresholds of the match tests. -/
def DefaultMatch (opts : CheckerConfiguration XRat) : Prop :=
  opts.existingMorphemeMatchMax = .fin (1 / 2) ∧ opts.swappedMorphemeMatchMin = .fin (3 / 4)

theorem defaultMatch_of_defaults {opts : CheckerConfiguration XRat} (h : DefaultThresholds opts) :
    DefaultMatch opts := by
  rw [DefaultMatch, h]
  exact ⟨rfl, rfl⟩

theorem DefaultMatch.coverMatch {opts : CheckerConfiguration XRat} (h : DefaultMatch opts) :
    CoverMatch opts := by
  refine ⟨?_, ?_, ?_⟩
  · rw [h.1, fin_le_fin]
    norm_num
  · rw [h.2, fin_lt_fin]
    norm_num
  · rw [h.2, fin_le_fin]
    norm_num

section Defaults
variable {d : PairData XRat}

theorem gates_iff (hopts : DefaultMatch d.opts) : d.Gates ↔
    ((split d.param1).card = (split d.param2).card ∧
      (argMorphemes d.arg1).card = (argMorphemes d.arg2).card ∧
      (split d.param1).card = (argMorphemes d.arg1).card) ∧
    (split d.param1 \ split d.param2 ≠ ∅ ∧ split d.param2 \ split d.param1 ≠ ∅ ∧
      d.unique1 ≠ ∅ ∧ d.unique2 ≠ ∅) ∧
    Disjoint (split d.param1 \ split d.param2) d.unique1 ∧
    Disjoint (split d.param2 \ split d.param1) d.unique2 ∧
    split d.param2 \ split d.param1 ⊆ d.unique1 ∧ split d.param1 \ split d.param2 ⊆ d.unique2 := by
  rw [gates_iff_crosswise hopts.coverMatch]
  constructor
  · intro h
    obtain ⟨hsizes, hunique, hswapped1, hswapped2⟩ := h
    exact ⟨hsizes, hunique, disjoint_unique_of_subset.1 hswapped2,
      disjoint_unique_of_subset.2 hswapped1, hswapped1, hswapped2⟩
  · intro h
    obtain ⟨hsizes, hunique, -, -, hswapped⟩ := h
    exact ⟨hsizes, hunique, hswapped⟩

theorem worstPsi_of_gates (hopts : DefaultMatch d.opts) (h : d.Gates) : d.worstPsi = .fin 100 :=
  worstPsi_of_crosswise hopts.coverMatch h

end Defaults

end SwapDetector.Proofs.MatchValues
