import SwapDetector.Proofs.FixedCalls

/-! # When the stored weights report a pair

The statistics-based check in terms of the table: two arguments are reported when each
has one morpheme of its own and both of these have a large weight at the position of
the other argument. A large weight there makes the confidence large, so that the gate
of the confidence has nothing to decide.
-/
namespace SwapDetector.Proofs.StatsMeaning
open SwapDetector.Base.ExactFloat SwapDetector.Base.ExactFloat.XRat SwapDetector.Base.Exec
open SwapDetector.Base.OrderedSet
open SwapDetector.Model.Bytes SwapDetector.Model.Types SwapDetector.Model.StatsDatabase
open SwapDetector.Model.SwappedArgChecker SwapDetector.Spec.Judgement SwapDetector.Spec.Tables
open SwapDetector.Proofs.Lookups SwapDetector.Proofs.Refinement
open SwapDetector.Proofs.StatisticsBased SwapDetector.Proofs.NormalisedTables
open SwapDetector.Proofs.FixedCalls

/-- Thresholds with which the gate of the confidence has nothing to decide. -/
structure StatsThresholds (opts : CheckerConfiguration XRat) : Prop where
  below : opts.statsSwappedMorphemeThreshold < .fin 1
  ordered : opts.statsSwappedMorphemeThreshold ≤ opts.statsSwappedFitnessThreshold
  nonneg : .fin 0 ≤ opts.statsSwappedFitnessThreshold

theorem statsThresholds_of_defaults {opts : CheckerConfiguration XRat}
    (h : DefaultThresholds opts) : StatsThresholds opts := by
  have hmorpheme : opts.statsSwappedMorphemeThreshold = .fin (3 / 4) := by rw [h]; rfl
  have hfitness : opts.statsSwappedFitnessThreshold = .fin (3 / 4) := by rw [h]; rfl
  refine ⟨?_, ?_, ?_⟩
  · rw [hmorpheme, fin_lt_fin]
    norm_num
  · rw [hmorpheme, hfitness, fin_le_fin]
  · rw [hfitness, fin_le_fin]
    norm_num

/-- The arguments with the morphemes of a call site. -/
def argSets (site : CallSite) (i j : Nat) : MorphemeSet × MorphemeSet :=
  (⟨argMorphemes (site.positionalArgNames[i]?.getD []), i⟩,
    ⟨argMorphemes (site.positionalArgNames[j]?.getD []), j⟩)

/-- Two arguments differ in one morpheme each, and each of the two has a large weight at
the position of the other argument. -/
structure WeightsSwapped (opts : CheckerConfiguration XRat) (db : List (Row ℚ)) (site : CallSite)
    (i j : Nat) (morph1 morph2 : ByteString) (w1 w2 : ℚ) : Prop where
  unique1 : (argSets site i j).1.morphemes \ (argSets site i j).2.morphemes = {morph1}
  unique2 : (argSets site i j).2.morphemes \ (argSets site i j).1.morphemes = {morph2}
  stored1 : storedWeight db site.callDecl.fullyQualifiedName j morph1 = some w1
  stored2 : storedWeight db site.callDecl.fullyQualifiedName i morph2 = some w2
  fits1 : .fin w1 > opts.statsSwappedFitnessThreshold
  fits2 : .fin w2 > opts.statsSwappedFitnessThreshold

/-- The fitness of a morpheme is its stored weight, and 0 without one. -/
theorem fitIn_stored {db : List (Row ℚ)} (hdb : WithinSchema db) (func : ByteString) (pos : Nat)
    (morph : ByteString) :
    fitIn (rowsAt (exactRows db) func pos) morph = .fin ((storedWeight db func pos morph).getD 0) := by
  rw [storedWeight_eq, rowsAt_exactRows, fitIn_eq (WithinSchema.at hdb func pos).unique]

theorem fitIn_gt_stored {db : List (Row ℚ)} (hdb : WithinSchema db) {t : XRat} (ht : .fin 0 ≤ t)
    (func : ByteString) (pos : Nat) (morph : ByteString) :
    fitIn (rowsAt (exactRows db) func pos) morph > t ↔
      ∃ w, storedWeight db func pos morph = some w ∧ .fin w > t := by
  rw [storedWeight_eq, rowsAt_exactRows, fitIn_gt_iff (WithinSchema.at hdb func pos).unique ht]

section Pair
variable {opts : CheckerConfiguration XRat} {db : List (Row ℚ)} {site : CallSite}
  {whichCheck : Check} {i j : Nat} {morph1 morph2 : ByteString} {w1 w2 : ℚ}

/-- A morpheme with a large weight passes the gate of the confidence. -/
theorem confidence_of_stored (hopts : StatsThresholds opts) (hdb : WithinSchema db) {func : ByteString}
    {here : Nat} (there : Nat) {morph : ByteString} {w : ℚ}
    (hstored : storedWeight db func here morph = some w)
    (hfit : .fin w > opts.statsSwappedFitnessThreshold) :
    ∃ psi, confidenceIn (rowsAt (exactRows db) func here) (rowsAt (exactRows db) func there) morph =
      some psi ∧ ¬ psi ≤ opts.statsSwappedMorphemeThreshold := by
  rw [storedWeight_eq] at hstored
  have hpos : 0 < w := (fin_lt_fin _ _).mp (XRat.lt_of_le_of_lt hopts.nonneg hfit)
  obtain ⟨psi, hpsi, hgt⟩ := (WithinSchema.at hdb func there).confidence_gt hstored hpos
    (XRat.lt_of_le_of_lt hopts.ordered hfit) hopts.below
  rw [rowsAt_exactRows, rowsAt_exactRows]
  exact ⟨psi, hpsi, fun hle => ((le_def _ _).mp hle).2.2 hgt⟩

/-- What the statistics make of two arguments of a call site. -/
theorem statsOutcome_iff (hopts : StatsThresholds opts) (hdb : WithinSchema db) (r : Result XRat) :
    (pairData opts (some (exactRows db)) site whichCheck (i, j)).statsOutcome = some r ↔
      ∃ morph1 morph2 w1 w2 psi1 psi2, WeightsSwapped opts db site i j morph1 morph2 w1 w2 ∧
        confidenceIn (rowsAt (exactRows db) site.callDecl.fullyQualifiedName j)
          (rowsAt (exactRows db) site.callDecl.fullyQualifiedName i) morph1 = some psi1 ∧
        confidenceIn (rowsAt (exactRows db) site.callDecl.fullyQualifiedName i)
          (rowsAt (exactRows db) site.callDecl.fullyQualifiedName j) morph2 = some psi2 ∧
        r = { arg1 := i + 1, arg2 := j + 1, morphemes1 := {morph1}, morphemes2 := {morph2},
              score := .usageStatisticsBased (.fin w1) (.fin w2) psi1 psi2 } := by
  rw [statsOutcome_eq_some]
  constructor
  · intro h
    obtain ⟨rows, morph1, morph2, psi1, psi2, hseen, rfl⟩ := h
    cases hseen.rows_eq
    obtain ⟨w1, hw1, hfits1⟩ := (fitIn_gt_stored hdb hopts.nonneg _ j morph1).mp hseen.fits1
    obtain ⟨w2, hw2, hfits2⟩ := (fitIn_gt_stored hdb hopts.nonneg _ i morph2).mp hseen.fits2
    refine ⟨morph1, morph2, w1, w2, psi1, psi2,
      ⟨hseen.unique1, hseen.unique2, hw1, hw2, hfits1, hfits2⟩, hseen.confidence1,
      hseen.confidence2, ?_⟩
    have hfit1 := fitIn_stored hdb site.callDecl.fullyQualifiedName j morph1
    have hfit2 := fitIn_stored hdb site.callDecl.fullyQualifiedName i morph2
    rw [hw1, Option.getD_some] at hfit1
    rw [hw2, Option.getD_some] at hfit2
    rw [statsResult, ← hfit1, ← hfit2]
    rfl
  · intro h
    obtain ⟨morph1, morph2, w1, w2, psi1, psi2, hswapped, hpsi1, hpsi2, rfl⟩ := h
    obtain ⟨_, hsome1, hswapped1⟩ := confidence_of_stored hopts hdb i hswapped.stored1 hswapped.fits1
    obtain ⟨_, hsome2, hswapped2⟩ := confidence_of_stored hopts hdb j hswapped.stored2 hswapped.fits2
    cases hpsi1.symm.trans hsome1
    cases hpsi2.symm.trans hsome2
    refine ⟨_, morph1, morph2, _, _, ⟨rfl, hswapped.unique1, hswapped.unique2, hpsi1, hpsi2, hswapped1,
      hswapped2, (fitIn_gt_stored hdb hopts.nonneg _ j morph1).mpr ⟨w1, hswapped.stored1, hswapped.fits1⟩,
      (fitIn_gt_stored hdb hopts.nonneg _ i morph2).mpr ⟨w2, hswapped.stored2, hswapped.fits2⟩⟩, ?_⟩
    rw [statsResult, fitIn_stored hdb, fitIn_stored hdb, hswapped.stored1, hswapped.stored2]
    rfl

theorem statsOutcome_ne_none_iff (hopts : StatsThresholds opts) (hdb : WithinSchema db) :
    (pairData opts (some (exactRows db)) site whichCheck (i, j)).statsOutcome ≠ none ↔
      ∃ morph1 morph2 w1 w2, WeightsSwapped opts db site i j morph1 morph2 w1 w2 := by
  rw [Option.ne_none_iff_exists']
  constructor
  · intro h
    obtain ⟨r, hr⟩ := h
    obtain ⟨morph1, morph2, w1, w2, _, _, hswapped, -⟩ := (statsOutcome_iff hopts hdb r).mp hr
    exact ⟨morph1, morph2, w1, w2, hswapped⟩
  · intro h
    obtain ⟨morph1, morph2, w1, w2, hswapped⟩ := h
    obtain ⟨psi1, hpsi1, -⟩ := confidence_of_stored hopts hdb _ hswapped.stored1 hswapped.fits1
    obtain ⟨psi2, hpsi2, -⟩ := confidence_of_stored hopts hdb _ hswapped.stored2 hswapped.fits2
    exact ⟨_, (statsOutcome_iff hopts hdb _).mpr
      ⟨morph1, morph2, w1, w2, psi1, psi2, hswapped, hpsi1, hpsi2, rfl⟩⟩

end Pair

/-! ## The meaning of the check -/

/-- The check has the meaning of the table for two arguments: what it reports, with which
positions, morphemes and score; where its loops can find something; and that the
threshold of the confidence makes no difference. -/
structure HasWeightMeaning (opts : CheckerConfiguration XRat) (db : List (Row ℚ)) (site : CallSite)
    (params : MorphemeSet × MorphemeSet) (i j : Nat) (out : Option (Result XRat)) : Prop where
  reports : out ≠ none ↔
    ∃ morph1 morph2 w1 w2, WeightsSwapped opts db site i j morph1 morph2 w1 w2
  result : ∀ r morph1 morph2 w1 w2, out = some r →
    WeightsSwapped opts db site i j morph1 morph2 w1 w2 →
      outline r = (i + 1, j + 1, {morph1}, {morph2}, .fin (max w1 w2))
  fires : ∀ morph1 ∈ (argSets site i j).1.morphemes \ (argSets site i j).2.morphemes,
    ∀ morph2 ∈ (argSets site i j).2.morphemes \ (argSets site i j).1.morphemes, ∀ r,
      Steady (checkMorphemePair opts (argSets site i j) site morph1 morph2)
        (ready (some (exactRows db))) (.ok (some r)) →
      (argSets site i j).1.morphemes \ (argSets site i j).2.morphemes = {morph1} ∧
        (argSets site i j).2.morphemes \ (argSets site i j).1.morphemes = {morph2}
  redundant : ∀ threshold, threshold < .fin 1 → threshold ≤ opts.statsSwappedFitnessThreshold →
    Steady (checkForStatisticsBasedSwap { opts with statsSwappedMorphemeThreshold := threshold } params
      (argSets site i j) site) (ready (some (exactRows db))) (.ok out)

/-- **The meaning of the statistics-based check**: it reports two arguments when the
stored weights of the only two morphemes in which they differ are large crosswise. -/
theorem statsBased_meaning (opts : CheckerConfiguration XRat) (db : List (Row ℚ)) (site : CallSite)
    (params : MorphemeSet × MorphemeSet) (i j : Nat) (hopts : StatsThresholds opts)
    (hdb : WithinSchema db) :
    ∃ out, Steady (checkForStatisticsBasedSwap opts params (argSets site i j) site)
        (ready (some (exactRows db))) (.ok out) ∧
      HasWeightMeaning opts db site params i j out := by
  refine ⟨_, checkForStatisticsBasedSwap_steady opts site .all (i, j) params (exactRows db),
    statsOutcome_ne_none_iff hopts hdb, ?_, ?_, ?_⟩
  · intro r morph1 morph2 w1 w2 hr hswapped
    obtain ⟨morph1', morph2', w1', w2', psi1, psi2, hswapped', -, -, rfl⟩ :=
      (statsOutcome_iff hopts hdb r).mp hr
    obtain rfl := Finset.singleton_injective (hswapped'.unique1.symm.trans hswapped.unique1)
    obtain rfl := Finset.singleton_injective (hswapped'.unique2.symm.trans hswapped.unique2)
    obtain rfl := Option.some.inj (hswapped'.stored1.symm.trans hswapped.stored1)
    obtain rfl := Option.some.inj (hswapped'.stored2.symm.trans hswapped.stored2)
    rw [outline, ScoreCard.score, stdMax_fin]
  · intro morph1 hmorph1 morph2 hmorph2 r hr
    have hswap := (checkMorphemePair_steady opts site .all (i, j) (exactRows db) morph1 morph2).unique hr
    obtain ⟨psi1, psi2, hseen⟩ := swapSeen_of_swapOf
      (d := pairData opts (some (exactRows db)) site .all (i, j)) rfl hmorph1 hmorph2
      (Except.ok.inj hswap)
    exact ⟨hseen.unique1, hseen.unique2⟩
  · intro threshold hbelow hordered
    let opts' : CheckerConfiguration XRat := { opts with statsSwappedMorphemeThreshold := threshold }
    have hopts' : StatsThresholds opts' := ⟨hbelow, hordered, hopts.nonneg⟩
    have hsame : (pairData opts' (some (exactRows db)) site .all (i, j)).statsOutcome =
        (pairData opts (some (exactRows db)) site .all (i, j)).statsOutcome := by
      refine Option.ext fun r => ?_
      rw [statsOutcome_iff hopts' hdb, statsOutcome_iff hopts hdb]
      have hswapped (morph1 morph2 : ByteString) (w1 w2 : ℚ) :
          WeightsSwapped opts' db site i j morph1 morph2 w1 w2 ↔
            WeightsSwapped opts db site i j morph1 morph2 w1 w2 :=
        ⟨fun h => ⟨h.1, h.2, h.3, h.4, h.5, h.6⟩, fun h => ⟨h.1, h.2, h.3, h.4, h.5, h.6⟩⟩
      simp only [hswapped]
    rw [← hsame]
    exact checkForStatisticsBasedSwap_steady opts' site .all (i, j) params (exactRows db)

theorem petTable_withinSchema : WithinSchema petTable :=
  ⟨by decide +kernel, by decide +kernel⟩

theorem petCall_weightMeaning :
    ∃ out, Steady (checkForStatisticsBasedSwap {} (⟨∅, 0⟩, ⟨∅, 1⟩)
        (argSets (petCall (bytes "dogs") (bytes "cats")) 0 1) (petCall (bytes "dogs") (bytes "cats")))
        (ready (some (exactRows petTable))) (.ok out) ∧
      HasWeightMeaning {} petTable (petCall (bytes "dogs") (bytes "cats")) (⟨∅, 0⟩, ⟨∅, 1⟩) 0 1 out :=
  statsBased_meaning {} petTable (petCall (bytes "dogs") (bytes "cats")) (⟨∅, 0⟩, ⟨∅, 1⟩) 0 1
    (statsThresholds_of_defaults rfl) petTable_withinSchema

end SwapDetector.Proofs.StatsMeaning
