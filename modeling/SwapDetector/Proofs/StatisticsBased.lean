import SwapDetector.Spec.Judgement

/-! # When the statistics report a pair

The double loop over the unique morphemes of two arguments finds a result only if
each argument has exactly one of them, so that it makes a single round.
-/
namespace SwapDetector.Proofs.StatisticsBased
open SwapDetector.Base.ExactFloat SwapDetector.Base.OrderedSet
open SwapDetector.Model.Bytes SwapDetector.Model.Types SwapDetector.Model.StatsDatabase
open SwapDetector.Model.SwappedArgChecker SwapDetector.Spec.Judgement

variable {F : Type} [FloatArith F] {d : PairData F} {r : Result F}

/-- The result of a swap seen by the statistics. -/
def statsResult (d : PairData F) (rows : List (Row F) × List (Row F)) (morph1 morph2 : ByteString)
    (psi1 psi2 : F) : Result F where
  arg1 := d.pos1 + 1
  arg2 := d.pos2 + 1
  morphemes1 := {morph1}
  morphemes2 := {morph2}
  score := .usageStatisticsBased (fitIn rows.2 morph1) (fitIn rows.1 morph2) psi1 psi2

theorem swapOf_of_swapSeen {rows : List (Row F) × List (Row F)} {morph1 morph2 : ByteString}
    {psi1 psi2 : F} (h : d.SwapSeen rows morph1 morph2 psi1 psi2) :
    d.swapOf rows morph1 morph2 = some (statsResult d rows morph1 morph2 psi1 psi2) := by
  have hpsi : ¬ (psi1 ≤ d.opts.statsSwappedMorphemeThreshold ∨
      psi2 ≤ d.opts.statsSwappedMorphemeThreshold) := not_or.mpr ⟨h.swapped1, h.swapped2⟩
  have hrest : ¬ inOrder (d.unique1.erase morph1) ≠ inOrder (d.unique2.erase morph2) := by
    simp [h.unique1, h.unique2]
  unfold PairData.swapOf
  simp only [h.confidence1, h.confidence2]
  rw [if_neg hpsi, if_neg hrest, if_pos ⟨h.fits1, h.fits2⟩, h.unique1, h.unique2]
  rfl

theorem swapSeen_of_swapOf {rows : List (Row F) × List (Row F)} {morph1 morph2 : ByteString}
    (hrows : d.rows = some rows) (hmorph1 : morph1 ∈ d.unique1) (hmorph2 : morph2 ∈ d.unique2)
    (h : d.swapOf rows morph1 morph2 = some r) :
    ∃ psi1 psi2, d.SwapSeen rows morph1 morph2 psi1 psi2 := by
  have hdisjoint : Disjoint d.unique1 d.unique2 := disjoint_sdiff_sdiff
  unfold PairData.swapOf at h
  cases hpsi1 : confidenceIn rows.2 rows.1 morph1 with
  | none => simp [hpsi1] at h
  | some psi1 =>
    cases hpsi2 : confidenceIn rows.1 rows.2 morph2 with
    | none => simp [hpsi1, hpsi2] at h
    | some psi2 =>
      simp only [hpsi1, hpsi2] at h
      split at h
      · cases h
      rename_i hpsi
      split at h
      · cases h
      rename_i hrest
      split at h
      · rename_i hfit
        have herase := inOrder_inj.mp (not_not.mp hrest)
        obtain ⟨hunique1, hunique2⟩ := (erase_eq_erase_iff hdisjoint hmorph1 hmorph2).mp herase
        obtain ⟨hswapped1, hswapped2⟩ := not_or.mp hpsi
        exact ⟨psi1, psi2, hrows, hunique1, hunique2, hpsi1, hpsi2, hswapped1, hswapped2, hfit.1,
          hfit.2⟩
      · cases h

/-- **The statistics-based check**: it reports a pair exactly when a swap is seen. -/
theorem statsOutcome_eq_some : d.statsOutcome = some r ↔
    ∃ rows morph1 morph2 psi1 psi2, d.SwapSeen rows morph1 morph2 psi1 psi2 ∧
      r = statsResult d rows morph1 morph2 psi1 psi2 := by
  constructor
  · intro h
    obtain ⟨rows, hrows, hloop⟩ := Option.bind_eq_some_iff.mp h
    obtain ⟨morph1, hmorph1, hinner⟩ := List.exists_of_findSome?_eq_some hloop
    obtain ⟨morph2, hmorph2, hswap⟩ := List.exists_of_findSome?_eq_some hinner
    obtain ⟨psi1, psi2, hseen⟩ := swapSeen_of_swapOf hrows (mem_inOrder.mp hmorph1)
      (mem_inOrder.mp hmorph2) hswap
    rw [swapOf_of_swapSeen hseen] at hswap
    exact ⟨rows, morph1, morph2, psi1, psi2, hseen, (Option.some.inj hswap).symm⟩
  · intro h
    obtain ⟨rows, morph1, morph2, psi1, psi2, hseen, rfl⟩ := h
    unfold PairData.statsOutcome
    rw [hseen.rows_eq, hseen.unique1, hseen.unique2, Option.bind_some, inOrder_singleton,
      inOrder_singleton]
    simp [swapOf_of_swapSeen hseen]

theorem statsOutcome_ne_none : d.statsOutcome ≠ none ↔
    ∃ rows morph1 morph2 psi1 psi2, d.SwapSeen rows morph1 morph2 psi1 psi2 := by
  rw [Option.ne_none_iff_exists']
  constructor
  · intro h
    obtain ⟨r, hr⟩ := h
    obtain ⟨rows, morph1, morph2, psi1, psi2, hseen, -⟩ := statsOutcome_eq_some.mp hr
    exact ⟨rows, morph1, morph2, psi1, psi2, hseen⟩
  · intro h
    obtain ⟨rows, morph1, morph2, psi1, psi2, hseen⟩ := h
    exact ⟨_, statsOutcome_eq_some.mpr ⟨rows, morph1, morph2, psi1, psi2, hseen, rfl⟩⟩

theorem statsOutcome_positions (h : d.statsOutcome = some r) :
    r.arg1 = d.pos1 + 1 ∧ r.arg2 = d.pos2 + 1 := by
  obtain ⟨rows, morph1, morph2, psi1, psi2, -, rfl⟩ := statsOutcome_eq_some.mp h
  exact ⟨rfl, rfl⟩

/-- A pair the statistics report has a morpheme in each argument. -/
theorem statsOutcome_nonempty (h : d.statsOutcome = some r) :
    ¬ (argMorphemes d.arg1 = ∅ ∨ argMorphemes d.arg2 = ∅) := by
  obtain ⟨rows, morph1, morph2, psi1, psi2, hseen, -⟩ := statsOutcome_eq_some.mp h
  have hmorph1 : morph1 ∈ d.unique1 := by simp [hseen.unique1]
  have hmorph2 : morph2 ∈ d.unique2 := by simp [hseen.unique2]
  refine not_or.mpr ⟨?_, ?_⟩
  · exact Finset.ne_empty_of_mem (Finset.mem_sdiff.mp hmorph1).1
  · exact Finset.ne_empty_of_mem (Finset.mem_sdiff.mp hmorph2).1

end SwapDetector.Proofs.StatisticsBased
