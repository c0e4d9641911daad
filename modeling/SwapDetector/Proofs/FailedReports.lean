import SwapDetector.Proofs.StatsMeaning

/-! # Reports of runs with failing lookups

A lookup of one weight that fails looks like a missing row and can raise a confidence
to its maximum. But a result of the statistics-based check also needs two fitness
queries that succeeded as a whole, and these show the swap by themselves: the run in
which no step fails reports it, too.
-/
namespace SwapDetector.Proofs.FailedReports
open SwapDetector.Base.ExactFloat SwapDetector.Base.ExactFloat.XRat SwapDetector.Base.Exec
open SwapDetector.Base.OrderedSet SwapDetector.Base.Permutations
open SwapDetector.Model.Bytes SwapDetector.Model.Types SwapDetector.Model.StatsDatabase
open SwapDetector.Model.SwappedArgChecker SwapDetector.Spec.Judgement SwapDetector.Spec.Tables
open SwapDetector.Proofs.PairEnumeration SwapDetector.Proofs.Refinement
open SwapDetector.Proofs.FailingSteps SwapDetector.Proofs.Assertions SwapDetector.Proofs.Locality
open SwapDetector.Proofs.StatsMeaning SwapDetector.Proofs.FixedCalls

/-! ## Runs of the statistics-based mode -/

section Runs
variable {F : Type} [FloatArith F]

/-- What a run of the statistics-based mode has seen of a reported pair. -/
def Shown (opts : CheckerConfiguration F) (weights : Option (List (Row F))) (site : CallSite)
    (p : Nat × Nat) (r : Result F) : Prop :=
  ¬ (pairData opts weights site .statsBased p).Unusable ∧ ∃ db, weights = some db ∧
    ∃ morph1 ∈ (pairData opts weights site .statsBased p).unique1,
      ∃ morph2 ∈ (pairData opts weights site .statsBased p).unique2,
        ShowsSwap opts (argSets site p.1 p.2) db site morph1 morph2 r

variable (opts : CheckerConfiguration F) (weights : Option (List (Row F))) (site : CallSite)

theorem checkPair_shown (p : Nat × Nat) (hp1 : p.1 < site.positionalArgNames.length)
    (hp2 : p.2 < site.positionalArgNames.length) :
    Returns (Idle weights) (checkPair opts site .statsBased p) fun out =>
      ∀ r, out = some r → Shown opts weights site p r := by
  have hruns : ¬ (pairData opts weights site .statsBased p).coverRuns := by
    intro h
    rcases h.2 with hall | hcover
    · cases hall
    · cases hcover
  rw [checkPair_eq opts weights site .statsBased p hp1 hp2]
  refine Returns.ite (fun _ => Returns.pure fun r hr => by cases hr) fun _ => ?_
  refine Returns.ite (fun _ => Returns.pure fun r hr => by cases hr) fun husable => ?_
  rw [coverStage, if_neg hruns]
  refine (Returns.pure (Q := (· = none)) rfl).bind ?_
  rintro _ rfl
  exact (statsStage_returns opts weights site .statsBased p).weaken
    fun out hout r hr => ⟨husable, hout r hr⟩

theorem checkSite_shown (hn : site.positionalArgNames.length < 2 ^ 32) :
    Returns (Idle weights) (checkSite opts site .statsBased) fun rs =>
      ∀ r ∈ rs, ∃ p ∈ allPairs site.positionalArgNames.length, Shown opts weights site p r := by
  unfold checkSite
  refine Returns.ite (fun _ => Returns.pure fun r hr => by cases hr) fun hmany => ?_
  rw [pairwiseCombinations_ok (by omega) hn]
  refine (Returns.pure (Q := (· = allPairs _)) rfl).bind ?_
  rintro _ rfl
  refine Returns.foldlM _ _ (fun r hr => by cases hr) fun results hresults p hp => ?_
  have hlt := lt_of_mem_allPairs hp
  refine (checkPair_shown opts weights site p hlt.1 hlt.2).bind fun out hout => ?_
  refine Returns.pure fun r hr => ?_
  rcases List.mem_append.mp hr with hold | hnew
  · exact hresults r hold
  · exact ⟨p, hp, hout r (Option.mem_toList.mp hnew)⟩

end Runs

/-! ## The run in which no step fails -/

section Calls
variable {c : Checker XRat} {db : List (Row ℚ)} {site : CallSite} {i j : Nat} {r : Result XRat}

/-- A fitness that exceeds the threshold was read from the table. -/
theorem stored_of_read (hdb : WithinSchema db) {t v : XRat} (ht : .fin 0 ≤ t) {func : ByteString}
    {pos : Nat} {morph : ByteString}
    (hv : v = FloatArith.ofRat 0 ∨ v = fitIn (rowsAt (exactRows db) func pos) morph) (hgt : v > t) :
    ∃ w, storedWeight db func pos morph = some w ∧ v = .fin w := by
  have hzero : ¬ .fin 0 > t := ((le_def _ _).mp ht).2.2
  rw [fitIn_stored hdb, ofRat_eq] at hv
  cases hstored : storedWeight db func pos morph with
  | none =>
    rw [hstored, Option.getD_none, or_self] at hv
    exact absurd (hv ▸ hgt) hzero
  | some w =>
    rw [hstored, Option.getD_some] at hv
    refine ⟨w, rfl, hv.resolve_left fun hnone => hzero ?_⟩
    exact hnone ▸ hgt

/-- What a run with failing steps has seen is in the table. -/
theorem weightsSwapped_of_shown (hopts : StatsThresholds c.opts) (hdb : WithinSchema db)
    {morph1 morph2 : ByteString}
    (hmorph1 : morph1 ∈ (argSets site i j).1.morphemes \ (argSets site i j).2.morphemes)
    (hmorph2 : morph2 ∈ (argSets site i j).2.morphemes \ (argSets site i j).1.morphemes)
    (h : ShowsSwap c.opts (argSets site i j) (exactRows db) site morph1 morph2 r) :
    ∃ w1 w2, WeightsSwapped c.opts db site i j morph1 morph2 w1 w2 ∧
      outline r = (i + 1, j + 1, {morph1}, {morph2}, .fin (max w1 w2)) := by
  obtain ⟨fit1, fit2, psi1, psi2, hfit1, hfit2, hgt1, hgt2, rfl⟩ := h.score
  have hdisjoint : Disjoint ((argSets site i j).1.morphemes \ (argSets site i j).2.morphemes)
      ((argSets site i j).2.morphemes \ (argSets site i j).1.morphemes) := disjoint_sdiff_sdiff
  obtain ⟨hunique1, hunique2⟩ :=
    (erase_eq_erase_iff hdisjoint hmorph1 hmorph2).mp (inOrder_inj.mp h.rest)
  obtain ⟨w1, hw1, rfl⟩ := stored_of_read hdb hopts.nonneg hfit1 hgt1
  obtain ⟨w2, hw2, rfl⟩ := stored_of_read hdb hopts.nonneg hfit2 hgt2
  refine ⟨w1, w2, ⟨hunique1, hunique2, hw1, hw2, hgt1, hgt2⟩, ?_⟩
  rw [outline, ScoreCard.score, hunique1, hunique2, stdMax_fin]
  rfl

theorem verdict_of_weightsSwapped (hopts : StatsThresholds c.opts) (hdb : WithinSchema db)
    (hweights : c.weights = some (exactRows db)) {morph1 morph2 : ByteString} {w1 w2 : ℚ}
    (h : WeightsSwapped c.opts db site i j morph1 morph2 w1 w2)
    (husable : ¬ (pairData c.opts c.weights site .statsBased (i, j)).Unusable) :
    ∃ r, (pairData c.opts c.weights site .statsBased (i, j)).verdict = some r ∧
      outline r = (i + 1, j + 1, {morph1}, {morph2}, .fin (max w1 w2)) := by
  obtain ⟨psi1, hpsi1, -⟩ := confidence_of_stored hopts hdb i h.stored1 h.fits1
  obtain ⟨psi2, hpsi2, -⟩ := confidence_of_stored hopts hdb j h.stored2 h.fits2
  rw [hweights] at husable ⊢
  refine ⟨_, (verdict_eq_some_iff (not_trips_statsBased _ _ _ _)).mpr
    (.inr ⟨not_covers_statsBased _ _ _ _, husable, .inr rfl, (statsOutcome_iff hopts hdb _).mpr
      ⟨morph1, morph2, w1, w2, psi1, psi2, h, hpsi1, hpsi2, rfl⟩⟩), ?_⟩
  rw [outline, ScoreCard.score, stdMax_fin]

/-- **Failing lookups invent nothing**: whatever steps fail, a pair that the
statistics-based mode reports is reported with the same morphemes and the same score
when no step fails. -/
theorem reported_without_failures (c : Checker XRat) (db : List (Row ℚ)) (site : CallSite)
    (fails : Nat → Bool) (rs : List (Result XRat)) (r : Result XRat)
    (hopts : DefaultThresholds c.opts) (hweights : c.weights = some (exactRows db))
    (hdb : WithinSchema db) (hrs : (c.checkSite fails site .statsBased).1 = .ok rs) (hr : r ∈ rs) :
    ∃ rs', c.results site .statsBased = .ok rs' ∧ ∃ r' ∈ rs', outline r' = outline r := by
  have hthresholds := statsThresholds_of_defaults hopts
  have hidle : Idle c.weights (⟨c.stats, fails⟩ : Session XRat) := stats_eq c
  by_cases hn : site.positionalArgNames.length < 2 ^ 32
  · obtain ⟨rs', t, hrun, -, hshown⟩ := checkSite_shown c.opts c.weights site hn _ hidle
    rw [Checker.checkSite, hrun] at hrs
    cases hrs
    obtain ⟨p, hp, husable, db', hdb', morph1, hmorph1, morph2, hmorph2, hshows⟩ := hshown r hr
    cases hweights.symm.trans hdb'
    have hlt := mem_allPairs.mp hp
    obtain ⟨w1, w2, hswapped, houtline⟩ :=
      weightsSwapped_of_shown hthresholds hdb hmorph1 hmorph2 hshows
    obtain ⟨r', hverdict, houtline'⟩ :=
      verdict_of_weightsSwapped hthresholds hdb hweights hswapped husable
    exact ⟨_, results_of_noTrips hn fun i j _ _ => not_trips_statsBased _ _ _ _, r',
      mem_verdicts.mpr ⟨p.1, p.2, hlt.1, hlt.2, hverdict⟩, houtline'.trans houtline.symm⟩
  · obtain ⟨t, hrun⟩ := checkSite_large c.opts c.weights site .statsBased hn _ hidle
    rw [Checker.checkSite, hrun] at hrs
    cases hrs

end Calls

/-- The lookup of `dogs` at its own position fails. -/
def secondStepFails : Nat → Bool := fun k => k == 1

theorem petCall_reported_without_failures :
    ∃ rs', (checkerOver {} (some (exactRows petTable))).results
        (petCall (bytes "dogs") (bytes "cats")) .statsBased = .ok rs' ∧
      ∃ r' ∈ rs', outline r' = (1, 2, {bytes "dogs"}, {bytes "cats"}, .fin 1) :=
  reported_without_failures (checkerOver {} (some (exactRows petTable))) petTable
    (petCall (bytes "dogs") (bytes "cats")) secondStepFails
    [{ arg1 := 1, arg2 := 2, morphemes1 := {bytes "dogs"}, morphemes2 := {bytes "cats"},
       score := .usageStatisticsBased (.fin 1) (.fin 1) (.fin 1) (.fin 1) }]
    { arg1 := 1, arg2 := 2, morphemes1 := {bytes "dogs"}, morphemes2 := {bytes "cats"},
      score := .usageStatisticsBased (.fin 1) (.fin 1) (.fin 1) (.fin 1) }
    rfl rfl petTable_withinSchema (by decide +kernel) List.mem_cons_self

end SwapDetector.Proofs.FailedReports
