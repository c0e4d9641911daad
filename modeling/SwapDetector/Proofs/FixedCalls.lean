import SwapDetector.Proofs.MatchValues
import SwapDetector.Proofs.NormalisedTables
import SwapDetector.Proofs.StatsVetting

/-! # The two checks agree about a swap

Under the default thresholds and a normalised table, a swap seen by the statistics
is a pair whose morphemes have a low confidence where they are, and a high one once
they are exchanged. Hence the vetting and the statistics-based check never
contradict each other, and a reported swap is silent after it has been fixed.
-/
namespace SwapDetector.Proofs.FixedCalls
open SwapDetector.Base.ExactFloat SwapDetector.Base.ExactFloat.XRat SwapDetector.Base.Exec
open SwapDetector.Base.OrderedSet SwapDetector.Base.Permutations
open SwapDetector.Model.Bytes SwapDetector.Model.IdentifierSplitting SwapDetector.Model.Types
open SwapDetector.Model.StatsDatabase SwapDetector.Model.SwappedArgChecker
open SwapDetector.Spec.Judgement SwapDetector.Spec.Tables
open SwapDetector.Proofs.Lookups SwapDetector.Proofs.Refinement SwapDetector.Proofs.Assertions
open SwapDetector.Proofs.StatisticsBased SwapDetector.Proofs.Locality
open SwapDetector.Proofs.MatchValues SwapDetector.Proofs.NormalisedTables
open SwapDetector.Proofs.StatsVetting

/-! ## Swaps seen by the statistics -/

section Pair
variable {d : PairData XRat} {rows1 rows2 : List (Row ℚ)} {morph1 morph2 : ByteString}
  {psi1 psi2 : XRat}

/-- The rows of a pair in a normalised table. -/
structure NormalisedPair (d : PairData XRat) (rows1 rows2 : List (Row ℚ)) : Prop where
  rows_eq : d.rows = some (exactRows rows1, exactRows rows2)
  at1 : NormalisedAt rows1
  at2 : NormalisedAt rows2

theorem SwapSeen.fits (hopts : DefaultThresholds d.opts) (hrows : NormalisedPair d rows1 rows2)
    {rows : List (Row XRat) × List (Row XRat)} (h : d.SwapSeen rows morph1 morph2 psi1 psi2) :
    fitIn (exactRows rows2) morph1 > .fin (3 / 4) ∧ fitIn (exactRows rows1) morph2 > .fin (3 / 4) := by
  have heq := Option.some.inj (h.rows_eq.symm.trans hrows.rows_eq)
  have hthreshold : d.opts.statsSwappedFitnessThreshold = .fin (3 / 4) := by rw [hopts]; rfl
  have hfits1 := h.fits1
  have hfits2 := h.fits2
  rw [heq, hthreshold] at hfits1 hfits2
  exact ⟨hfits1, hfits2⟩

theorem SwapSeen.morphemes_ne {rows : List (Row XRat) × List (Row XRat)}
    (h : d.SwapSeen rows morph1 morph2 psi1 psi2) : morph1 ≠ morph2 := by
  intro heq
  have hdisjoint : Disjoint d.unique1 d.unique2 := disjoint_sdiff_sdiff
  rw [h.unique1, h.unique2, heq, Finset.disjoint_singleton] at hdisjoint
  exact hdisjoint rfl

/-- The morphemes of a swap have a low confidence where they are. -/
theorem SwapSeen.low_confidence (hopts : DefaultThresholds d.opts)
    (hrows : NormalisedPair d rows1 rows2) {rows : List (Row XRat) × List (Row XRat)}
    (h : d.SwapSeen rows morph1 morph2 psi1 psi2) :
    (∃ v, confidenceIn (exactRows rows1) (exactRows rows2) morph1 = some v ∧ ¬ v > .fin (3 / 4)) ∧
      ∃ v, confidenceIn (exactRows rows2) (exactRows rows1) morph2 = some v ∧
        ¬ v > .fin (3 / 4) := by
  obtain ⟨hfit1, hfit2⟩ := SwapSeen.fits hopts hrows h
  have hne := SwapSeen.morphemes_ne h
  exact ⟨confidence_of_other_fit hrows.at1 hrows.at2 hne hfit1 hfit2,
    confidence_of_other_fit hrows.at2 hrows.at1 hne.symm hfit2 hfit1⟩

/-- The pair with its two arguments exchanged. -/
def exchanged (d : PairData XRat) : PairData XRat := { d with arg1 := d.arg2, arg2 := d.arg1 }

theorem exchanged_exchanged (d : PairData XRat) : exchanged (exchanged d) = d := rfl

/-- The vetting suppresses a pair whose exchange the statistics see as a swap. -/
theorem vetoed_of_exchanged (hopts : DefaultThresholds d.opts)
    (hrows : NormalisedPair d rows1 rows2) {rows : List (Row XRat) × List (Row XRat)}
    (h : (exchanged d).SwapSeen rows morph1 morph2 psi1 psi2) : d.vetoed = true := by
  have hopts' : DefaultThresholds (exchanged d).opts := hopts
  have hrows' : NormalisedPair (exchanged d) rows1 rows2 := ⟨hrows.rows_eq, hrows.at1, hrows.at2⟩
  obtain ⟨-, hfit2⟩ := SwapSeen.fits hopts' hrows' h
  obtain ⟨v, hv, hhigh⟩ := confidence_of_fit hrows.at1 hrows.at2 hfit2
  have hthreshold : d.opts.coverSwappedStatsVettingThreshold = .fin (3 / 4) := by rw [hopts]; rfl
  have hunique1 : d.unique1 = {morph2} := h.unique2
  refine (vetoed_iff hrows.rows_eq).mpr ⟨v, mem_confidences.mpr (.inl ⟨morph2, ?_, hv⟩), .inl ?_⟩
  · rw [hunique1]
    exact Finset.mem_singleton_self morph2
  · rwa [hthreshold]

/-! ## Both checks on a fixed pair -/

/-- Two arguments cannot match the names of each other's parameters in both orders. -/
theorem not_gates_exchanged (hopts : DefaultThresholds d.opts) (h : d.Gates) :
    ¬ (exchanged d).Gates := by
  have hmatch := defaultMatch_of_defaults hopts
  intro h'
  obtain ⟨-, ⟨hparam1, -⟩, -, -, -, hswapped⟩ := (gates_iff hmatch).mp h
  obtain ⟨-, -, hexisting, -⟩ := (gates_iff (d := exchanged d) hmatch).mp h'
  have hdisjoint : Disjoint (split d.param1 \ split d.param2) d.unique2 := hexisting
  exact hparam1 (disjoint_self.mp (hdisjoint.mono_right hswapped))

/-- The statistics cannot see a swap in both orders. -/
theorem not_swapSeen_exchanged (hopts : DefaultThresholds d.opts)
    (hrows : NormalisedPair d rows1 rows2) {rows rows' : List (Row XRat) × List (Row XRat)}
    {morph1' morph2' : ByteString} {psi1' psi2' : XRat}
    (h : d.SwapSeen rows morph1 morph2 psi1 psi2) :
    ¬ (exchanged d).SwapSeen rows' morph1' morph2' psi1' psi2' := by
  intro h'
  have hopts' : DefaultThresholds (exchanged d).opts := hopts
  have hrows' : NormalisedPair (exchanged d) rows1 rows2 := ⟨hrows.rows_eq, hrows.at1, hrows.at2⟩
  obtain ⟨hfit1, -⟩ := SwapSeen.fits hopts hrows h
  obtain ⟨hfit1', -⟩ := SwapSeen.fits hopts' hrows' h'
  have heq : morph1 = morph1' := hrows.at2.eq_of_fits hfit1 hfit1'
  have hmorph2 : d.unique2 = {morph1'} := h'.unique1
  have heq' : morph2 = morph1' := by
    rw [h.unique2] at hmorph2
    exact Finset.singleton_injective hmorph2
  exact SwapSeen.morphemes_ne h (heq.trans heq'.symm)

/-- A reported pair is not reported once its arguments are exchanged. -/
theorem verdict_exchanged {r : Result XRat} (hopts : DefaultThresholds d.opts)
    (hrows : d.rows = none ∨ ∃ rows1 rows2, NormalisedPair d rows1 rows2)
    (h : d.verdict = some r) : (exchanged d).verdict = none := by
  cases hr' : (exchanged d).verdict with
  | none => rfl
  | some r' =>
    exfalso
    rcases verdict_eq_some h with ⟨⟨-, hcand, hvetoed⟩, -⟩ | ⟨-, -, -, hstats⟩
    · rcases verdict_eq_some hr' with ⟨⟨-, hcand', -⟩, -⟩ | ⟨-, -, -, hstats'⟩
      · exact not_gates_exchanged hopts (candidate_eq_true.mp hcand).1 (candidate_eq_true.mp hcand').1
      · obtain ⟨rows, morph1, morph2, psi1, psi2, hseen, -⟩ := statsOutcome_eq_some.mp hstats'
        rcases hrows with hnone | ⟨rows1, rows2, hrows⟩
        · cases hnone.symm.trans hseen.rows_eq
        · have hveto := vetoed_of_exchanged hopts hrows hseen
          rw [hvetoed] at hveto
          cases hveto
    · obtain ⟨rows, morph1, morph2, psi1, psi2, hseen, -⟩ := statsOutcome_eq_some.mp hstats
      rcases hrows with hnone | ⟨rows1, rows2, hrows⟩
      · cases hnone.symm.trans hseen.rows_eq
      rcases verdict_eq_some hr' with ⟨⟨-, -, hvetoed'⟩, -⟩ | ⟨-, -, -, hstats'⟩
      · have hopts' : DefaultThresholds (exchanged d).opts := hopts
        have hrows' : NormalisedPair (exchanged d) rows1 rows2 :=
          ⟨hrows.rows_eq, hrows.at1, hrows.at2⟩
        have hveto := vetoed_of_exchanged hopts' hrows' (exchanged_exchanged d ▸ hseen)
        rw [hvetoed'] at hveto
        cases hveto
      · obtain ⟨_, _, _, _, _, hseen', -⟩ := statsOutcome_eq_some.mp hstats'
        exact not_swapSeen_exchanged hopts hrows hseen hseen'

end Pair

/-! ## Call sites -/

section Calls
variable {c : Checker XRat} {db : List (Row ℚ)} {site : CallSite} {whichCheck : Check} {i j : Nat}

theorem pairData_normalised (hweights : c.weights = some (exactRows db)) (hdb : Normalised db) :
    NormalisedPair (pairData c.opts c.weights site whichCheck (i, j))
      (ratRowsAt db site.callDecl.fullyQualifiedName i)
      (ratRowsAt db site.callDecl.fullyQualifiedName j) := by
  refine ⟨?_, Normalised.at hdb _ _, Normalised.at hdb _ _⟩
  simp only [pairData, hweights, Option.map_some, rowsAt_exactRows]

/-- **The two uses of the statistics**: where the vetting finds a high confidence for
a pair as it is, the statistics-based check finds no swap, and so none is reported
in mode `All` either. -/
theorem vetted_pair_not_swapped (c : Checker XRat) (db : List (Row ℚ)) (site : CallSite)
    (params : MorphemeSet × MorphemeSet) (i j : Nat) (hopts : DefaultThresholds c.opts)
    (hweights : c.weights = some (exactRows db)) (hdb : Normalised db)
    (hvet : (∃ morph ∈ argMorphemes (site.positionalArgNames[i]?.getD []) \
          argMorphemes (site.positionalArgNames[j]?.getD []),
        ∃ v, Steady (morphemeConfidenceAtPosition site morph i j) (ready c.weights) (.ok (some v)) ∧
          v > c.opts.coverSwappedStatsVettingThreshold) ∨
      ∃ morph ∈ argMorphemes (site.positionalArgNames[j]?.getD []) \
          argMorphemes (site.positionalArgNames[i]?.getD []),
        ∃ v, Steady (morphemeConfidenceAtPosition site morph j i) (ready c.weights) (.ok (some v)) ∧
          v > c.opts.coverSwappedStatsVettingThreshold) :
    Steady (checkForStatisticsBasedSwap c.opts params
        (⟨argMorphemes (site.positionalArgNames[i]?.getD []), i⟩,
          ⟨argMorphemes (site.positionalArgNames[j]?.getD []), j⟩) site) (ready c.weights) (.ok none) ∧
      ∀ rs, c.results site .all = .ok rs → ∀ r ∈ rs, r.arg1 = i + 1 → r.arg2 = j + 1 →
        ∀ fit1 fit2 psi1 psi2, r.score ≠ .usageStatisticsBased fit1 fit2 psi1 psi2 := by
  have hthreshold : c.opts.coverSwappedStatsVettingThreshold = .fin (3 / 4) := by rw [hopts]; rfl
  rw [hthreshold, hweights] at hvet
  have hnone : (pairData c.opts c.weights site .all (i, j)).statsOutcome = none := by
    cases hr : (pairData c.opts c.weights site .all (i, j)).statsOutcome with
    | none => rfl
    | some r =>
      exfalso
      obtain ⟨rows, morph1, morph2, psi1, psi2, hseen, -⟩ := statsOutcome_eq_some.mp hr
      obtain ⟨⟨v1, hv1, hlow1⟩, v2, hv2, hlow2⟩ := SwapSeen.low_confidence (pairData_defaults hopts _)
        (pairData_normalised hweights hdb) hseen
      rcases hvet with ⟨morph, hmorph, v, hv, hhigh⟩ | ⟨morph, hmorph, v, hv, hhigh⟩
      · have heq : morph = morph1 := Finset.mem_singleton.mp (hseen.unique1 ▸ hmorph)
        have hconfidence := (morphemeConfidenceAtPosition_steady (exactRows db) site morph i j).unique hv
        rw [rowsAt_exactRows, rowsAt_exactRows, heq, hv1] at hconfidence
        cases hconfidence
        exact hlow1 hhigh
      · have heq : morph = morph2 := Finset.mem_singleton.mp (hseen.unique2 ▸ hmorph)
        have hconfidence := (morphemeConfidenceAtPosition_steady (exactRows db) site morph j i).unique hv
        rw [rowsAt_exactRows, rowsAt_exactRows, heq, hv2] at hconfidence
        cases hconfidence
        exact hlow2 hhigh
  refine ⟨?_, fun rs hrs r hr harg1 harg2 fit1 fit2 psi1 psi2 hscore => ?_⟩
  · have hcheck := checkForStatisticsBasedSwap_steady c.opts site .all (i, j) params (exactRows db)
    rwa [← hweights, hnone] at hcheck
  · rw [(results_eq_ok.mp hrs).2] at hr
    rcases verdict_eq_some (verdict_of_mem hr harg1 harg2) with ⟨-, rfl⟩ | ⟨-, -, -, hstats⟩
    · cases hscore
    · rw [hnone] at hstats
      cases hstats

/-- A table in which `cats` and `dogs` belong to the first and second position. -/
def petTable : List (Row ℚ) :=
  [⟨cStr (bytes "foo"), 0, cStr (bytes "cats"), 1⟩, ⟨cStr (bytes "foo"), 1, cStr (bytes "dogs"), 1⟩]

theorem petTable_normalised : Normalised petTable := by
  refine ⟨by decide +kernel, by decide +kernel, fun func arg => ?_⟩
  by_cases hfunc : cStr (bytes "foo") = func
  · by_cases harg0 : 0 = arg
    · subst hfunc harg0
      decide +kernel
    · by_cases harg1 : 1 = arg
      · subst hfunc harg1
        decide +kernel
      · simp [petTable, harg0, harg1]
  · simp [petTable, hfunc]

/-- A call of `foo` whose parameters are not named. -/
def petCall (arg1 arg2 : ByteString) : CallSite where
  callDecl := ⟨bytes "foo", none⟩
  positionalArgNames := [[arg1], [arg2]]

theorem petCall_not_swapped :
    Steady (checkForStatisticsBasedSwap {} (⟨∅, 0⟩, ⟨∅, 1⟩)
      (⟨argMorphemes [bytes "cats"], 0⟩, ⟨argMorphemes [bytes "dogs"], 1⟩)
      (petCall (bytes "cats") (bytes "dogs"))) (ready (some (exactRows petTable))) (.ok none) := by
  refine (vetted_pair_not_swapped (checkerOver {} (some (exactRows petTable))) petTable
    (petCall (bytes "cats") (bytes "dogs")) (⟨∅, 0⟩, ⟨∅, 1⟩) 0 1 rfl rfl petTable_normalised
    (.inl ⟨bytes "cats", by decide +kernel, .fin 1, ?_, by decide +kernel⟩)).1
  have hconfidence := morphemeConfidenceAtPosition_steady (exactRows petTable)
    (petCall (bytes "cats") (bytes "dogs")) (bytes "cats") 0 1
  have hvalue : confidenceIn (rowsAt (exactRows petTable) (bytes "foo") 0)
      (rowsAt (exactRows petTable) (bytes "foo") 1) (bytes "cats") = some (.fin 1) := by
    decide +kernel
  exact hvalue ▸ hconfidence

/-- A call site with two of its arguments exchanged. -/
def exchangeArgs (site : CallSite) (i j : Nat) : CallSite :=
  { site with positionalArgNames := exchange site.positionalArgNames i j }

theorem pairData_exchangeArgs (hij : i < j) (hj : j < site.positionalArgNames.length) :
    pairData c.opts c.weights (exchangeArgs site i j) whichCheck (i, j) =
      exchanged (pairData c.opts c.weights site whichCheck (i, j)) := by
  have hi : i < site.positionalArgNames.length := by omega
  have harg1 : (exchangeArgs site i j).positionalArgNames[i]? = site.positionalArgNames[j]? :=
    getElem?_exchange_left hi hj (by omega)
  have harg2 : (exchangeArgs site i j).positionalArgNames[j]? = site.positionalArgNames[i]? :=
    getElem?_exchange_right hi hj
  simp only [pairData, exchanged, harg1, harg2]
  rfl

/-- **A fixed call is silent**: a pair that is reported is not reported any more once
its two arguments are exchanged. -/
theorem fixed_call_silent (c : Checker XRat) (site : CallSite) (whichCheck : Check) (i j : Nat)
    (rs : List (Result XRat)) (hopts : DefaultThresholds c.opts)
    (hweights : c.weights = none ∨ ∃ db, Normalised db ∧ c.weights = some (exactRows db))
    (hnames : ∀ arg ∈ site.positionalArgNames, arg.getLast? ≠ some [])
    (hij : i < j) (hj : j < site.positionalArgNames.length)
    (hrs : c.results site whichCheck = .ok rs)
    (hreported : ∃ r ∈ rs, r.arg1 = i + 1 ∧ r.arg2 = j + 1) :
    ∃ rs', c.results (exchangeArgs site i j) whichCheck = .ok rs' ∧
      ∀ r ∈ rs', ¬ (r.arg1 = i + 1 ∧ r.arg2 = j + 1) := by
  have hi : i < site.positionalArgNames.length := by omega
  have hlen : (exchangeArgs site i j).positionalArgNames.length = site.positionalArgNames.length :=
    length_exchange hi hj
  obtain ⟨⟨hn, -⟩, heq⟩ := results_eq_ok.mp hrs
  have hsafe : NoTrips c (exchangeArgs site i j) whichCheck :=
    noTrips_of_lastNames fun arg harg => hnames arg (mem_of_mem_exchange hi hj harg)
  have hfixed : (pairData c.opts c.weights (exchangeArgs site i j) whichCheck (i, j)).verdict = none := by
    obtain ⟨r, hr, harg1, harg2⟩ := hreported
    rw [heq] at hr
    rw [pairData_exchangeArgs hij hj]
    refine verdict_exchanged (pairData_defaults hopts _) ?_ (verdict_of_mem hr harg1 harg2)
    rcases hweights with hnone | ⟨db, hdb, hsome⟩
    · left
      simp only [pairData, hnone, Option.map_none]
    · exact .inr ⟨_, _, pairData_normalised hsome hdb⟩
  refine ⟨_, results_of_noTrips (by omega) hsafe, fun r hr hpair => ?_⟩
  have hverdict := verdict_of_mem hr hpair.1 hpair.2
  rw [hfixed] at hverdict
  cases hverdict

end Calls

theorem petCall_fixed :
    ∃ rs', (checkerOver {} (some (exactRows petTable))).results
        (exchangeArgs (petCall (bytes "dogs") (bytes "cats")) 0 1) .all = .ok rs' ∧
      ∀ r ∈ rs', ¬ (r.arg1 = 0 + 1 ∧ r.arg2 = 1 + 1) :=
  fixed_call_silent (checkerOver {} (some (exactRows petTable)))
    (petCall (bytes "dogs") (bytes "cats")) .all 0 1
    [{ arg1 := 1, arg2 := 2, morphemes1 := {bytes "dogs"}, morphemes2 := {bytes "cats"},
       score := .usageStatisticsBased (.fin 1) (.fin 1) (.fin 1) (.fin 1) }]
    rfl (.inr ⟨petTable, petTable_normalised, rfl⟩) (by decide +kernel) (by decide) (by decide)
    (by decide +kernel) ⟨_, List.mem_cons_self, rfl, rfl⟩

end SwapDetector.Proofs.FixedCalls
