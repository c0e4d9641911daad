import SwapDetector.Proofs.Locality

/-! # Looser thresholds

Every test against a threshold is passed again when the threshold is loosened, so a
pair that is reported stays reported. In mode `All` the cover-based check may report
it in the place of the statistics. What a looser threshold can spoil is the run: a
pair that no longer fails the gates reaches the assertion of the suffix filter.
-/
namespace SwapDetector.Proofs.Thresholds
open SwapDetector.Base.ExactFloat SwapDetector.Base.Exec SwapDetector.Base.OrderedSet
open SwapDetector.Model.Bytes SwapDetector.Model.IdentifierSplitting SwapDetector.Model.Types
open SwapDetector.Model.StatsDatabase SwapDetector.Model.SwappedArgChecker
open SwapDetector.Spec.Judgement SwapDetector.Proofs.Assertions SwapDetector.Proofs.Locality
open SwapDetector.Proofs.StatisticsBased

/-- The second configuration is at least as permissive in every threshold. -/
structure Looser (opts opts' : CheckerConfiguration XRat) : Prop where
  existing : opts.existingMorphemeMatchMax ≤ opts'.existingMorphemeMatchMax
  swapped : opts'.swappedMorphemeMatchMin ≤ opts.swappedMorphemeMatchMin
  vetting : opts.coverSwappedStatsVettingThreshold ≤ opts'.coverSwappedStatsVettingThreshold
  morpheme : opts'.statsSwappedMorphemeThreshold ≤ opts.statsSwappedMorphemeThreshold
  fitness : opts'.statsSwappedFitnessThreshold ≤ opts.statsSwappedFitnessThreshold

/-! ## One pair -/

section Pair

/-- A pair checked under another configuration. -/
def withOpts (d : PairData XRat) (opts' : CheckerConfiguration XRat) : PairData XRat :=
  { d with opts := opts' }

variable {d : PairData XRat} {opts' : CheckerConfiguration XRat} {r : Result XRat}

theorem gates_looser (h : Looser d.opts opts') (hgates : d.Gates) : (withOpts d opts').Gates where
  sizes := hgates.sizes
  unique := hgates.unique
  existing1 := fun hlt => hgates.existing1 (XRat.lt_of_le_of_lt h.existing hlt)
  existing2 := fun hlt => hgates.existing2 (XRat.lt_of_le_of_lt h.existing hlt)
  swapped1 := fun hlt => hgates.swapped1 (XRat.lt_of_lt_of_le hlt h.swapped)
  swapped2 := fun hlt => hgates.swapped2 (XRat.lt_of_lt_of_le hlt h.swapped)

theorem vetoed_looser (h : Looser d.opts opts') (hveto : (withOpts d opts').vetoed = true) :
    d.vetoed = true := by
  obtain ⟨score, hscore, habove⟩ := (Option.any_eq_true _ _).mp hveto
  refine (Option.any_eq_true _ _).mpr ⟨score, hscore, decide_eq_true ?_⟩
  exact XRat.lt_of_le_of_lt h.vetting (of_decide_eq_true habove)

theorem covers_looser (h : Looser d.opts opts') (hcovers : Covers d) :
    Covers (withOpts d opts') := by
  rw [covers_iff] at hcovers ⊢
  obtain ⟨hruns, ⟨hgates, hfilters⟩, hveto⟩ := hcovers
  exact ⟨hruns, ⟨gates_looser h hgates, hfilters⟩, mt (vetoed_looser h) hveto⟩

theorem swapSeen_looser (h : Looser d.opts opts') {rows : List (Row XRat) × List (Row XRat)}
    {morph1 morph2 : ByteString} {psi1 psi2 : XRat} (hseen : d.SwapSeen rows morph1 morph2 psi1 psi2) :
    (withOpts d opts').SwapSeen rows morph1 morph2 psi1 psi2 where
  rows_eq := hseen.rows_eq
  unique1 := hseen.unique1
  unique2 := hseen.unique2
  confidence1 := hseen.confidence1
  confidence2 := hseen.confidence2
  swapped1 := fun hle => hseen.swapped1 (XRat.le_trans hle h.morpheme)
  swapped2 := fun hle => hseen.swapped2 (XRat.le_trans hle h.morpheme)
  fits1 := XRat.lt_of_le_of_lt h.fitness hseen.fits1
  fits2 := XRat.lt_of_le_of_lt h.fitness hseen.fits2

theorem statsOutcome_looser (h : Looser d.opts opts') (hr : d.statsOutcome = some r) :
    (withOpts d opts').statsOutcome = some r := by
  obtain ⟨rows, morph1, morph2, psi1, psi2, hseen, rfl⟩ := statsOutcome_eq_some.mp hr
  exact statsOutcome_eq_some.mpr
    ⟨rows, morph1, morph2, psi1, psi2, swapSeen_looser h hseen, rfl⟩

/-- The parameter names or the statistics see a swap in the pair. -/
def Swapped (d : PairData XRat) : Prop :=
  Covers d ∨ ¬ d.Unusable ∧ d.statsRuns ∧
    ∃ rows morph1 morph2 psi1 psi2, d.SwapSeen rows morph1 morph2 psi1 psi2

theorem verdict_exists_iff (htrips : ¬ d.Trips) : (∃ r, d.verdict = some r) ↔ Swapped d := by
  constructor
  · intro h
    obtain ⟨r, hr⟩ := h
    rcases (verdict_eq_some_iff htrips).mp hr with ⟨hcovers, -⟩ | ⟨-, husable, hruns, hstats⟩
    · exact .inl hcovers
    · exact .inr ⟨husable, hruns, statsOutcome_ne_none.mp (by rw [hstats]; simp)⟩
  · intro h
    by_cases hcovers : Covers d
    · exact ⟨_, (verdict_eq_some_iff htrips).mpr (.inl ⟨hcovers, rfl⟩)⟩
    · obtain ⟨husable, hruns, hseen⟩ := h.resolve_left hcovers
      obtain ⟨r, hstats⟩ := Option.ne_none_iff_exists'.mp (statsOutcome_ne_none.mpr hseen)
      exact ⟨r, (verdict_eq_some_iff htrips).mpr (.inr ⟨hcovers, husable, hruns, hstats⟩)⟩

/-- A reported pair stays reported; the checker that reports it can change in mode `All`
only. -/
theorem verdict_looser (h : Looser d.opts opts') (htrips : ¬ d.Trips)
    (htrips' : ¬ (withOpts d opts').Trips) (hr : d.verdict = some r) :
    ∃ r', (withOpts d opts').verdict = some r' ∧ (d.whichCheck ≠ .all → r' = r) := by
  rcases (verdict_eq_some_iff htrips).mp hr with ⟨hcovers, rfl⟩ | ⟨-, husable, hruns, hstats⟩
  · have hcovers' := covers_looser h hcovers
    exact ⟨_, (verdict_eq_some_iff htrips').mpr (.inl ⟨hcovers', rfl⟩), fun _ => rfl⟩
  · by_cases hcovers' : Covers (withOpts d opts')
    · refine ⟨_, (verdict_eq_some_iff htrips').mpr (.inl ⟨hcovers', rfl⟩), fun hmode => ?_⟩
      have hcover : d.whichCheck = .coverBased := hcovers'.1.2.resolve_left hmode
      have hstatsBased : d.whichCheck = .statsBased := hruns.resolve_left hmode
      rw [hcover] at hstatsBased
      cases hstatsBased
    · refine ⟨r, (verdict_eq_some_iff htrips').mpr (.inr ⟨hcovers', husable, hruns, ?_⟩), fun _ => rfl⟩
      exact statsOutcome_looser h hstats

end Pair

/-! ## Call sites -/

section Calls
variable {c c' : Checker XRat} {site : CallSite} {whichCheck : Check} {i j : Nat}

/-- Every pair reported by the first checker is reported by the second one, with the same
result unless both checks run. -/
def KeepsReports (c c' : Checker XRat) (site : CallSite) (whichCheck : Check) : Prop :=
  ∀ rs, c.results site whichCheck = .ok rs → ∀ r ∈ rs,
    ∃ rs', c'.results site whichCheck = .ok rs' ∧
      ∃ r' ∈ rs', r'.arg1 = r.arg1 ∧ r'.arg2 = r.arg2 ∧ (whichCheck ≠ .all → r' = r)

theorem pairData_withOpts (hweights : c'.weights = c.weights) :
    pairData c'.opts c'.weights site whichCheck (i, j) =
      withOpts (pairData c.opts c.weights site whichCheck (i, j))
        { c'.opts with modelPath := [] } := by
  rw [hweights]
  rfl

theorem looser_pairData (h : Looser c.opts c'.opts) :
    Looser (pairData c.opts c.weights site whichCheck (i, j)).opts
      { c'.opts with modelPath := [] } where
  existing := h.existing
  swapped := h.swapped
  vetting := h.vetting
  morpheme := h.morpheme
  fitness := h.fitness

/-- **Looser thresholds** keep every report exactly when they do not lead a call on which
a swap is seen into the assertion of the suffix filter. -/
theorem keepsReports_iff (c c' : Checker XRat) (site : CallSite) (whichCheck : Check)
    (hweights : c'.weights = c.weights) (hopts : Looser c.opts c'.opts) :
    KeepsReports c c' site whichCheck ↔
      (site.positionalArgNames.length < 2 ^ 32 → NoTrips c site whichCheck →
        (∃ i j, i < j ∧ j < site.positionalArgNames.length ∧
          Swapped (pairData c.opts c.weights site whichCheck (i, j))) →
        NoTrips c' site whichCheck) := by
  constructor
  · intro h hn hsafe hswapped
    obtain ⟨i, j, hij, hj, hpair⟩ := hswapped
    obtain ⟨r, hr⟩ := (verdict_exists_iff (hsafe i j hij hj)).mpr hpair
    obtain ⟨rs', hrs', -⟩ := h _ (results_of_noTrips hn hsafe) r (mem_verdicts.mpr ⟨i, j, hij, hj, hr⟩)
    exact (results_eq_ok.mp hrs').1.2
  · intro h rs hrs r hr
    obtain ⟨⟨hn, hsafe⟩, heq⟩ := results_eq_ok.mp hrs
    rw [heq, mem_verdicts] at hr
    obtain ⟨i, j, hij, hj, hverdict⟩ := hr
    have htrips := hsafe i j hij hj
    have hsafe' := h hn hsafe ⟨i, j, hij, hj, (verdict_exists_iff htrips).mp ⟨r, hverdict⟩⟩
    have htrips' := hsafe' i j hij hj
    rw [pairData_withOpts hweights] at htrips'
    obtain ⟨r', hr', hsame⟩ := verdict_looser (looser_pairData hopts) htrips htrips' hverdict
    obtain ⟨harg1, harg2⟩ := verdict_positions hverdict
    obtain ⟨harg1', harg2'⟩ := verdict_positions hr'
    rw [← pairData_withOpts hweights] at hr'
    exact ⟨_, results_of_noTrips hn hsafe', r', mem_verdicts.mpr ⟨i, j, hij, hj, hr'⟩,
      harg1'.trans harg1.symm, harg2'.trans harg2.symm, hsame⟩

end Calls

/-- A swap, and an argument with an empty last component that no parameter name covers. -/
def swappedAndUncovered : CallSite where
  callDecl := ⟨bytes "foo", some [bytes "cats", bytes "dogs", bytes "fish", bytes "bird"]⟩
  positionalArgNames := [[bytes "dogs"], [bytes "cats"], [bytes "pool", []], [bytes "tree"]]

/-- Thresholds that every match passes. -/
def everyMatch : CheckerConfiguration XRat :=
  { existingMorphemeMatchMax := .fin 1, swappedMorphemeMatchMin := .fin 0 }

theorem looser_everyMatch : Looser {} everyMatch := by
  constructor <;> decide +kernel

theorem swappedAndUncovered_keepsReports_iff :
    KeepsReports (checkerOver {} none) (checkerOver everyMatch none) swappedAndUncovered .coverBased ↔
      (swappedAndUncovered.positionalArgNames.length < 2 ^ 32 →
        NoTrips (checkerOver {} none : Checker XRat) swappedAndUncovered .coverBased →
        (∃ i j, i < j ∧ j < swappedAndUncovered.positionalArgNames.length ∧
          Swapped (pairData {} none swappedAndUncovered .coverBased (i, j))) →
        NoTrips (checkerOver everyMatch none) swappedAndUncovered .coverBased) :=
  keepsReports_iff (checkerOver {} none) (checkerOver everyMatch none) swappedAndUncovered .coverBased
    rfl looser_everyMatch

/-- The swap is not reported any more under the looser thresholds. -/
theorem swappedAndUncovered_lost :
    Looser {} everyMatch ∧
      (checkerOver {} none : Checker XRat).results swappedAndUncovered .coverBased =
        .ok [{ arg1 := 1, arg2 := 2, morphemes1 := {bytes "dogs"}, morphemes2 := {bytes "cats"},
               score := .parameterNameBased (.fin 100) none }] ∧
      (checkerOver everyMatch none).results swappedAndUncovered .coverBased = .error .emptyName :=
  ⟨looser_everyMatch, by decide +kernel, by decide +kernel⟩

end SwapDetector.Proofs.Thresholds
