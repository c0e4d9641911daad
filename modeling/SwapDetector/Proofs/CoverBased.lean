import SwapDetector.Proofs.MirroredCalls
import SwapDetector.Proofs.PermutedCalls

/-! # When the parameter names report a pair

The cover-based check in terms of sets: two arguments are reported when the morphemes
in which their parameters differ cover each other crosswise, and no numeric suffix
excuses the pair. The suffix filters look for the digit in one of two names only, and
a result names all morphemes in which the arguments differ, whether or not they occur
in a parameter.
-/
namespace SwapDetector.Proofs.CoverBased
open SwapDetector.Base.ExactFloat SwapDetector.Base.ExactFloat.XRat SwapDetector.Base.OrderedSet
open SwapDetector.Base.Permutations
open SwapDetector.Model.Bytes SwapDetector.Model.IdentifierSplitting SwapDetector.Model.Types
open SwapDetector.Model.StatsDatabase SwapDetector.Model.SwappedArgChecker
open SwapDetector.Spec.Judgement SwapDetector.Proofs.Refinement SwapDetector.Proofs.Assertions
open SwapDetector.Proofs.StatisticsBased SwapDetector.Proofs.Locality
open SwapDetector.Proofs.MatchValues SwapDetector.Proofs.MirroredCalls
open SwapDetector.Proofs.PermutedCalls

/-- The name of a parameter, empty when it has none. -/
def paramName (site : CallSite) (i : Nat) : ByteString := (getParamName site i).getD []

/-- The components of an argument. -/
def argNames (site : CallSite) (i : Nat) : List ByteString :=
  site.positionalArgNames[i]?.getD []

/-! ## The set-theoretic meaning -/

/-- The parameter names say that two arguments are in each other's place. -/
structure NamesSwapped (site : CallSite) (i j : Nat) : Prop where
  exist : getParamName site i ≠ none ∧ getParamName site j ≠ none
  nonempty : (split (paramName site i) ≠ ∅ ∧ split (paramName site j) ≠ ∅) ∧
    argMorphemes (argNames site i) ≠ ∅ ∧ argMorphemes (argNames site j) ≠ ∅
  sizes : (split (paramName site i)).card = (split (paramName site j)).card ∧
    (argMorphemes (argNames site i)).card = (argMorphemes (argNames site j)).card ∧
    (split (paramName site i)).card = (argMorphemes (argNames site i)).card
  differ : split (paramName site i) ≠ split (paramName site j)
  covers1 : split (paramName site j) \ split (paramName site i) ⊆
    argMorphemes (argNames site i) \ argMorphemes (argNames site j)
  covers2 : split (paramName site i) \ split (paramName site j) ⊆
    argMorphemes (argNames site j) \ argMorphemes (argNames site i)
  params : suffixTwins (paramName site i) (paramName site j) = false
  args : suffixTwins (lastName (argNames site i)) (lastName (argNames site j)) = false

/-- The result for two arguments in each other's place. -/
def swappedResult (site : CallSite) (i j : Nat) : Result XRat where
  arg1 := i + 1
  arg2 := j + 1
  morphemes1 := argMorphemes (argNames site i) \ argMorphemes (argNames site j)
  morphemes2 := argMorphemes (argNames site j) \ argMorphemes (argNames site i)
  score := .parameterNameBased (.fin 100) none

section Calls
variable {c : Checker XRat} {site : CallSite} {whichCheck : Check} {i j : Nat}

theorem coverMatch_pairData (hopts : CoverMatch c.opts) (p : Nat × Nat) :
    CoverMatch (pairData c.opts c.weights site whichCheck p).opts :=
  ⟨hopts.existing, hopts.positive, hopts.atMostOne⟩

/-- A name that has a morpheme belongs to a parameter that exists. -/
theorem getParamName_ne_none (h : split (paramName site i) ≠ ∅) : getParamName site i ≠ none := by
  intro hnone
  apply h
  rw [paramName, hnone, Option.getD_none, split_nil]

theorem namesSwapped_iff (hopts : CoverMatch c.opts) :
    NamesSwapped site i j ↔
      (pairData c.opts c.weights site whichCheck (i, j)).Gates ∧
        ¬ Filtered (pairData c.opts c.weights site whichCheck (i, j)) := by
  have hfiltered : ¬ Filtered (pairData c.opts c.weights site whichCheck (i, j)) ↔
      suffixTwins (paramName site i) (paramName site j) = false ∧
        suffixTwins (lastName (argNames site i)) (lastName (argNames site j)) = false := by
    rw [Filtered, not_or, Bool.not_eq_true, Bool.not_eq_true]
    rfl
  rw [hfiltered]
  constructor
  · intro h
    refine ⟨(gates_iff_crosswise (coverMatch_pairData hopts _)).mpr
      ⟨h.sizes, ?_, h.covers1, h.covers2⟩, h.params, h.args⟩
    have hparam1 := sdiff_ne_empty h.sizes.1 h.differ
    have hparam2 := sdiff_ne_empty h.sizes.1.symm h.differ.symm
    exact ⟨hparam1, hparam2, fun hempty => hparam2 (Finset.subset_empty.mp (hempty ▸ h.covers1)),
      fun hempty => hparam1 (Finset.subset_empty.mp (hempty ▸ h.covers2))⟩
  · intro h
    obtain ⟨hgates, hparams, hargs⟩ := h
    obtain ⟨hsizes, hunique, hcovers1, hcovers2⟩ :=
      (gates_iff_crosswise (coverMatch_pairData hopts _)).mp hgates
    have hnonempty := gates_nonempty hgates
    refine ⟨⟨getParamName_ne_none hnonempty.1.1, getParamName_ne_none hnonempty.1.2⟩, hnonempty,
      hsizes, fun heq => hunique.1 ?_, hcovers1, hcovers2, hparams, hargs⟩
    exact Finset.sdiff_eq_empty_iff_subset.mpr heq.le

/-- The reports of the cover-based mode have the set-theoretic meaning for a pair, and do
not depend on the threshold for the morphemes where they are. -/
structure HasMeaning (c : Checker XRat) (site : CallSite) (i j : Nat) : Prop where
  reports : ∀ r, (∃ rs, c.results site .coverBased = .ok rs ∧ r ∈ rs ∧
      r.arg1 = i + 1 ∧ r.arg2 = j + 1) ↔ NamesSwapped site i j ∧ r = swappedResult site i j
  redundant : ∀ existing, .fin 0 ≤ existing →
    (checkerOver { c.opts with existingMorphemeMatchMax := existing } none).results site .coverBased =
      c.results site .coverBased

/-- The tests of the morphemes where they are never change the verdict. -/
theorem verdict_existing (hopts : CoverMatch c.opts) (hweights : c.weights = none) {existing : XRat}
    (hexisting : .fin 0 ≤ existing)
    (htrips : ¬ (pairData c.opts c.weights site .coverBased (i, j)).Trips)
    (htrips' : ¬ (pairData { c.opts with existingMorphemeMatchMax := existing } none site .coverBased
      (i, j)).Trips) :
    (pairData { c.opts with existingMorphemeMatchMax := existing } none site .coverBased
        (i, j)).verdict =
      (pairData c.opts c.weights site .coverBased (i, j)).verdict := by
  let c' : Checker XRat := checkerOver { c.opts with existingMorphemeMatchMax := existing } none
  have hopts' : CoverMatch c'.opts := ⟨hexisting, hopts.positive, hopts.atMostOne⟩
  have hgates : (pairData c'.opts c'.weights site .coverBased (i, j)).Gates ↔
      (pairData c.opts c.weights site .coverBased (i, j)).Gates := by
    rw [gates_iff_crosswise (coverMatch_pairData hopts' _),
      gates_iff_crosswise (coverMatch_pairData hopts _)]
    rfl
  have hcovers : Covers (pairData c'.opts c'.weights site .coverBased (i, j)) ↔
      Covers (pairData c.opts c.weights site .coverBased (i, j)) := by
    rw [covers_iff, covers_iff, hgates, hweights]
    rfl
  rw [verdict_coverBased rfl htrips, verdict_coverBased rfl htrips']
  refine if_congr hcovers ?_ rfl
  rw [hweights]
  rfl

theorem results_existing (hopts : CoverMatch c.opts) (hweights : c.weights = none)
    (hlast : ∀ arg ∈ site.positionalArgNames, lastName arg ≠ []) {existing : XRat}
    (hexisting : .fin 0 ≤ existing) :
    (checkerOver { c.opts with existingMorphemeMatchMax := existing } none).results site .coverBased =
      c.results site .coverBased := by
  let c' : Checker XRat := checkerOver { c.opts with existingMorphemeMatchMax := existing } none
  by_cases hn : site.positionalArgNames.length < 2 ^ 32
  · have hsafe (c' : Checker XRat) : NoTrips c' site .coverBased := by
      refine noTrips_of_lastNames fun arg harg hempty => hlast arg harg ?_
      rw [lastName, hempty, Option.getD_some]
    rw [results_of_noTrips hn (hsafe _), results_of_noTrips hn (hsafe _)]
    refine congrArg Except.ok ((verdicts_eq_iff rfl).mpr fun i j hij hj => ?_)
    exact verdict_existing hopts hweights hexisting (hsafe c i j hij hj) (hsafe c' i j hij hj)
  · rw [results_eq, results_eq, if_neg hn, if_neg hn]

/-- What is reported for a pair in a run without statistics. -/
theorem mem_results_iff (hopts : CoverMatch c.opts) (hweights : c.weights = none)
    (hlast : ∀ arg ∈ site.positionalArgNames, lastName arg ≠ []) (hij : i < j)
    (hj : j < site.positionalArgNames.length) (r : Result XRat) :
    (∃ rs, c.results site .coverBased = .ok rs ∧ r ∈ rs ∧ r.arg1 = i + 1 ∧ r.arg2 = j + 1) ↔
      site.positionalArgNames.length < 2 ^ 32 ∧ NamesSwapped site i j ∧
        r = swappedResult site i j := by
  constructor
  · intro h
    obtain ⟨rs, hrs, hr, harg1, harg2⟩ := h
    obtain ⟨arg1, arg2, morphemes1, morphemes2, score⟩ := r
    cases harg1
    cases harg2
    obtain ⟨hn, hgates, hfiltered, rfl, rfl, rfl⟩ :=
      (reports_coverBased_iff hweights hlast hij hj).mp ⟨rs, hrs, hr⟩
    refine ⟨hn, (namesSwapped_iff hopts).mpr ⟨hgates, hfiltered⟩, ?_⟩
    rw [worstPsi_of_crosswise (coverMatch_pairData hopts _) hgates]
    rfl
  · intro h
    obtain ⟨hn, hswapped, rfl⟩ := h
    obtain ⟨hgates, hfiltered⟩ : (pairData c.opts c.weights site .coverBased (i, j)).Gates ∧
        ¬ Filtered (pairData c.opts c.weights site .coverBased (i, j)) :=
      (namesSwapped_iff hopts).mp hswapped
    have hscore := worstPsi_of_crosswise (coverMatch_pairData hopts _) hgates
    obtain ⟨rs, hrs, hr⟩ := (reports_coverBased_iff hweights hlast hij hj).mpr
      ⟨hn, hgates, hfiltered, rfl, rfl, rfl⟩
    rw [hscore] at hr
    exact ⟨rs, hrs, hr, rfl, rfl⟩

/-- **The meaning of the cover-based check**: a pair is reported when its names are
swapped in terms of sets, as long as every index of an argument is below the 32-bit mark. -/
theorem hasMeaning_iff (c : Checker XRat) (site : CallSite) (i j : Nat) (hopts : CoverMatch c.opts)
    (hweights : c.weights = none) (hlast : ∀ arg ∈ site.positionalArgNames, lastName arg ≠ [])
    (hij : i < j) (hj : j < site.positionalArgNames.length) :
    HasMeaning c site i j ↔
      site.positionalArgNames.length < 2 ^ 32 ∨ ¬ NamesSwapped site i j := by
  constructor
  · intro h
    by_cases hswapped : NamesSwapped site i j
    · have hreported := (h.reports _).mpr ⟨hswapped, rfl⟩
      exact .inl ((mem_results_iff hopts hweights hlast hij hj _).mp hreported).1
    · exact .inr hswapped
  · intro h
    refine ⟨fun r => ?_, fun existing hexisting => results_existing hopts hweights hlast hexisting⟩
    rw [mem_results_iff hopts hweights hlast hij hj]
    rcases h with hn | hnot
    · simp only [hn, true_and]
    · simp only [hnot, false_and, and_false]

end Calls

/-- Two arguments with a morpheme in common, in each other's place. -/
def redPets : CallSite where
  callDecl := ⟨bytes "foo", some [bytes "redCats", bytes "redDogs"]⟩
  positionalArgNames := [[bytes "red", bytes "dogs"], [bytes "redCats"]]

theorem coverMatch_defaults : CoverMatch {} :=
  DefaultMatch.coverMatch (defaultMatch_of_defaults rfl)

theorem redPets_hasMeaning_iff :
    HasMeaning (checkerOver {} none) redPets 0 1 ↔
      redPets.positionalArgNames.length < 2 ^ 32 ∨ ¬ NamesSwapped redPets 0 1 :=
  hasMeaning_iff (checkerOver {} none) redPets 0 1 coverMatch_defaults rfl (by decide) (by decide)
    (by decide)

/-- A transposition of parameters with names of their own is a swap of names. -/
theorem namesSwapped_permutedCall {names : List ByteString} {s : Equiv.Perm (Fin names.length)}
    {i j : Fin names.length} (func : ByteString) (hnames : DistinctNames names) (hij : i ≠ j)
    (hi : s i = j) (hj : s j = i)
    (hcard : (split (names.get i)).card = (split (names.get j)).card) :
    NamesSwapped (permutedCall func names s) i j := by
  let c : Checker XRat := checkerOver {} none
  have hgates : (pairData c.opts c.weights (permutedCall func names s) .coverBased (i, j)).Gates :=
    (gates_permutedCall (c := c) rfl hnames hij).mpr ⟨hi, hj, hcard⟩
  have hname (name : ByteString) : lastName [name] = name := rfl
  refine (namesSwapped_iff (c := c) coverMatch_defaults).mpr ⟨hgates, ?_⟩
  rw [Filtered, pairData_permutedCall]
  simp only [hname, hnames.not_twins, Bool.false_eq_true, or_self, not_false_eq_true]

/-- The first two of many parameters in each other's place. -/
def firstTwo (n : Nat) (hn : 2 ≤ n) : Equiv.Perm (Fin (manyNames n).length) :=
  Equiv.swap ⟨0, by rw [length_manyNames]; omega⟩ ⟨1, by rw [length_manyNames]; omega⟩

theorem namesSwapped_manyNames (n : Nat) (hn : 2 ≤ n) :
    NamesSwapped (permutedCall (bytes "foo") (manyNames n) (firstTwo n hn)) 0 1 := by
  have hcard (k : Fin (manyNames n).length) : (split ((manyNames n).get k)).card = 1 := by
    obtain ⟨m, -, hm⟩ := mem_manyNames (List.get_mem (manyNames n) k)
    rw [← hm, split_shortName, Finset.card_singleton]
  exact namesSwapped_permutedCall (bytes "foo") (manyNames_distinct n) (by simp)
    (Equiv.swap_apply_left _ _) (Equiv.swap_apply_right _ _) ((hcard _).trans (hcard _).symm)

theorem lastName_manyNames (n : Nat) (s : Equiv.Perm (Fin (manyNames n).length)) :
    ∀ arg ∈ (permutedCall (bytes "foo") (manyNames n) s).positionalArgNames, lastName arg ≠ [] := by
  intro arg harg
  obtain ⟨k, rfl⟩ := List.mem_ofFn.mp harg
  exact (manyNames_distinct n).get_ne_nil _

/-- With 2^32 arguments, none of more than seven bytes, the swap of the first two is not
reported. -/
theorem firstTwo_not_reported :
    (∀ name ∈ manyNames (2 ^ 32), name.length ≤ 7) ∧
    (∀ arg ∈ (permutedCall (bytes "foo") (manyNames (2 ^ 32))
        (firstTwo (2 ^ 32) (by decide))).positionalArgNames, lastName arg ≠ []) ∧
      ¬ HasMeaning (checkerOver {} none) (permutedCall (bytes "foo") (manyNames (2 ^ 32))
        (firstTwo (2 ^ 32) (by decide))) 0 1 := by
  refine ⟨manyNames_short, lastName_manyNames _ _, fun h => ?_⟩
  obtain ⟨rs, hrs, -⟩ := (h.reports _).mpr ⟨namesSwapped_manyNames _ _, rfl⟩
  have hn := (results_eq_ok.mp hrs).1.1
  rw [length_permutedCall, length_manyNames] at hn
  exact lt_irrefl _ hn

/-! ## Numeric suffixes -/

/-- The name ends in a decimal digit. -/
def endsInDigit (name : ByteString) : Bool := name.getLast?.any fun suf => isdigit (charToInt suf)

/-- Two names that end in a decimal digit and agree on everything before it. -/
def NumericTwins (one two : ByteString) : Prop :=
  endsInDigit one = true ∧ endsInDigit two = true ∧ one.dropLast = two.dropLast

/-- Only the first of two names that agree before their last character ends in a digit. -/
def HalfTwins (one two : ByteString) : Prop :=
  endsInDigit one = true ∧ endsInDigit two = false ∧ one.dropLast = two.dropLast

theorem suffixTwins_iff (one two : ByteString) :
    suffixTwins one two = true ↔ NumericTwins one two ∨ HalfTwins one two := by
  have hdigit : suffixTwins one two = true ↔ endsInDigit one = true ∧ one.dropLast = two.dropLast := by
    rw [suffixTwins, Bool.and_eq_true, beq_iff_eq]
    rfl
  rw [hdigit, NumericTwins, HalfTwins]
  cases endsInDigit two <;> simp

section Suffixes
variable {F : Type} [FloatArith F]

/-- **The suffix filters**, on a pair that passes all tests before them: they keep back the
numeric twins and no other pair exactly when no pair is kept back for its first name alone,
and the run ends well. -/
theorem twins_suppressed_iff (c : Checker F) (site : CallSite) (whichCheck : Check) (i j : Nat)
    (hweights : c.weights = none) (hmode : whichCheck ≠ .statsBased) (hij : i < j)
    (hj : j < site.positionalArgNames.length) (hlast : lastName (argNames site i) ≠ [])
    (hgates : (pairData c.opts c.weights site whichCheck (i, j)).Gates) :
    (¬ ReportsPair c site whichCheck i j ↔
        NumericTwins (paramName site i) (paramName site j) ∨
          NumericTwins (lastName (argNames site i)) (lastName (argNames site j))) ↔
      (NumericTwins (paramName site i) (paramName site j) ∨
          NumericTwins (lastName (argNames site i)) (lastName (argNames site j))) ∨
        (site.positionalArgNames.length < 2 ^ 32 ∧ NoTrips c site whichCheck ∧
          ¬ HalfTwins (paramName site i) (paramName site j) ∧
          ¬ HalfTwins (lastName (argNames site i)) (lastName (argNames site j))) := by
  let d := pairData c.opts c.weights site whichCheck (i, j)
  have hrows : d.rows = none := by
    show c.weights.map _ = none
    rw [hweights, Option.map_none]
  have htrips : ¬ d.Trips := fun htrips => hlast htrips.2.2.2
  have hruns : d.coverRuns := by
    refine ⟨gates_named hgates, ?_⟩
    cases whichCheck with
    | all => exact .inl rfl
    | coverBased => exact .inr rfl
    | statsBased => exact absurd rfl hmode
  have hvetoed : ¬ d.vetoed = true := by
    rw [PairData.vetoed, PairData.statsScore, hrows]
    simp
  have hverdict : (∃ r, d.verdict = some r) ↔
      ¬ suffixTwins (paramName site i) (paramName site j) = true ∧
        ¬ suffixTwins (lastName (argNames site i)) (lastName (argNames site j)) = true := by
    simp only [verdict_without_rows htrips hrows, exists_and_left, exists_eq, and_true]
    rw [covers_iff]
    constructor
    · intro h
      obtain ⟨-, ⟨-, hparams, -, hargs⟩, -⟩ := h
      exact ⟨hparams, hargs⟩
    · intro h
      exact ⟨hruns, ⟨hgates, h.1, hlast, h.2⟩, hvetoed⟩
  rw [reportsPair_iff hij hj, hverdict, suffixTwins_iff, suffixTwins_iff]
  by_cases htwins : NumericTwins (paramName site i) (paramName site j) ∨
      NumericTwins (lastName (argNames site i)) (lastName (argNames site j))
  · refine iff_of_true (iff_of_true (fun h => ?_) htwins) (.inl htwins)
    rcases htwins with hparams | hargs
    · exact h.2.1 (.inl hparams)
    · exact h.2.2 (.inl hargs)
  · obtain ⟨hparams, hargs⟩ := not_or.mp htwins
    simp only [hparams, hargs, false_or, or_self, iff_false, not_not, and_assoc]

end Suffixes

/-- The argument names of `suffixedCall` are those of its parameters, whose first name
alone ends in a digit. -/
theorem suffixedCall_suppressed_iff :
    (pairData (F := XRat) {} none suffixedCall .coverBased (0, 1)).Gates ∧
      ((¬ ReportsPair (checkerOver {} none : Checker XRat) suffixedCall .coverBased 0 1 ↔
          NumericTwins (bytes "item1") (bytes "itemx") ∨
            NumericTwins (bytes "itemx") (bytes "Item1")) ↔
        (NumericTwins (bytes "item1") (bytes "itemx") ∨
            NumericTwins (bytes "itemx") (bytes "Item1")) ∨
          (suffixedCall.positionalArgNames.length < 2 ^ 32 ∧
            NoTrips (checkerOver {} none : Checker XRat) suffixedCall .coverBased ∧
            ¬ HalfTwins (bytes "item1") (bytes "itemx") ∧
            ¬ HalfTwins (bytes "itemx") (bytes "Item1"))) := by
  have hgates : (pairData (F := XRat) {} none suffixedCall .coverBased (0, 1)).Gates := by
    decide +kernel
  exact ⟨hgates, twins_suppressed_iff (checkerOver {} none) suffixedCall .coverBased 0 1 rfl
    (by decide) (by decide) (by decide) (by decide) hgates⟩

/-- The swap of `item1` and `itemx` is not reported, and neither pair of names are twins. -/
theorem suffixedCall_not_reported :
    (pairData (F := XRat) {} none suffixedCall .coverBased (0, 1)).Gates ∧
      ¬ (¬ ReportsPair (checkerOver {} none : Checker XRat) suffixedCall .coverBased 0 1 ↔
        NumericTwins (bytes "item1") (bytes "itemx") ∨
          NumericTwins (bytes "itemx") (bytes "Item1")) := by
  refine ⟨by decide +kernel, fun h => ?_⟩
  have hresults : (checkerOver {} none : Checker XRat).results suffixedCall .coverBased = .ok [] := by
    decide +kernel
  have hnot : ¬ ReportsPair (checkerOver {} none : Checker XRat) suffixedCall .coverBased 0 1 := by
    intro hreports
    obtain ⟨rs, hrs, r, hr, -⟩ := hreports
    rw [hresults] at hrs
    cases hrs
    cases hr
  rcases h.mp hnot with htwins | htwins
  · exact absurd htwins.2.1 (by decide)
  · exact absurd htwins.1 (by decide)

/-! ## The morphemes of a result -/

/-- The morphemes of a result are those of the other parameter alone. -/
def FromOtherParam (site : CallSite) (r : Result XRat) : Prop :=
  (∀ morph ∈ r.morphemes1, morph ∈ split (paramName site (r.arg2 - 1)) ∧
      morph ∉ split (paramName site (r.arg1 - 1))) ∧
    ∀ morph ∈ r.morphemes2, morph ∈ split (paramName site (r.arg1 - 1)) ∧
      morph ∉ split (paramName site (r.arg2 - 1))

section Morphemes
variable {c : Checker XRat} {site : CallSite} {whichCheck : Check} {i j : Nat}

/-- The morphemes of a cover-based result are those that the check has covered when the two
arguments have as many morphemes in common as the two parameters. -/
theorem fromOtherParam_iff (hopts : DefaultThresholds c.opts)
    (hcovers : Covers (pairData c.opts c.weights site whichCheck (i, j))) :
    FromOtherParam site (pairData c.opts c.weights site whichCheck (i, j)).coverResult ↔
      (argMorphemes (argNames site i) ∩ argMorphemes (argNames site j)).card =
        (split (paramName site i) ∩ split (paramName site j)).card := by
  have hgates := (candidate_eq_true.mp hcovers.2.1).1
  have hmatch : CoverMatch (pairData c.opts c.weights site whichCheck (i, j)).opts :=
    (defaultMatch_of_defaults (pairData_defaults hopts (i, j))).coverMatch
  obtain ⟨hsizes, -, hcovers1, hcovers2⟩ := (gates_iff_crosswise hmatch).mp hgates
  have hsubset : FromOtherParam site (pairData c.opts c.weights site whichCheck (i, j)).coverResult ↔
      argMorphemes (argNames site i) \ argMorphemes (argNames site j) ⊆
          split (paramName site j) \ split (paramName site i) ∧
        argMorphemes (argNames site j) \ argMorphemes (argNames site i) ⊆
          split (paramName site i) \ split (paramName site j) := by
    simp only [Finset.subset_iff, Finset.mem_sdiff (s := split _)]
    rfl
  have hinter1 := sdiff_subset_iff_card_inter hcovers1 (hsizes.1.symm.trans hsizes.2.2)
  have hinter2 := sdiff_subset_iff_card_inter hcovers2 (hsizes.2.2.trans hsizes.2.1)
  rw [Finset.inter_comm (split _)] at hinter1
  rw [Finset.inter_comm (argMorphemes _)] at hinter2
  rw [hsubset]
  exact (and_congr hinter1 hinter2).trans (and_self_iff)

/-- **The morphemes of a cover-based result** come from the other parameter alone exactly
when, in every pair that is reported, the arguments overlap as much as the parameters. -/
theorem fromOtherParam_results_iff (c : Checker XRat) (site : CallSite) (whichCheck : Check)
    (hopts : DefaultThresholds c.opts) :
    (∀ rs, c.results site whichCheck = .ok rs → ∀ r ∈ rs,
        (∃ score vetted, r.score = .parameterNameBased score vetted) → FromOtherParam site r) ↔
      (site.positionalArgNames.length < 2 ^ 32 → NoTrips c site whichCheck →
        ∀ i j, i < j → j < site.positionalArgNames.length →
          Covers (pairData c.opts c.weights site whichCheck (i, j)) →
          (argMorphemes (argNames site i) ∩ argMorphemes (argNames site j)).card =
            (split (paramName site i) ∩ split (paramName site j)).card) := by
  constructor
  · intro h hn hsafe i j hij hj hcovers
    have hverdict := (verdict_eq_some_iff (hsafe i j hij hj)).mpr (.inl ⟨hcovers, rfl⟩)
    exact (fromOtherParam_iff hopts hcovers).mp
      (h _ (results_of_noTrips hn hsafe) _ (mem_verdicts.mpr ⟨i, j, hij, hj, hverdict⟩) ⟨_, _, rfl⟩)
  · intro h rs hrs r hr hscore
    obtain ⟨⟨hn, hsafe⟩, rfl⟩ := results_eq_ok.mp hrs
    obtain ⟨i, j, hij, hj, hverdict⟩ := mem_verdicts.mp hr
    rcases verdict_eq_some hverdict with ⟨hcovers, rfl⟩ | ⟨-, -, -, hstats⟩
    · exact (fromOtherParam_iff hopts hcovers).mpr (h hn hsafe i j hij hj hcovers)
    · obtain ⟨rows, morph1, morph2, psi1, psi2, -, rfl⟩ := statsOutcome_eq_some.mp hstats
      obtain ⟨score, vetted, hscore⟩ := hscore
      cases hscore

end Morphemes

/-- Parameters with a morpheme in common, and arguments without one. -/
def unevenCall : CallSite where
  callDecl := ⟨bytes "foo", some [bytes "a_x", bytes "b_x"]⟩
  positionalArgNames := [[bytes "b_y"], [bytes "a_z"]]

theorem redPets_fromOtherParam_iff :
    (∀ rs, (checkerOver {} none).results redPets .coverBased = .ok rs → ∀ r ∈ rs,
        (∃ score vetted, r.score = .parameterNameBased score vetted) → FromOtherParam redPets r) ↔
      (redPets.positionalArgNames.length < 2 ^ 32 →
        NoTrips (checkerOver {} none : Checker XRat) redPets .coverBased →
        ∀ i j, i < j → j < redPets.positionalArgNames.length →
          Covers (pairData (F := XRat) {} none redPets .coverBased (i, j)) →
          (argMorphemes (argNames redPets i) ∩ argMorphemes (argNames redPets j)).card =
            (split (paramName redPets i) ∩ split (paramName redPets j)).card) :=
  fromOtherParam_results_iff (checkerOver {} none) redPets .coverBased rfl

/-- The result names `y` and `z`, which no parameter has. -/
theorem unevenCall_morphemes :
    ¬ ∀ rs, (checkerOver {} none).results unevenCall .coverBased = .ok rs → ∀ r ∈ rs,
      (∃ score vetted, r.score = .parameterNameBased score vetted) → FromOtherParam unevenCall r := by
  intro h
  have hresults : (checkerOver {} none : Checker XRat).results unevenCall .coverBased =
      .ok [{ arg1 := 1, arg2 := 2, morphemes1 := {bytes "y", bytes "b"},
             morphemes2 := {bytes "z", bytes "a"}, score := .parameterNameBased (.fin 100) none }] := by
    decide +kernel
  have hmorphemes := (h _ hresults _ List.mem_cons_self ⟨_, _, rfl⟩).1 (bytes "y") (by decide)
  exact absurd hmorphemes.1 (by decide +kernel)

end SwapDetector.Proofs.CoverBased
