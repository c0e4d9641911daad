import SwapDetector.Proofs.Locality

/-! # Letter case

Apart from the suffix filters, a pair is judged by the morpheme sets of its names,
which writing the names in lowercase does not change. The filters compare the names
as they are written: two names may become twins when they are lowercased.
-/
namespace SwapDetector.Proofs.LetterCase
open SwapDetector.Base.ExactFloat SwapDetector.Base.Exec SwapDetector.Base.OrderedSet
open SwapDetector.Model.Bytes SwapDetector.Model.IdentifierSplitting SwapDetector.Model.Types
open SwapDetector.Model.StatsDatabase SwapDetector.Model.SwappedArgChecker
open SwapDetector.Spec.Judgement SwapDetector.Proofs.Assertions SwapDetector.Proofs.Locality
open SwapDetector.Proofs.StatisticsBased

variable {F : Type} [FloatArith F]

/-! ## Pairs with the same morpheme sets -/

/-- Two pairs that differ in the spelling of their names only. -/
structure SameSets (d d' : PairData F) : Prop where
  opts : d'.opts = d.opts
  whichCheck : d'.whichCheck = d.whichCheck
  pos1 : d'.pos1 = d.pos1
  pos2 : d'.pos2 = d.pos2
  rows : d'.rows = d.rows
  param1 : split d'.param1 = split d.param1
  param2 : split d'.param2 = split d.param2
  arg1 : argMorphemes d'.arg1 = argMorphemes d.arg1
  arg2 : argMorphemes d'.arg2 = argMorphemes d.arg2
  named : d'.Named ↔ d.Named

namespace SameSets
variable {d d' : PairData F}

theorem unique1 (h : SameSets d d') : d'.unique1 = d.unique1 := by
  rw [PairData.unique1, PairData.unique1, h.arg1, h.arg2]

theorem unique2 (h : SameSets d d') : d'.unique2 = d.unique2 := by
  rw [PairData.unique2, PairData.unique2, h.arg1, h.arg2]

theorem gates (h : SameSets d d') : d'.Gates ↔ d.Gates := by
  rw [PairData.Gates, PairData.Gates, h.opts, h.param1, h.param2, h.arg1, h.arg2]

theorem coverRuns (h : SameSets d d') : d'.coverRuns ↔ d.coverRuns := by
  rw [PairData.coverRuns, PairData.coverRuns, h.named, h.whichCheck]

theorem statsScore (h : SameSets d d') : d'.statsScore = d.statsScore := by
  rw [PairData.statsScore, PairData.statsScore, h.rows, h.unique1, h.unique2]

theorem vetoed (h : SameSets d d') : d'.vetoed = d.vetoed := by
  rw [PairData.vetoed, PairData.vetoed, h.statsScore, h.opts]

theorem coverResult (h : SameSets d d') : d'.coverResult = d.coverResult := by
  have hpsi : d'.worstPsi = d.worstPsi := by
    unfold PairData.worstPsi
    rw [h.unique1, h.unique2, h.param1, h.param2]
  unfold PairData.coverResult
  rw [h.pos1, h.pos2, h.unique1, h.unique2, h.statsScore, hpsi]

theorem statsPart (h : SameSets d d') : d'.statsPart = d.statsPart := by
  have hswap : d'.swapOf = d.swapOf := by
    funext rows morph1 morph2
    unfold PairData.swapOf
    rw [h.opts, h.pos1, h.pos2, h.unique1, h.unique2]
  have hruns : d'.statsRuns ↔ d.statsRuns := by
    rw [PairData.statsRuns, PairData.statsRuns, h.whichCheck]
  have houtcome : d'.statsOutcome = d.statsOutcome := by
    unfold PairData.statsOutcome
    rw [h.rows, h.unique1, h.unique2, hswap]
  unfold PairData.statsPart
  by_cases hstats : d.statsRuns
  · rw [if_pos hstats, if_pos (hruns.mpr hstats), houtcome]
  · rw [if_neg hstats, if_neg (mt hruns.mp hstats)]

theorem unusable (h : SameSets d d') : d'.Unusable ↔ d.Unusable := by
  rw [PairData.Unusable, PairData.Unusable, h.named, h.param1, h.param2]

end SameSets

/-! ## Verdicts -/

section Verdict
variable {d d' : PairData F}

/-- A result of the parameter names is not one of the statistics. -/
theorem coverResult_ne_statsPart : d.statsPart ≠ some d'.coverResult := by
  intro h
  unfold PairData.statsPart at h
  split at h
  · obtain ⟨rows, morph1, morph2, psi1, psi2, -, hr⟩ := statsOutcome_eq_some.mp h
    have hscore := congrArg Result.score hr
    simp [PairData.coverResult, statsResult] at hscore
  · cases h

/-- Pairs with the same morpheme sets have the same verdict when the cover-based check
reports both or neither of them. -/
theorem verdict_eq_iff (h : SameSets d d') (htrips : ¬ d.Trips) (htrips' : ¬ d'.Trips) :
    d'.verdict = d.verdict ↔ (Covers d' ↔ Covers d) := by
  have hrest : (if d'.Unusable then none else d'.statsPart) =
      if d.Unusable then none else d.statsPart := if_congr h.unusable rfl h.statsPart
  have hne (r : PairData F) : some r.coverResult ≠ if d.Unusable then none else d.statsPart := by
    split
    · simp
    · exact coverResult_ne_statsPart.symm
  rw [verdict_of_not_trips htrips, verdict_of_not_trips htrips', hrest, h.coverResult]
  by_cases hc : Covers d
  · by_cases hc' : Covers d'
    · rw [if_pos hc, if_pos hc']
      exact iff_of_true rfl (iff_of_true hc' hc)
    · rw [if_pos hc, if_neg hc']
      exact iff_of_false (hne d).symm fun hiff => hc' (hiff.mpr hc)
  · by_cases hc' : Covers d'
    · rw [if_neg hc, if_pos hc']
      exact iff_of_false (hne d) fun hiff => hc (hiff.mp hc')
    · rw [if_neg hc, if_neg hc']
      exact iff_of_true rfl (iff_of_false hc' hc)

end Verdict

/-! ## Lowercase names -/

/-- A digit has no lowercase form. -/
theorem isdigit_lowercase : ∀ c : Byte, isdigit (charToInt c) = true →
    isdigit (charToInt (intToChar (tolower (ucharToInt c)))) = true := by
  decide +kernel

/-- Twins stay twins. -/
theorem suffixTwins_lowercase {one two : ByteString} (h : suffixTwins one two = true) :
    suffixTwins (lowercase one) (lowercase two) = true := by
  unfold suffixTwins lowercase at *
  rw [Bool.and_eq_true] at h ⊢
  obtain ⟨hdigit, hprefix⟩ := h
  rw [List.getLast?_map, ← List.map_dropLast, ← List.map_dropLast, beq_iff_eq.mp hprefix]
  refine ⟨?_, beq_iff_eq.mpr rfl⟩
  cases hlast : one.getLast? with
  | none => rw [hlast] at hdigit; cases hdigit
  | some c =>
    rw [hlast] at hdigit
    exact isdigit_lowercase c hdigit

theorem lastName_lowercase (arg : List ByteString) :
    lastName (arg.map lowercase) = lowercase (lastName arg) := by
  unfold lastName
  rw [List.getLast?_map]
  cases arg.getLast? <;> rfl

theorem argMorphemes_lowercase {arg : List ByteString}
    (h : ∀ name ∈ arg, split name = split (lowercase name)) :
    argMorphemes (arg.map lowercase) = argMorphemes arg := by
  unfold argMorphemes
  rw [List.foldl_map]
  exact List.foldl_ext _ _ _ fun morphs name hname => by rw [h name hname]

/-- The call site with every parameter name and every component in lowercase. -/
def lowerSite (site : CallSite) : CallSite where
  callDecl := { site.callDecl with
    paramNames := site.callDecl.paramNames.map fun names => names.map lowercase }
  positionalArgNames := site.positionalArgNames.map fun arg => arg.map lowercase

/-- Every name of the call site has the same words in lowercase. -/
structure SameWords (site : CallSite) : Prop where
  params : ∀ names, site.callDecl.paramNames = some names →
    ∀ name ∈ names, split name = split (lowercase name)
  args : ∀ arg ∈ site.positionalArgNames, ∀ name ∈ arg, split name = split (lowercase name)

section Site
variable {opts : CheckerConfiguration F} {weights : Option (List (Row F))} {site : CallSite}
  {whichCheck : Check} {p : Nat × Nat}

/-- A pair with its names in lowercase. -/
def lowerPair (d : PairData F) : PairData F :=
  { d with
    arg1 := d.arg1.map lowercase
    arg2 := d.arg2.map lowercase
    param1 := lowercase d.param1
    param2 := lowercase d.param2 }

theorem getParamName_lowerSite (site : CallSite) (pos : Nat) :
    getParamName (lowerSite site) pos = (getParamName site pos).map lowercase := by
  unfold getParamName lowerSite
  cases site.callDecl.paramNames with
  | none => rfl
  | some names =>
    simp only [Option.map_some, List.length_map, List.getElem?_map]
    split <;> rfl

theorem pairData_lowerSite : pairData opts weights (lowerSite site) whichCheck p =
    lowerPair (pairData opts weights site whichCheck p) := by
  have hparam (pos : Nat) : (getParamName (lowerSite site) pos).getD [] =
      lowercase ((getParamName site pos).getD []) := by
    rw [getParamName_lowerSite]
    cases getParamName site pos <;> rfl
  have harg (pos : Nat) : (lowerSite site).positionalArgNames[pos]?.getD [] =
      (site.positionalArgNames[pos]?.getD []).map lowercase := by
    rw [lowerSite, List.getElem?_map]
    cases site.positionalArgNames[pos]? <;> rfl
  simp only [pairData, lowerPair, hparam, harg]
  rfl

theorem split_paramName (h : SameWords site) (pos : Nat) :
    split (lowercase ((getParamName site pos).getD [])) = split ((getParamName site pos).getD []) := by
  cases hname : getParamName site pos with
  | none => rfl
  | some name =>
    unfold getParamName at hname
    cases hnames : site.callDecl.paramNames with
    | none => simp [hnames] at hname
    | some names =>
      simp only [hnames] at hname
      split at hname
      · cases hname
      · exact (h.params names hnames name (List.mem_of_getElem? hname)).symm

theorem argMorphemes_arg (h : SameWords site) (pos : Nat) :
    argMorphemes ((site.positionalArgNames[pos]?.getD []).map lowercase) =
      argMorphemes (site.positionalArgNames[pos]?.getD []) := by
  cases harg : site.positionalArgNames[pos]? with
  | none => rfl
  | some arg => exact argMorphemes_lowercase (h.args arg (List.mem_of_getElem? harg))

theorem sameSets_lowerPair (h : SameWords site) :
    SameSets (pairData opts weights site whichCheck p)
      (lowerPair (pairData opts weights site whichCheck p)) where
  opts := rfl
  whichCheck := rfl
  pos1 := rfl
  pos2 := rfl
  rows := rfl
  param1 := split_paramName h p.1
  param2 := split_paramName h p.2
  arg1 := argMorphemes_arg h p.1
  arg2 := argMorphemes_arg h p.2
  named := by simp [PairData.Named, lowerPair]

end Site

/-! ## Results -/

/-- The suffix filters do the same for a pair and for the pair in lowercase, and do not
fail on it. -/
def FiltersIgnoreCase (d : PairData F) : Prop :=
  suffixTwins d.param1 d.param2 = true ∨
    lastName d.arg1 ≠ [] ∧
      (suffixTwins (lastName d.arg1) (lastName d.arg2) = true ∨ d.vetoed = true ∨
        suffixTwins (lowercase d.param1) (lowercase d.param2) = false ∧
          suffixTwins (lowercase (lastName d.arg1)) (lowercase (lastName d.arg2)) = false)

/-- Lowercasing makes twins and separates none, so the filters are passed by both pairs or
by neither as soon as no twins are made where they decide. -/
private theorem filters_iff {runs gates ptwins ptwins' unnamed atwins atwins' veto : Prop}
    (hp : ptwins → ptwins') (ha : atwins → atwins') :
    (¬ (runs ∧ gates ∧ ¬ ptwins ∧ unnamed) ∧ ¬ (runs ∧ gates ∧ ¬ ptwins' ∧ unnamed) ∧
      ((runs ∧ (gates ∧ ¬ ptwins' ∧ ¬ unnamed ∧ ¬ atwins') ∧ ¬ veto) ↔
        (runs ∧ (gates ∧ ¬ ptwins ∧ ¬ unnamed ∧ ¬ atwins) ∧ ¬ veto))) ↔
      (runs → gates → ptwins ∨ ¬ unnamed ∧ (atwins ∨ veto ∨ ¬ ptwins' ∧ ¬ atwins')) := by
  by_cases hruns : runs
  · by_cases hgates : gates
    · simp only [hruns, hgates, true_and, forall_const]
      by_cases hptwins : ptwins
      · simp [hptwins, hp hptwins]
      · by_cases hatwins : atwins
        · simp only [hptwins, hatwins, ha hatwins, not_true, not_false_eq_true, true_and, and_false,
            false_and, true_or, and_true, false_or]
          tauto
        · simp only [hptwins, hatwins, not_false_eq_true, true_and, and_true, false_or]
          tauto
    · simp [hgates]
  · simp [hruns]

theorem trips_iff {d : PairData F} : d.Trips ↔ d.coverRuns ∧ d.Gates ∧
    ¬ suffixTwins d.param1 d.param2 = true ∧ lastName d.arg1 = [] := by
  rw [PairData.Trips, Bool.not_eq_true]

/-- A pair and the pair in lowercase are judged alike exactly when the filters ignore
their case. -/
theorem pair_lowercase_iff {d : PairData F} (h : SameSets d (lowerPair d)) :
    (¬ d.Trips ∧ ¬ (lowerPair d).Trips ∧ (lowerPair d).verdict = d.verdict) ↔
      (d.coverRuns → d.Gates → FiltersIgnoreCase d) := by
  have hlast1 : lastName (lowerPair d).arg1 = lowercase (lastName d.arg1) :=
    lastName_lowercase d.arg1
  have hlast2 : lastName (lowerPair d).arg2 = lowercase (lastName d.arg2) :=
    lastName_lowercase d.arg2
  have hparams : suffixTwins (lowerPair d).param1 (lowerPair d).param2 =
      suffixTwins (lowercase d.param1) (lowercase d.param2) := rfl
  calc (¬ d.Trips ∧ ¬ (lowerPair d).Trips ∧ (lowerPair d).verdict = d.verdict)
      ↔ (¬ d.Trips ∧ ¬ (lowerPair d).Trips ∧ (Covers (lowerPair d) ↔ Covers d)) :=
        and_congr_right fun hsafe => and_congr_right fun hsafe' => verdict_eq_iff h hsafe hsafe'
    _ ↔ (d.coverRuns → d.Gates → suffixTwins d.param1 d.param2 = true ∨
        ¬ lastName d.arg1 = [] ∧ (suffixTwins (lastName d.arg1) (lastName d.arg2) = true ∨
          d.vetoed = true ∨ ¬ suffixTwins (lowercase d.param1) (lowercase d.param2) = true ∧
            ¬ suffixTwins (lowercase (lastName d.arg1)) (lowercase (lastName d.arg2)) = true)) := by
        rw [trips_iff, trips_iff, covers_iff, covers_iff, h.coverRuns, h.gates, h.vetoed, hparams,
          hlast1, hlast2, lowercase_eq_nil]
        exact filters_iff suffixTwins_lowercase suffixTwins_lowercase
    _ ↔ (d.coverRuns → d.Gates → FiltersIgnoreCase d) := by
        rw [Bool.not_eq_true (suffixTwins (lowercase d.param1) _), Bool.not_eq_true]
        rfl

/-- **Letter case**: a call and the same call in lowercase return the same results exactly
when the suffix filters ignore the case of every pair that reaches them. -/
theorem results_lowerSite_iff (c : Checker F) (site : CallSite) (whichCheck : Check)
    (hwords : SameWords site) :
    (∃ rs, c.results site whichCheck = .ok rs ∧ c.results (lowerSite site) whichCheck = .ok rs) ↔
      site.positionalArgNames.length < 2 ^ 32 ∧
        ∀ i j, i < j → j < site.positionalArgNames.length →
          (pairData c.opts c.weights site whichCheck (i, j)).coverRuns →
          (pairData c.opts c.weights site whichCheck (i, j)).Gates →
          FiltersIgnoreCase (pairData c.opts c.weights site whichCheck (i, j)) := by
  have hlen : (lowerSite site).positionalArgNames.length = site.positionalArgNames.length :=
    List.length_map _
  rw [same_results_iff hlen]
  refine and_congr_right fun _ => forall₄_congr fun i j _ _ => ?_
  rw [pairData_lowerSite]
  exact pair_lowercase_iff (sameSets_lowerPair hwords)

/-- Two swapped arguments; the names are twins but for the case of a letter. -/
def horseCall : CallSite where
  callDecl := ⟨bytes "foo", some [bytes "Horses1", bytes "horses2"]⟩
  positionalArgNames := [[bytes "horses2"], [bytes "Horses1"]]

theorem horseCall_sameWords : SameWords horseCall where
  params := by
    intro names hnames
    obtain rfl := Option.some.inj hnames
    decide +kernel
  args := by decide +kernel

theorem horseCall_lowerSite_iff :
    (∃ rs, (checkerOver {} none : Checker XRat).results horseCall .coverBased = .ok rs ∧
      (checkerOver {} none : Checker XRat).results (lowerSite horseCall) .coverBased = .ok rs) ↔
      horseCall.positionalArgNames.length < 2 ^ 32 ∧
        ∀ i j, i < j → j < horseCall.positionalArgNames.length →
          (pairData (F := XRat) {} none horseCall .coverBased (i, j)).coverRuns →
          (pairData (F := XRat) {} none horseCall .coverBased (i, j)).Gates →
          FiltersIgnoreCase (pairData (F := XRat) {} none horseCall .coverBased (i, j)) :=
  results_lowerSite_iff (checkerOver {} none) horseCall .coverBased horseCall_sameWords

/-- The swap is reported on the call as it is written only. -/
theorem horseCall_lost :
    SameWords horseCall ∧
      (checkerOver {} none : Checker XRat).results horseCall .coverBased =
        .ok [{ arg1 := 1, arg2 := 2, morphemes1 := {bytes "horses2"},
               morphemes2 := {bytes "horses1"}, score := .parameterNameBased (.fin 100) none }] ∧
      (checkerOver {} none : Checker XRat).results (lowerSite horseCall) .coverBased = .ok [] :=
  ⟨horseCall_sameWords, by decide +kernel, by decide +kernel⟩

end SwapDetector.Proofs.LetterCase
