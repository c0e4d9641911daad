import SwapDetector.Proofs.FixedCalls

/-! # Mirrored calls

Exchanging two arguments together with their parameters leaves the gates and the
score of the cover-based check as they are. The suffix filters do not take part in
this symmetry: they look for the digit at the end of the first name only.
-/
namespace SwapDetector.Proofs.MirroredCalls
open SwapDetector.Base.ExactFloat SwapDetector.Base.ExactFloat.XRat SwapDetector.Base.Permutations
open SwapDetector.Model.Bytes SwapDetector.Model.IdentifierSplitting SwapDetector.Model.Types
open SwapDetector.Model.SwappedArgChecker SwapDetector.Spec.Judgement
open SwapDetector.Proofs.Assertions SwapDetector.Proofs.Locality SwapDetector.Proofs.MatchValues
open SwapDetector.Proofs.FixedCalls

/-! ## Pairs -/

section Pair
variable {d : PairData XRat}

/-- The pair with its arguments and its parameters exchanged. -/
def mirror (d : PairData XRat) : PairData XRat :=
  { d with arg1 := d.arg2, arg2 := d.arg1, param1 := d.param2, param2 := d.param1 }

theorem gates_of_mirror (h : (mirror d).Gates) : d.Gates := by
  obtain ⟨⟨hparams, hargs, hboth⟩, ⟨hparam1, hparam2, harg1, harg2⟩, hexisting1, hexisting2, hswapped1,
    hswapped2⟩ := h
  refine ⟨⟨hparams.symm, hargs.symm, hparams.symm.trans (hboth.trans hargs)⟩,
    ⟨hparam2, hparam1, harg2, harg1⟩, hexisting2, hexisting1, hswapped2, hswapped1⟩

theorem gates_mirror : (mirror d).Gates ↔ d.Gates :=
  ⟨gates_of_mirror, fun h => gates_of_mirror (d := mirror d) h⟩

/-- A match quotient is a number. -/
theorem psi_eq_fin (p q : Prop) [Decidable p] [Decidable q] :
    ∃ psi, truth p / (truth q + .fin (1 / 100)) = .fin psi := by
  unfold truth
  by_cases hp : p <;> by_cases hq : q <;>
    simp only [hp, hq, if_true, if_false, fin_add_fin] <;>
    exact ⟨_, fin_div_fin (by norm_num)⟩

theorem worstPsi_mirror (h : d.Gates) : (mirror d).worstPsi = d.worstPsi := by
  obtain ⟨hparam1, hparam2, -⟩ := h.unique
  obtain ⟨psi1, hpsi1⟩ := psi_eq_fin (split d.param2 \ split d.param1 ⊆ d.unique1)
    (¬ Disjoint (split d.param2 \ split d.param1) d.unique2)
  obtain ⟨psi2, hpsi2⟩ := psi_eq_fin (split d.param1 \ split d.param2 ⊆ d.unique2)
    (¬ Disjoint (split d.param1 \ split d.param2) d.unique1)
  have hworst : d.worstPsi = stdMin (.fin psi1) (.fin psi2) := by
    unfold PairData.worstPsi
    simp only [matchValue_optimistic _ hparam1, matchValue_optimistic _ hparam2,
      matchValue_pessimistic _ hparam1, matchValue_pessimistic _ hparam2, ofRat_eq, hpsi1, hpsi2]
  have hmirror : (mirror d).worstPsi = stdMin (.fin psi2) (.fin psi1) := by
    show stdMin
      (matchValue d.unique2 (split d.param1 \ split d.param2) .pessimistic /
        (matchValue d.unique1 (split d.param1 \ split d.param2) .optimistic +
          FloatArith.ofRat (1 / 100)))
      (matchValue d.unique1 (split d.param2 \ split d.param1) .pessimistic /
        (matchValue d.unique2 (split d.param2 \ split d.param1) .optimistic +
          FloatArith.ofRat (1 / 100))) = _
    simp only [matchValue_optimistic _ hparam1, matchValue_optimistic _ hparam2,
      matchValue_pessimistic _ hparam1, matchValue_pessimistic _ hparam2, ofRat_eq, hpsi1, hpsi2]
  rw [hworst, hmirror, stdMin_comm_fin]

/-- One of the two suffix filters takes the pair out. -/
def Filtered (d : PairData XRat) : Prop :=
  suffixTwins d.param1 d.param2 = true ∨ suffixTwins (lastName d.arg1) (lastName d.arg2) = true

/-- Without statistics, the verdict of the cover-based mode on a pair. -/
theorem verdict_coverBased_iff {r : Result XRat} (hmode : d.whichCheck = .coverBased)
    (hrows : d.rows = none) (hname : lastName d.arg1 ≠ []) :
    d.verdict = some r ↔ d.Gates ∧ ¬ Filtered d ∧ r = d.coverResult := by
  have hvetoed : d.vetoed = false := by rw [PairData.vetoed, PairData.statsScore, hrows]; rfl
  have htrips : ¬ d.Trips := fun htrips => hname htrips.2.2.2
  have hruns : d.Gates → d.coverRuns := fun hgates => ⟨gates_named hgates, .inr hmode⟩
  rw [verdict_without_rows htrips hrows, covers_iff, hvetoed, Filtered]
  simp only [hname, not_false_eq_true, true_and, Bool.false_eq_true, and_true]
  tauto

end Pair

/-! ## Call sites -/

/-- The call site with the arguments and the parameters at two positions exchanged. -/
def mirrorSite (site : CallSite) (i j : Nat) : CallSite where
  callDecl := { site.callDecl with
    paramNames := site.callDecl.paramNames.map fun names => exchange names i j }
  positionalArgNames := exchange site.positionalArgNames i j

/-- A call reports a pair with these morphemes and this score. -/
def Reports (c : Checker XRat) (site : CallSite) (whichCheck : Check) (i j : Nat)
    (morphemes1 morphemes2 : Finset ByteString) (score : ScoreCard XRat) : Prop :=
  ∃ rs, c.results site whichCheck = .ok rs ∧ ⟨i + 1, j + 1, morphemes1, morphemes2, score⟩ ∈ rs

section Calls
variable {c : Checker XRat} {site : CallSite} {whichCheck : Check} {i j : Nat}

theorem reports_iff (hsafe : NoTrips c site whichCheck) (hij : i < j)
    (hj : j < site.positionalArgNames.length) {morphemes1 morphemes2 : Finset ByteString}
    {score : ScoreCard XRat} : Reports c site whichCheck i j morphemes1 morphemes2 score ↔
      site.positionalArgNames.length < 2 ^ 32 ∧
        (pairData c.opts c.weights site whichCheck (i, j)).verdict =
          some ⟨i + 1, j + 1, morphemes1, morphemes2, score⟩ := by
  constructor
  · intro h
    obtain ⟨rs, hrs, hr⟩ := h
    obtain ⟨⟨hn, -⟩, heq⟩ := results_eq_ok.mp hrs
    rw [heq] at hr
    exact ⟨hn, verdict_of_mem hr rfl rfl⟩
  · intro h
    obtain ⟨hn, hverdict⟩ := h
    exact ⟨_, results_of_noTrips hn hsafe, mem_verdicts.mpr ⟨i, j, hij, hj, hverdict⟩⟩

theorem pairData_mirrorSite {names : List ByteString} (hij : i < j)
    (hj : j < site.positionalArgNames.length) (hnames : site.callDecl.paramNames = some names)
    (hjn : j < names.length) :
    pairData c.opts c.weights (mirrorSite site i j) whichCheck (i, j) =
      mirror (pairData c.opts c.weights site whichCheck (i, j)) := by
  have hi : i < site.positionalArgNames.length := by omega
  have hin : i < names.length := by omega
  have harg1 : (mirrorSite site i j).positionalArgNames[i]? = site.positionalArgNames[j]? :=
    getElem?_exchange_left hi hj (by omega)
  have harg2 : (mirrorSite site i j).positionalArgNames[j]? = site.positionalArgNames[i]? :=
    getElem?_exchange_right hi hj
  have hparam1 : getParamName (mirrorSite site i j) i = getParamName site j := by
    simp only [getParamName, mirrorSite, hnames, Option.map_some, length_exchange hin hjn,
      getElem?_exchange_left hin hjn (by omega), ge_iff_le, Nat.not_le.mpr hin, Nat.not_le.mpr hjn,
      if_false]
  have hparam2 : getParamName (mirrorSite site i j) j = getParamName site i := by
    simp only [getParamName, mirrorSite, hnames, Option.map_some, length_exchange hin hjn,
      getElem?_exchange_right hin hjn, ge_iff_le, Nat.not_le.mpr hin, Nat.not_le.mpr hjn, if_false]
  simp only [pairData, mirror, harg1, harg2, hparam1, hparam2]
  rfl

theorem lastName_arg (h : ∀ arg ∈ site.positionalArgNames, lastName arg ≠ []) {k : Nat}
    (hk : k < site.positionalArgNames.length) :
    lastName (site.positionalArgNames[k]?.getD []) ≠ [] := by
  rw [List.getElem?_eq_getElem hk, Option.getD_some]
  exact h _ (List.getElem_mem hk)

/-- Without statistics, what the cover-based mode reports for a pair. -/
theorem reports_coverBased_iff (hweights : c.weights = none)
    (hlast : ∀ arg ∈ site.positionalArgNames, lastName arg ≠ []) (hij : i < j)
    (hj : j < site.positionalArgNames.length) {morphemes1 morphemes2 : Finset ByteString}
    {score : ScoreCard XRat} : Reports c site .coverBased i j morphemes1 morphemes2 score ↔
      site.positionalArgNames.length < 2 ^ 32 ∧
        (pairData c.opts c.weights site .coverBased (i, j)).Gates ∧
        ¬ Filtered (pairData c.opts c.weights site .coverBased (i, j)) ∧
        morphemes1 = (pairData c.opts c.weights site .coverBased (i, j)).unique1 ∧
        morphemes2 = (pairData c.opts c.weights site .coverBased (i, j)).unique2 ∧
        score = .parameterNameBased
          (pairData c.opts c.weights site .coverBased (i, j)).worstPsi none := by
  have hsafe : NoTrips c site .coverBased := by
    refine noTrips_of_lastNames fun arg harg hempty => hlast arg harg ?_
    rw [lastName, hempty, Option.getD_some]
  have hrows : (pairData c.opts c.weights site .coverBased (i, j)).rows = none := by
    simp only [pairData, hweights, Option.map_none]
  have hscore : (pairData c.opts c.weights site .coverBased (i, j)).statsScore = none := by
    rw [PairData.statsScore, hrows]
    rfl
  rw [reports_iff hsafe hij hj, verdict_coverBased_iff rfl hrows (lastName_arg hlast (by omega))]
  simp only [PairData.coverResult, Result.mk.injEq, hscore]
  simp [pairData]

/-- **Mirrored calls**: the cover-based check treats a pair and its mirror alike exactly
when, for a pair that passes the gates, the suffix filters agree on both. -/
theorem mirrored_iff (c : Checker XRat) (site : CallSite) (i j : Nat) (names : List ByteString)
    (hweights : c.weights = none) (hlast : ∀ arg ∈ site.positionalArgNames, lastName arg ≠ [])
    (hij : i < j) (hj : j < site.positionalArgNames.length)
    (hnames : site.callDecl.paramNames = some names) (hjn : j < names.length) :
    (∀ morphemes1 morphemes2 score,
        Reports c site .coverBased i j morphemes1 morphemes2 score ↔
          Reports c (mirrorSite site i j) .coverBased i j morphemes2 morphemes1 score) ↔
      (site.positionalArgNames.length < 2 ^ 32 →
        (pairData c.opts c.weights site .coverBased (i, j)).Gates →
        (Filtered (pairData c.opts c.weights site .coverBased (i, j)) ↔
          Filtered (mirror (pairData c.opts c.weights site .coverBased (i, j))))) := by
  let d := pairData c.opts c.weights site .coverBased (i, j)
  have hi : i < site.positionalArgNames.length := by omega
  have hlen : (mirrorSite site i j).positionalArgNames.length = site.positionalArgNames.length :=
    length_exchange hi hj
  have hlast' : ∀ arg ∈ (mirrorSite site i j).positionalArgNames, lastName arg ≠ [] :=
    fun arg harg => hlast arg (mem_of_mem_exchange hi hj harg)
  -- what is reported on the site, and on its mirror
  have hreports (morphemes1 morphemes2 : Finset ByteString) (score : ScoreCard XRat) :
      Reports c site .coverBased i j morphemes1 morphemes2 score ↔
        site.positionalArgNames.length < 2 ^ 32 ∧ d.Gates ∧ ¬ Filtered d ∧
          morphemes1 = d.unique1 ∧ morphemes2 = d.unique2 ∧
          score = .parameterNameBased d.worstPsi none := reports_coverBased_iff hweights hlast hij hj
  have hreports' (morphemes1 morphemes2 : Finset ByteString) (score : ScoreCard XRat) :
      Reports c (mirrorSite site i j) .coverBased i j morphemes2 morphemes1 score ↔
        site.positionalArgNames.length < 2 ^ 32 ∧ d.Gates ∧ ¬ Filtered (mirror d) ∧
          morphemes2 = d.unique2 ∧ morphemes1 = d.unique1 ∧
          score = .parameterNameBased (mirror d).worstPsi none := by
    rw [reports_coverBased_iff hweights hlast' hij (by omega), pairData_mirrorSite hij hj hnames hjn,
      hlen, gates_mirror]
    rfl
  constructor
  · intro h hn hgates
    have hgates' : d.Gates := hgates
    have hpair := h d.unique1 d.unique2 (.parameterNameBased d.worstPsi none)
    rw [hreports, hreports', worstPsi_mirror hgates'] at hpair
    simp only [hn, hgates', true_and, and_self, and_true] at hpair
    exact not_iff_not.mp hpair
  · intro h morphemes1 morphemes2 score
    rw [hreports, hreports']
    by_cases hn : site.positionalArgNames.length < 2 ^ 32
    · by_cases hgates : d.Gates
      · rw [worstPsi_mirror hgates, h hn hgates]
        tauto
      · simp only [hgates, false_and, and_false]
    · simp only [hn, false_and]

end Calls

/-- Two swapped arguments; the name of the first parameter ends in a digit. -/
def suffixedCall : CallSite where
  callDecl := ⟨bytes "foo", some [bytes "item1", bytes "itemx"]⟩
  positionalArgNames := [[bytes "itemx"], [bytes "Item1"]]

theorem suffixedCall_mirrored_iff :
    (∀ morphemes1 morphemes2 score,
        Reports (checkerOver {} none) suffixedCall .coverBased 0 1 morphemes1 morphemes2 score ↔
          Reports (checkerOver {} none) (mirrorSite suffixedCall 0 1) .coverBased 0 1 morphemes2
            morphemes1 score) ↔
      (suffixedCall.positionalArgNames.length < 2 ^ 32 →
        (pairData (F := XRat) {} none suffixedCall .coverBased (0, 1)).Gates →
        (Filtered (pairData {} none suffixedCall .coverBased (0, 1)) ↔
          Filtered (mirror (pairData {} none suffixedCall .coverBased (0, 1))))) :=
  mirrored_iff (checkerOver {} none) suffixedCall 0 1 [bytes "item1", bytes "itemx"] rfl
    (by decide) (by decide) (by decide) rfl (by decide)

/-- The pair is reported on the mirrored call only. -/
theorem suffixedCall_one_sided :
    (checkerOver {} none : Checker XRat).results suffixedCall .coverBased = .ok [] ∧
      (checkerOver {} none : Checker XRat).results (mirrorSite suffixedCall 0 1) .coverBased =
        .ok [{ arg1 := 1, arg2 := 2, morphemes1 := {bytes "item1"}, morphemes2 := {bytes "itemx"},
               score := .parameterNameBased (.fin 100) none }] := by
  decide +kernel

end SwapDetector.Proofs.MirroredCalls
