import SwapDetector.Proofs.Locality

/-! # The statistics and the parameter names

In mode `StatsBased` the parameter names decide only whether a pair is skipped
before the statistics are read: it is skipped when both names are there and one
of them has no morpheme.
-/
namespace SwapDetector.Proofs.ParameterIndependence
open SwapDetector.Base.ExactFloat SwapDetector.Base.Exec
open SwapDetector.Model.Bytes SwapDetector.Model.Types SwapDetector.Model.StatsDatabase
open SwapDetector.Model.SwappedArgChecker SwapDetector.Spec.Judgement
open SwapDetector.Proofs.StatisticsBased SwapDetector.Proofs.Locality

variable {F : Type} [FloatArith F]

/-- A call site with other parameter names. -/
def withParams (site : CallSite) (names : Option (List ByteString)) : CallSite :=
  { site with callDecl := { site.callDecl with paramNames := names } }

theorem verdict_statsBased (opts : CheckerConfiguration F) (weights : Option (List (Row F)))
    (site : CallSite) (p : Nat × Nat) :
    (pairData opts weights site .statsBased p).verdict =
      if (pairData opts weights site .statsBased p).Unusable then none
      else (pairData opts weights site .statsBased p).statsOutcome := by
  have hstats : (pairData opts weights site .statsBased p).statsPart =
      (pairData opts weights site .statsBased p).statsOutcome := if_pos (.inr rfl)
  rw [verdict_of_not_trips (not_trips_statsBased opts weights site p),
    if_neg (not_covers_statsBased opts weights site p), hstats]

/-- What is hidden by either condition is the same unless there is something to hide. -/
theorem hidden_eq_iff {α : Type} {p q : Prop} [Decidable p] [Decidable q] {o : Option α} :
    (if q then none else o) = (if p then none else o) ↔ (o ≠ none → (p ↔ q)) := by
  cases o with
  | none => simp
  | some a =>
    by_cases hp : p
    · by_cases hq : q <;> simp [hp, hq]
    · by_cases hq : q <;> simp [hp, hq]

/-- **Parameter names and statistics**: in mode `StatsBased` two lists of parameter
names give the same results exactly when, for every pair whose swap the statistics
see, both or neither of them make the pair unusable. -/
theorem results_withParams_iff (c : Checker F) (site : CallSite)
    (names names' : Option (List ByteString)) :
    (∃ rs, c.results (withParams site names) .statsBased = .ok rs ∧
        c.results (withParams site names') .statsBased = .ok rs) ↔
      site.positionalArgNames.length < 2 ^ 32 ∧
        ∀ i j, i < j → j < site.positionalArgNames.length →
          (∃ rows morph1 morph2 psi1 psi2,
            (pairData c.opts c.weights site .statsBased (i, j)).SwapSeen rows morph1 morph2 psi1 psi2) →
          ((pairData c.opts c.weights (withParams site names) .statsBased (i, j)).Unusable ↔
            (pairData c.opts c.weights (withParams site names') .statsBased (i, j)).Unusable) := by
  have hlen : (withParams site names').positionalArgNames.length =
      (withParams site names).positionalArgNames.length := rfl
  -- the statistics give the same for both lists of names
  have hverdict (names : Option (List ByteString)) (i j : Nat) :
      (pairData c.opts c.weights (withParams site names) .statsBased (i, j)).verdict =
        if (pairData c.opts c.weights (withParams site names) .statsBased (i, j)).Unusable then none
        else (pairData c.opts c.weights site .statsBased (i, j)).statsOutcome :=
    verdict_statsBased c.opts c.weights (withParams site names) (i, j)
  rw [same_results_iff hlen]
  refine and_congr_right fun _ => forall₄_congr fun i j _ _ => ?_
  rw [hverdict names, hverdict names', ← statsOutcome_ne_none, ← hidden_eq_iff]
  simp only [not_trips_statsBased, not_false_eq_true, true_and]

/-- A table in which `cats` and `dogs` belong to the first and second position. -/
def petWeights : List (Row XRat) :=
  [⟨cStr (bytes "foo"), 0, cStr (bytes "cats"), .fin 1⟩,
    ⟨cStr (bytes "foo"), 1, cStr (bytes "dogs"), .fin 1⟩]

/-- The two arguments in the wrong order. -/
def swappedPets : CallSite where
  callDecl := ⟨bytes "foo", none⟩
  positionalArgNames := [[bytes "dogs"], [bytes "cats"]]

/-- Names without a morpheme hide what is reported without names. -/
theorem swappedPets_hidden :
    (checkerOver {} (some petWeights)).results (withParams swappedPets none) .statsBased =
        .ok [{ arg1 := 1, arg2 := 2, morphemes1 := {bytes "dogs"}, morphemes2 := {bytes "cats"},
               score := .usageStatisticsBased (.fin 1) (.fin 1) (.fin 1) (.fin 1) }] ∧
      (checkerOver {} (some petWeights)).results
        (withParams swappedPets (some [bytes "_", bytes "_"])) .statsBased = .ok [] := by
  decide +kernel

end SwapDetector.Proofs.ParameterIndependence
