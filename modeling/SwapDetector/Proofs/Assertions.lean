import SwapDetector.Proofs.FailingSteps

/-! # When a check breaks an assertion

Below 2^32 arguments a call of `CheckSite` ends in a fault for one reason only: a
pair passes every test up to the suffix filter of the argument names, and the last
component of its first argument is empty. Failing steps have no part in this.
-/
namespace SwapDetector.Proofs.Assertions
open SwapDetector.Base.ExactFloat SwapDetector.Base.Exec SwapDetector.Base.OrderedSet
open SwapDetector.Base.Permutations
open SwapDetector.Model.Bytes SwapDetector.Model.IdentifierSplitting SwapDetector.Model.Types
open SwapDetector.Model.StatsDatabase SwapDetector.Model.SwappedArgChecker
open SwapDetector.Spec.Judgement SwapDetector.Proofs.PairEnumeration
open SwapDetector.Proofs.Refinement SwapDetector.Proofs.FailingSteps

variable {F : Type} [FloatArith F]

/-! ## Pairs -/

/-- The gates are passed by nonempty sets only. -/
theorem gates_nonempty {d : PairData F} (h : d.Gates) :
    (split d.param1 ≠ ∅ ∧ split d.param2 ≠ ∅) ∧ argMorphemes d.arg1 ≠ ∅ ∧ argMorphemes d.arg2 ≠ ∅ := by
  have hdiff {A B : Finset ByteString} (hne : A \ B ≠ ∅) : A ≠ ∅ := by
    intro hA
    exact hne (by rw [hA, Finset.empty_sdiff])
  obtain ⟨hparam1, hparam2, harg1, harg2⟩ := h.unique
  exact ⟨⟨hdiff hparam1, hdiff hparam2⟩, hdiff harg1, hdiff harg2⟩

/-- A pair that passes the gates gets past the tests of the morpheme sets. -/
theorem gates_usable {d : PairData F} (h : d.Gates) :
    ¬ (argMorphemes d.arg1 = ∅ ∨ argMorphemes d.arg2 = ∅) ∧ ¬ d.Unusable := by
  obtain ⟨⟨hparam1, hparam2⟩, harg1, harg2⟩ := gates_nonempty h
  refine ⟨not_or.mpr ⟨harg1, harg2⟩, fun hunusable => ?_⟩
  rcases hunusable.2 with hempty | hempty
  · exact hparam1 hempty
  · exact hparam2 hempty

/-- The gates are passed only when both parameters have a name. -/
theorem gates_named {d : PairData F} (h : d.Gates) : d.Named := by
  obtain ⟨⟨hparam1, hparam2⟩, -⟩ := gates_nonempty h
  refine ⟨fun hname => hparam1 ?_, fun hname => hparam2 ?_⟩
  · rw [hname, split_nil]
  · rw [hname, split_nil]

theorem candidate_of_trips {d : PairData F} (h : d.Trips) : d.candidate = .error .emptyName := by
  obtain ⟨-, hgates, htwins, hempty⟩ := h
  have htests : ¬ (¬ d.Gates ∨ suffixTwins d.param1 d.param2 = true) := by simp [hgates, htwins]
  rw [PairData.candidate, if_neg htests, if_pos hempty]

theorem candidate_of_not_trips {d : PairData F} (h : ¬ d.Trips) (hruns : d.coverRuns) :
    ∃ passed, d.candidate = .ok passed := by
  unfold PairData.candidate
  by_cases htests : ¬ d.Gates ∨ suffixTwins d.param1 d.param2 = true
  · exact ⟨false, if_pos htests⟩
  · rw [if_neg htests]
    simp only [not_or, not_not, Bool.not_eq_true] at htests
    have hname : lastName d.arg1 ≠ [] := fun hempty => h ⟨hruns, htests.1, htests.2, hempty⟩
    exact ⟨_, if_neg hname⟩

section Pair
variable (opts : CheckerConfiguration F) (weights : Option (List (Row F))) (site : CallSite)
  (whichCheck : Check) (p : Nat × Nat)

theorem checkPair_fails (hp1 : p.1 < site.positionalArgNames.length)
    (hp2 : p.2 < site.positionalArgNames.length)
    (h : (pairData opts weights site whichCheck p).Trips) :
    Fails (Idle weights) (checkPair opts site whichCheck p) .emptyName := by
  obtain ⟨hargs, husable⟩ := gates_usable h.2.1
  rw [checkPair_eq opts weights site whichCheck p hp1 hp2, if_neg hargs, if_neg husable, coverStage,
    if_pos h.1, candidate_of_trips h]
  exact Fails.throw.bind.bind

theorem checkPair_returns (hp1 : p.1 < site.positionalArgNames.length)
    (hp2 : p.2 < site.positionalArgNames.length)
    (h : ¬ (pairData opts weights site whichCheck p).Trips) :
    Returns (Idle weights) (checkPair opts site whichCheck p) fun _ => True := by
  rw [checkPair_eq opts weights site whichCheck p hp1 hp2]
  refine Returns.ite (fun _ => Returns.pure trivial) fun _ => ?_
  refine Returns.ite (fun _ => Returns.pure trivial) fun _ => ?_
  have hcover : Returns (Idle weights) (coverStage site (pairData opts weights site whichCheck p))
      fun _ => True := by
    unfold coverStage
    refine Returns.ite (fun hruns => ?_) fun _ => Returns.pure trivial
    obtain ⟨passed, hpassed⟩ := candidate_of_not_trips h hruns
    rw [hpassed]
    refine (Returns.pure (Q := fun _ => True) trivial).bind fun passed _ => ?_
    exact Returns.ite (fun _ => vetCandidate_returns weights site _) fun _ => Returns.pure trivial
  refine hcover.bind fun r _ => ?_
  cases r with
  | none => exact (statsStage_returns opts weights site whichCheck p).weaken fun _ _ => trivial
  | some r => exact Returns.pure trivial

/-! ## Call sites -/

/-- The body of the loop over the pairs fails on the pairs that trip. -/
theorem pairStep_fails {q : Nat × Nat} (results : List (Result F))
    (hq : q ∈ allPairs site.positionalArgNames.length)
    (h : (pairData opts weights site whichCheck q).Trips) :
    Fails (Idle weights)
      (do
        let r ← checkPair opts site whichCheck q
        return results ++ r.toList) .emptyName := by
  have hlt := lt_of_mem_allPairs hq
  exact (checkPair_fails opts weights site whichCheck q hlt.1 hlt.2 h).bind

/-- The body of the loop over the pairs returns on the others. -/
theorem pairStep_returns {q : Nat × Nat} (results : List (Result F))
    (hq : q ∈ allPairs site.positionalArgNames.length)
    (h : ¬ (pairData opts weights site whichCheck q).Trips) :
    Returns (Idle weights)
      (do
        let r ← checkPair opts site whichCheck q
        return results ++ r.toList) fun _ => True := by
  have hlt := lt_of_mem_allPairs hq
  exact (checkPair_returns opts weights site whichCheck q hlt.1 hlt.2 h).bind
    fun _ _ => Returns.pure trivial

theorem checkSite_fails (hn : site.positionalArgNames.length < 2 ^ 32)
    (h : ∃ p ∈ allPairs site.positionalArgNames.length,
      (pairData opts weights site whichCheck p).Trips) :
    Fails (Idle weights) (checkSite opts site whichCheck) .emptyName := by
  obtain ⟨p, hp, htrips⟩ := h
  have hlt := mem_allPairs.mp hp
  unfold checkSite
  rw [if_neg (by omega), pairwiseCombinations_ok (by omega) hn]
  refine Fails.bind_returns (Returns.pure (Q := (· = allPairs _)) rfl) ?_
  rintro _ rfl
  refine Fails.foldlM (T := fun q => (pairData opts weights site whichCheck q).Trips) _ _
    ⟨p, hp, htrips⟩ ?_ ?_
  · exact fun results q hq hq' => pairStep_fails opts weights site whichCheck results hq hq'
  · exact fun results q hq hq' => pairStep_returns opts weights site whichCheck results hq hq'

theorem checkSite_returns (hn : site.positionalArgNames.length < 2 ^ 32)
    (h : ∀ p ∈ allPairs site.positionalArgNames.length,
      ¬ (pairData opts weights site whichCheck p).Trips) :
    Returns (Idle weights) (checkSite opts site whichCheck) fun _ => True := by
  unfold checkSite
  refine Returns.ite (fun _ => Returns.pure trivial) fun hmany => ?_
  rw [pairwiseCombinations_ok (by omega) hn]
  refine (Returns.pure (Q := (· = allPairs _)) rfl).bind ?_
  rintro _ rfl
  exact Returns.foldlM _ _ trivial fun results _ q hq =>
    pairStep_returns opts weights site whichCheck results hq (h q hq)

/-- From 2^32 arguments on, the first index pair is not found. -/
theorem checkSite_large (hn : ¬ site.positionalArgNames.length < 2 ^ 32) :
    Fails (Idle weights) (checkSite opts site whichCheck) .missingBit := by
  unfold checkSite
  rw [if_neg (by omega), pairwiseCombinations_large (by omega)]
  exact Fails.throw.bind

/-- The assertions on the statistics hold in every idle session. -/
theorem checkSite_valid {s : Session F} (hs : Idle weights s) :
    (exec (checkSite opts site whichCheck) s).1 ≠ .error .invalidStats := by
  by_cases hn : site.positionalArgNames.length < 2 ^ 32
  · by_cases h : ∃ p ∈ allPairs site.positionalArgNames.length,
        (pairData opts weights site whichCheck p).Trips
    · obtain ⟨t, hrun⟩ := checkSite_fails opts weights site whichCheck hn h s hs
      rw [hrun]
      simp
    · obtain ⟨rs, t, hrun, -⟩ := checkSite_returns opts weights site whichCheck hn
        (fun p hp htrips => h ⟨p, hp, htrips⟩) s hs
      rw [hrun]
      simp
  · obtain ⟨t, hrun⟩ := checkSite_large opts weights site whichCheck hn s hs
    rw [hrun]
    simp

end Pair

/-- **Assertions**: whatever steps fail, a call returns exactly when none of its
pairs reaches the suffix filter with an empty last component. -/
theorem checkSite_returns_iff (c : Checker F) (fails : Nat → Bool) (site : CallSite)
    (whichCheck : Check) (hn : site.positionalArgNames.length < 2 ^ 32) :
    (∃ rs, (c.checkSite fails site whichCheck).1 = .ok rs) ↔
      ∀ i j, i < j → j < site.positionalArgNames.length →
        ¬ (pairData c.opts c.weights site whichCheck (i, j)).Trips := by
  have hidle : Idle c.weights (⟨c.stats, fails⟩ : Session F) := stats_eq c
  constructor
  · intro hok i j hij hj htrips
    obtain ⟨rs, hrs⟩ := hok
    obtain ⟨t, ht⟩ := checkSite_fails c.opts c.weights site whichCheck hn
      ⟨(i, j), mem_allPairs.mpr ⟨hij, hj⟩, htrips⟩ _ hidle
    rw [Checker.checkSite, ht] at hrs
    cases hrs
  · intro h
    obtain ⟨rs, t, hrun, -⟩ := checkSite_returns c.opts c.weights site whichCheck hn
      (fun p hp => h p.1 p.2 (mem_allPairs.mp hp).1 (mem_allPairs.mp hp).2) _ hidle
    exact ⟨rs, congrArg Prod.fst hrun⟩

/-- A call whose first argument ends in an empty component. -/
def trailingEmpty : CallSite where
  callDecl := ⟨bytes "foo", some [bytes "cats", bytes "dogs"]⟩
  positionalArgNames := [[bytes "dogs", []], [bytes "cats"]]

theorem checkSite_returns_trailingEmpty :
    trailingEmpty.positionalArgNames.length < 2 ^ 32 ∧
      ((∃ rs, ((checkerOver {} none : Checker XRat).checkSite noFailure trailingEmpty .statsBased).1 =
        .ok rs) ↔ ∀ i j, i < j → j < trailingEmpty.positionalArgNames.length →
          ¬ (pairData (F := XRat) {} none trailingEmpty .statsBased (i, j)).Trips) :=
  ⟨by decide, checkSite_returns_iff (checkerOver {} none) noFailure trailingEmpty .statsBased
    (by decide)⟩

theorem trailingEmpty_faults :
    ((checkerOver {} none : Checker XRat).checkSite noFailure trailingEmpty .coverBased).1 =
      .error .emptyName := by
  decide +kernel

end SwapDetector.Proofs.Assertions
