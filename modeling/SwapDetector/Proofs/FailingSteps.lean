import SwapDetector.Proofs.Refinement

/-! # Lookups whose steps may fail

Whatever steps fail, a lookup in an idle session returns and leaves the session
idle over the same table: the statements are cleared and reset on every way out.
-/
namespace SwapDetector.Proofs.FailingSteps
open SwapDetector.Base.ExactFloat SwapDetector.Base.Exec SwapDetector.Base.Decisions
open SwapDetector.Base.OrderedSet SwapDetector.Base.PreparedStatement
open SwapDetector.Model.Bytes SwapDetector.Model.Types SwapDetector.Model.StatsDatabase
open SwapDetector.Model.SwappedArgChecker SwapDetector.Spec.Judgement
open SwapDetector.Proofs.Lookups SwapDetector.Proofs.Refinement

variable {F : Type}

/-- An idle session over a table, or without statistics. -/
def Idle (weights : Option (List (Row F))) (s : Session F) : Prop :=
  s.stats = weights.map Statistics.loaded

theorem eq_idle {weights : Option (List (Row F))} {s : Session F} (hs : Idle weights s) :
    s = idle weights s.fails := by
  obtain ⟨stats, fails⟩ := s
  cases hs
  rfl

theorem validStats_returns (db : List (Row F)) :
    Returns (Idle (some db)) validStats fun st => st = (db, .prepared, .prepared) := by
  intro s hs
  obtain ⟨stats, fails⟩ := s
  cases hs
  exact ⟨_, _, rfl, rfl, rfl⟩

/-- Rows are reported only when all of them were read. -/
theorem morphemesAndWeightsAtPos_returns (db : List (Row F)) (func : ByteString) (pos : Nat) :
    Returns (Idle (some db)) (morphemesAndWeightsAtPos func pos) fun out => out.1 = true →
      out.2 = (rowsAt db func pos).map fun r => (r.morpheme.val, r.value) := by
  intro s hs
  obtain ⟨n, out, hconsumes, hfound, -⟩ := morphemesAndWeightsAtPos_consumes db func pos s.fails
  refine ⟨out, idle (some db) (skip n s.fails), ?_, rfl, hfound⟩
  rw [eq_idle hs]
  exact hconsumes.run

variable [FloatArith F]

theorem morphemeConfidenceAtPosition_returns (db : List (Row F)) (site : CallSite)
    (morph : ByteString) (pos comparedToPos : Nat) :
    Returns (Idle (some db)) (morphemeConfidenceAtPosition site morph pos comparedToPos)
      fun _ => True := by
  intro s hs
  rw [eq_idle hs]
  exact ⟨_, _, morphemeConfidenceAtPosition_takes db site morph pos comparedToPos s.fails, rfl, trivial⟩

/-- The fitness is that of the table, or 0 when the rows could not be read. -/
theorem fit_returns (db : List (Row F)) (morph : ByteString) (site : CallSite) (argPos : Nat) :
    Returns (Idle (some db)) (fit morph site argPos) fun v => v = FloatArith.ofRat 0 ∨
      v = fitIn (rowsAt db site.callDecl.fullyQualifiedName argPos) morph := by
  unfold fit
  refine (validStats_returns db).bind fun _ _ => ?_
  refine (morphemesAndWeightsAtPos_returns db _ _).bind ?_
  rintro ⟨found, rows⟩ hrows
  cases found with
  | false => exact Returns.pure (.inl rfl)
  | true =>
    refine Returns.pure (.inr ?_)
    have hread : rows = (rowsAt db site.callDecl.fullyQualifiedName argPos).map
        fun r => (r.morpheme.val, r.value) := hrows rfl
    rw [hread, List.foldl_map, fitIn]

theorem vetMorpheme_returns (db : List (Row F)) (site : CallSite) (pos comparedToPos : Nat)
    (score : Option F) (morph : ByteString) :
    Returns (Idle (some db)) (vetMorpheme site pos comparedToPos score morph) fun _ => True := by
  unfold vetMorpheme
  refine (morphemeConfidenceAtPosition_returns db site morph pos comparedToPos).bind fun val _ => ?_
  cases val <;> exact Returns.pure trivial

theorem vetWithStats_returns (weights : Option (List (Row F))) (site : CallSite)
    (unique1 unique2 : Finset ByteString) (pos1 pos2 : Nat) :
    Returns (Idle weights) (vetWithStats site unique1 unique2 pos1 pos2) fun _ => True := by
  unfold vetWithStats
  refine Returns.get.bind fun s hs => ?_
  rw [show s.stats = _ from hs]
  cases weights with
  | none => exact Returns.pure trivial
  | some db =>
    refine (validStats_returns db).bind fun _ _ => ?_
    refine (Returns.foldlM _ _ trivial fun score _ morph _ =>
      vetMorpheme_returns db site _ _ score morph).bind fun score _ => ?_
    exact Returns.foldlM _ _ trivial fun score _ morph _ =>
      vetMorpheme_returns db site _ _ score morph

/-- What a result of the statistics-based check shows whatever steps failed: the rest of
the morphemes agrees, and each fitness is large, and that of the table unless it is 0. -/
structure ShowsSwap (opts : CheckerConfiguration F) (args : MorphemeSet × MorphemeSet)
    (db : List (Row F)) (site : CallSite) (morph1 morph2 : ByteString) (r : Result F) : Prop where
  rest : inOrder ((args.1.morphemes \ args.2.morphemes).erase morph1) =
    inOrder ((args.2.morphemes \ args.1.morphemes).erase morph2)
  score : ∃ fit1 fit2 psi1 psi2,
    (fit1 = FloatArith.ofRat 0 ∨
      fit1 = fitIn (rowsAt db site.callDecl.fullyQualifiedName args.2.position) morph1) ∧
    (fit2 = FloatArith.ofRat 0 ∨
      fit2 = fitIn (rowsAt db site.callDecl.fullyQualifiedName args.1.position) morph2) ∧
    fit1 > opts.statsSwappedFitnessThreshold ∧ fit2 > opts.statsSwappedFitnessThreshold ∧
    r = { arg1 := args.1.position + 1
          arg2 := args.2.position + 1
          morphemes1 := args.1.morphemes \ args.2.morphemes
          morphemes2 := args.2.morphemes \ args.1.morphemes
          score := .usageStatisticsBased fit1 fit2 psi1 psi2 }

theorem checkMorphemePair_returns (opts : CheckerConfiguration F) (args : MorphemeSet × MorphemeSet)
    (db : List (Row F)) (site : CallSite) (morph1 morph2 : ByteString) :
    Returns (Idle (some db)) (checkMorphemePair opts args site morph1 morph2) fun out =>
      ∀ r, out = some r → ShowsSwap opts args db site morph1 morph2 r := by
  have hnone : Returns (Idle (some db)) (pure none : CheckM F (Option (Result F))) fun out =>
      ∀ r, out = some r → ShowsSwap opts args db site morph1 morph2 r :=
    Returns.pure fun r hr => by cases hr
  unfold checkMorphemePair
  refine (morphemeConfidenceAtPosition_returns db site _ _ _).bind fun psi1 _ => ?_
  refine (morphemeConfidenceAtPosition_returns db site _ _ _).bind fun psi2 _ => ?_
  cases psi1 with
  | none => exact hnone
  | some psi1 =>
    cases psi2 with
    | none => exact hnone
    | some psi2 =>
      refine Returns.ite (fun _ => hnone) fun _ => Returns.ite (fun _ => hnone) fun hrest => ?_
      refine (fit_returns db _ site _).bind fun fit1 hfit1 => ?_
      refine (fit_returns db _ site _).bind fun fit2 hfit2 => ?_
      refine Returns.ite (fun hfits => Returns.pure fun r hr => ?_) fun _ => hnone
      exact ⟨not_not.mp hrest, fit1, fit2, psi1, psi2, hfit1, hfit2, hfits.1, hfits.2,
        (Option.some.inj hr).symm⟩

theorem checkForStatisticsBasedSwap_returns (opts : CheckerConfiguration F)
    (params args : MorphemeSet × MorphemeSet) (db : List (Row F)) (site : CallSite) :
    Returns (Idle (some db)) (checkForStatisticsBasedSwap opts params args site) fun out =>
      ∀ r, out = some r → ∃ morph1 ∈ args.1.morphemes \ args.2.morphemes,
        ∃ morph2 ∈ args.2.morphemes \ args.1.morphemes,
          ShowsSwap opts args db site morph1 morph2 r := by
  unfold checkForStatisticsBasedSwap
  refine Returns.findSomeM _ (fun r hr => by cases hr) fun morph1 hmorph1 => ?_
  refine Returns.findSomeM _ (fun r hr => by cases hr) fun morph2 hmorph2 => ?_
  refine (checkMorphemePair_returns opts args db site morph1 morph2).weaken fun out hout r hr => ?_
  exact ⟨morph1, mem_inOrder.mp hmorph1, morph2, mem_inOrder.mp hmorph2, hout r hr⟩

/-! ## The stages of a pair -/

section Pair
variable (opts : CheckerConfiguration F) (weights : Option (List (Row F))) (site : CallSite)
  (whichCheck : Check) (p : Nat × Nat)

theorem vetCandidate_returns (d : PairData F) :
    Returns (Idle weights) (vetCandidate site d) fun _ => True := by
  unfold vetCandidate
  refine (vetWithStats_returns weights site _ _ _ _).bind fun score _ => ?_
  exact Returns.ite (fun _ => Returns.pure trivial) fun _ => Returns.pure trivial

theorem statsStage_returns :
    Returns (Idle weights) (statsStage opts site whichCheck p) fun out =>
      ∀ r, out = some r → ∃ db, weights = some db ∧
        ∃ morph1 ∈ (pairData opts weights site whichCheck p).unique1,
          ∃ morph2 ∈ (pairData opts weights site whichCheck p).unique2,
            ShowsSwap opts (⟨argMorphemes (site.positionalArgNames[p.1]?.getD []), p.1⟩,
              ⟨argMorphemes (site.positionalArgNames[p.2]?.getD []), p.2⟩) db site morph1 morph2 r := by
  unfold statsStage
  refine Returns.get.bind fun s hs => ?_
  rw [show s.stats = _ from hs]
  cases weights with
  | none =>
    exact Returns.ite (fun h => by simp at h) fun _ => Returns.pure fun r hr => by cases hr
  | some db =>
    refine Returns.ite (fun _ => ?_) fun _ => Returns.pure fun r hr => by cases hr
    refine (validStats_returns db).bind fun _ _ => ?_
    exact (checkForStatisticsBasedSwap_returns opts _ _ db site).weaken
      fun out hout r hr => ⟨db, rfl, hout r hr⟩

end Pair

end SwapDetector.Proofs.FailingSteps
