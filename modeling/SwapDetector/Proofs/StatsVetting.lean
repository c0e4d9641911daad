import SwapDetector.Proofs.Locality

/-! # What the statistics do to the cover-based check

The vetting takes the maximum of all confidences that are present, starting at zero;
a NaN is lost on the way. So it suppresses a pair when one confidence exceeds the
threshold, and a pair that it does not suppress is reported as without statistics.
-/
namespace SwapDetector.Proofs.StatsVetting
open SwapDetector.Base.ExactFloat SwapDetector.Base.ExactFloat.XRat SwapDetector.Base.Exec
open SwapDetector.Base.OrderedSet SwapDetector.Base.Permutations
open SwapDetector.Model.Bytes SwapDetector.Model.IdentifierSplitting SwapDetector.Model.Types
open SwapDetector.Model.StatsDatabase SwapDetector.Model.SwappedArgChecker
open SwapDetector.Spec.Judgement SwapDetector.Proofs.Lookups SwapDetector.Proofs.Refinement
open SwapDetector.Proofs.Locality

/-! ## Pairs -/

section Confidences
variable {F : Type} [FloatArith F]

/-- The confidences the vetting of a pair asks for, in order. -/
def confidences (d : PairData F) (rows : List (Row F) × List (Row F)) : List (Option F) :=
  (inOrder d.unique1).map (confidenceIn rows.1 rows.2) ++
    (inOrder d.unique2).map (confidenceIn rows.2 rows.1)

theorem statsScore_eq {d : PairData F} {rows : List (Row F) × List (Row F)}
    (hrows : d.rows = some rows) : d.statsScore = (confidences d rows).foldl keepMax none := by
  have hstep (here there : List (Row F)) :
      vetStep here there = fun score morph => keepMax score (confidenceIn here there morph) := by
    funext score morph
    unfold vetStep keepMax
    cases confidenceIn here there morph <;> rfl
  rw [PairData.statsScore, hrows, Option.bind_some, confidences, List.foldl_append, List.foldl_map,
    List.foldl_map, hstep, hstep]

theorem mem_confidences {d : PairData F} {rows : List (Row F) × List (Row F)} {val : Option F} :
    val ∈ confidences d rows ↔ (∃ morph ∈ d.unique1, confidenceIn rows.1 rows.2 morph = val) ∨
      ∃ morph ∈ d.unique2, confidenceIn rows.2 rows.1 morph = val := by
  simp [confidences]

end Confidences

section Pair
variable {d : PairData XRat} {rows : List (Row XRat) × List (Row XRat)}

theorem vetoed_iff (hrows : d.rows = some rows) : d.vetoed = true ↔
    ∃ v, some v ∈ confidences d rows ∧ (v > d.opts.coverSwappedStatsVettingThreshold ∨
      .fin 0 > d.opts.coverSwappedStatsVettingThreshold) := by
  rw [PairData.vetoed, statsScore_eq hrows, foldl_keepMax_gt _ _ none (by simp)]
  simp

theorem vetoed_without_rows (hrows : d.rows = none) : d.vetoed = false := by
  rw [PairData.vetoed, PairData.statsScore, hrows]
  rfl

end Pair

/-! ## Call sites -/

/-- What the statistics of a checker answer when no step fails. -/
def confidenceOf (c : Checker XRat) (site : CallSite) (morph : ByteString)
    (pos comparedToPos : Nat) : Option XRat :=
  answer (exec (morphemeConfidenceAtPosition site morph pos comparedToPos) ⟨c.stats, noFailure⟩).1

/-- The statistics are confident that a unique morpheme of one of two arguments is
where it belongs. -/
def SeemsRight (c : Checker XRat) (site : CallSite) (i j : Nat) : Prop :=
  (∃ morph ∈ argMorphemes (site.positionalArgNames[i]?.getD []) \
      argMorphemes (site.positionalArgNames[j]?.getD []),
    (confidenceOf c site morph i j).any (· > c.opts.coverSwappedStatsVettingThreshold) = true) ∨
  ∃ morph ∈ argMorphemes (site.positionalArgNames[j]?.getD []) \
      argMorphemes (site.positionalArgNames[i]?.getD []),
    (confidenceOf c site morph j i).any (· > c.opts.coverSwappedStatsVettingThreshold) = true

instance (c : Checker XRat) (site : CallSite) (i j : Nat) : Decidable (SeemsRight c site i j) :=
  inferInstanceAs (Decidable (_ ∨ _))

section Calls
variable {c : Checker XRat} {site : CallSite} {i j : Nat}

theorem confidenceOf_eq {db : List (Row XRat)} (hweights : c.weights = some db)
    (morph : ByteString) (pos comparedToPos : Nat) : confidenceOf c site morph pos comparedToPos =
      confidenceIn (rowsAt db site.callDecl.fullyQualifiedName pos)
        (rowsAt db site.callDecl.fullyQualifiedName comparedToPos) morph := by
  have hrun := morphemeConfidenceAtPosition_steady db site morph pos comparedToPos
  rw [confidenceOf, stats_eq, hweights]
  exact congrArg (fun out => answer (Prod.fst out)) hrun

theorem confidenceOf_without (hweights : c.weights = none) (morph : ByteString)
    (pos comparedToPos : Nat) : confidenceOf c site morph pos comparedToPos = none := by
  rw [confidenceOf, stats_eq, hweights]
  rfl

theorem seemsRight_iff (hthreshold : .fin 0 ≤ c.opts.coverSwappedStatsVettingThreshold) :
    SeemsRight c site i j ↔
      (pairData c.opts c.weights site .coverBased (i, j)).vetoed = true := by
  have hzero : ¬ .fin 0 > c.opts.coverSwappedStatsVettingThreshold :=
    ((le_def _ _).mp hthreshold).2.2
  cases hweights : c.weights with
  | none =>
    rw [vetoed_without_rows rfl]
    simp [SeemsRight, confidenceOf_without hweights]
  | some db =>
    rw [vetoed_iff rfl]
    simp only [mem_confidences, SeemsRight, confidenceOf_eq hweights, Option.any_eq_true,
      decide_eq_true_iff]
    constructor
    · intro h
      rcases h with ⟨morph, hmorph, v, hv, habove⟩ | ⟨morph, hmorph, v, hv, habove⟩
      · exact ⟨v, .inl ⟨morph, hmorph, hv⟩, .inl habove⟩
      · exact ⟨v, .inr ⟨morph, hmorph, hv⟩, .inl habove⟩
    · intro h
      obtain ⟨v, hmorph, habove⟩ := h
      have habove' := habove.resolve_right hzero
      rcases hmorph with ⟨morph, hmorph, hv⟩ | ⟨morph, hmorph, hv⟩
      · exact .inl ⟨morph, hmorph, v, hv, habove'⟩
      · exact .inr ⟨morph, hmorph, v, hv, habove'⟩

/-- The statistics take pairs out, and leave the others as they are. -/
theorem covers_withoutStats_iff :
    Covers (pairData c.opts c.weights site .coverBased (i, j)) ↔
      Covers (pairData c.opts none site .coverBased (i, j)) ∧
        (pairData c.opts c.weights site .coverBased (i, j)).vetoed = false := by
  have hnone : (pairData c.opts none site .coverBased (i, j)).vetoed = false :=
    vetoed_without_rows rfl
  rw [Covers, Covers, hnone]
  constructor
  · intro h
    exact ⟨⟨h.1, h.2.1, rfl⟩, h.2.2⟩
  · intro h
    exact ⟨h.1.1, h.1.2.1, h.2⟩

theorem verdict_withoutStats (hthreshold : .fin 0 ≤ c.opts.coverSwappedStatsVettingThreshold)
    (htrips : ¬ (pairData c.opts none site .coverBased (i, j)).Trips) :
    (pairData c.opts c.weights site .coverBased (i, j)).verdict.map outline =
      ((pairData c.opts none site .coverBased (i, j)).verdict.filter
        fun r => ¬ SeemsRight c site (r.arg1 - 1) (r.arg2 - 1)).map outline := by
  rw [verdict_coverBased rfl htrips, verdict_coverBased rfl (by exact htrips)]
  by_cases hcovers : Covers (pairData c.opts none site .coverBased (i, j))
  · rw [if_pos hcovers, Option.filter_some]
    show _ = (if decide (¬ SeemsRight c site i j) = true then _ else _ : Option _).map _
    by_cases hveto : (pairData c.opts c.weights site .coverBased (i, j)).vetoed = true
    · have hright : SeemsRight c site i j := (seemsRight_iff hthreshold).mpr hveto
      have hnot : ¬ Covers (pairData c.opts c.weights site .coverBased (i, j)) := by
        rw [covers_withoutStats_iff, hveto]
        simp
      rw [if_neg hnot, if_neg (by simpa using hright)]
    · have hright : ¬ SeemsRight c site i j := mt (seemsRight_iff hthreshold).mp hveto
      have hboth := covers_withoutStats_iff.mpr ⟨hcovers, Bool.not_eq_true _ ▸ hveto⟩
      rw [if_pos hboth, if_pos (by simpa using hright)]
      rfl
  · have hnot : ¬ Covers (pairData c.opts c.weights site .coverBased (i, j)) :=
      fun h => hcovers (covers_withoutStats_iff.mp h).1
    rw [if_neg hcovers, if_neg hnot]
    rfl

/-- **The vetting**: with a database, the cover-based mode reports what it reports
without one, except the pairs in which a unique morpheme seems right where it is. -/
theorem results_vetted (c : Checker XRat) (site : CallSite)
    (hthreshold : .fin 0 ≤ c.opts.coverSwappedStatsVettingThreshold) :
    (c.results site .coverBased).map (List.map outline) =
      ((withoutStats c).results site .coverBased).map fun rs =>
        (rs.filter fun r => ¬ SeemsRight c site (r.arg1 - 1) (r.arg2 - 1)).map outline := by
  by_cases hn : site.positionalArgNames.length < 2 ^ 32
  · have hiff : NoTrips c site .coverBased ↔ NoTrips (withoutStats c) site .coverBased := Iff.rfl
    by_cases hsafe : NoTrips c site .coverBased
    · rw [results_of_noTrips hn hsafe, results_of_noTrips hn (hiff.mp hsafe)]
      refine congrArg Except.ok ?_
      simp only [verdicts, List.filter_filterMap, List.map_filterMap]
      refine List.filterMap_congr fun p hp => ?_
      rw [mem_allPairs] at hp
      exact verdict_withoutStats hthreshold (hsafe p.1 p.2 hp.1 hp.2)
    · rw [results_of_trips hn hsafe, results_of_trips hn (mt hiff.mpr hsafe)]
      rfl
  · rw [results_eq, results_eq, if_neg hn, if_neg hn]
    rfl

end Calls

/-- Two arguments in the place of each other's parameter. -/
def exchangedPets : CallSite where
  callDecl := ⟨bytes "foo", some [bytes "cats", bytes "dogs"]⟩
  positionalArgNames := [[bytes "dogs"], [bytes "cats"]]

/-- A table in which `dogs` belongs where it is, and which divides by zero for `cats`. -/
def vettingTable : List (Row XRat) :=
  [⟨cStr (bytes "foo"), 0, cStr (bytes "dogs"), .fin 1⟩,
    ⟨cStr (bytes "foo"), 0, cStr (bytes "cats"), .fin 0⟩,
    ⟨cStr (bytes "foo"), 1, cStr (bytes "cats"), .fin 0⟩]

theorem exchangedPets_vetted :
    ((checkerOver {} (some vettingTable)).results exchangedPets .coverBased).map (List.map outline) =
      ((withoutStats (checkerOver {} (some vettingTable))).results exchangedPets .coverBased).map
        fun rs => (rs.filter fun r => ¬ SeemsRight (checkerOver {} (some vettingTable)) exchangedPets
          (r.arg1 - 1) (r.arg2 - 1)).map outline :=
  results_vetted (checkerOver {} (some vettingTable)) exchangedPets (by decide +kernel)

example :
    (checkerOver {} (some vettingTable)).results exchangedPets .coverBased = .ok [] ∧
      ((withoutStats (checkerOver {} (some vettingTable))).results exchangedPets .coverBased) =
        .ok [{ arg1 := 1, arg2 := 2, morphemes1 := {bytes "dogs"}, morphemes2 := {bytes "cats"},
               score := .parameterNameBased (.fin 100) none }] := by
  decide +kernel

end SwapDetector.Proofs.StatsVetting
