import SwapDetector.Base.Decisions
import SwapDetector.Proofs.StatsVetting
import SwapDetector.Spec.Tables
import Mathlib.Data.List.ReduceOption

/-! # Failing lookups in the vetting

A lookup takes one decision of the environment, so the vetting of a pair takes two for
each unique morpheme, and its place on the tape follows from the pairs before it. A
failed lookup reads like a missing row: when the morpheme was found where it is, the
failure makes the confidence 1, and the report is lost.
-/
namespace SwapDetector.Proofs.FailedVetting
open SwapDetector.Base.ExactFloat SwapDetector.Base.ExactFloat.XRat SwapDetector.Base.Exec
open SwapDetector.Base.Decisions SwapDetector.Base.OrderedSet SwapDetector.Base.Permutations
open SwapDetector.Base.PreparedStatement
open SwapDetector.Model.Bytes SwapDetector.Model.Types SwapDetector.Model.StatsDatabase
open SwapDetector.Model.SwappedArgChecker SwapDetector.Spec.Judgement SwapDetector.Spec.Tables
open SwapDetector.Proofs.Lookups SwapDetector.Proofs.PairEnumeration
open SwapDetector.Proofs.Refinement SwapDetector.Proofs.Assertions SwapDetector.Proofs.Locality
open SwapDetector.Proofs.StatsVetting

/-! ## The vetting of one pair -/

section Pair
variable {F : Type} [FloatArith F]

theorem vetMorpheme_takes (db : List (Row F)) (site : CallSite) (pos comparedToPos : Nat)
    (score : Option F) (morph : ByteString) :
    Takes (idle (some db)) (vetMorpheme site pos comparedToPos score morph) 2 fun fails =>
      keepMax score (confidenceUnder db site.callDecl.fullyQualifiedName (morph, pos, comparedToPos)
        fails) := by
  unfold vetMorpheme
  refine (morphemeConfidenceAtPosition_takes db site morph pos comparedToPos).bind_pure
    (g := keepMax score) fun val => ?_
  cases val <;> rfl

theorem foldlM_vetMorpheme_takes (db : List (Row F)) (site : CallSite) (pos comparedToPos : Nat)
    (morphs : List ByteString) (score : Option F) :
    Takes (idle (some db)) (morphs.foldlM (vetMorpheme site pos comparedToPos) score)
      (2 * morphs.length) fun fails =>
        (readings (confidenceUnder db site.callDecl.fullyQualifiedName) (fun _ => 2)
          (morphs.map fun morph => (morph, pos, comparedToPos)) fails).foldl keepMax score := by
  have hloop := Takes.foldlM morphs score fun score morph _ =>
    vetMorpheme_takes db site pos comparedToPos score morph
  rw [List.map_const', List.sum_replicate_nat, Nat.mul_comm] at hloop
  refine hloop.congr fun fails => ?_
  rw [readings_map]

/-- The morphemes the vetting of two arguments asks for, each with its position and the
position it is compared to, in the order of the lookups. -/
def askedMorphemes (site : CallSite) (p : Nat × Nat) : List (ByteString × Nat × Nat) :=
  (inOrder (argMorphemes (site.positionalArgNames[p.1]?.getD []) \
      argMorphemes (site.positionalArgNames[p.2]?.getD []))).map (fun morph => (morph, p.1, p.2)) ++
    (inOrder (argMorphemes (site.positionalArgNames[p.2]?.getD []) \
      argMorphemes (site.positionalArgNames[p.1]?.getD []))).map fun morph => (morph, p.2, p.1)

/-- The highest confidence the vetting finds when its lookups may fail. -/
def scoreUnder (db : List (Row F)) (site : CallSite) (p : Nat × Nat) (fails : Nat → Bool) :
    Option F :=
  (readings (confidenceUnder db site.callDecl.fullyQualifiedName) (fun _ => 2)
    (askedMorphemes site p) fails).foldl keepMax none

variable (opts : CheckerConfiguration F) (db : List (Row F)) (site : CallSite) (p : Nat × Nat)

theorem vetWithStats_takes :
    Takes (idle (some db)) (vetWithStats site (pairData opts (some db) site .coverBased p).unique1
      (pairData opts (some db) site .coverBased p).unique2 p.1 p.2)
      (2 * (askedMorphemes site p).length) (scoreUnder db site p) := by
  have hloops := (foldlM_vetMorpheme_takes db site p.1 p.2
    (inOrder (pairData opts (some db) site .coverBased p).unique1) none).bind fun score =>
      foldlM_vetMorpheme_takes db site p.2 p.1
        (inOrder (pairData opts (some db) site .coverBased p).unique2) score
  have hlen : 2 * (askedMorphemes site p).length =
      2 * (inOrder (pairData opts (some db) site .coverBased p).unique1).length +
        2 * (inOrder (pairData opts (some db) site .coverBased p).unique2).length := by
    rw [askedMorphemes, List.length_append, List.length_map, List.length_map, Nat.mul_add]
    rfl
  rw [hlen]
  unfold vetWithStats
  refine Takes.get_bind (fun fails => if_pos rfl) ((validStats_takes db).bind_const ?_)
  refine hloops.congr fun fails => ?_
  rw [scoreUnder, askedMorphemes, readings_append, List.foldl_append, List.map_const',
    List.sum_replicate_nat, List.length_map, Nat.mul_comm]
  rfl

/-- What the vetting makes of a candidate when its lookups may fail. -/
def vettedUnder (d : PairData F) (fails : Nat → Bool) : Option (Result F) :=
  if (scoreUnder db site p fails).any (· > d.opts.coverSwappedStatsVettingThreshold) then none
  else
    some { d.coverResult with
      score := .parameterNameBased d.worstPsi (scoreUnder db site p fails) }

theorem vetCandidate_takes :
    Takes (idle (some db)) (vetCandidate site (pairData opts (some db) site .coverBased p))
      (2 * (askedMorphemes site p).length)
      (vettedUnder db site p (pairData opts (some db) site .coverBased p)) := by
  refine (vetWithStats_takes opts db site p).bind_pure (g := fun score =>
    if score.any (· > opts.coverSwappedStatsVettingThreshold) then none
    else some { (pairData opts (some db) site .coverBased p).coverResult with
      score := .parameterNameBased (pairData opts (some db) site .coverBased p).worstPsi score })
    fun score => ?_
  by_cases hveto : score.any (· > opts.coverSwappedStatsVettingThreshold) = true
  · rw [if_pos hveto]
    exact if_pos hveto
  · rw [if_neg hveto]
    exact if_neg hveto

/-- The steps the check of a pair makes: it asks only for the morphemes of a candidate. -/
def vettingSteps (opts : CheckerConfiguration F) (weights : Option (List (Row F)))
    (site : CallSite) (p : Nat × Nat) : Nat :=
  if (pairData opts weights site .coverBased p).coverRuns ∧
      (pairData opts weights site .coverBased p).candidate = .ok true then
    2 * (askedMorphemes site p).length
  else 0

/-- What the check of a pair reports when its lookups may fail. -/
def reportUnder (fails : Nat → Bool) : Option (Result F) :=
  if (pairData opts (some db) site .coverBased p).coverRuns ∧
      (pairData opts (some db) site .coverBased p).candidate = .ok true then
    vettedUnder db site p (pairData opts (some db) site .coverBased p) fails
  else none

theorem coverStage_takes (htrips : ¬ (pairData opts (some db) site .coverBased p).Trips) :
    Takes (idle (some db)) (coverStage site (pairData opts (some db) site .coverBased p))
      (vettingSteps opts (some db) site p) (reportUnder opts db site p) := by
  let d := pairData opts (some db) site .coverBased p
  unfold coverStage vettingSteps
  by_cases hcandidate : d.coverRuns ∧ d.candidate = .ok true
  · rw [if_pos hcandidate, if_pos hcandidate.1, hcandidate.2]
    refine (Takes.pure true).bind_const ((vetCandidate_takes opts db site p).congr fun fails => ?_)
    rw [reportUnder, if_pos hcandidate]
  · have hout : (fun _ => none) = reportUnder opts db site p := by
      funext fails
      rw [reportUnder, if_neg hcandidate]
    rw [if_neg hcandidate, ← hout]
    by_cases hruns : d.coverRuns
    · obtain ⟨passed, hpassed⟩ := candidate_of_not_trips htrips hruns
      have hfailed : passed = false := by
        rw [← Bool.not_eq_true]
        intro h
        exact hcandidate ⟨hruns, h ▸ hpassed⟩
      rw [if_pos hruns, hpassed, hfailed]
      exact (Takes.pure false).bind_const (Takes.pure none)
    · rw [if_neg hruns]
      exact Takes.pure none

/-- The statistics-based check does not run. -/
theorem statsStage_takes :
    Takes (idle (some db)) (statsStage opts site .coverBased p) 0 fun _ => none := by
  unfold statsStage
  exact Takes.get_bind (fun fails => if_neg (by simp)) (Takes.pure none)

theorem checkPair_takes (hp1 : p.1 < site.positionalArgNames.length)
    (hp2 : p.2 < site.positionalArgNames.length)
    (htrips : ¬ (pairData opts (some db) site .coverBased p).Trips) :
    Takes (idle (some db)) (checkPair opts site .coverBased p) (vettingSteps opts (some db) site p)
      (reportUnder opts db site p) := by
  let d := pairData opts (some db) site .coverBased p
  rw [checkPair_eq opts (some db) site .coverBased p hp1 hp2]
  by_cases hskipped : (argMorphemes d.arg1 = ∅ ∨ argMorphemes d.arg2 = ∅) ∨ d.Unusable
  · have hcandidate : ¬ (d.coverRuns ∧ d.candidate = .ok true) := by
      intro h
      obtain ⟨hargs, husable⟩ := gates_usable (candidate_eq_true.mp h.2).1
      exact hskipped.elim hargs husable
    have hout : (fun _ => none) = reportUnder opts db site p := by
      funext fails
      rw [reportUnder, if_neg hcandidate]
    rw [vettingSteps, if_neg hcandidate, ← hout]
    by_cases hargs : argMorphemes d.arg1 = ∅ ∨ argMorphemes d.arg2 = ∅
    · rw [if_pos hargs]
      exact Takes.pure none
    · rw [if_neg hargs, if_pos (hskipped.resolve_left hargs)]
      exact Takes.pure none
  · rw [if_neg (not_or.mp hskipped).1, if_neg (not_or.mp hskipped).2]
    refine ((coverStage_takes opts db site p htrips).bind (m := 0) (g := fun r _ => r)
      fun r => ?_)
    cases r with
    | none => exact statsStage_takes opts db site p
    | some r => exact Takes.pure (some r)

end Pair

/-! ## Whole calls -/

section Calls
variable {F : Type} [FloatArith F]

theorem foldl_toList {α : Type} (l : List (Option α)) (acc : List α) :
    l.foldl (fun acc r => acc ++ r.toList) acc = acc ++ l.reduceOption := by
  induction l generalizing acc with
  | nil => simp
  | cons r l ih =>
    rw [List.foldl_cons, ih]
    cases r <;> simp [List.reduceOption_cons_of_some, List.reduceOption_cons_of_none]

theorem checkSite_takes (c : Checker F) {db : List (Row F)} {site : CallSite}
    (hweights : c.weights = some db) (hn : site.positionalArgNames.length < 2 ^ 32)
    (hsafe : NoTrips c site .coverBased) :
    ∃ n, Takes (idle (some db)) (checkSite c.opts site .coverBased) n fun fails =>
      (readings (reportUnder c.opts db site) (vettingSteps c.opts (some db) site)
        (allPairs site.positionalArgNames.length) fails).reduceOption := by
  unfold checkSite
  by_cases hfew : site.positionalArgNames.length < 2
  · rw [if_pos hfew, allPairs_of_lt_two hfew]
    exact ⟨0, Takes.pure []⟩
  · rw [if_neg hfew, pairwiseCombinations_ok (by omega) hn]
    have hloop := Takes.foldlM (g := fun results (r : Option (Result F)) => results ++ r.toList)
      (allPairs site.positionalArgNames.length) [] fun results p hp => by
        have hlt := mem_allPairs.mp hp
        have htrips : ¬ (pairData c.opts (some db) site .coverBased p).Trips :=
          hweights ▸ hsafe p.1 p.2 hlt.1 hlt.2
        exact (checkPair_takes c.opts db site p (by omega) hlt.2 htrips).bind_pure
          (g := fun r => results ++ r.toList) fun r => rfl
    refine ⟨_, (Takes.pure _).bind_const (hloop.congr fun fails => ?_)⟩
    rw [foldl_toList, List.nil_append]

/-- The steps a call makes before it checks a pair. -/
def stepsBefore (c : Checker F) (site : CallSite) (p : Nat × Nat) : Nat :=
  (((allPairs site.positionalArgNames.length).takeWhile (· ≠ p)).map
    (vettingSteps c.opts c.weights site)).sum

/-- The call reports a pair under a pattern of failing steps. -/
def ReportsUnder (c : Checker F) (fails : Nat → Bool) (site : CallSite) (whichCheck : Check)
    (i j : Nat) : Prop :=
  ∃ rs, (c.checkSite fails site whichCheck).1 = .ok rs ∧ ∃ r ∈ rs, r.arg1 = i + 1 ∧ r.arg2 = j + 1

theorem reportUnder_positions {opts : CheckerConfiguration F} {db : List (Row F)} {site : CallSite}
    {p : Nat × Nat} {fails : Nat → Bool} {r : Result F}
    (h : reportUnder opts db site p fails = some r) : r.arg1 = p.1 + 1 ∧ r.arg2 = p.2 + 1 := by
  unfold reportUnder vettedUnder at h
  split_ifs at h
  cases h
  exact ⟨rfl, rfl⟩

theorem reportsUnder_iff {c : Checker F} {db : List (Row F)} {site : CallSite} {fails : Nat → Bool}
    {i j : Nat} (hweights : c.weights = some db) (hn : site.positionalArgNames.length < 2 ^ 32)
    (hsafe : NoTrips c site .coverBased) (hij : i < j) (hj : j < site.positionalArgNames.length) :
    ReportsUnder c fails site .coverBased i j ↔ ∃ r,
      reportUnder c.opts db site (i, j) (skip (stepsBefore c site (i, j)) fails) = some r := by
  obtain ⟨n, htakes⟩ := checkSite_takes c hweights hn hsafe
  have hnodup := allPairs_nodup site.positionalArgNames.length
  have hrun := congrArg Prod.fst (htakes fails)
  have hstart : (⟨c.stats, fails⟩ : Session F) = idle (some db) fails := by
    rw [stats_eq, hweights]
    rfl
  rw [← hstart] at hrun
  rw [ReportsUnder, Checker.checkSite, hrun, stepsBefore, hweights]
  constructor
  · intro h
    obtain ⟨_, hrs, r, hr, harg1, harg2⟩ := h
    cases hrs
    obtain ⟨p, -, hread⟩ := (mem_readings_of_nodup hnodup).mp (List.reduceOption_mem_iff.mp hr)
    obtain ⟨hp1, hp2⟩ := reportUnder_positions hread.symm
    obtain rfl : p = (i, j) :=
      Prod.ext (Nat.succ.inj (hp1.symm.trans harg1)) (Nat.succ.inj (hp2.symm.trans harg2))
    exact ⟨r, hread.symm⟩
  · intro h
    obtain ⟨r, hr⟩ := h
    refine ⟨_, rfl, r, List.reduceOption_mem_iff.mpr ?_, reportUnder_positions hr⟩
    exact (mem_readings_of_nodup hnodup).mpr ⟨(i, j), mem_allPairs.mpr ⟨hij, hj⟩, hr.symm⟩

end Calls

/-! ## Which failures hide a report -/

section Exact

/-- In the vetting of a pair, a morpheme is found where it is, and its lookup at the
position it is compared to fails. -/
def LosesComparison (db : List (Row XRat)) (site : CallSite) (p : Nat × Nat)
    (fails : Nat → Bool) : Prop :=
  ∃ k morph pos comparedToPos, (askedMorphemes site p)[k]? = some (morph, pos, comparedToPos) ∧
    weightIn (rowsAt db site.callDecl.fullyQualifiedName pos) morph ≠ none ∧
    fails (2 * k) = false ∧ fails (2 * k + 1) = true

/-- A confidence that was not too high becomes so only when the second of its two
lookups fails and the first one finds a weight. -/
theorem confidenceBetween_exceeds_iff {pos1 pos2 : Option XRat} {failed1 failed2 : Bool} {t : XRat}
    (hclean : ∀ v, confidenceBetween pos1 pos2 = some v → ¬ (v > t ∨ .fin 0 > t)) :
    (∃ v, confidenceBetween (readWeight failed1 pos1) (readWeight failed2 pos2) = some v ∧
      (v > t ∨ .fin 0 > t)) ↔
      .fin 1 > t ∧ pos1 ≠ none ∧ failed1 = false ∧ failed2 = true := by
  have hone {w : XRat} (hpos1 : pos1 = some w) : ¬ .fin 0 > t := by
    cases pos2 with
    | none => exact fun h => hclean (.fin 1) (by rw [hpos1]; rfl) (.inr h)
    | some w' => exact fun h => hclean (w / w') (by rw [hpos1]; rfl) (.inr h)
  cases failed1 with
  | true =>
    refine iff_of_false (fun h => ?_) (by simp)
    obtain ⟨v, hv, habove⟩ := h
    cases failed2 with
    | true => cases hv
    | false =>
      cases pos2 with
      | none => cases hv
      | some w' =>
        cases hv
        have hzero : .fin 0 > t := habove.elim id id
        cases pos1 with
        | none => exact hclean (.fin 0) rfl (.inr hzero)
        | some w => exact hone rfl hzero
  | false =>
    cases failed2 with
    | false => exact iff_of_false (fun h => hclean _ h.choose_spec.1 h.choose_spec.2) (by simp)
    | true =>
      cases pos1 with
      | none => exact iff_of_false (fun h => by cases h.choose_spec.1) (by simp)
      | some w =>
        constructor
        · intro h
          obtain ⟨v, hv, habove⟩ := h
          cases hv
          exact ⟨habove.resolve_right (hone rfl), by simp, rfl, rfl⟩
        · intro h
          exact ⟨.fin 1, rfl, .inl h.1⟩

variable {opts : CheckerConfiguration XRat} {db : List (Row XRat)} {site : CallSite} {p : Nat × Nat}

theorem confidences_eq : confidences (pairData opts (some db) site .coverBased p)
    (rowsAt db site.callDecl.fullyQualifiedName p.1,
      rowsAt db site.callDecl.fullyQualifiedName p.2) =
      (askedMorphemes site p).map fun asked =>
        confidenceIn (rowsAt db site.callDecl.fullyQualifiedName asked.2.1)
          (rowsAt db site.callDecl.fullyQualifiedName asked.2.2) asked.1 := by
  rw [askedMorphemes, List.map_append, List.map_map, List.map_map]
  rfl

theorem scoreUnder_exceeds_iff
    (hclean : (pairData opts (some db) site .coverBased p).vetoed = false) (fails : Nat → Bool) :
    (scoreUnder db site p fails).any (· > opts.coverSwappedStatsVettingThreshold) = true ↔
      .fin 1 > opts.coverSwappedStatsVettingThreshold ∧ LosesComparison db site p fails := by
  have hclean' (asked) (hasked : asked ∈ askedMorphemes site p) (v : XRat)
      (hv : confidenceIn (rowsAt db site.callDecl.fullyQualifiedName asked.2.1)
        (rowsAt db site.callDecl.fullyQualifiedName asked.2.2) asked.1 = some v) :
      ¬ (v > opts.coverSwappedStatsVettingThreshold ∨
        .fin 0 > opts.coverSwappedStatsVettingThreshold) := by
    intro habove
    refine ne_true_of_eq_false hclean ((vetoed_iff rfl).mpr ⟨v, ?_, habove⟩)
    rw [confidences_eq]
    exact List.mem_map.mpr ⟨asked, hasked, hv⟩
  rw [scoreUnder, foldl_keepMax_gt _ _ none (by simp), Option.any_none]
  simp only [Bool.false_eq_true, false_or, mem_readings_const]
  constructor
  · intro h
    obtain ⟨v, ⟨k, asked, hk, hv⟩, habove⟩ := h
    obtain ⟨hone, hfound, hfirst, hsecond⟩ := (confidenceBetween_exceeds_iff
      (hclean' asked (List.mem_of_getElem? hk))).mp ⟨v, hv.symm, habove⟩
    exact ⟨hone, k, asked.1, asked.2.1, asked.2.2, hk, hfound, hfirst, hsecond⟩
  · intro h
    obtain ⟨hone, k, morph, pos, comparedToPos, hk, hfound, hfirst, hsecond⟩ := h
    obtain ⟨v, hv, habove⟩ := (confidenceBetween_exceeds_iff
      (hclean' (morph, pos, comparedToPos) (List.mem_of_getElem? hk))).mpr
      ⟨hone, hfound, hfirst, hsecond⟩
    exact ⟨v, ⟨k, _, hk, hv.symm⟩, habove⟩

/-- **Failures that hide a report**: a pair that is reported with a database when no step
fails is reported under a pattern of failing steps exactly when no comparison is lost in
its vetting, or the threshold admits the confidence 1. -/
theorem reported_under_failures_iff (c : Checker XRat) (db : List (Row XRat)) (site : CallSite)
    (fails : Nat → Bool) (i j : Nat) (hweights : c.weights = some db)
    (hwith : ReportsPair c site .coverBased i j) :
    ReportsUnder c fails site .coverBased i j ↔
      ¬ (.fin 1 > c.opts.coverSwappedStatsVettingThreshold ∧
        LosesComparison db site (i, j) (skip (stepsBefore c site (i, j)) fails)) := by
  obtain ⟨rs, hrs, r, hr, harg1, harg2⟩ := hwith
  obtain ⟨⟨hn, hsafe⟩, rfl⟩ := results_eq_ok.mp hrs
  obtain ⟨i', j', hij, hj, hverdict⟩ := mem_verdicts.mp hr
  obtain ⟨hi', hj'⟩ := verdict_positions hverdict
  obtain rfl : i' = i := Nat.succ.inj (hi'.symm.trans harg1)
  obtain rfl : j' = j := Nat.succ.inj (hj'.symm.trans harg2)
  rw [verdict_coverBased rfl (hsafe i' j' hij hj), hweights] at hverdict
  have hcovers : Covers (pairData c.opts (some db) site .coverBased (i', j')) := by
    by_contra hnot
    rw [if_neg hnot] at hverdict
    cases hverdict
  rw [reportsUnder_iff hweights hn hsafe hij hj, ← scoreUnder_exceeds_iff hcovers.2.2, reportUnder,
    if_pos ⟨hcovers.1, hcovers.2.1⟩, vettedUnder]
  by_cases hveto : (scoreUnder db site (i', j') (skip (stepsBefore c site (i', j')) fails)).any
      (· > c.opts.coverSwappedStatsVettingThreshold) = true
  · refine iff_of_false (fun h => ?_) (not_not.mpr hveto)
    obtain ⟨r', hr'⟩ := h
    cases (if_pos hveto).symm.trans hr'
  · exact iff_of_true ⟨_, if_neg hveto⟩ hveto

end Exact

/-- A table that agrees with the parameter names: each of the two arguments is more
common in the place of the other. -/
def swappingTable : List (Row ℚ) :=
  [⟨cStr (bytes "foo"), 0, cStr (bytes "dogs"), 1 / 4⟩,
    ⟨cStr (bytes "foo"), 0, cStr (bytes "cats"), 3 / 4⟩,
    ⟨cStr (bytes "foo"), 1, cStr (bytes "cats"), 1 / 4⟩,
    ⟨cStr (bytes "foo"), 1, cStr (bytes "dogs"), 3 / 4⟩]

/-- The second lookup of the run fails. -/
def comparisonFails : Nat → Bool := fun k => k == 1

theorem exchangedPets_reported :
    ReportsPair (checkerOver {} (some (exactRows swappingTable))) exchangedPets .coverBased 0 1 :=
  ⟨[{ arg1 := 1, arg2 := 2, morphemes1 := {bytes "dogs"}, morphemes2 := {bytes "cats"},
      score := .parameterNameBased (.fin 100) (some (.fin (1 / 3))) }],
    by decide +kernel, _, List.mem_cons_self, rfl, rfl⟩

theorem exchangedPets_under_failures_iff :
    ReportsUnder (checkerOver {} (some (exactRows swappingTable))) comparisonFails exchangedPets
        .coverBased 0 1 ↔
      ¬ (.fin 1 > (checkerOver {} (some (exactRows swappingTable)) :
          Checker XRat).opts.coverSwappedStatsVettingThreshold ∧
        LosesComparison (exactRows swappingTable) exchangedPets (0, 1)
          (skip (stepsBefore (checkerOver {} (some (exactRows swappingTable))) exchangedPets (0, 1))
            comparisonFails)) :=
  reported_under_failures_iff (checkerOver {} (some (exactRows swappingTable)))
    (exactRows swappingTable) exchangedPets comparisonFails 0 1 rfl exchangedPets_reported

/-- The failure of one lookup hides a pair that the parameter names and the table report. -/
theorem exchangedPets_hidden :
    WithinSchema swappingTable ∧
      ReportsPair (withoutStats (checkerOver {} (some (exactRows swappingTable)))) exchangedPets
        .coverBased 0 1 ∧
      ReportsPair (checkerOver {} (some (exactRows swappingTable))) exchangedPets .coverBased 0 1 ∧
      ¬ ReportsUnder (checkerOver {} (some (exactRows swappingTable))) comparisonFails exchangedPets
        .coverBased 0 1 := by
  refine ⟨⟨by decide +kernel, by decide +kernel⟩, ?_, exchangedPets_reported, fun h => ?_⟩
  · exact ⟨[{ arg1 := 1, arg2 := 2, morphemes1 := {bytes "dogs"}, morphemes2 := {bytes "cats"},
               score := .parameterNameBased (.fin 100) none }],
      by decide +kernel, _, List.mem_cons_self, rfl, rfl⟩
  · obtain ⟨rs, hrs, r, hr, -⟩ := h
    have hnone : ((checkerOver {} (some (exactRows swappingTable))).checkSite comparisonFails
        exchangedPets .coverBased).1 = .ok [] := by decide +kernel
    cases hrs.symm.trans hnone
    exact List.not_mem_nil hr

end SwapDetector.Proofs.FailedVetting
