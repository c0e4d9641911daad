import SwapDetector.Proofs.Lookups
import SwapDetector.Proofs.PairEnumeration

/-! # The checker computes the judgement of each pair

Every stage of `checkPair` is followed along the source, in a session in which
no step fails. `results_eq` is the outcome of a whole `CheckSite` call: the
judgements of all pairs in lexicographic order, up to the first one that fails.
-/
namespace SwapDetector.Proofs.Refinement
open SwapDetector.Base.ExactFloat SwapDetector.Base.Exec SwapDetector.Base.OrderedSet
open SwapDetector.Base.Permutations
open SwapDetector.Model.Bytes SwapDetector.Model.IdentifierSplitting SwapDetector.Model.Types
open SwapDetector.Model.StatsDatabase SwapDetector.Model.SwappedArgChecker
open SwapDetector.Spec.Judgement SwapDetector.Proofs.Lookups SwapDetector.Proofs.PairEnumeration

variable {F : Type}

/-! ## Names and assertions -/

section Names

theorem bind_of_eq_pure {α β : Type} {x : CheckM F α} {a : α} {f : α → CheckM F β}
    (h : x = pure a) : x >>= f = f a := by
  rw [h, pure_bind]

theorem assertThat_eq {p : Prop} [Decidable p] (f : Fault) (h : p) :
    assertThat p f = (pure () : CheckM F Unit) := if_pos h

theorem suffixCheck_eq {one : ByteString} (two : ByteString) (hone : one ≠ []) :
    suffixCheck one two = (pure (suffixTwins one two) : CheckM F Bool) := by
  unfold suffixCheck suffixTwins
  refine (bind_of_eq_pure (assertThat_eq _ ⟨hone, hone⟩)).trans ?_
  rw [List.getLast?_eq_getLast_of_ne_nil hone]
  simp only [Option.any_some, Bool.and_self]

theorem suffixCheck_empty (two : ByteString) :
    suffixCheck [] two = (throw .emptyName : CheckM F Bool) := rfl

/-- The morphemes of an argument that exists. -/
theorem morphemeCollector_eq (site : CallSite) {pos : Nat}
    (hpos : pos < site.positionalArgNames.length) :
    morphemeCollector site pos =
      (pure ⟨argMorphemes (site.positionalArgNames[pos]?.getD []), pos⟩ : CheckM F MorphemeSet) := by
  unfold morphemeCollector argMorphemes
  rw [List.getElem?_eq_getElem hpos]
  rfl

/-- An argument with a morpheme has a last component. -/
theorem getLastArgName_eq (site : CallSite) (pos : Nat)
    (harg : argMorphemes (site.positionalArgNames[pos]?.getD []) ≠ ∅) :
    getLastArgName site pos =
      (pure (some (lastName (site.positionalArgNames[pos]?.getD []))) :
        CheckM F (Option ByteString)) := by
  unfold getLastArgName lastName
  cases hnames : site.positionalArgNames[pos]? with
  | none => exact absurd (by simp [hnames, argMorphemes]) harg
  | some names =>
    cases hlast : names.getLast? with
    | none =>
      rw [List.getLast?_eq_none_iff] at hlast
      exact absurd (by simp [hnames, hlast, argMorphemes]) harg
    | some name => simp [hlast]

/-- A parameter whose name is not empty exists. -/
theorem deref_paramName (site : CallSite) (pos : Nat) (h : (getParamName site pos).getD [] ≠ []) :
    deref (getParamName site pos) =
      (pure ((getParamName site pos).getD []) : CheckM F ByteString) := by
  cases hname : getParamName site pos with
  | none => exact absurd (by simp [hname]) h
  | some name => rfl

end Names

variable [FloatArith F]

/-! ## The match of two sets -/

/-- A search that has found a value ends with a value. -/
theorem foldl_moreExtreme_isSome (arg : Finset ByteString) (bias : Bias) (param : List ByteString) :
    ∀ extreme : Option F, extreme.isSome → (param.foldl (moreExtreme arg bias) extreme).isSome := by
  induction param with
  | nil => exact fun _ h => h
  | cons morph param ih =>
    intro extreme h
    obtain ⟨e, rfl⟩ := Option.isSome_iff_exists.mp h
    refine ih _ ?_
    simp only [moreExtreme]
    split <;> rfl

/-- A match against a nonempty set finds an extreme. -/
theorem morphemesMatch_eq {arg param : Finset ByteString} (bias : Bias) (hparam : param ≠ ∅) :
    morphemesMatch arg param bias = (pure (matchValue arg param bias) : CheckM F F) := by
  unfold morphemesMatch matchValue
  have hsome : ((inOrder param).foldl (moreExtreme (F := F) arg bias) none).isSome := by
    obtain ⟨morph, rest, horder⟩ := inOrder_ne_nil hparam
    rw [horder]
    exact foldl_moreExtreme_isSome arg bias rest _ rfl
  obtain ⟨e, he⟩ := Option.isSome_iff_exists.mp hsome
  rw [he]
  rfl

/-! ## The cover-based check -/

section Pair
variable (opts : CheckerConfiguration F) (weights : Option (List (Row F))) (site : CallSite)
  (whichCheck : Check) (p : Nat × Nat)

theorem vetMorpheme_steady (db : List (Row F)) (pos comparedToPos : Nat) (statsScore : Option F)
    (morph : ByteString) :
    Steady (vetMorpheme site pos comparedToPos statsScore morph) (ready (some db))
      (.ok (vetStep (rowsAt db site.callDecl.fullyQualifiedName pos)
        (rowsAt db site.callDecl.fullyQualifiedName comparedToPos) statsScore morph)) := by
  unfold vetMorpheme vetStep
  refine (morphemeConfidenceAtPosition_steady db site morph pos comparedToPos).bind_ok ?_
  cases confidenceIn (rowsAt db site.callDecl.fullyQualifiedName pos)
    (rowsAt db site.callDecl.fullyQualifiedName comparedToPos) morph <;> exact Steady.pure _

/-- The vetting of a list of morphemes. -/
theorem foldlM_vetMorpheme_steady (db : List (Row F)) (pos comparedToPos : Nat)
    (morphs : List ByteString) (statsScore : Option F) :
    Steady (morphs.foldlM (vetMorpheme site pos comparedToPos) statsScore) (ready (some db))
      (.ok (morphs.foldl (vetStep (rowsAt db site.callDecl.fullyQualifiedName pos)
        (rowsAt db site.callDecl.fullyQualifiedName comparedToPos)) statsScore)) :=
  Steady.foldlM_ok morphs statsScore fun score morph _ =>
    vetMorpheme_steady site db pos comparedToPos score morph

theorem vetWithStats_steady :
    Steady (vetWithStats site (pairData opts weights site whichCheck p).unique1
      (pairData opts weights site whichCheck p).unique2 p.1 p.2) (ready weights)
      (.ok (pairData opts weights site whichCheck p).statsScore) := by
  unfold vetWithStats
  refine Steady.get.bind_ok ?_
  cases weights with
  | none => exact Steady.pure none
  | some db =>
    refine (validStats_steady db).bind_ok ?_
    exact (foldlM_vetMorpheme_steady site db _ _ _ _).bind_ok
      (foldlM_vetMorpheme_steady site db _ _ _ _)

/-- The last stage of the cover-based check: the statistics vet a candidate. -/
def vetCandidate (d : PairData F) : CheckM F (Option (Result F)) := do
  let statsScore ← vetWithStats site d.unique1 d.unique2 d.pos1 d.pos2
  if statsScore.any (· > d.opts.coverSwappedStatsVettingThreshold) then return none
  return some { d.coverResult with score := .parameterNameBased d.worstPsi statsScore }

/-- What follows the gates in the cover-based check: the two suffix filters, then the vetting. -/
def filterStage (d : PairData F) : CheckM F (Option (Result F)) := do
  let param1 ← deref (getParamName site d.pos1)
  let param2 ← deref (getParamName site d.pos2)
  if ← suffixCheck param1 param2 then return none
  let arg1 ← deref (← getLastArgName site d.pos1)
  let arg2 ← deref (← getLastArgName site d.pos2)
  if ← suffixCheck arg1 arg2 then return none
  vetCandidate site d

/-- The filters make a pair that passes the gates a candidate. -/
theorem filterStage_eq (hnamed : (pairData opts weights site whichCheck p).Named)
    (hgates : (pairData opts weights site whichCheck p).Gates)
    (harg1 : argMorphemes (site.positionalArgNames[p.1]?.getD []) ≠ ∅)
    (harg2 : argMorphemes (site.positionalArgNames[p.2]?.getD []) ≠ ∅) :
    filterStage site (pairData opts weights site whichCheck p) =
      (do
        let passed ← MonadExcept.ofExcept (pairData opts weights site whichCheck p).candidate
        if passed then vetCandidate site (pairData opts weights site whichCheck p)
        else pure none) := by
  let d := pairData opts weights site whichCheck p
  unfold filterStage
  refine (bind_of_eq_pure (deref_paramName site p.1 hnamed.1)).trans ?_
  refine (bind_of_eq_pure (deref_paramName site p.2 hnamed.2)).trans ?_
  refine (bind_of_eq_pure (suffixCheck_eq _ hnamed.1)).trans ?_
  rw [PairData.candidate]
  by_cases hparamTwins : suffixTwins d.param1 d.param2
  · rw [if_pos (Or.inr hparamTwins)]
    exact if_pos hparamTwins
  rw [if_neg (not_or.mpr ⟨not_not.mpr hgates, hparamTwins⟩)]
  refine (if_neg hparamTwins).trans ?_
  refine (bind_of_eq_pure (getLastArgName_eq site p.1 harg1)).trans ?_
  refine (bind_of_eq_pure rfl).trans ?_
  refine (bind_of_eq_pure (getLastArgName_eq site p.2 harg2)).trans ?_
  refine (bind_of_eq_pure rfl).trans ?_
  by_cases hempty : lastName d.arg1 = []
  · rw [if_pos hempty]
    have hthrow : suffixCheck (lastName d.arg1) (lastName d.arg2) =
        (throw .emptyName : CheckM F Bool) := by
      rw [hempty]
      exact suffixCheck_empty _
    exact congrArg (· >>= _) hthrow
  rw [if_neg hempty]
  refine (bind_of_eq_pure (suffixCheck_eq _ hempty)).trans ?_
  by_cases hargTwins : suffixTwins (lastName d.arg1) (lastName d.arg2)
  · rw [hargTwins]
    exact if_pos hargTwins
  · rw [Bool.not_eq_true] at hargTwins
    rw [hargTwins]
    exact if_neg (ne_true_of_eq_false hargTwins)

/-- In any session, the check of a pair whose morpheme sets are not empty decides
whether the pair is a candidate, and only then reads the statistics. -/
theorem checkForCoverBasedSwap_eq (hnamed : (pairData opts weights site whichCheck p).Named)
    (hparam1 : split ((getParamName site p.1).getD []) ≠ ∅)
    (hparam2 : split ((getParamName site p.2).getD []) ≠ ∅)
    (harg1 : argMorphemes (site.positionalArgNames[p.1]?.getD []) ≠ ∅)
    (harg2 : argMorphemes (site.positionalArgNames[p.2]?.getD []) ≠ ∅) :
    checkForCoverBasedSwap opts
      (⟨split ((getParamName site p.1).getD []), p.1⟩, ⟨split ((getParamName site p.2).getD []), p.2⟩)
      (⟨argMorphemes (site.positionalArgNames[p.1]?.getD []), p.1⟩,
        ⟨argMorphemes (site.positionalArgNames[p.2]?.getD []), p.2⟩) site =
      (do
        let passed ← MonadExcept.ofExcept (pairData opts weights site whichCheck p).candidate
        if passed then vetCandidate site (pairData opts weights site whichCheck p)
        else pure none) := by
  let d := pairData opts weights site whichCheck p
  have hbail : ¬ d.Gates → (pure none : CheckM F (Option (Result F))) =
      (do
        let passed ← MonadExcept.ofExcept d.candidate
        if passed then vetCandidate site d else pure none) := by
    intro h
    rw [PairData.candidate, if_pos (Or.inl h)]
    rfl
  unfold checkForCoverBasedSwap
  refine (bind_of_eq_pure (assertThat_eq _ ⟨hparam1, hparam2, harg1, harg2⟩)).trans ?_
  -- the gates, in the order in which the source tests them
  by_cases hsizes : (split d.param1).card ≠ (split d.param2).card ∨
      (argMorphemes d.arg1).card ≠ (argMorphemes d.arg2).card ∨
      (split d.param1).card ≠ (argMorphemes d.arg1).card
  · refine (if_pos hsizes).trans (hbail fun g => ?_)
    obtain ⟨hparams, hargs, hboth⟩ := g.sizes
    rcases hsizes with hne | hne | hne
    · exact hne hparams
    · exact hne hargs
    · exact hne hboth
  refine (if_neg hsizes).trans ?_
  by_cases hunique : split d.param1 \ split d.param2 = ∅ ∨ split d.param2 \ split d.param1 = ∅ ∨
      d.unique1 = ∅ ∨ d.unique2 = ∅
  · refine (if_pos hunique).trans (hbail fun g => ?_)
    obtain ⟨hparam1, hparam2, harg1, harg2⟩ := g.unique
    rcases hunique with hempty | hempty | hempty | hempty
    · exact hparam1 hempty
    · exact hparam2 hempty
    · exact harg1 hempty
    · exact harg2 hempty
  refine (if_neg hunique).trans ?_
  obtain ⟨hunique1, hunique2, -⟩ := not_or.mp hunique |>.imp_right not_or.mp
  refine (bind_of_eq_pure (morphemesMatch_eq .optimistic hunique1)).trans ?_
  by_cases hexisting1 : matchValue d.unique1 (split d.param1 \ split d.param2) .optimistic >
      opts.existingMorphemeMatchMax
  · exact (if_pos hexisting1).trans (hbail fun g => g.existing1 hexisting1)
  refine (if_neg hexisting1).trans ?_
  refine (bind_of_eq_pure (morphemesMatch_eq .optimistic hunique2)).trans ?_
  by_cases hexisting2 : matchValue d.unique2 (split d.param2 \ split d.param1) .optimistic >
      opts.existingMorphemeMatchMax
  · exact (if_pos hexisting2).trans (hbail fun g => g.existing2 hexisting2)
  refine (if_neg hexisting2).trans ?_
  refine (bind_of_eq_pure (morphemesMatch_eq .pessimistic hunique2)).trans ?_
  by_cases hswapped1 : matchValue d.unique1 (split d.param2 \ split d.param1) .pessimistic <
      opts.swappedMorphemeMatchMin
  · exact (if_pos hswapped1).trans (hbail fun g => g.swapped1 hswapped1)
  refine (if_neg hswapped1).trans ?_
  refine (bind_of_eq_pure (morphemesMatch_eq .pessimistic hunique1)).trans ?_
  by_cases hswapped2 : matchValue d.unique2 (split d.param1 \ split d.param2) .pessimistic <
      opts.swappedMorphemeMatchMin
  · exact (if_pos hswapped2).trans (hbail fun g => g.swapped2 hswapped2)
  refine (if_neg hswapped2).trans ?_
  have hgates : d.Gates := by
    refine ⟨?_, ?_, hexisting1, hexisting2, hswapped1, hswapped2⟩
    · obtain ⟨hparams, hargs, hboth⟩ := not_or.mp hsizes |>.imp_right not_or.mp
      exact ⟨not_not.mp hparams, not_not.mp hargs, not_not.mp hboth⟩
    · exact not_or.mp hunique |>.imp_right fun h => not_or.mp h |>.imp_right not_or.mp
  exact filterStage_eq opts weights site whichCheck p hnamed hgates harg1 harg2

theorem vetCandidate_steady :
    Steady (vetCandidate site (pairData opts weights site whichCheck p)) (ready weights)
      (.ok (if (pairData opts weights site whichCheck p).vetoed then none
        else some (pairData opts weights site whichCheck p).coverResult)) := by
  refine (vetWithStats_steady opts weights site whichCheck p).bind_ok ?_
  exact Steady.ite_ok (fun _ => Steady.pure none) fun _ => Steady.pure _

/-- The first part of the loop body: the cover-based check, when it runs. -/
def coverStage (d : PairData F) : CheckM F (Option (Result F)) :=
  if d.coverRuns then do
    let passed ← MonadExcept.ofExcept d.candidate
    if passed then vetCandidate site d else pure none
  else pure none

theorem coverStage_steady :
    Steady (coverStage site (pairData opts weights site whichCheck p)) (ready weights)
      (pairData opts weights site whichCheck p).coverPart := by
  unfold coverStage PairData.coverPart PairData.coverOutcome
  by_cases hruns : (pairData opts weights site whichCheck p).coverRuns
  · rw [if_pos hruns, if_pos hruns]
    cases (pairData opts weights site whichCheck p).candidate with
    | error f => exact Steady.bind_error (Steady.throw f)
    | ok passed =>
      refine (Steady.pure passed).bind_ok ?_
      cases passed with
      | false => exact Steady.pure none
      | true =>
        have hvet := vetCandidate_steady opts weights site whichCheck p
        by_cases hvetoed : (pairData opts weights site whichCheck p).vetoed
        · simpa [Except.map, hvetoed] using hvet
        · simpa [Except.map, hvetoed] using hvet
  · rw [if_neg hruns, if_neg hruns]
    exact Steady.pure none

/-! ## The statistics-based check -/

theorem checkMorphemePair_steady (db : List (Row F)) (morph1 morph2 : ByteString) :
    Steady (checkMorphemePair opts
      (⟨argMorphemes (site.positionalArgNames[p.1]?.getD []), p.1⟩,
        ⟨argMorphemes (site.positionalArgNames[p.2]?.getD []), p.2⟩) site morph1 morph2)
      (ready (some db))
      (.ok ((pairData opts (some db) site whichCheck p).swapOf
        (rowsAt db site.callDecl.fullyQualifiedName p.1,
          rowsAt db site.callDecl.fullyQualifiedName p.2) morph1 morph2)) := by
  unfold checkMorphemePair PairData.swapOf
  refine (morphemeConfidenceAtPosition_steady db site morph1 p.2 p.1).bind_ok ?_
  refine (morphemeConfidenceAtPosition_steady db site morph2 p.1 p.2).bind_ok ?_
  cases confidenceIn (rowsAt db site.callDecl.fullyQualifiedName p.2)
      (rowsAt db site.callDecl.fullyQualifiedName p.1) morph1 with
  | none => exact Steady.pure none
  | some psi1 =>
    cases confidenceIn (rowsAt db site.callDecl.fullyQualifiedName p.1)
        (rowsAt db site.callDecl.fullyQualifiedName p.2) morph2 with
    | none => exact Steady.pure none
    | some psi2 =>
      refine Steady.ite_ok (fun _ => Steady.pure none) fun _ => ?_
      refine Steady.ite_ok (fun _ => Steady.pure none) fun _ => ?_
      refine (fit_steady db morph1 site p.2).bind_ok ((fit_steady db morph2 site p.1).bind_ok ?_)
      exact Steady.ite_ok (fun _ => Steady.pure _) fun _ => Steady.pure none

theorem checkForStatisticsBasedSwap_steady (params : MorphemeSet × MorphemeSet)
    (db : List (Row F)) :
    Steady (checkForStatisticsBasedSwap opts params
      (⟨argMorphemes (site.positionalArgNames[p.1]?.getD []), p.1⟩,
        ⟨argMorphemes (site.positionalArgNames[p.2]?.getD []), p.2⟩) site) (ready (some db))
      (.ok (pairData opts (some db) site whichCheck p).statsOutcome) := by
  unfold checkForStatisticsBasedSwap PairData.statsOutcome
  refine Steady.findSomeM _ fun morph1 _ => ?_
  exact Steady.findSomeM _ fun morph2 _ =>
    checkMorphemePair_steady opts site whichCheck p db morph1 morph2

/-! ## Call sites -/

/-- The second part of the loop body, after the cover-based check. -/
def statsStage : CheckM F (Option (Result F)) := do
  if (whichCheck = .all ∨ whichCheck = .statsBased) ∧ (← get).stats.isSome then
    let _ ← validStats
    checkForStatisticsBasedSwap opts
      (⟨split ((getParamName site p.1).getD []), p.1⟩, ⟨split ((getParamName site p.2).getD []), p.2⟩)
      (⟨argMorphemes (site.positionalArgNames[p.1]?.getD []), p.1⟩,
        ⟨argMorphemes (site.positionalArgNames[p.2]?.getD []), p.2⟩) site
  else pure none

theorem statsStage_steady :
    Steady (statsStage opts site whichCheck p) (ready weights)
      (.ok (pairData opts weights site whichCheck p).statsPart) := by
  unfold statsStage PairData.statsPart
  refine Steady.get.bind_ok ?_
  cases weights with
  | none =>
    refine Steady.ite_neg (by simp [ready]) ?_
    have hnone : (pairData opts none site whichCheck p).statsOutcome = none := rfl
    rw [hnone, ite_self]
    exact Steady.pure none
  | some db =>
    by_cases hruns : (pairData opts (some db) site whichCheck p).statsRuns
    · refine Steady.ite_pos ⟨hruns, rfl⟩ ((validStats_steady db).bind_ok ?_)
      rw [if_pos hruns]
      exact checkForStatisticsBasedSwap_steady opts site whichCheck p _ db
    · rw [if_neg hruns]
      exact Steady.ite_neg (fun h => hruns h.1) (Steady.pure none)

/-- In any session, the loop body is its two stages behind the tests of the
morpheme sets. The table `weights` takes no part in these tests. -/
theorem checkPair_eq (hp1 : p.1 < site.positionalArgNames.length)
    (hp2 : p.2 < site.positionalArgNames.length) :
    checkPair opts site whichCheck p =
      (if argMorphemes (pairData opts weights site whichCheck p).arg1 = ∅ ∨
          argMorphemes (pairData opts weights site whichCheck p).arg2 = ∅ then pure none
      else if (pairData opts weights site whichCheck p).Unusable then pure none
      else do
        match ← coverStage site (pairData opts weights site whichCheck p) with
        | some r => return some r
        | none => statsStage opts site whichCheck p) := by
  let d := pairData opts weights site whichCheck p
  have hempty {A B : Finset ByteString} :
      (removeLowQualityMorphemes A || removeLowQualityMorphemes B) = true ↔ A = ∅ ∨ B = ∅ := by
    simp [removeLowQualityMorphemes]
  unfold checkPair
  refine (bind_of_eq_pure (morphemeCollector_eq site hp1)).trans ?_
  refine (bind_of_eq_pure (morphemeCollector_eq site hp2)).trans ?_
  by_cases hargs : argMorphemes d.arg1 = ∅ ∨ argMorphemes d.arg2 = ∅
  · rw [if_pos hargs]
    exact if_pos (hempty.mpr hargs)
  rw [if_neg hargs]
  refine (if_neg (mt hempty.mp hargs)).trans ?_
  by_cases hnamed : d.Named
  · refine (if_pos hnamed).trans ?_
    by_cases hparams : split d.param1 = ∅ ∨ split d.param2 = ∅
    · have hunusable : d.Unusable := ⟨hnamed, hparams⟩
      rw [if_pos hunusable]
      exact if_pos (hempty.mpr hparams)
    have husable : ¬ d.Unusable := fun h => hparams h.2
    rw [if_neg husable, coverStage]
    refine (if_neg (mt hempty.mp hparams)).trans ?_
    by_cases hcover : whichCheck = .all ∨ whichCheck = .coverBased
    · have hruns : d.coverRuns := ⟨hnamed, hcover⟩
      rw [if_pos hruns, ← checkForCoverBasedSwap_eq opts weights site whichCheck p hnamed
        (not_or.mp hparams).1 (not_or.mp hparams).2 (not_or.mp hargs).1 (not_or.mp hargs).2]
      refine (if_pos hcover).trans (bind_congr fun r => ?_)
      cases r <;> rfl
    · have hruns : ¬ d.coverRuns := fun h => hcover h.2
      rw [if_neg hruns]
      exact if_neg hcover
  · have husable : ¬ d.Unusable := fun h => hnamed h.1
    have hruns : ¬ d.coverRuns := fun h => hnamed h.1
    rw [if_neg husable, coverStage, if_neg hruns]
    exact if_neg hnamed

/-- The body of the loop computes the judgement of its pair. -/
theorem checkPair_steady (hp1 : p.1 < site.positionalArgNames.length)
    (hp2 : p.2 < site.positionalArgNames.length) :
    Steady (checkPair opts site whichCheck p) (ready weights)
      (pairData opts weights site whichCheck p).judge := by
  let d := pairData opts weights site whichCheck p
  rw [checkPair_eq opts weights site whichCheck p hp1 hp2, PairData.judge]
  by_cases hargs : argMorphemes d.arg1 = ∅ ∨ argMorphemes d.arg2 = ∅
  · rw [if_pos hargs, if_pos hargs]
    exact Steady.pure none
  rw [if_neg hargs, if_neg hargs]
  by_cases hunusable : d.Unusable
  · rw [if_pos hunusable, if_pos hunusable]
    exact Steady.pure none
  rw [if_neg hunusable, if_neg hunusable]
  have hcover := coverStage_steady opts weights site whichCheck p
  cases hpart : d.coverPart with
  | error f => exact (hpart ▸ hcover).bind_error
  | ok r =>
    refine (hpart ▸ hcover).bind_ok ?_
    cases r with
    | none => exact statsStage_steady opts weights site whichCheck p
    | some r => exact Steady.pure (some r)

end Pair

theorem checkSite_steady (opts : CheckerConfiguration F) (weights : Option (List (Row F)))
    (site : CallSite) (whichCheck : Check) :
    Steady (checkSite opts site whichCheck) (ready weights)
      (if site.positionalArgNames.length < 2 ^ 32 then judgeAll opts weights site whichCheck
        else .error .missingBit) := by
  unfold checkSite judgeAll
  by_cases hfew : site.positionalArgNames.length < 2
  · refine Steady.ite_pos hfew ?_
    rw [if_pos (by omega), allPairs_of_lt_two hfew]
    exact Steady.pure []
  refine Steady.ite_neg hfew ?_
  by_cases hmany : site.positionalArgNames.length < 2 ^ 32
  · rw [if_pos hmany, pairwiseCombinations_ok (by omega) hmany]
    refine (Steady.pure _).bind_ok ?_
    rw [← foldlM_push_nil]
    refine Steady.foldlM _ _ fun results p hp => ?_
    have hlt := lt_of_mem_allPairs hp
    exact (checkPair_steady opts weights site whichCheck p hlt.1 hlt.2).bind fun r _ =>
      Steady.pure _
  · rw [if_neg hmany, pairwiseCombinations_large (by omega)]
    exact Steady.bind_error (Steady.throw _)

/-- A checker between two calls holds its table and two statements as prepared. -/
theorem stats_eq (c : Checker F) : c.stats = c.weights.map Statistics.loaded := by
  cases hstats : c.stats with
  | none => simp [Checker.weights, hstats]
  | some s =>
    obtain ⟨db, rfl⟩ := c.idle s hstats
    simp [Checker.weights, hstats, Statistics.loaded]

/-- **The outcome of `CheckSite`**: when no step fails, it depends on the
checker's configuration and table only, and is made of the judgements of the
pairs. From 2^32 arguments on, the first index pair is not found. -/
theorem results_eq (c : Checker F) (site : CallSite) (whichCheck : Check) :
    c.results site whichCheck =
      if site.positionalArgNames.length < 2 ^ 32 then judgeAll c.opts c.weights site whichCheck
      else .error .missingBit := by
  have hrun := checkSite_steady c.opts c.weights site whichCheck
  unfold ready at hrun
  rw [← stats_eq] at hrun
  exact congrArg Prod.fst hrun

end SwapDetector.Proofs.Refinement
