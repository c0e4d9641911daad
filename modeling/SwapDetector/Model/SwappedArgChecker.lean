import SwapDetector.Base.OrderedSet
import SwapDetector.Base.Permutations
import SwapDetector.Model.IdentifierSplitting
import SwapDetector.Model.StatsDatabase

/-! # The checker (SwappedArgChecker.cpp)

The functions of the checker in the order of the source. A computation reads the
statistics through its session, and ends in a `Fault` when an assertion or a
library precondition does not hold.
-/
namespace SwapDetector.Model.SwappedArgChecker
open SwapDetector.Base.ExactFloat SwapDetector.Base.Exec SwapDetector.Base.OrderedSet
open SwapDetector.Base.Permutations SwapDetector.Base.PreparedStatement
open SwapDetector.Model.Bytes SwapDetector.Model.IdentifierSplitting
open SwapDetector.Model.Types SwapDetector.Model.StatsDatabase

variable {F : Type} [FloatArith F]

/-! ## Pairs of argument positions -/

/-- `~0U`, the 32-bit mark for "no index yet". -/
def noIndex : Nat := 4294967295

/-- The loop over the indices of a bit vector that finds its two set bits. -/
def findBits : List Bool → Nat → Nat → Nat → Except Fault (Nat × Nat)
  | [], _, first, second => return (first, second)
  | false :: bitset, idx, first, second => findBits bitset (idx + 1) first second
  | true :: bitset, idx, first, second =>
    if first = noIndex then findBits bitset (idx + 1) idx second
    else if second = noIndex then findBits bitset (idx + 1) first idx
    else throw .thirdBit

/-- The `do` loop over the arrangements of a bit vector, at most `bound` times. -/
def combinationLoop : Nat → List Bool → List (Nat × Nat) → Except Fault (List (Nat × Nat))
  | 0, _, _ => throw .diverged
  | bound + 1, bitset, ret => do
    let (first, second) ← findBits bitset 0 noIndex noIndex
    if first ≠ noIndex ∧ second ≠ noIndex then
      match prevPermutation bitset with
      | some bitset => combinationLoop bound bitset (ret ++ [(first, second)])
      | none => return ret ++ [(first, second)]
    else throw .missingBit

/-- The zero-based indices of all pairwise combinations of a list. -/
def pairwiseCombinations (totalCount : Nat) : Except Fault (List (Nat × Nat)) :=
  let bitset := ([true, true] ++ List.replicate (totalCount - 2) false).take totalCount
  combinationLoop (totalCount * totalCount) bitset []

/-! ## Names -/

/-- The parameter name, if any, at a zero-based index. -/
def getParamName (site : CallSite) (pos : Nat) : Option ByteString :=
  match site.callDecl.paramNames with
  | none => none
  | some names => if pos ≥ names.length then none else names[pos]?

/-- The last identifier in the argument name, if any, at a zero-based index. -/
def getLastArgName (site : CallSite) (pos : Nat) : CheckM F (Option ByteString) :=
  match site.positionalArgNames[pos]? with
  | none => return none
  | some names => match names.getLast? with
    | some name => return some name
    | none => throw .backOfEmpty

/-! ## The cover-based check -/

/-- Biases of the match between two sets of morphemes. -/
inductive Bias where
  | pessimistic
  | optimistic

/-- Whether `lhs` is more extreme than `rhs` under a bias. -/
def biasComp (bias : Bias) (lhs rhs : F) : Bool :=
  match bias with
  | .pessimistic => lhs < rhs
  | .optimistic => lhs > rhs

def anyAreSynonyms (morpheme : ByteString) (potentialSynonyms : Finset ByteString) : F :=
  if (inOrder potentialSynonyms).any (· == morpheme) then FloatArith.ofRat 1 else FloatArith.ofRat 0

def nonLowEntropyDifference (lhs rhs : Finset ByteString) : Finset ByteString := lhs \ rhs

/-- One round of the search for the extreme match. -/
def moreExtreme (arg : Finset ByteString) (bias : Bias) (extreme : Option F)
    (paramMorph : ByteString) : Option F :=
  let val := anyAreSynonyms paramMorph arg
  match extreme with
  | none => some val
  | some e => if biasComp bias val e then some val else some e

def morphemesMatch (arg param : Finset ByteString) (bias : Bias) : CheckM F F :=
  match (inOrder param).foldl (moreExtreme arg bias) none with
  | some extreme => return extreme
  | none => throw .noExtreme

/-- Whether two names differ in a numeric suffix. Both suffixes are taken from
the first name. -/
def suffixCheck (one two : ByteString) : CheckM F Bool := do
  assertThat (one ≠ [] ∧ one ≠ []) .emptyName
  match one.getLast?, one.getLast? with
  | some suf1, some suf2 =>
    return isdigit (charToInt suf1) && isdigit (charToInt suf2) && one.dropLast == two.dropLast
  | _, _ => throw .backOfEmpty

def morphemeSetDifference (one two : MorphemeSet) : MorphemeSet :=
  ⟨one.morphemes \ two.morphemes, one.position⟩

/-- The confidence that a morpheme belongs at `pos` rather than at `comparedToPos`. -/
def morphemeConfidenceAtPosition (callSite : CallSite) (morph : ByteString)
    (pos comparedToPos : Nat) : CheckM F (Option F) := do
  let _ ← validStats
  let pos1 ← weightForMorphemeAtPos callSite.callDecl.fullyQualifiedName pos morph
  let pos2 ← weightForMorphemeAtPos callSite.callDecl.fullyQualifiedName comparedToPos morph
  match pos1, pos2 with
  | some _, none => return some (FloatArith.ofRat 1)
  | none, some _ => return some (FloatArith.ofRat 0)
  | some w1, some w2 => return some (w1 / w2)
  | none, none => return none

/-- One round of the vetting loops: the maximum of the confidences so far. -/
def vetMorpheme (site : CallSite) (pos comparedToPos : Nat) (statsScore : Option F)
    (morph : ByteString) : CheckM F (Option F) := do
  match ← morphemeConfidenceAtPosition site morph pos comparedToPos with
  | some val => return some (stdMax (statsScore.getD (FloatArith.ofRat 0)) val)
  | none => return statsScore

/-- The highest confidence that an argument morpheme is where it belongs, when
there are statistics. -/
def vetWithStats (site : CallSite) (uniqueMorphsArg1 uniqueMorphsArg2 : Finset ByteString)
    (pos1 pos2 : Nat) : CheckM F (Option F) := do
  if (← get).stats.isSome then
    let _ ← validStats
    let statsScore ← (inOrder uniqueMorphsArg1).foldlM (vetMorpheme site pos1 pos2) none
    (inOrder uniqueMorphsArg2).foldlM (vetMorpheme site pos2 pos1) statsScore
  else return none

def checkForCoverBasedSwap (opts : CheckerConfiguration F) (params args : MorphemeSet × MorphemeSet)
    (site : CallSite) : CheckM F (Option (Result F)) := do
  let param1Morphs := params.1.morphemes
  let param2Morphs := params.2.morphemes
  let arg1Morphs := args.1.morphemes
  let arg2Morphs := args.2.morphemes
  assertThat (param1Morphs ≠ ∅ ∧ param2Morphs ≠ ∅ ∧ arg1Morphs ≠ ∅ ∧ arg2Morphs ≠ ∅)
    .emptyMorphemes
  if param1Morphs.card ≠ param2Morphs.card ∨ arg1Morphs.card ≠ arg2Morphs.card ∨
      param1Morphs.card ≠ arg1Morphs.card then
    return none
  -- duplicate morphemes do not count
  let uniqueMorphsParam1 := nonLowEntropyDifference param1Morphs param2Morphs
  let uniqueMorphsParam2 := nonLowEntropyDifference param2Morphs param1Morphs
  let uniqueMorphsArg1 := nonLowEntropyDifference arg1Morphs arg2Morphs
  let uniqueMorphsArg2 := nonLowEntropyDifference arg2Morphs arg1Morphs
  if uniqueMorphsParam1 = ∅ ∨ uniqueMorphsParam2 = ∅ ∨ uniqueMorphsArg1 = ∅ ∨
      uniqueMorphsArg2 = ∅ then
    return none
  -- the morphemes seem good where they are
  let mm_ai_pi ← morphemesMatch uniqueMorphsArg1 uniqueMorphsParam1 .optimistic
  if mm_ai_pi > opts.existingMorphemeMatchMax then return none
  let mm_aj_pj ← morphemesMatch uniqueMorphsArg2 uniqueMorphsParam2 .optimistic
  if mm_aj_pj > opts.existingMorphemeMatchMax then return none
  -- the morphemes seem bad when swapped
  let mm_ai_pj ← morphemesMatch uniqueMorphsArg1 uniqueMorphsParam2 .pessimistic
  if mm_ai_pj < opts.swappedMorphemeMatchMin then return none
  let mm_aj_pi ← morphemesMatch uniqueMorphsArg2 uniqueMorphsParam1 .pessimistic
  if mm_aj_pi < opts.swappedMorphemeMatchMin then return none
  let param1 ← deref (getParamName site params.1.position)
  let param2 ← deref (getParamName site params.2.position)
  if ← suffixCheck param1 param2 then return none
  let arg1 ← deref (← getLastArgName site args.1.position)
  let arg2 ← deref (← getLastArgName site args.2.position)
  if ← suffixCheck arg1 arg2 then return none
  let psi_i := mm_ai_pj / (mm_aj_pj + FloatArith.ofRat (1 / 100))
  let psi_j := mm_aj_pi / (mm_ai_pi + FloatArith.ofRat (1 / 100))
  let worst_psi := stdMin psi_i psi_j
  let statsScore ← vetWithStats site uniqueMorphsArg1 uniqueMorphsArg2 args.1.position
    args.2.position
  -- the confidence is high that this is not a swap
  if statsScore.any (· > opts.coverSwappedStatsVettingThreshold) then return none
  return some
    { arg1 := args.1.position + 1
      arg2 := args.2.position + 1
      morphemes1 := uniqueMorphsArg1
      morphemes2 := uniqueMorphsArg2
      score := .parameterNameBased worst_psi statsScore }

/-! ## The statistics-based check -/

def similarity (morph1 morph2 : ByteString) : F :=
  if morph1 = morph2 then FloatArith.ofRat 1 else FloatArith.ofRat 0

/-- The fitness of a morpheme at a position: the weight of what is similar to it there. -/
def fit (morph : ByteString) (site : CallSite) (argPos : Nat) : CheckM F F := do
  let _ ← validStats
  let (found, morphsAndWeightsAtPos) ←
    morphemesAndWeightsAtPos site.callDecl.fullyQualifiedName argPos
  if !found then return FloatArith.ofRat 0
  return morphsAndWeightsAtPos.foldl (fun ret mw => ret + similarity morph mw.1 * mw.2)
    (FloatArith.ofRat 0)

/-- The body of the double loop over the morphemes of two arguments. -/
def checkMorphemePair (opts : CheckerConfiguration F) (args : MorphemeSet × MorphemeSet)
    (callSite : CallSite) (argMorph1 argMorph2 : ByteString) : CheckM F (Option (Result F)) := do
  let uniqArgMorphs1 := morphemeSetDifference args.1 args.2
  let uniqArgMorphs2 := morphemeSetDifference args.2 args.1
  let psi1 ← morphemeConfidenceAtPosition callSite argMorph1 uniqArgMorphs2.position
    uniqArgMorphs1.position
  let psi2 ← morphemeConfidenceAtPosition callSite argMorph2 uniqArgMorphs1.position
    uniqArgMorphs2.position
  match psi1, psi2 with
  | some psi1, some psi2 =>
    if psi1 ≤ opts.statsSwappedMorphemeThreshold ∨ psi2 ≤ opts.statsSwappedMorphemeThreshold then
      return none
    -- the remaining morphemes must be the same in both arguments
    let one := uniqArgMorphs1.morphemes.erase argMorph1
    let two := uniqArgMorphs2.morphemes.erase argMorph2
    if inOrder one ≠ inOrder two then return none
    let fit1 ← fit argMorph1 callSite args.2.position
    let fit2 ← fit argMorph2 callSite args.1.position
    if fit1 > opts.statsSwappedFitnessThreshold ∧ fit2 > opts.statsSwappedFitnessThreshold then
      return some
        { arg1 := args.1.position + 1
          arg2 := args.2.position + 1
          morphemes1 := uniqArgMorphs1.morphemes
          morphemes2 := uniqArgMorphs2.morphemes
          score := .usageStatisticsBased fit1 fit2 psi1 psi2 }
    return none
  | _, _ => return none

/-- The parameters take no part in this check. -/
def checkForStatisticsBasedSwap (opts : CheckerConfiguration F)
    (_params args : MorphemeSet × MorphemeSet) (callSite : CallSite) :
    CheckM F (Option (Result F)) :=
  let uniqArgMorphs1 := morphemeSetDifference args.1 args.2
  let uniqArgMorphs2 := morphemeSetDifference args.2 args.1
  (inOrder uniqArgMorphs1.morphemes).findSomeM? fun argMorph1 =>
    (inOrder uniqArgMorphs2.morphemes).findSomeM? fun argMorph2 =>
      checkMorphemePair opts args callSite argMorph1 argMorph2

/-! ## Call sites -/

/-- Removes low-quality morphemes; whether this leaves the set empty. -/
def removeLowQualityMorphemes (morphemes : Finset ByteString) : Bool := morphemes = ∅

/-- All components of an argument are split into the same set. -/
def morphemeCollector (site : CallSite) (pos : Nat) : CheckM F MorphemeSet :=
  match site.positionalArgNames[pos]? with
  | some arg => return ⟨arg.foldl (fun m component => m ∪ split component) ∅, pos⟩
  | none => throw .outOfRange

/-- The body of the loop over pairs of arguments; `none` is a `continue` without
a result. -/
def checkPair (opts : CheckerConfiguration F) (site : CallSite) (whichCheck : Check)
    (pairwiseArgs : Nat × Nat) : CheckM F (Option (Result F)) := do
  let param1 := (getParamName site pairwiseArgs.1).getD []
  let param2 := (getParamName site pairwiseArgs.2).getD []
  let param1Morphemes : MorphemeSet := ⟨split param1, pairwiseArgs.1⟩
  let param2Morphemes : MorphemeSet := ⟨split param2, pairwiseArgs.2⟩
  let arg1Morphemes ← morphemeCollector site pairwiseArgs.1
  let arg2Morphemes ← morphemeCollector site pairwiseArgs.2
  if removeLowQualityMorphemes arg1Morphemes.morphemes ||
      removeLowQualityMorphemes arg2Morphemes.morphemes then
    return none
  if param1 ≠ [] ∧ param2 ≠ [] then
    if removeLowQualityMorphemes param1Morphemes.morphemes ||
        removeLowQualityMorphemes param2Morphemes.morphemes then
      return none
    if whichCheck = .all ∨ whichCheck = .coverBased then
      if let some coverWarning ← checkForCoverBasedSwap opts (param1Morphemes, param2Morphemes)
          (arg1Morphemes, arg2Morphemes) site then
        return some coverWarning
  if (whichCheck = .all ∨ whichCheck = .statsBased) ∧ (← get).stats.isSome then
    let _ ← validStats
    return ← checkForStatisticsBasedSwap opts (param1Morphemes, param2Morphemes)
      (arg1Morphemes, arg2Morphemes) site
  return none

def checkSite (opts : CheckerConfiguration F) (site : CallSite) (whichCheck : Check) :
    CheckM F (List (Result F)) := do
  if site.positionalArgNames.length < 2 then return []
  let argPairs ← MonadExcept.ofExcept (pairwiseCombinations site.positionalArgNames.length)
  argPairs.foldlM (fun results pairwiseArgs => do
    let r ← checkPair opts site whichCheck pairwiseArgs
    return results ++ r.toList) []

/-! ## Checkers -/

/-- A checker between two calls: its statistics object, if it has one, is valid
and both of its statements are reset and have no parameter bound. -/
structure Checker (F : Type) [FloatArith F] where
  opts : CheckerConfiguration F
  stats : Option (Statistics F)
  idle : ∀ s, stats = some s → s.Idle

/-- The constructor: statistics that cannot be loaded are pretended not to be there. -/
def Checker.new (opts : CheckerConfiguration F) (disk : CString → ModelFile F) : Checker F where
  opts := opts
  stats := if opts.modelPath ≠ [] ∧ (Statistics.new disk opts.modelPath).valid then
    some (Statistics.new disk opts.modelPath) else none
  idle := by
    intro s hs
    split at hs
    · rename_i h
      cases hs
      exact Statistics.new_idle h.2
    · cases hs

/-- A call of `CheckSite`, with the steps that fail during it: the outcome and the
session it leaves. -/
def Checker.checkSite (c : Checker F) (fails : Nat → Bool) (site : CallSite) (whichCheck : Check) :
    Except Fault (List (Result F)) × Session F :=
  exec (SwappedArgChecker.checkSite c.opts site whichCheck) ⟨c.stats, fails⟩

/-- No step fails. -/
def noFailure : Nat → Bool := fun _ => false

/-- The outcome of `CheckSite` when no step fails. -/
def Checker.results (c : Checker F) (site : CallSite) (whichCheck : Check) :
    Except Fault (List (Result F)) :=
  (c.checkSite noFailure site whichCheck).1

/-- The table the statistics of a checker are read from. -/
def Checker.weights (c : Checker F) : Option (List (Row F)) := c.stats.bind (·.db)

end SwapDetector.Model.SwappedArgChecker
