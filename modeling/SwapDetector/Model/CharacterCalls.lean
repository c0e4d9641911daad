import SwapDetector.Base.Logging
import SwapDetector.Model.SwappedArgChecker

/-! # The checker and its calls of `<cctype>`

The functions of the checker that classify characters, and the ones on the way to them,
with a log of these calls: which function was called, and with which `int`. A function
`f` that the log concerns has the twin `loggedF`; everything else is called `silently`.
-/
namespace SwapDetector.Model.CharacterCalls
open SwapDetector.Base.ExactFloat SwapDetector.Base.Exec SwapDetector.Base.Logging
open SwapDetector.Base.Permutations
open SwapDetector.Model.Bytes SwapDetector.Model.IdentifierSplitting SwapDetector.Model.Types
open SwapDetector.Model.StatsDatabase SwapDetector.Model.SwappedArgChecker

/-! ## Calls -/

inductive CtypeFunction where
  | islower
  | isupper
  | tolower
  | isdigit
  deriving DecidableEq

structure CtypeCall where
  function : CtypeFunction
  value : Int
  deriving DecidableEq

/-- `EOF` -/
def eof : Int := -1

/-- The functions of `<cctype>` are defined for the values of an `unsigned char` and `EOF`. -/
def InDomain (call : CtypeCall) : Prop := call.value = eof ∨ 0 ≤ call.value ∧ call.value ≤ 255

instance decidableInDomain : DecidablePred InDomain :=
  fun call => inferInstanceAs (Decidable (call.value = eof ∨ 0 ≤ call.value ∧ call.value ≤ 255))

/-- A computation of the checker that keeps the calls. -/
abbrev LoggedM (F : Type) := ExceptT Fault (StateM (Session F × List CtypeCall))

section Classification
variable {F α : Type}

def callCtype (function : CtypeFunction) (answer : Int → α) (c : Int) : LoggedM F α := do
  record ⟨function, c⟩
  return answer c

def callIslower (c : Int) : LoggedM F Bool := callCtype .islower islower c

def callIsupper (c : Int) : LoggedM F Bool := callCtype .isupper isupper c

def callTolower (c : Int) : LoggedM F Int := callCtype .tolower tolower c

def callIsdigit (c : Int) : LoggedM F Bool := callCtype .isdigit isdigit c

/-! ## Splitting -/

def loggedLower (input : ByteString) (wordStart wordEnd : Nat) : LoggedM F ByteString :=
  (slice input wordStart wordEnd).mapM fun c => do return intToChar (← callTolower (ucharToInt c))

/-- Adds a word only if there is one. -/
def loggedAddWord (input : ByteString) (wordStart wordEnd : Nat) (ret : Finset ByteString) :
    LoggedM F (Finset ByteString) :=
  if wordStart ≠ wordEnd then do
    let word ← loggedLower input wordStart wordEnd
    return insert word ret
  else return ret

def loggedSplitLoop (input : ByteString) :
    ByteString → Nat → Nat → Bool → Finset ByteString → LoggedM F (Finset ByteString)
  | [], _, wordStart, _, ret => loggedAddWord input wordStart input.length ret
  | c :: rest, curLoc, wordStart, prevCharWasLower, ret =>
    if c = underscore then do
      let ret ← loggedAddWord input wordStart curLoc ret
      let isLower ← callIslower (charToInt c)
      loggedSplitLoop input rest (curLoc + 1) (curLoc + 1) isLower ret
    else do
      let isUpper ← callIsupper (charToInt c)
      if isUpper && prevCharWasLower then
        let word ← loggedLower input wordStart curLoc
        let isLower ← callIslower (charToInt c)
        loggedSplitLoop input rest (curLoc + 1) curLoc isLower (insert word ret)
      else
        let isLower ← callIslower (charToInt c)
        loggedSplitLoop input rest (curLoc + 1) wordStart isLower ret

def loggedSplit (input : ByteString) : LoggedM F (Finset ByteString) := do
  let prevCharWasLower ← callIslower (charToInt (input.headD 0))
  loggedSplitLoop input input 0 0 prevCharWasLower ∅

end Classification

variable {F : Type} [FloatArith F]

/-! ## The cover-based check -/

/-- The second test is made when the first one succeeds. -/
def loggedSuffixCheck (one two : ByteString) : LoggedM F Bool := do
  silently (assertThat (one ≠ [] ∧ one ≠ []) .emptyName)
  match one.getLast?, one.getLast? with
  | some suf1, some suf2 =>
    if ← callIsdigit (charToInt suf1) then
      if ← callIsdigit (charToInt suf2) then return one.dropLast == two.dropLast
      else return false
    else return false
  | _, _ => throw .backOfEmpty

def loggedCheckForCoverBasedSwap (opts : CheckerConfiguration F)
    (params args : MorphemeSet × MorphemeSet) (site : CallSite) : LoggedM F (Option (Result F)) := do
  let param1Morphs := params.1.morphemes
  let param2Morphs := params.2.morphemes
  let arg1Morphs := args.1.morphemes
  let arg2Morphs := args.2.morphemes
  silently (assertThat
    (param1Morphs ≠ ∅ ∧ param2Morphs ≠ ∅ ∧ arg1Morphs ≠ ∅ ∧ arg2Morphs ≠ ∅) .emptyMorphemes)
  if param1Morphs.card ≠ param2Morphs.card ∨ arg1Morphs.card ≠ arg2Morphs.card ∨
      param1Morphs.card ≠ arg1Morphs.card then
    return none
  let uniqueMorphsParam1 := nonLowEntropyDifference param1Morphs param2Morphs
  let uniqueMorphsParam2 := nonLowEntropyDifference param2Morphs param1Morphs
  let uniqueMorphsArg1 := nonLowEntropyDifference arg1Morphs arg2Morphs
  let uniqueMorphsArg2 := nonLowEntropyDifference arg2Morphs arg1Morphs
  if uniqueMorphsParam1 = ∅ ∨ uniqueMorphsParam2 = ∅ ∨ uniqueMorphsArg1 = ∅ ∨
      uniqueMorphsArg2 = ∅ then
    return none
  let mm_ai_pi ← silently (morphemesMatch uniqueMorphsArg1 uniqueMorphsParam1 .optimistic)
  if mm_ai_pi > opts.existingMorphemeMatchMax then return none
  let mm_aj_pj ← silently (morphemesMatch uniqueMorphsArg2 uniqueMorphsParam2 .optimistic)
  if mm_aj_pj > opts.existingMorphemeMatchMax then return none
  let mm_ai_pj ← silently (morphemesMatch uniqueMorphsArg1 uniqueMorphsParam2 .pessimistic)
  if mm_ai_pj < opts.swappedMorphemeMatchMin then return none
  let mm_aj_pi ← silently (morphemesMatch uniqueMorphsArg2 uniqueMorphsParam1 .pessimistic)
  if mm_aj_pi < opts.swappedMorphemeMatchMin then return none
  let param1 ← silently (deref (getParamName site params.1.position))
  let param2 ← silently (deref (getParamName site params.2.position))
  if ← loggedSuffixCheck param1 param2 then return none
  let arg1 ← silently (deref (← silently (getLastArgName site args.1.position)))
  let arg2 ← silently (deref (← silently (getLastArgName site args.2.position)))
  if ← loggedSuffixCheck arg1 arg2 then return none
  let psi_i := mm_ai_pj / (mm_aj_pj + FloatArith.ofRat (1 / 100))
  let psi_j := mm_aj_pi / (mm_ai_pi + FloatArith.ofRat (1 / 100))
  let worst_psi := stdMin psi_i psi_j
  let statsScore ← silently (vetWithStats site uniqueMorphsArg1 uniqueMorphsArg2 args.1.position
    args.2.position)
  if statsScore.any (· > opts.coverSwappedStatsVettingThreshold) then return none
  return some
    { arg1 := args.1.position + 1
      arg2 := args.2.position + 1
      morphemes1 := uniqueMorphsArg1
      morphemes2 := uniqueMorphsArg2
      score := .parameterNameBased worst_psi statsScore }

/-! ## Call sites -/

def loggedMorphemeCollector (site : CallSite) (pos : Nat) : LoggedM F MorphemeSet :=
  match site.positionalArgNames[pos]? with
  | some arg => do
    let morphemes ← arg.foldlM (fun m component => do return m ∪ (← loggedSplit component)) ∅
    return ⟨morphemes, pos⟩
  | none => throw .outOfRange

def loggedCheckPair (opts : CheckerConfiguration F) (site : CallSite) (whichCheck : Check)
    (pairwiseArgs : Nat × Nat) : LoggedM F (Option (Result F)) := do
  let param1 := (getParamName site pairwiseArgs.1).getD []
  let param2 := (getParamName site pairwiseArgs.2).getD []
  let morphemes1 ← loggedSplit param1
  let morphemes2 ← loggedSplit param2
  let param1Morphemes : MorphemeSet := ⟨morphemes1, pairwiseArgs.1⟩
  let param2Morphemes : MorphemeSet := ⟨morphemes2, pairwiseArgs.2⟩
  let arg1Morphemes ← loggedMorphemeCollector site pairwiseArgs.1
  let arg2Morphemes ← loggedMorphemeCollector site pairwiseArgs.2
  if removeLowQualityMorphemes arg1Morphemes.morphemes ||
      removeLowQualityMorphemes arg2Morphemes.morphemes then
    return none
  if param1 ≠ [] ∧ param2 ≠ [] then
    if removeLowQualityMorphemes param1Morphemes.morphemes ||
        removeLowQualityMorphemes param2Morphemes.morphemes then
      return none
    if whichCheck = .all ∨ whichCheck = .coverBased then
      if let some coverWarning ← loggedCheckForCoverBasedSwap opts (param1Morphemes, param2Morphemes)
          (arg1Morphemes, arg2Morphemes) site then
        return some coverWarning
  if (whichCheck = .all ∨ whichCheck = .statsBased) ∧ (← silently get).stats.isSome then
    let _ ← silently validStats
    return ← silently (checkForStatisticsBasedSwap opts (param1Morphemes, param2Morphemes)
      (arg1Morphemes, arg2Morphemes) site)
  return none

def loggedCheckSite (opts : CheckerConfiguration F) (site : CallSite) (whichCheck : Check) :
    LoggedM F (List (Result F)) := do
  if site.positionalArgNames.length < 2 then return []
  let argPairs ← MonadExcept.ofExcept (pairwiseCombinations site.positionalArgNames.length)
  argPairs.foldlM (fun results pairwiseArgs => do
    let r ← loggedCheckPair opts site whichCheck pairwiseArgs
    return results ++ r.toList) []

/-- The calls of `<cctype>` during a call of `CheckSite`. -/
def ctypeCalls (c : Checker F) (fails : Nat → Bool) (site : CallSite) (whichCheck : Check) :
    List CtypeCall :=
  (exec (loggedCheckSite c.opts site whichCheck) (⟨c.stats, fails⟩, [])).2.2

end SwapDetector.Model.CharacterCalls
