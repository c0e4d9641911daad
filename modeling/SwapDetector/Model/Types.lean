import SwapDetector.Base.ExactFloat
import SwapDetector.Model.Bytes
import Mathlib.Data.Finset.Defs

/-! # Call sites, results and configurations (SwappedArgChecker.hpp)

The public types of the checker, over any reading `F` of its `float` values.
-/
namespace SwapDetector.Model.Types
open SwapDetector.Base.ExactFloat SwapDetector.Model.Bytes

/-- A description of a function being called. -/
structure CallDeclDescriptor where
  fullyQualifiedName : ByteString
  paramNames : Option (List ByteString)
  deriving DecidableEq

/-- A single call site; an argument has a list of name components. -/
structure CallSite where
  callDecl : CallDeclDescriptor
  positionalArgNames : List (List ByteString)
  deriving DecidableEq

/-- What a result was judged by. -/
inductive ScoreCard (F : Type) where
  | parameterNameBased (score : F) (statsVettedScore : Option F)
  | usageStatisticsBased (fit1 fit2 psi1 psi2 : F)
  deriving DecidableEq

/-- The confidence a score card reports. -/
def ScoreCard.score {F : Type} [FloatArith F] : ScoreCard F → F
  | .parameterNameBased score _ => score
  | .usageStatisticsBased fit1 fit2 _ _ => stdMax fit1 fit2

/-- A swapped argument error; argument positions are one-based. -/
structure Result (F : Type) where
  arg1 : Nat
  arg2 : Nat
  morphemes1 : Finset ByteString
  morphemes2 : Finset ByteString
  score : ScoreCard F
  deriving DecidableEq

structure CheckerConfiguration (F : Type) [FloatArith F] where
  modelPath : ByteString := []
  existingMorphemeMatchMax : F := FloatArith.ofRat (1 / 2)
  swappedMorphemeMatchMin : F := FloatArith.ofRat (3 / 4)
  statsSwappedMorphemeThreshold : F := FloatArith.ofRat (3 / 4)
  statsSwappedFitnessThreshold : F := FloatArith.ofRat (3 / 4)
  coverSwappedStatsVettingThreshold : F := FloatArith.ofRat (3 / 4)

/-- Which checks a run makes. -/
inductive Check where
  | coverBased
  | statsBased
  | all
  deriving DecidableEq

/-- The morphemes of a name and the zero-based position it stands at. -/
structure MorphemeSet where
  morphemes : Finset ByteString
  position : Nat

/-- Internal assertions and library preconditions; a violation ends the run. -/
inductive Fault where
  /-- `assert(second == ~0U)` -/
  | thirdBit
  /-- `assert(first != ~0U && second != ~0U)` -/
  | missingBit
  /-- The morpheme sets of a cover-based check must not be empty. -/
  | emptyMorphemes
  /-- "Should not have empty names by this point" -/
  | emptyName
  /-- "Expected to find an extreme" -/
  | noExtreme
  /-- "Expected to have valid statistics" and its variants -/
  | invalidStats
  /-- An empty optional is dereferenced. -/
  | emptyOptional
  /-- `back()` on an empty vector, or `end() - 1` of an empty string. -/
  | backOfEmpty
  /-- An index that is not below the size of a vector. -/
  | outOfRange
  /-- A loop runs longer than its bound. -/
  | diverged
  deriving DecidableEq

end SwapDetector.Model.Types
