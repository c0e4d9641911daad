import SwapDetector.Model.SwappedArgChecker

/-! # Judging one pair of arguments

What a check decides about a pair of arguments, as a function of the data that
belong to the pair: the configuration, the mode, the two arguments, the two
parameter names and the rows of the called function at the two positions. A
checker without statistics has no rows.
-/
namespace SwapDetector.Spec.Judgement
open SwapDetector.Base.ExactFloat SwapDetector.Base.Exec SwapDetector.Base.OrderedSet
open SwapDetector.Base.Permutations
open SwapDetector.Model.Bytes SwapDetector.Model.IdentifierSplitting
open SwapDetector.Model.Types SwapDetector.Model.StatsDatabase SwapDetector.Model.SwappedArgChecker

variable {F : Type} [FloatArith F]

/-! ## The table -/

/-- The rows of a function at a position. -/
def rowsAt (db : List (Row F)) (func : ByteString) (pos : Nat) : List (Row F) :=
  db.filter fun r => r.func = cStr func ∧ r.arg = pos

/-- The weight of a morpheme among the rows of a position. -/
def weightIn (rows : List (Row F)) (morph : ByteString) : Option F :=
  (rows.find? fun r => r.morpheme = cStr morph).map Row.value

/-- How much more common a morpheme is here than there. -/
def confidenceIn (here there : List (Row F)) (morph : ByteString) : Option F :=
  match weightIn here morph, weightIn there morph with
  | some _, none => some (FloatArith.ofRat 1)
  | none, some _ => some (FloatArith.ofRat 0)
  | some w1, some w2 => some (w1 / w2)
  | none, none => none

def fitIn (rows : List (Row F)) (morph : ByteString) : F :=
  rows.foldl (fun ret r => ret + similarity morph r.morpheme.val * r.value) (FloatArith.ofRat 0)

/-! ## The data of a pair -/

structure PairData (F : Type) [FloatArith F] where
  opts : CheckerConfiguration F
  whichCheck : Check
  pos1 : Nat
  pos2 : Nat
  arg1 : List ByteString
  arg2 : List ByteString
  param1 : ByteString
  param2 : ByteString
  rows : Option (List (Row F) × List (Row F))

/-- The morphemes of all components of an argument. -/
def argMorphemes (arg : List ByteString) : Finset ByteString :=
  arg.foldl (fun m component => m ∪ split component) ∅

/-- The last component of an argument, empty when there is none. -/
def lastName (arg : List ByteString) : ByteString := arg.getLast?.getD []

namespace PairData

/-- The morphemes of the first argument that the second one does not have. -/
def unique1 (d : PairData F) : Finset ByteString := argMorphemes d.arg1 \ argMorphemes d.arg2

/-- The morphemes of the second argument that the first one does not have. -/
def unique2 (d : PairData F) : Finset ByteString := argMorphemes d.arg2 \ argMorphemes d.arg1

/-- Both parameters have a name. -/
def Named (d : PairData F) : Prop := d.param1 ≠ [] ∧ d.param2 ≠ []

instance (d : PairData F) : Decidable d.Named := inferInstanceAs (Decidable (_ ∧ _))

/-- Both parameters have a name, and at least one of the names has no morpheme. -/
def Unusable (d : PairData F) : Prop := d.Named ∧ (split d.param1 = ∅ ∨ split d.param2 = ∅)

instance (d : PairData F) : Decidable d.Unusable := inferInstanceAs (Decidable (_ ∧ _))

end PairData

/-! ## The cover-based judgement -/

/-- The most extreme match of the morphemes `param` with `arg` under a bias. -/
def matchValue (arg param : Finset ByteString) (bias : Bias) : F :=
  ((inOrder param).foldl (moreExtreme arg bias) none).getD (FloatArith.ofRat 0)

/-- The size, uniqueness and threshold tests on the morphemes of two parameters
and two arguments. -/
structure CoverGates (opts : CheckerConfiguration F) (P1 P2 A1 A2 : Finset ByteString) : Prop where
  sizes : P1.card = P2.card ∧ A1.card = A2.card ∧ P1.card = A1.card
  unique : P1 \ P2 ≠ ∅ ∧ P2 \ P1 ≠ ∅ ∧ A1 \ A2 ≠ ∅ ∧ A2 \ A1 ≠ ∅
  existing1 : ¬ matchValue (A1 \ A2) (P1 \ P2) .optimistic > opts.existingMorphemeMatchMax
  existing2 : ¬ matchValue (A2 \ A1) (P2 \ P1) .optimistic > opts.existingMorphemeMatchMax
  swapped1 : ¬ matchValue (A1 \ A2) (P2 \ P1) .pessimistic < opts.swappedMorphemeMatchMin
  swapped2 : ¬ matchValue (A2 \ A1) (P1 \ P2) .pessimistic < opts.swappedMorphemeMatchMin

instance (opts : CheckerConfiguration F) (P1 P2 A1 A2 : Finset ByteString) :
    Decidable (CoverGates opts P1 P2 A1 A2) :=
  decidable_of_iff (_ ∧ _ ∧ _ ∧ _ ∧ _ ∧ _)
    ⟨fun h => ⟨h.1, h.2.1, h.2.2.1, h.2.2.2.1, h.2.2.2.2.1, h.2.2.2.2.2⟩,
      fun h => ⟨h.1, h.2, h.3, h.4, h.5, h.6⟩⟩

/-- The numeric-suffix filter: the first name ends in a digit, and the names agree
on everything before their last byte. -/
def suffixTwins (one two : ByteString) : Bool :=
  one.getLast?.any (fun suf => isdigit (charToInt suf)) && one.dropLast == two.dropLast

/-- One round of the vetting. -/
def vetStep (here there : List (Row F)) (score : Option F) (morph : ByteString) : Option F :=
  match confidenceIn here there morph with
  | some val => some (stdMax (score.getD (FloatArith.ofRat 0)) val)
  | none => score

namespace PairData

def Gates (d : PairData F) : Prop :=
  CoverGates d.opts (split d.param1) (split d.param2) (argMorphemes d.arg1) (argMorphemes d.arg2)

instance (d : PairData F) : Decidable d.Gates := inferInstanceAs (Decidable (CoverGates _ _ _ _ _))

/-- The highest confidence that a unique morpheme is where it belongs. -/
def statsScore (d : PairData F) : Option F :=
  d.rows.bind fun rows =>
    (inOrder d.unique2).foldl (vetStep rows.2 rows.1)
      ((inOrder d.unique1).foldl (vetStep rows.1 rows.2) none)

/-- The statistics suppress a cover-based result. -/
def vetoed (d : PairData F) : Bool :=
  d.statsScore.any (· > d.opts.coverSwappedStatsVettingThreshold)

/-- The score of a cover-based result: the worse of its two match quotients. -/
def worstPsi (d : PairData F) : F :=
  let uniqueParam1 := split d.param1 \ split d.param2
  let uniqueParam2 := split d.param2 \ split d.param1
  stdMin
    (matchValue d.unique1 uniqueParam2 .pessimistic /
      (matchValue d.unique2 uniqueParam2 .optimistic + FloatArith.ofRat (1 / 100)))
    (matchValue d.unique2 uniqueParam1 .pessimistic /
      (matchValue d.unique1 uniqueParam1 .optimistic + FloatArith.ofRat (1 / 100)))

def coverResult (d : PairData F) : Result F where
  arg1 := d.pos1 + 1
  arg2 := d.pos2 + 1
  morphemes1 := d.unique1
  morphemes2 := d.unique2
  score := .parameterNameBased d.worstPsi d.statsScore

/-- The pair passes every test that does not read the statistics. The suffix filter
fails on a first argument whose last component is empty. -/
def candidate (d : PairData F) : Except Fault Bool :=
  if ¬ d.Gates ∨ suffixTwins d.param1 d.param2 then .ok false
  else if lastName d.arg1 = [] then .error .emptyName
  else .ok (!suffixTwins (lastName d.arg1) (lastName d.arg2))

def coverOutcome (d : PairData F) : Except Fault (Option (Result F)) :=
  d.candidate.map fun passed => if passed && !d.vetoed then some d.coverResult else none

end PairData

/-! ## The statistics-based judgement -/

/-- What the statistics say about a swap of two morphemes of the two arguments. -/
def PairData.swapOf (d : PairData F) (rows : List (Row F) × List (Row F))
    (morph1 morph2 : ByteString) : Option (Result F) :=
  match confidenceIn rows.2 rows.1 morph1, confidenceIn rows.1 rows.2 morph2 with
  | some psi1, some psi2 =>
    if psi1 ≤ d.opts.statsSwappedMorphemeThreshold ∨
        psi2 ≤ d.opts.statsSwappedMorphemeThreshold then none
    else if inOrder (d.unique1.erase morph1) ≠ inOrder (d.unique2.erase morph2) then none
    else if fitIn rows.2 morph1 > d.opts.statsSwappedFitnessThreshold ∧
        fitIn rows.1 morph2 > d.opts.statsSwappedFitnessThreshold then
      some
        { arg1 := d.pos1 + 1
          arg2 := d.pos2 + 1
          morphemes1 := d.unique1
          morphemes2 := d.unique2
          score := .usageStatisticsBased (fitIn rows.2 morph1) (fitIn rows.1 morph2) psi1 psi2 }
    else none
  | _, _ => none

def PairData.statsOutcome (d : PairData F) : Option (Result F) :=
  d.rows.bind fun rows =>
    (inOrder d.unique1).findSome? fun morph1 =>
      (inOrder d.unique2).findSome? fun morph2 => d.swapOf rows morph1 morph2

/-- The statistics see a swap of the only two morphemes in which two arguments differ. -/
structure PairData.SwapSeen (d : PairData F) (rows : List (Row F) × List (Row F))
    (morph1 morph2 : ByteString) (psi1 psi2 : F) : Prop where
  rows_eq : d.rows = some rows
  unique1 : d.unique1 = {morph1}
  unique2 : d.unique2 = {morph2}
  confidence1 : confidenceIn rows.2 rows.1 morph1 = some psi1
  confidence2 : confidenceIn rows.1 rows.2 morph2 = some psi2
  swapped1 : ¬ psi1 ≤ d.opts.statsSwappedMorphemeThreshold
  swapped2 : ¬ psi2 ≤ d.opts.statsSwappedMorphemeThreshold
  fits1 : fitIn rows.2 morph1 > d.opts.statsSwappedFitnessThreshold
  fits2 : fitIn rows.1 morph2 > d.opts.statsSwappedFitnessThreshold

/-! ## The judgement -/

namespace PairData

/-- The cover-based check runs. -/
def coverRuns (d : PairData F) : Prop := d.Named ∧ (d.whichCheck = .all ∨ d.whichCheck = .coverBased)

instance (d : PairData F) : Decidable d.coverRuns := inferInstanceAs (Decidable (_ ∧ _))

/-- The statistics-based check runs when the cover-based one has found nothing. -/
def statsRuns (d : PairData F) : Prop := d.whichCheck = .all ∨ d.whichCheck = .statsBased

instance (d : PairData F) : Decidable d.statsRuns := inferInstanceAs (Decidable (_ ∨ _))

/-- The suffix filter is reached with a first argument whose last component is empty. -/
def Trips (d : PairData F) : Prop :=
  d.coverRuns ∧ d.Gates ∧ suffixTwins d.param1 d.param2 = false ∧ lastName d.arg1 = []

instance (d : PairData F) : Decidable d.Trips := inferInstanceAs (Decidable (_ ∧ _))

def coverPart (d : PairData F) : Except Fault (Option (Result F)) :=
  if d.coverRuns then d.coverOutcome else .ok none

def statsPart (d : PairData F) : Option (Result F) := if d.statsRuns then d.statsOutcome else none

/-- What a check makes of the pair. The statistics decide when the parameter names
report nothing. -/
def judge (d : PairData F) : Except Fault (Option (Result F)) :=
  if argMorphemes d.arg1 = ∅ ∨ argMorphemes d.arg2 = ∅ then .ok none
  else if d.Unusable then .ok none
  else d.coverPart.map (·.or d.statsPart)

/-- The result of the pair, when its judgement does not fail. -/
def verdict (d : PairData F) : Option (Result F) := answer d.judge

end PairData

/-- The data of the pair at two positions of a call site. Where the model was read
from takes no part. -/
def pairData (opts : CheckerConfiguration F) (weights : Option (List (Row F))) (site : CallSite)
    (whichCheck : Check) (p : Nat × Nat) : PairData F where
  opts := { opts with modelPath := [] }
  whichCheck := whichCheck
  pos1 := p.1
  pos2 := p.2
  arg1 := site.positionalArgNames[p.1]?.getD []
  arg2 := site.positionalArgNames[p.2]?.getD []
  param1 := (getParamName site p.1).getD []
  param2 := (getParamName site p.2).getD []
  rows := weights.map fun db =>
    (rowsAt db site.callDecl.fullyQualifiedName p.1, rowsAt db site.callDecl.fullyQualifiedName p.2)

/-- The judgements of all pairs of a call site, in lexicographic order. -/
def judgeAll (opts : CheckerConfiguration F) (weights : Option (List (Row F))) (site : CallSite)
    (whichCheck : Check) : Except Fault (List (Result F)) :=
  collect (fun p => (pairData opts weights site whichCheck p).judge)
    (allPairs site.positionalArgNames.length)

/-- All thresholds have their defaults; where the model is read from may differ. -/
def DefaultThresholds (opts : CheckerConfiguration F) : Prop :=
  opts = { modelPath := opts.modelPath }

/-- The result for a pair of zero-based positions among the results of a call site. -/
def reported (rs : List (Result F)) (p : Nat × Nat) : Option (Result F) :=
  rs.find? fun r => r.arg1 = p.1 + 1 ∧ r.arg2 = p.2 + 1

/-- What a caller reads off a result: the positions, the morphemes and the score. -/
def outline (r : Result F) : Nat × Nat × Finset ByteString × Finset ByteString × F :=
  (r.arg1, r.arg2, r.morphemes1, r.morphemes2, r.score.score)

/-- A checker over a table, or without statistics. -/
def checkerOver (opts : CheckerConfiguration F) (weights : Option (List (Row F))) : Checker F where
  opts := opts
  stats := weights.map Statistics.loaded
  idle := by
    intro s hs
    obtain ⟨db, -, rfl⟩ := Option.map_eq_some_iff.mp hs
    exact ⟨db, rfl⟩

/-- The same checker without a database. -/
def withoutStats (c : Checker F) : Checker F := checkerOver c.opts none

end SwapDetector.Spec.Judgement
