import SwapDetector.Spec.Judgement
import Mathlib.Algebra.BigOperators.Group.List.Basic

/-! # Tables of exact weights

A table of rational weights, as the checker reads it in exact arithmetic, and
what the makers of a table promise about it.
-/
namespace SwapDetector.Spec.Tables
open SwapDetector.Base.ExactFloat SwapDetector.Model.Bytes SwapDetector.Model.StatsDatabase

/-- The rows of a table, with their weights read as exact values. -/
def exactRows (db : List (Row ℚ)) : List (Row XRat) :=
  db.map fun r => ⟨r.func, r.arg, r.morpheme, .fin r.value⟩

/-- The weight a table stores for a morpheme at a position of a function. -/
def storedWeight (db : List (Row ℚ)) (func : ByteString) (pos : Nat) (morph : ByteString) :
    Option ℚ :=
  (db.find? fun r => r.func = cStr func ∧ r.arg = pos ∧ r.morpheme.val = morph).map Row.value

/-- What the schema promises: weights from 0 to 1, and at most one row for a function,
position and morpheme. -/
structure WithinSchema (db : List (Row ℚ)) : Prop where
  unique : (db.map fun r => (r.func, r.arg, r.morpheme)).Nodup
  range : ∀ r ∈ db, 0 ≤ r.value ∧ r.value ≤ 1

/-- At most one row for a function, position and morpheme; no negative weight; and
the weights of a position of a function add up to 1 at most. -/
structure Normalised (db : List (Row ℚ)) : Prop where
  unique : (db.map fun r => (r.func, r.arg, r.morpheme)).Nodup
  nonneg : ∀ r ∈ db, 0 ≤ r.value
  total : ∀ func arg, ((db.filter fun r => r.func = func ∧ r.arg = arg).map Row.value).sum ≤ 1

end SwapDetector.Spec.Tables
