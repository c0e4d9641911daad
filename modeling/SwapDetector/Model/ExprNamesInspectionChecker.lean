import SwapDetector.Model.SwappedArgCheckerPlugin

/-! # The checker that shows names (ExprNamesInspectionChecker.cpp)

The regression tests of names call `clang_analyzer_exprName`. The analyzer offers every call to
this checker, which evaluates these and reports the names of their first arguments.
-/
namespace SwapDetector.Model.ExprNamesInspectionChecker
open SwapDetector.Model.Bytes SwapDetector.Model.ExprNames
open SwapDetector.Model.SwappedArgCheckerPlugin

variable {Loc : Type}

/-- A `CallExpr`, with what `CheckerContext::getCalleeName` gives for it. -/
structure CallExpr (Loc : Type) where
  expr : Expr Loc
  calleeName : ByteString
  args : List (Expr Loc)

structure BugReport where
  bugType : BugType
  message : ByteString
  deriving DecidableEq

structure Inspection where
  /-- The member `BT`. -/
  bugType : Option BugType
  /-- Which of the coming nodes are made. -/
  nodes : Nat → Bool
  reports : List BugReport

/-- How a call can fail. -/
inductive Failure where
  /-- `CE->getArg(0)` of a call without arguments -/
  | noArgument
  | name (f : NameFailure)
  deriving DecidableEq

abbrev InspectionM := ExceptT Failure (StateM Inspection)

def generateNonFatalErrorNode : InspectionM Bool := do
  let s ← get
  set { s with nodes := fun k => s.nodes (k + 1) }
  return s.nodes 0

/-- Whether there was a node for the report. -/
def reportBug (Msg : ByteString) : InspectionM Bool := do
  if ← generateNonFatalErrorNode then
    let s ← get
    let BT := s.bugType.getD ⟨bytes "Checking analyzer assumptions", bytes "debug", false⟩
    let R : BugReport := ⟨BT, Msg⟩
    set { s with bugType := some BT, reports := s.reports ++ [R] }
    return true
  else return false

variable [DecidableEq Loc] (SM : SourceManager Loc) (bound : Nat)

/-- Whether the call is evaluated. A call may have no call expression. -/
def evalCall (call : Option (CallExpr Loc)) : InspectionM Bool :=
  match call with
  | none => return false
  | some CE =>
    if CE.calleeName = bytes "clang_analyzer_exprName" then
      match CE.args with
      | [] => throw .noArgument
      | arg :: _ =>
        match exprName SM (some CE.expr) bound arg with
        | .error f => throw (.name f)
        | .ok name => do
          if name ≠ [] then
            let _ ← reportBug name
          return true
    else return false

/-- A call that the analyzer offers. -/
def offer (call : Option (CallExpr Loc)) : InspectionM Unit := do
  let _ ← evalCall SM bound call

/-- The calls of an analysis, one after the other. -/
def inspect (calls : List (Option (CallExpr Loc))) : InspectionM Unit := calls.forM (offer SM bound)

def start (nodes : Nat → Bool) : Inspection where
  bugType := none
  nodes := nodes
  reports := []

end SwapDetector.Model.ExprNamesInspectionChecker
