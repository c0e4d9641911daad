import SwapDetector.Base.Decimal
import SwapDetector.Model.ExprNames
import SwapDetector.Model.SwappedArgChecker

/-! # The checker of the static analyzer (SwappedArgCheckerPlugin.cpp)

The analyzer hands every call it comes across to one checker. A report needs a node of the
exploded graph, which the analyzer makes or does not make.
-/
namespace SwapDetector.Model.SwappedArgCheckerPlugin
open SwapDetector.Base.Decimal SwapDetector.Base.ExactFloat SwapDetector.Base.Exec
open SwapDetector.Base.OrderedSet
open SwapDetector.Model.Bytes SwapDetector.Model.Types SwapDetector.Model.StatsDatabase
open SwapDetector.Model.SwappedArgChecker SwapDetector.Model.ExprNames

variable {F : Type} [FloatArith F] {Loc : Type}

/-! ## Calls and reports -/

/-- A parameter has an identifier for its name, which is empty if it has none. -/
structure FunctionDecl where
  qualifiedName : ByteString
  parameters : List ByteString

/-- A call, with its function declaration if it has one. An argument may have no expression. -/
structure CallEvent (Loc : Type) where
  decl : Option FunctionDecl
  originExpr : Option (Expr Loc)
  args : List (Option (Expr Loc))

def CallEvent.getArgExpr (call : CallEvent Loc) (idx : Nat) : Option (Expr Loc) :=
  call.args[idx]?.join

/-- An argument without an expression has no valid range. -/
def CallEvent.getArgSourceRange (call : CallEvent Loc) (idx : Nat) : Option (SourceRange Loc) :=
  (call.getArgExpr idx).map Expr.getSourceRange

structure BugType where
  description : ByteString
  category : ByteString
  suppressOnSink : Bool
  deriving DecidableEq

structure Report (Loc : Type) where
  bugType : BugType
  message : ByteString
  ranges : List (Option (SourceRange Loc))
  /-- The expressions the values of which are tracked. -/
  tracked : List (Expr Loc)
  deriving DecidableEq

/-! ## The state of an analysis -/

structure Analysis (F Loc : Type) where
  /-- The session of the member `Check`. -/
  check : Session F
  /-- The member `BT`. -/
  bugType : Option BugType
  /-- Which of the coming nodes are made. -/
  nodes : Nat → Bool
  reports : List (Report Loc)

/-- How a call can fail. -/
inductive Failure where
  | check (f : Fault)
  | name (f : NameFailure)
  deriving DecidableEq

abbrev PluginM (F Loc : Type) := ExceptT Failure (StateM (Analysis F Loc))

/-- Runs the checker in its session. -/
def runCheck {α : Type} (x : CheckM F α) : PluginM F Loc α := do
  let s ← get
  set { s with check := (exec x s.check).2 }
  match (exec x s.check).1 with
  | .ok a => return a
  | .error f => throw (.check f)

/-- `CheckerContext::generateNonFatalErrorNode` -/
def generateNonFatalErrorNode : PluginM F Loc Bool := do
  let s ← get
  set { s with nodes := fun k => s.nodes (k + 1) }
  return s.nodes 0

/-! ## The checker -/

def getParamNames (FD : FunctionDecl) : List ByteString := FD.parameters

variable [DecidableEq Loc] (SM : SourceManager Loc) (bound : Nat)

/-- The names of one argument: none at all if it has no expression. -/
def getArgName (call : CallEvent Loc) (arg : Option (Expr Loc)) :
    Except NameFailure (List ByteString) :=
  match arg with
  | some E => (exprName SM call.originExpr bound E).map fun name => [name]
  | none => .ok []

def getArgNames (call : CallEvent Loc) : Except NameFailure (List (List ByteString)) :=
  call.args.mapM (getArgName SM bound call)

def flattenMorphemeListForDiag (M : Finset ByteString) : ByteString :=
  (bytes ", ").intercalate (inOrder M)

def message (R : Result F) : ByteString :=
  bytes "arguments " ++ decimal R.arg1 ++ bytes " and " ++ decimal R.arg2 ++
    bytes " are swapped with morpheme1 = " ++ flattenMorphemeListForDiag R.morphemes1 ++
    bytes " and morpheme2 = " ++ flattenMorphemeListForDiag R.morphemes2

/-- Reports a pair of zero-based arguments, if there is a node for it. -/
def reportRuleViolation (call : CallEvent Loc) (arg1 arg2 : Nat) (message : ByteString) :
    PluginM F Loc Unit := do
  if ← generateNonFatalErrorNode then
    let s ← get
    let BT := s.bugType.getD ⟨bytes "swapped arguments", bytes "API", true⟩
    let R : Report Loc :=
      { bugType := BT
        message := message
        ranges := [call.getArgSourceRange arg1, call.getArgSourceRange arg2]
        tracked := (call.getArgExpr arg1).toList ++ (call.getArgExpr arg2).toList }
    set { s with bugType := some BT, reports := s.reports ++ [R] }

/-- The call site of a call. -/
def callSiteOf (FD : FunctionDecl) (argNames : List (List ByteString)) : CallSite where
  callDecl := ⟨FD.qualifiedName, some (getParamNames FD)⟩
  positionalArgNames := argNames

def checkPreCall (opts : CheckerConfiguration F) (call : CallEvent Loc) : PluginM F Loc Unit := do
  match call.decl with
  | none => return
  | some FD =>
    match getArgNames SM bound call with
    | .error f => throw (.name f)
    | .ok argNames =>
      let results ← runCheck (checkSite opts (callSiteOf FD argNames) .all)
      -- from one-based to zero-based arguments
      results.forM fun R => reportRuleViolation call (R.arg1 - 1) (R.arg2 - 1) (message R)

/-- The calls of an analysis, one after the other. -/
def analyze (opts : CheckerConfiguration F) (calls : List (CallEvent Loc)) : PluginM F Loc Unit :=
  calls.forM (checkPreCall SM bound opts)

/-- `SwappedArgChecker::SwappedArgChecker`, with the steps and nodes that the calls will get. -/
def start (disk : CString → ModelFile F) (modelPath : ByteString) (fails nodes : Nat → Bool) :
    Analysis F Loc where
  check := ⟨(Checker.new { modelPath := modelPath } disk).stats, fails⟩
  bugType := none
  nodes := nodes
  reports := []

end SwapDetector.Model.SwappedArgCheckerPlugin
