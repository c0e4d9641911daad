import SwapDetector.Model.Bytes

/-! # Names of expressions (ExprNames.cpp)

The expressions of Clang as far as their names are read, over any locations and any source
manager. A location is in a file or in a macro expansion.
-/
namespace SwapDetector.Model.ExprNames
open SwapDetector.Model.Bytes

/-! ## The AST -/

/-- The name of a declaration: an identifier, or the printed form of any other name. -/
inductive DeclarationName where
  | identifier (name : ByteString)
  | other (printed : ByteString)
  deriving DecidableEq

/-- How reading a name can fail. -/
inductive NameFailure where
  /-- The assertion of `NamedDecl::getName` that the name is an identifier -/
  | notIdentifier
  /-- The loop over the macros of an expression does not end. -/
  | diverged
  deriving DecidableEq

/-- `NamedDecl::getName`, which is for identifiers. -/
def DeclarationName.getName : DeclarationName → Except NameFailure ByteString
  | .identifier name => .ok name
  | .other _ => .error .notIdentifier

def DeclarationName.getAsString : DeclarationName → ByteString
  | .identifier name => name
  | .other printed => printed

inductive UnaryExprOrTypeTrait where
  | sizeOf
  | alignOf
  | preferredAlignOf
  | vecStep
  | openMPRequiredSimdAlign
  deriving DecidableEq

structure SourceRange (Loc : Type) where
  beginLoc : Loc
  endLoc : Loc
  deriving DecidableEq

inductive Expr (Loc : Type) where
  /-- What `IgnoreParens` removes. -/
  | paren (range : SourceRange Loc) (subExpr : Expr Loc)
  | cast (range : SourceRange Loc) (subExpr : Expr Loc)
  | materializeTemporary (range : SourceRange Loc) (subExpr : Expr Loc)
  | declRef (range : SourceRange Loc) (decl : DeclarationName)
  /-- A literal, as it is printed. -/
  | literal (range : SourceRange Loc) (printed : ByteString)
  | cxxThis (range : SourceRange Loc)
  | member (range : SourceRange Loc) (memberName : DeclarationName)
  | arraySubscript (range : SourceRange Loc) (base : Expr Loc)
  /-- A call, with the name of its declaration if it has one. -/
  | call (range : SourceRange Loc) (calleeDecl : Option DeclarationName) (callee : Expr Loc)
  | unaryOperator (range : SourceRange Loc) (subExpr : Expr Loc)
  | typeTrait (range : SourceRange Loc) (kind : UnaryExprOrTypeTrait)
  | substTemplateParm (range : SourceRange Loc) (parameter : DeclarationName)
  | other (range : SourceRange Loc)
  deriving DecidableEq

variable {Loc : Type}

def Expr.getSourceRange : Expr Loc → SourceRange Loc
  | .paren range _ | .cast range _ | .materializeTemporary range _ | .declRef range _
  | .literal range _ | .cxxThis range | .member range _ | .arraySubscript range _
  | .call range _ _ | .unaryOperator range _ | .typeTrait range _ | .substTemplateParm range _
  | .other range => range

def Expr.getBeginLoc (e : Expr Loc) : Loc := e.getSourceRange.beginLoc

/-- Ignores any casts, parentheses and temporaries, but not template parameter values. -/
def ignoreParenCastsButNotTemplateParms : Expr Loc → Expr Loc
  | .paren _ e => ignoreParenCastsButNotTemplateParms e
  | .cast _ e => ignoreParenCastsButNotTemplateParms e
  | .materializeTemporary _ e => ignoreParenCastsButNotTemplateParms e
  | e => e

theorem sizeOf_ignore (e : Expr Loc) : sizeOf (ignoreParenCastsButNotTemplateParms e) ≤ sizeOf e := by
  induction e with
  | paren range e ih | cast range e ih | materializeTemporary range e ih =>
    rw [ignoreParenCastsButNotTemplateParms]
    simp only [Expr.paren.sizeOf_spec, Expr.cast.sizeOf_spec, Expr.materializeTemporary.sizeOf_spec]
    omega
  | _ => exact le_rfl

/-! ## Macros -/

/-- The source manager and the lexer. -/
structure SourceManager (Loc : Type) where
  isMacroID : Loc → Bool
  getExpansionLoc : Loc → Loc
  getImmediateSpellingLoc : Loc → Loc
  /-- `Lexer::getSpelling` -/
  getSpelling : Loc → ByteString

variable [DecidableEq Loc] (SM : SourceManager Loc) (CE : Option (Expr Loc))

/-- The loop that leaves the expansions the call itself is in, at most `bound` times. -/
def leaveExpansions : Nat → SourceRange Loc → Except NameFailure (SourceRange Loc)
  | 0, _ => .error .diverged
  | bound + 1, expandedRange =>
    if CE.any fun call =>
        SM.getExpansionLoc expandedRange.beginLoc = SM.getExpansionLoc call.getBeginLoc then
      leaveExpansions bound ⟨SM.getImmediateSpellingLoc expandedRange.beginLoc,
        SM.getImmediateSpellingLoc expandedRange.endLoc⟩
    else .ok expandedRange

/-- The name of the macro that an expression is the whole expansion of. -/
def macroName (bound : Nat) (exprRange : SourceRange Loc) :
    Except NameFailure (Option ByteString) :=
  if SM.isMacroID exprRange.beginLoc then do
    let expandedRange ← leaveExpansions SM CE bound exprRange
    if SM.isMacroID expandedRange.beginLoc ∧
        SM.getExpansionLoc expandedRange.beginLoc = SM.getExpansionLoc expandedRange.endLoc then
      return some (SM.getSpelling (SM.getExpansionLoc expandedRange.beginLoc))
    else return none
  else return none

/-! ## Names -/

/-- Extracts a name from an expression. Of a reference it is the name of the declaration, if
that is an identifier; operators and conversions have other names. -/
def exprName (bound : Nat) (expr : Expr Loc) : Except NameFailure ByteString := do
  match ← macroName SM CE bound (ignoreParenCastsButNotTemplateParms expr).getSourceRange with
  | some name => return name
  | none =>
    match _hbase : ignoreParenCastsButNotTemplateParms expr with
    | .declRef _ decl => decl.getName
    | .literal _ printed => return printed
    | .cxxThis _ => return bytes "this"
    | .member _ memberName => return memberName.getAsString
    | .arraySubscript _ base => exprName bound base
    | .call _ (some decl) _ => return decl.getAsString
    | .call _ none callee => exprName bound callee
    | .unaryOperator _ subExpr => exprName bound subExpr
    | .typeTrait _ kind =>
      match kind with
      | .sizeOf => return bytes "sizeof"
      | .alignOf => return bytes "alignof"
      | .preferredAlignOf => return bytes "__alignof"
      | .vecStep => return bytes "vec_step"
      | .openMPRequiredSimdAlign => return bytes "__builtin_omp_required_simd_align"
    | .substTemplateParm _ parameter => return parameter.getAsString
    | _ => return []
termination_by sizeOf expr
decreasing_by
  all_goals
    have hle := sizeOf_ignore expr
    rw [_hbase] at hle
    simp only [Expr.arraySubscript.sizeOf_spec, Expr.call.sizeOf_spec, Expr.unaryOperator.sizeOf_spec] at hle
    omega

end SwapDetector.Model.ExprNames
