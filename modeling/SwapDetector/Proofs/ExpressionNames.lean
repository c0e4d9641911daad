import SwapDetector.Model.ExprNames

/-! # What the name of an expression depends on

Parentheses, casts and temporaries take no part in a name, wherever they stand on the way to
it. And naming comes to an end, since leaving the expansions of the call does when the source
manager keeps its promises about locations. It fails exactly when the name to be read is that
of a declaration without an identifier.
-/
namespace SwapDetector.Proofs.ExpressionNames
open SwapDetector.Model.Bytes SwapDetector.Model.ExprNames

variable {Loc : Type}

/-- The expression without parentheses, casts and temporaries on the way to its name. -/
def strip : Expr Loc → Expr Loc
  | .paren _ e => strip e
  | .cast _ e => strip e
  | .materializeTemporary _ e => strip e
  | .arraySubscript range base => .arraySubscript range (strip base)
  | .call range calleeDecl callee => .call range calleeDecl (strip callee)
  | .unaryOperator range e => .unaryOperator range (strip e)
  | e => e

@[simp] theorem ignore_ignore (e : Expr Loc) :
    ignoreParenCastsButNotTemplateParms (ignoreParenCastsButNotTemplateParms e) =
      ignoreParenCastsButNotTemplateParms e := by
  induction e <;> simp_all [ignoreParenCastsButNotTemplateParms]

variable [DecidableEq Loc] (SM : SourceManager Loc) (CE : Option (Expr Loc)) (bound : Nat)

/-! ## One round of naming -/

/-- The name of an expression that is no wrapper and not from a macro. -/
def baseName : Expr Loc → Except NameFailure ByteString
  | .declRef _ decl => decl.getName
  | .literal _ printed => .ok printed
  | .cxxThis _ => .ok (bytes "this")
  | .member _ memberName => .ok memberName.getAsString
  | .arraySubscript _ base => exprName SM CE bound base
  | .call _ (some decl) _ => .ok decl.getAsString
  | .call _ none callee => exprName SM CE bound callee
  | .unaryOperator _ subExpr => exprName SM CE bound subExpr
  | .typeTrait _ .sizeOf => .ok (bytes "sizeof")
  | .typeTrait _ .alignOf => .ok (bytes "alignof")
  | .typeTrait _ .preferredAlignOf => .ok (bytes "__alignof")
  | .typeTrait _ .vecStep => .ok (bytes "vec_step")
  | .typeTrait _ .openMPRequiredSimdAlign => .ok (bytes "__builtin_omp_required_simd_align")
  | .substTemplateParm _ parameter => .ok parameter.getAsString
  | _ => .ok []

theorem exprName_eq (e : Expr Loc) : exprName SM CE bound e =
    (macroName SM CE bound (ignoreParenCastsButNotTemplateParms e).getSourceRange).bind fun name =>
      (name.map .ok).getD (baseName SM CE bound (ignoreParenCastsButNotTemplateParms e)) := by
  rw [exprName]
  cases macroName SM CE bound (ignoreParenCastsButNotTemplateParms e).getSourceRange with
  | error f => rfl
  | ok name =>
    cases name with
    | some name => rfl
    | none =>
      show _ = baseName SM CE bound (ignoreParenCastsButNotTemplateParms e)
      generalize ignoreParenCastsButNotTemplateParms e = base
      cases base with
      | call range calleeDecl callee => cases calleeDecl <;> rfl
      | typeTrait range kind => cases kind <;> rfl
      | _ => rfl

theorem exprName_ignore (e : Expr Loc) :
    exprName SM CE bound (ignoreParenCastsButNotTemplateParms e) = exprName SM CE bound e := by
  rw [exprName_eq, ignore_ignore, ← exprName_eq]

/-- When the base of an expression has the range it had, the two names agree if the names without
macros do. -/
theorem exprName_congr {e e' : Expr Loc}
    (hrange : (ignoreParenCastsButNotTemplateParms e).getSourceRange =
      (ignoreParenCastsButNotTemplateParms e').getSourceRange)
    (hbase : baseName SM CE bound (ignoreParenCastsButNotTemplateParms e) =
      baseName SM CE bound (ignoreParenCastsButNotTemplateParms e')) :
    exprName SM CE bound e = exprName SM CE bound e' := by
  rw [exprName_eq, exprName_eq, hrange, hbase]

/-- Wrappers take no part in names. -/
theorem exprName_strip (e : Expr Loc) : exprName SM CE bound (strip e) = exprName SM CE bound e := by
  induction e with
  | paren range e ih =>
    rw [strip, ih, ← exprName_ignore]
    exact exprName_ignore SM CE bound (.paren range e)
  | cast range e ih =>
    rw [strip, ih, ← exprName_ignore]
    exact exprName_ignore SM CE bound (.cast range e)
  | materializeTemporary range e ih =>
    rw [strip, ih, ← exprName_ignore]
    exact exprName_ignore SM CE bound (.materializeTemporary range e)
  | arraySubscript range base ih =>
    exact exprName_congr SM CE bound rfl ih
  | call range calleeDecl callee ih =>
    refine exprName_congr SM CE bound rfl ?_
    cases calleeDecl with
    | none => exact ih
    | some decl => rfl
  | unaryOperator range e ih =>
    exact exprName_congr SM CE bound rfl ih
  | _ => rfl

/-! ## Naming comes to an end -/

/-- What a source manager promises about its locations: a location in a macro is spelled at one
that is less deep, locations in files are their own expansions, and what a file spells for a
macro is not where an expansion starts. -/
structure Lawful (depth : Loc → Nat) : Prop where
  spelling_lt : ∀ l, SM.isMacroID l = true → depth (SM.getImmediateSpellingLoc l) < depth l
  file_expansion : ∀ l, SM.isMacroID l = false → SM.getExpansionLoc l = l
  spelled : ∀ l m, SM.isMacroID l = true → SM.isMacroID m = true →
    SM.isMacroID (SM.getImmediateSpellingLoc l) = false →
    SM.getImmediateSpellingLoc l ≠ SM.getExpansionLoc m

/-- A call that begins in a file does not begin where an expansion starts. -/
def Placed : Prop :=
  ∀ call ∈ CE, SM.isMacroID call.getBeginLoc = false →
    ∀ m, SM.isMacroID m = true → SM.getExpansionLoc m ≠ call.getBeginLoc

variable {SM CE bound} {depth : Loc → Nat}

theorem leaveExpansions_returns (hlaw : Lawful SM depth) (hplaced : Placed SM CE) :
    ∀ (bound : Nat) (range : SourceRange Loc), SM.isMacroID range.beginLoc = true →
      depth range.beginLoc < bound → ∃ range', leaveExpansions SM CE bound range = .ok range' := by
  cases CE with
  | none =>
    intro bound range _ hlt
    cases bound with
    | zero => exact absurd hlt (Nat.not_lt_zero _)
    | succ bound => exact ⟨range, rfl⟩
  | some call =>
    intro bound
    induction bound with
    | zero => exact fun _ _ hlt => absurd hlt (Nat.not_lt_zero _)
    | succ bound ih =>
      intro range hmacro hlt
      rw [leaveExpansions]
      simp only [Option.any_some, decide_eq_true_eq]
      by_cases hsame : SM.getExpansionLoc range.beginLoc = SM.getExpansionLoc call.getBeginLoc
      · rw [if_pos hsame]
        have hspelling := hlaw.spelling_lt _ hmacro
        have hcall : SM.isMacroID call.getBeginLoc = true := by
          by_contra hfile
          rw [Bool.not_eq_true] at hfile
          rw [hlaw.file_expansion _ hfile] at hsame
          exact hplaced call rfl hfile _ hmacro hsame
        cases hfile : SM.isMacroID (SM.getImmediateSpellingLoc range.beginLoc) with
        | true => exact ih _ hfile (by simp only; omega)
        | false =>
          -- one more round, which finds a location outside
          obtain ⟨bound, rfl⟩ : ∃ n, bound = n + 1 := ⟨bound - 1, by omega⟩
          have hne := hlaw.spelled _ _ hmacro hcall hfile
          rw [← hlaw.file_expansion _ hfile] at hne
          rw [leaveExpansions]
          simp only [Option.any_some, decide_eq_true_eq]
          exact ⟨_, if_neg hne⟩
      · exact ⟨range, if_neg hsame⟩

theorem macroName_returns (hlaw : Lawful SM depth) (hplaced : Placed SM CE)
    (hbound : ∀ l, SM.isMacroID l = true → depth l < bound) (range : SourceRange Loc) :
    ∃ name, macroName SM CE bound range = .ok name := by
  unfold macroName
  cases hmacro : SM.isMacroID range.beginLoc with
  | false => exact ⟨none, rfl⟩
  | true =>
    obtain ⟨range', hrange⟩ := leaveExpansions_returns hlaw hplaced bound range hmacro (hbound _ hmacro)
    rw [if_pos rfl, hrange]
    by_cases hwhole : SM.isMacroID range'.beginLoc = true ∧
        SM.getExpansionLoc range'.beginLoc = SM.getExpansionLoc range'.endLoc
    · exact ⟨_, if_pos hwhole⟩
    · exact ⟨_, if_neg hwhole⟩

/-! ## Which expressions have a name -/

section Named
variable (SM CE bound)

/-- The expression is all of the expansion of a macro. -/
def fromMacro (range : SourceRange Loc) : Bool :=
  match macroName SM CE bound range with
  | .ok (some _) => true
  | _ => false

/-- Where the name is that of a declaration, as on the way through array elements, callees and
operands, it is an identifier. -/
def named : Expr Loc → Bool
  | .paren _ e => named e
  | .cast _ e => named e
  | .materializeTemporary _ e => named e
  | .declRef range (.other _) => fromMacro SM CE bound range
  | .arraySubscript range base => fromMacro SM CE bound range || named base
  | .call range none callee => fromMacro SM CE bound range || named callee
  | .unaryOperator range e => fromMacro SM CE bound range || named e
  | _ => true

end Named

/-- Something ends well if a condition is met, and with the assertion about identifiers if not. -/
def Asserts {α : Type} (ok : Bool) (e : Except NameFailure α) : Prop :=
  (ok = true ∧ ∃ a, e = .ok a) ∨ (ok = false ∧ e = .error .notIdentifier)

theorem Asserts.of_ok {α : Type} {a : α} : Asserts true (.ok a : Except NameFailure α) :=
  .inl ⟨rfl, a, rfl⟩

/-- One round of naming. -/
theorem exprName_round (hlaw : Lawful SM depth) (hplaced : Placed SM CE)
    (hbound : ∀ l, SM.isMacroID l = true → depth l < bound) {e : Expr Loc} {ok : Bool}
    (hbase : ignoreParenCastsButNotTemplateParms e = e) (h : Asserts ok (baseName SM CE bound e)) :
    Asserts (fromMacro SM CE bound e.getSourceRange || ok) (exprName SM CE bound e) := by
  obtain ⟨name, hmacro⟩ := macroName_returns hlaw hplaced hbound e.getSourceRange
  rw [exprName_eq, hbase, fromMacro, hmacro]
  cases name with
  | some name => exact .of_ok
  | none => exact h

/-- An expression has a name exactly when the declaration it is read from has an identifier. -/
theorem exprName_asserts (hlaw : Lawful SM depth) (hplaced : Placed SM CE)
    (hbound : ∀ l, SM.isMacroID l = true → depth l < bound) (e : Expr Loc) :
    Asserts (named SM CE bound e) (exprName SM CE bound e) := by
  have hround {e : Expr Loc} (hbase : ignoreParenCastsButNotTemplateParms e = e)
      (h : Asserts true (baseName SM CE bound e)) : Asserts true (exprName SM CE bound e) := by
    have hasserts := exprName_round hlaw hplaced hbound hbase h
    rwa [Bool.or_true] at hasserts
  induction e with
  | paren range e ih | cast range e ih | materializeTemporary range e ih =>
    rw [← exprName_ignore] at ih ⊢
    exact ih
  | declRef range decl =>
    cases decl with
    | identifier name => exact hround rfl .of_ok
    | other printed =>
      have hnone : Asserts false (baseName SM CE bound (.declRef range (.other printed))) :=
        .inr ⟨rfl, rfl⟩
      have hasserts := exprName_round hlaw hplaced hbound rfl hnone
      rwa [Bool.or_false] at hasserts
  | arraySubscript range base ih =>
    exact exprName_round (e := .arraySubscript range base) hlaw hplaced hbound rfl ih
  | call range calleeDecl callee ih =>
    cases calleeDecl with
    | none => exact exprName_round (e := .call range none callee) hlaw hplaced hbound rfl ih
    | some decl => exact hround rfl .of_ok
  | unaryOperator range e ih =>
    exact exprName_round (e := .unaryOperator range e) hlaw hplaced hbound rfl ih
  | typeTrait range kind =>
    refine hround rfl ?_
    cases kind <;> exact .of_ok
  | _ => exact hround rfl .of_ok

end SwapDetector.Proofs.ExpressionNames
