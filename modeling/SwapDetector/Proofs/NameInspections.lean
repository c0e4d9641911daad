import SwapDetector.Model.ExprNamesInspectionChecker
import SwapDetector.Proofs.AnalyzerCalls

/-! # Names that are shown

The tests of names see what the other checker works with: what is reported about a call is the
name that its first argument has there. An inspection ends at the first call without an
argument, or with one that has no name to read.
-/
namespace SwapDetector.Proofs.NameInspections
open SwapDetector.Base.Exec SwapDetector.Base.Postconditions
open SwapDetector.Model.Bytes SwapDetector.Model.ExprNames
open SwapDetector.Model.SwappedArgCheckerPlugin SwapDetector.Model.ExprNamesInspectionChecker
open SwapDetector.Proofs.ExpressionNames SwapDetector.Proofs.AnalyzerCalls

variable {Loc : Type}

/-- A call expression as the analyzer hands it to the other checker. -/
def eventOf (CE : CallExpr Loc) : CallEvent Loc where
  decl := none
  originExpr := some CE.expr
  args := CE.args.map some

def Inspected (CE : CallExpr Loc) : Prop := CE.calleeName = bytes "clang_analyzer_exprName"

instance (CE : CallExpr Loc) : Decidable (Inspected CE) := inferInstanceAs (Decidable (_ = _))

def analyzerAssumptions : BugType := ⟨bytes "Checking analyzer assumptions", bytes "debug", false⟩

def reportOfName (name : ByteString) : BugReport := ⟨analyzerAssumptions, name⟩

variable [DecidableEq Loc] (SM : SourceManager Loc) (bound : Nat)

/-- The name of the first argument, as the other checker reads it. -/
def firstName (CE : CallExpr Loc) : Option ByteString :=
  CE.args.head?.bind fun arg =>
    (getArgName SM bound (eventOf CE) (some arg)).toOption.bind List.head?

/-- What is shown of a call: the name of its first argument, unless it has none. -/
def shown : Option (CallExpr Loc) → List BugReport
  | some CE =>
    if Inspected CE then
      match firstName SM bound CE with
      | some name => if name = [] then [] else [reportOfName name]
      | none => []
    else []
  | none => []

/-- The call is not inspected, or it has a first argument with a name to read. -/
def inspectable : Option (CallExpr Loc) → Bool
  | some CE => !decide (Inspected CE) || CE.args.head?.any (named SM (some CE.expr) bound)
  | none => true

/-- How a call fails that is not inspectable. -/
def failureOf (call : Option (CallExpr Loc)) :
    SwapDetector.Model.ExprNamesInspectionChecker.Failure :=
  if call.all fun CE => CE.args.isEmpty then .noArgument else .name .notIdentifier

/-- The state once the reports have been offered, each with a node or without. -/
structure Shown (nodes : Nat → Bool) (offers : List BugReport) (s : Inspection) : Prop where
  bugType : ∀ BT, s.bugType = some BT → BT = analyzerAssumptions
  rest : s.nodes = fun k => nodes (k + offers.length)
  reports : s.reports = kept nodes offers

variable {SM bound} {nodes : Nat → Bool} {offers : List BugReport} {s : Inspection}

omit [DecidableEq Loc] in
theorem exec_reportBug (name : ByteString) : exec (reportBug name) s =
    (.ok (s.nodes 0), if s.nodes 0 then
      { s with
        nodes := fun k => s.nodes (k + 1)
        bugType := some (s.bugType.getD analyzerAssumptions)
        reports := s.reports ++ [BugReport.mk (s.bugType.getD analyzerAssumptions) name] }
    else { s with nodes := fun k => s.nodes (k + 1) }) := by
  unfold reportBug
  refine (exec_bind_ok (a := s.nodes 0) (t := { s with nodes := fun k => s.nodes (k + 1) })
    rfl).trans ?_
  cases s.nodes 0 <;> rfl

omit [DecidableEq Loc] in
theorem reportBug_shows (hs : Shown nodes offers s) (name : ByteString) :
    Gives (reportBug name) s fun _ t =>
      Shown nodes (offers ++ [reportOfName name]) t := by
  have hbug := bugType_getD hs.bugType
  have hrest := nodes_snoc hs.rest (reportOfName name)
  have hkept : kept nodes (offers ++ [reportOfName name]) =
      s.reports ++ if s.nodes 0 then [reportOfName name] else [] := by
    rw [kept_snoc hs.rest, hs.reports]
  rw [Gives, exec_reportBug, hbug]
  refine ⟨s.nodes 0, _, rfl, ?_⟩
  cases hmade : s.nodes 0 with
  | false =>
    rw [hmade] at hkept
    exact ⟨hs.bugType, hrest, hkept ▸ (List.append_nil _).symm⟩
  | true =>
    rw [hmade] at hkept
    exact ⟨fun BT hBT => (Option.some.inj hBT).symm, hrest, hkept.symm⟩

/-- The name of the argument that is inspected is its name for the other checker. -/
theorem firstName_eq {CE : CallExpr Loc} {arg : Expr Loc} {args : List (Expr Loc)}
    {name : ByteString} (hargs : CE.args = arg :: args)
    (hname : exprName SM (some CE.expr) bound arg = .ok name) :
    firstName SM bound CE = some name := by
  have hevent : exprName SM (eventOf CE).originExpr bound arg = .ok name := hname
  rw [firstName, hargs, List.head?_cons, Option.bind_some, getArgName, hevent]
  rfl

theorem evalCall_shows {depth : Loc → Nat} (hlaw : Lawful SM depth)
    (hbound : ∀ l, SM.isMacroID l = true → depth l < bound) {call : Option (CallExpr Loc)}
    (hplaced : ∀ CE, call = some CE → Placed SM (some CE.expr))
    (hcall : inspectable SM bound call = true) (hs : Shown nodes offers s) :
    Gives (evalCall SM bound call) s fun _ t => Shown nodes (offers ++ shown SM bound call) t := by
  cases call with
  | none => exact Gives.pure ((List.append_nil offers).symm ▸ hs)
  | some CE =>
    by_cases hinspected : Inspected CE
    · have hcallee : CE.calleeName = bytes "clang_analyzer_exprName" := hinspected
      rw [inspectable, decide_eq_true hinspected, Bool.not_true, Bool.false_or] at hcall
      cases hargs : CE.args with
      | nil => rw [hargs] at hcall; cases hcall
      | cons arg args =>
        rw [hargs, List.head?_cons, Option.any_some] at hcall
        rcases exprName_asserts hlaw (hplaced CE rfl) hbound arg with ⟨-, name, hname⟩ | ⟨hfails, -⟩
        · rw [evalCall, if_pos hcallee, shown, if_pos hinspected, firstName_eq hargs hname, hargs]
          simp only [hname]
          by_cases hempty : name = []
          · rw [if_pos hempty, if_neg (not_not.mpr hempty), List.append_nil]
            exact Gives.pure hs
          · rw [if_neg hempty, if_pos hempty]
            exact (reportBug_shows hs name).bind fun _ t ht => Gives.pure ht
        · cases hcall.symm.trans hfails
    · have hcallee : CE.calleeName ≠ bytes "clang_analyzer_exprName" := hinspected
      rw [evalCall, if_neg hcallee, shown, if_neg hinspected, List.append_nil]
      exact Gives.pure hs

theorem evalCall_asserts {depth : Loc → Nat} (hlaw : Lawful SM depth)
    (hbound : ∀ l, SM.isMacroID l = true → depth l < bound) {call : Option (CallExpr Loc)}
    (hplaced : ∀ CE, call = some CE → Placed SM (some CE.expr))
    (hcall : inspectable SM bound call = false) :
    exec (offer SM bound call) s = (.error (failureOf call), s) := by
  cases call with
  | none => cases hcall
  | some CE =>
    rw [inspectable, Bool.or_eq_false_iff] at hcall
    have hcallee : CE.calleeName = bytes "clang_analyzer_exprName" := by
      by_contra hne
      rw [decide_eq_false (show ¬ Inspected CE from hne)] at hcall
      cases hcall.1
    unfold offer
    rw [evalCall, if_pos hcallee, failureOf, Option.all_some]
    cases hargs : CE.args with
    | nil => rfl
    | cons arg args =>
      have hnamed : named SM (some CE.expr) bound arg = false := by
        simpa [hargs] using hcall.2
      rcases exprName_asserts hlaw (hplaced CE rfl) hbound arg with ⟨hok, -⟩ | ⟨-, hname⟩
      · cases hnamed.symm.trans hok
      · simp only [hname]
        rfl

/-- **Inspections**: an analysis shows, call by call, the names that first arguments of
`clang_analyzer_exprName` have for the other checker, as far as there are names and nodes, up to
the first call without a first argument that has a name to read. -/
theorem inspect_shows {depth : Loc → Nat} (hlaw : Lawful SM depth)
    (hbound : ∀ l, SM.isMacroID l = true → depth l < bound) (calls : List (Option (CallExpr Loc)))
    (hplaced : ∀ CE, some CE ∈ calls → Placed SM (some CE.expr)) (nodes : Nat → Bool) :
    ∃ e t, exec (inspect SM bound calls)
        (SwapDetector.Model.ExprNamesInspectionChecker.start nodes) = (e, t) ∧
      (calls.all (inspectable SM bound) = true → e = .ok ⟨⟩) ∧
      (calls.all (inspectable SM bound) = false →
        ∃ call, calls.find? (fun call => !inspectable SM bound call) = some call ∧
          e = .error (failureOf call)) ∧
      t.reports = kept nodes ((calls.takeWhile (inspectable SM bound)).flatMap (shown SM bound)) := by
  have hstart : Shown nodes ([].flatMap (shown SM bound))
      (SwapDetector.Model.ExprNamesInspectionChecker.start nodes) :=
    ⟨fun _ hBT => (by cases hBT), rfl, rfl⟩
  obtain ⟨e, t, hrun, ht, hall, hfirst⟩ := Gives.forM_takeWhile (offer SM bound)
    (inspectable SM bound) failureOf
    (fun done t => Shown nodes (done.flatMap (shown SM bound)) t) calls
    (fun done call hmem hcall u hu => by
      rw [List.flatMap_append, List.flatMap_singleton]
      have hshows := evalCall_shows hlaw hbound (fun CE hCE => hplaced CE (hCE ▸ hmem)) hcall hu
      exact hshows.bind fun _ v hv => Gives.pure hv)
    (fun _ call hmem hcall u hu =>
      ⟨u, evalCall_asserts hlaw hbound (fun CE hCE => hplaced CE (hCE ▸ hmem)) hcall, hu⟩) hstart
  exact ⟨e, t, hrun, hall, hfirst, ht.reports⟩

/-- The calls `clang_analyzer_exprName(DOGS)`, `clang_analyzer_exprName(3 + 4)`, `feed(cats)` and
`clang_analyzer_exprName(operator+)`. -/
def inspectedCalls : List (Option (CallExpr Nat)) :=
  let callOf (range : SourceRange Nat) (name : ByteString) : Expr Nat :=
    .call range (some (.identifier name)) (.declRef ⟨range.beginLoc, range.beginLoc⟩ (.identifier name))
  [some ⟨callOf ⟨1, 70⟩ (bytes "clang_analyzer_exprName"), bytes "clang_analyzer_exprName",
      [.literal ⟨100, 100⟩ (bytes "7")]⟩,
    some ⟨callOf ⟨71, 80⟩ (bytes "clang_analyzer_exprName"), bytes "clang_analyzer_exprName",
      [.other ⟨75, 79⟩]⟩,
    some ⟨callOf ⟨81, 90⟩ (bytes "feed"), bytes "feed", [.declRef ⟨85, 85⟩ (.identifier (bytes "cats"))]⟩,
    none,
    some ⟨callOf ⟨91, 99⟩ (bytes "clang_analyzer_exprName"), bytes "clang_analyzer_exprName",
      [.declRef ⟨95, 95⟩ (.other (bytes "operator+"))]⟩]

theorem inspectedCalls_shown : ∃ e t, exec (inspect petsManager 2 inspectedCalls)
      (SwapDetector.Model.ExprNamesInspectionChecker.start fun k => k == 0) = (e, t) ∧
    (inspectedCalls.all (inspectable petsManager 2) = true → e = .ok ⟨⟩) ∧
    (inspectedCalls.all (inspectable petsManager 2) = false →
      ∃ call, inspectedCalls.find? (fun call => !inspectable petsManager 2 call) = some call ∧
        e = .error (failureOf call)) ∧
    t.reports = kept (fun k => k == 0)
      ((inspectedCalls.takeWhile (inspectable petsManager 2)).flatMap (shown petsManager 2)) := by
  have hall : ∀ CE ∈ inspectedCalls.filterMap id, CE.expr.getBeginLoc ≠ 50 := by decide
  have hplaced : ∀ CE, some CE ∈ inspectedCalls → Placed petsManager (some CE.expr) := by
    intro CE hCE
    exact placed_of_ne (hall CE (List.mem_filterMap.mpr ⟨some CE, hCE, rfl⟩))
  exact inspect_shows petsManager_lawful (fun l _ => petsDepth_lt l) inspectedCalls hplaced _

end SwapDetector.Proofs.NameInspections
