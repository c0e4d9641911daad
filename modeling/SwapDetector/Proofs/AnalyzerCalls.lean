import SwapDetector.Base.Postconditions
import SwapDetector.Model.SwappedArgCheckerPlugin
import SwapDetector.Proofs.ExpressionNames
import SwapDetector.Proofs.FailingResults

/-! # Calls that the static analyzer comes across

An analysis hands one call after the other to its checker. Whatever steps of the statistics
fail and whatever nodes are not made, it ends at the first call with an argument that refers
to a declaration without an identifier, and comes through if there is none. Every report is
about two arguments that have expressions and names.
-/
namespace SwapDetector.Proofs.AnalyzerCalls
open SwapDetector.Base.ExactFloat SwapDetector.Base.Exec SwapDetector.Base.Postconditions
open SwapDetector.Base.Permutations
open SwapDetector.Model.Bytes SwapDetector.Model.IdentifierSplitting SwapDetector.Model.Types
open SwapDetector.Model.StatsDatabase SwapDetector.Model.SwappedArgChecker
open SwapDetector.Model.ExprNames SwapDetector.Model.SwappedArgCheckerPlugin
open SwapDetector.Spec.Judgement SwapDetector.Proofs.Refinement SwapDetector.Proofs.FailingSteps
open SwapDetector.Proofs.Lookups SwapDetector.Proofs.Sessions
open SwapDetector.Proofs.ExpressionNames SwapDetector.Proofs.FailingResults

variable {F Loc : Type}

/-! ## Steps -/

def swappedArguments : BugType := ⟨bytes "swapped arguments", bytes "API", true⟩

/-- A bug type that has been made at most once. -/
theorem bugType_getD {made : Option BugType} {fresh : BugType}
    (h : ∀ BT, made = some BT → BT = fresh) : made.getD fresh = fresh := by
  cases made with
  | none => rfl
  | some BT => exact h BT rfl

/-- What is reported about two arguments. -/
def reportOf (call : CallEvent Loc) (arg1 arg2 : Nat) (message : ByteString) (BT : BugType) :
    Report Loc where
  bugType := BT
  message := message
  ranges := [call.getArgSourceRange arg1, call.getArgSourceRange arg2]
  tracked := (call.getArgExpr arg1).toList ++ (call.getArgExpr arg2).toList

section Steps
variable {s : Analysis F Loc} {call : CallEvent Loc}

theorem exec_runCheck {α : Type} (x : CheckM F α) : exec (runCheck x) s =
    ((exec x s.check).1.mapError Failure.check, { s with check := (exec x s.check).2 }) := by
  unfold runCheck
  refine (exec_bind_ok (a := s) rfl).trans ?_
  refine (exec_bind_ok (a := PUnit.unit) (t := { s with check := (exec x s.check).2 }) rfl).trans ?_
  cases (exec x s.check).1 <;> rfl

theorem exec_reportRuleViolation (arg1 arg2 : Nat) (message : ByteString) :
    exec (reportRuleViolation call arg1 arg2 message) s =
      (.ok ⟨⟩, if s.nodes 0 then
        { s with
          nodes := fun k => s.nodes (k + 1)
          bugType := some (s.bugType.getD swappedArguments)
          reports := s.reports ++ [reportOf call arg1 arg2 message (s.bugType.getD swappedArguments)] }
      else { s with nodes := fun k => s.nodes (k + 1) }) := by
  unfold reportRuleViolation
  refine (exec_bind_ok (a := s.nodes 0) (t := { s with nodes := fun k => s.nodes (k + 1) })
    rfl).trans ?_
  cases s.nodes 0 <;> rfl

end Steps

variable [FloatArith F] [DecidableEq Loc]

/-! ## Names of arguments -/

section Names
variable {SM : SourceManager Loc} {bound : Nat} {call : CallEvent Loc} {depth : Loc → Nat}
  {names : List (List ByteString)}

theorem forall₂_of_mapM {ε α β : Type} {f : α → Except ε β} {l : List α} {ys : List β}
    (h : l.mapM f = .ok ys) : List.Forall₂ (fun a b => f a = .ok b) l ys := by
  induction l generalizing ys with
  | nil =>
    rw [List.mapM_nil] at h
    cases h
    exact .nil
  | cons a l ih =>
    rw [List.mapM_cons] at h
    cases hb : f a with
    | error e => rw [hb] at h; cases h
    | ok b =>
      cases hbs : l.mapM f with
      | error e => rw [hb, hbs] at h; cases h
      | ok bs =>
        rw [hb, hbs] at h
        cases h
        exact .cons hb (ih hbs)

theorem mapM_asserts {α β : Type} {f : α → Except NameFailure β} {p : α → Bool} {l : List α}
    (h : ∀ a ∈ l, Asserts (p a) (f a)) : Asserts (l.all p) (l.mapM f) := by
  induction l with
  | nil => exact .of_ok
  | cons a l ih =>
    rw [List.all_cons, List.mapM_cons]
    rcases h a (List.mem_cons_self ..) with ⟨hp, b, hb⟩ | ⟨hp, hb⟩
    · rw [hp, hb, Bool.true_and]
      rcases ih fun a' ha' => h a' (List.mem_cons_of_mem a ha') with ⟨hall, bs, hbs⟩ | ⟨hall, hbs⟩
      · rw [hall, hbs]
        exact .of_ok
      · rw [hall, hbs]
        exact .inr ⟨rfl, rfl⟩
    · rw [hp, hb]
      exact .inr ⟨rfl, rfl⟩

/-- The argument has a name, if it has an expression. -/
def argNamed (SM : SourceManager Loc) (bound : Nat) (call : CallEvent Loc)
    (arg : Option (Expr Loc)) : Bool := arg.all (named SM call.originExpr bound)

/-- A call of a function, all arguments of which have names, or a call of something else. -/
def readable (SM : SourceManager Loc) (bound : Nat) (call : CallEvent Loc) : Bool :=
  call.decl.isNone || call.args.all (argNamed SM bound call)

theorem getArgNames_asserts (hlaw : Lawful SM depth) (hplaced : Placed SM call.originExpr)
    (hbound : ∀ l, SM.isMacroID l = true → depth l < bound) :
    Asserts (call.args.all (argNamed SM bound call)) (getArgNames SM bound call) := by
  refine mapM_asserts fun arg _ => ?_
  cases arg with
  | none => exact .of_ok
  | some E =>
    rw [argNamed, Option.all_some, getArgName]
    rcases exprName_asserts hlaw hplaced hbound E with ⟨hnamed, name, hname⟩ | ⟨hnamed, hname⟩
    · rw [hnamed, hname]
      exact .of_ok
    · rw [hnamed, hname]
      exact .inr ⟨rfl, rfl⟩

/-- The names at a position are those of the argument there. -/
theorem getArgName_at (h : getArgNames SM bound call = .ok names) {i : Nat} {arg : List ByteString}
    (harg : names[i]? = some arg) :
    ∃ a, call.args[i]? = some a ∧ getArgName SM bound call a = .ok arg := by
  have hall := forall₂_of_mapM h
  obtain ⟨hi, rfl⟩ := List.getElem?_eq_some_iff.mp harg
  have hi' : i < call.args.length := hall.length_eq ▸ hi
  exact ⟨call.args[i], List.getElem?_eq_getElem hi', hall.get hi' hi⟩

theorem getArgName_some {E : Expr Loc} {arg : List ByteString}
    (h : getArgName SM bound call (some E) = .ok arg) :
    ∃ name, exprName SM call.originExpr bound E = .ok name ∧ arg = [name] := by
  rw [getArgName] at h
  cases hname : exprName SM call.originExpr bound E with
  | error f => rw [hname] at h; cases h
  | ok name =>
    rw [hname] at h
    cases h
    exact ⟨name, rfl, rfl⟩

theorem single_of_getArgNames (h : getArgNames SM bound call = .ok names) :
    ∀ arg ∈ names, arg.length ≤ 1 := by
  intro arg harg
  obtain ⟨i, hi⟩ := List.mem_iff_getElem?.mp harg
  obtain ⟨a, -, ha⟩ := getArgName_at h hi
  cases a with
  | none =>
    cases ha
    exact Nat.zero_le 1
  | some E =>
    obtain ⟨name, -, rfl⟩ := getArgName_some ha
    exact le_rfl

/-- An argument with a morpheme has an expression and a name. -/
theorem exists_name (h : getArgNames SM bound call = .ok names) {i : Nat}
    (hm : argMorphemes (names[i]?.getD []) ≠ ∅) : ∃ E name, call.getArgExpr i = some E ∧
      exprName SM call.originExpr bound E = .ok name ∧
      argMorphemes (names[i]?.getD []) = split name := by
  cases harg : names[i]? with
  | none => exact absurd (by rw [harg]; rfl) hm
  | some arg =>
    obtain ⟨a, ha, hnames⟩ := getArgName_at h harg
    cases a with
    | none =>
      cases hnames
      exact absurd (by rw [harg]; rfl) hm
    | some E =>
      obtain ⟨name, hname, rfl⟩ := getArgName_some hnames
      refine ⟨E, name, by rw [CallEvent.getArgExpr, ha]; rfl, hname, ?_⟩
      rw [Option.getD_some, argMorphemes, List.foldl_cons, List.foldl_nil, Finset.empty_union]

end Names

/-! ## Reports -/

/-- The report is about two arguments of the call: which ones, their expressions and names, and
the morphemes that each name has and the other one lacks. -/
def Reports (F : Type) [FloatArith F] (SM : SourceManager Loc) (bound : Nat) (call : CallEvent Loc)
    (R : Report Loc) : Prop :=
  ∃ i j E₁ E₂ name₁ name₂, i < j ∧
    call.getArgExpr i = some E₁ ∧ call.getArgExpr j = some E₂ ∧
    exprName SM call.originExpr bound E₁ = .ok name₁ ∧
    exprName SM call.originExpr bound E₂ = .ok name₂ ∧
    split name₁ \ split name₂ ≠ ∅ ∧ split name₂ \ split name₁ ≠ ∅ ∧
    R.bugType = swappedArguments ∧
    R.ranges = [some E₁.getSourceRange, some E₂.getSourceRange] ∧ R.tracked = [E₁, E₂] ∧
    ∃ result : Result F, result.arg1 = i + 1 ∧ result.arg2 = j + 1 ∧
      result.morphemes1 = split name₁ \ split name₂ ∧
      result.morphemes2 = split name₂ \ split name₁ ∧ R.message = message result

/-- The invariant of an analysis. -/
structure Sound (SM : SourceManager Loc) (bound : Nat) (weights : Option (List (Row F)))
    (calls : List (CallEvent Loc)) (s : Analysis F Loc) : Prop where
  idle : Idle weights s.check
  bugType : ∀ BT, s.bugType = some BT → BT = swappedArguments
  reports : ∀ R ∈ s.reports, ∃ call ∈ calls, (∃ FD, call.decl = some FD) ∧ Reports F SM bound call R

/-- The outcome of a loop that ends at the first element without `p`. -/
theorem outcome_eq {ε α : Type} {l : List α} {p : α → Bool} {f : ε} {e : Except ε PUnit}
    (hall : l.all p = true → e = .ok ⟨⟩)
    (hfirst : l.all p = false → ∃ a, l.find? (fun a => !p a) = some a ∧ e = .error f) :
    e = if l.all p then .ok ⟨⟩ else .error f := by
  cases h : l.all p with
  | true => exact hall h
  | false =>
    obtain ⟨-, -, he⟩ := hfirst h
    exact he

section Runs
variable {SM : SourceManager Loc} {bound : Nat} {weights : Option (List (Row F))}
  {calls : List (CallEvent Loc)} {s : Analysis F Loc} {call : CallEvent Loc} {depth : Loc → Nat}
  {opts : CheckerConfiguration F} {names : List (List ByteString)} {FD : FunctionDecl}

theorem reports_of_wellFormed (hnames : getArgNames SM bound call = .ok names)
    {rs : List (Result F)} (hwell : WellFormed (callSiteOf FD names) rs) {R : Result F} (hR : R ∈ rs)
    {BT : BugType} (hBT : BT = swappedArguments) :
    Reports F SM bound call (reportOf call (R.arg1 - 1) (R.arg2 - 1) (message R) BT) := by
  obtain ⟨i, j, hlt, -, harg1, harg2, hm1, hm2, hne1, hne2⟩ := hwell.about R hR
  simp only [callSiteOf] at hm1 hm2
  have hfull1 : argMorphemes (names[i]?.getD []) ≠ ∅ := by
    rintro hempty
    rw [hempty, Finset.empty_sdiff] at hm1
    exact hne1 hm1
  have hfull2 : argMorphemes (names[j]?.getD []) ≠ ∅ := by
    rintro hempty
    rw [hempty, Finset.empty_sdiff] at hm2
    exact hne2 hm2
  obtain ⟨E₁, name₁, hE₁, hname₁, hsplit₁⟩ := exists_name hnames hfull1
  obtain ⟨E₂, name₂, hE₂, hname₂, hsplit₂⟩ := exists_name hnames hfull2
  rw [hsplit₁, hsplit₂] at hm1 hm2
  refine ⟨i, j, E₁, E₂, name₁, name₂, hlt, hE₁, hE₂, hname₁, hname₂, hm1 ▸ hne1, hm2 ▸ hne2, hBT,
    ?_, ?_, R, harg1, harg2, hm1, hm2, rfl⟩
  · simp only [reportOf, harg1, harg2, Nat.add_sub_cancel, CallEvent.getArgSourceRange, hE₁, hE₂,
      Option.map_some]
  · simp only [reportOf, harg1, harg2, Nat.add_sub_cancel, hE₁, hE₂, Option.toList_some,
      List.cons_append, List.nil_append]

/-- The checker returns, and its results are well formed. -/
theorem runCheck_spec (hs : Sound SM bound weights calls s)
    (hnames : getArgNames SM bound call = .ok names) (hsmall : names.length < 2 ^ 32) :
    Gives (runCheck (checkSite opts (callSiteOf FD names) .all)) s fun rs t =>
      Sound SM bound weights calls t ∧ WellFormed (callSiteOf FD names) rs := by
  have hsingle : ∀ arg ∈ (callSiteOf FD names).positionalArgNames, arg.length ≤ 1 :=
    single_of_getArgNames hnames
  obtain ⟨rs, t, hrun, hidle, hwell⟩ := checkSite_wellFormed opts weights (callSiteOf FD names) .all
    hsmall (fun p _ => not_trips_of_single hsingle opts weights .all p) s.check hs.idle
  have houtcome : exec (runCheck (checkSite opts (callSiteOf FD names) .all)) s =
      (.ok rs, { s with check := t }) := by
    rw [exec_runCheck, hrun]
    rfl
  exact Gives.of_exec houtcome ⟨⟨hidle, hs.bugType, hs.reports⟩, hwell⟩

theorem reportRuleViolation_spec (hs : Sound SM bound weights calls s) (hcall : call ∈ calls)
    (hdecl : call.decl = some FD) (hnames : getArgNames SM bound call = .ok names)
    {rs : List (Result F)} (hwell : WellFormed (callSiteOf FD names) rs) {R : Result F} (hR : R ∈ rs) :
    Gives (reportRuleViolation call (R.arg1 - 1) (R.arg2 - 1) (message R)) s fun _ t =>
      Sound SM bound weights calls t := by
  have hbug := bugType_getD hs.bugType
  rw [Gives, exec_reportRuleViolation]
  refine ⟨⟨⟩, _, rfl, ?_⟩
  cases s.nodes 0 with
  | false => exact ⟨hs.idle, hs.bugType, hs.reports⟩
  | true =>
    refine ⟨hs.idle, fun BT hBT => ?_, fun report hreport => ?_⟩
    · cases hBT
      exact hbug
    · rcases List.mem_append.mp hreport with hold | hnew
      · exact hs.reports report hold
      · rw [List.mem_singleton] at hnew
        rw [hnew]
        exact ⟨call, hcall, ⟨FD, hdecl⟩, reports_of_wellFormed hnames hwell hR hbug⟩

theorem checkPreCall_spec (hlaw : Lawful SM depth) (hplaced : Placed SM call.originExpr)
    (hbound : ∀ l, SM.isMacroID l = true → depth l < bound) (hsmall : call.args.length < 2 ^ 32)
    (hs : Sound SM bound weights calls s) (hcall : call ∈ calls)
    (hreadable : readable SM bound call = true) :
    Gives (checkPreCall SM bound opts call) s fun _ t => Sound SM bound weights calls t := by
  unfold checkPreCall
  cases hdecl : call.decl with
  | none => exact Gives.pure hs
  | some FD =>
    rw [readable, hdecl, Option.isNone_some, Bool.false_or] at hreadable
    rcases getArgNames_asserts hlaw hplaced hbound with ⟨-, names, hnames⟩ | ⟨hfails, -⟩
    · simp only [hnames]
      have hlen : names.length < 2 ^ 32 := (forall₂_of_mapM hnames).length_eq ▸ hsmall
      refine (runCheck_spec hs hnames hlen).bind ?_
      rintro rs t ⟨ht, hwell⟩
      exact Gives.forM rs
        (fun R hR u hu => reportRuleViolation_spec hu hcall hdecl hnames hwell hR) ht
    · cases hreadable.symm.trans hfails

/-- A call with an argument that has no name to read ends the analysis. -/
theorem checkPreCall_asserts (hlaw : Lawful SM depth) (hplaced : Placed SM call.originExpr)
    (hbound : ∀ l, SM.isMacroID l = true → depth l < bound)
    (hreadable : readable SM bound call = false) :
    exec (checkPreCall SM bound opts call) s = (.error (.name .notIdentifier), s) := by
  rw [readable, Bool.or_eq_false_iff] at hreadable
  unfold checkPreCall
  cases hdecl : call.decl with
  | none => rw [hdecl] at hreadable; cases hreadable.1
  | some FD =>
    rcases getArgNames_asserts hlaw hplaced hbound with ⟨hnamed, -⟩ | ⟨-, hfails⟩
    · cases hnamed.symm.trans hreadable.2
    · simp only [hfails]
      rfl

/-! ## Whole analyses -/

/-- **Reports of an analysis**: whatever steps of the statistics fail and whatever nodes are not
made, an analysis comes to its end if every argument has a name to read, and to a failed
assertion about identifiers if not. Every report is about two arguments of one of its calls. -/
theorem analyze_reports (hlaw : Lawful SM depth)
    (hbound : ∀ l, SM.isMacroID l = true → depth l < bound)
    (hplaced : ∀ call ∈ calls, Placed SM call.originExpr)
    (hsmall : ∀ call ∈ calls, call.args.length < 2 ^ 32) (disk : CString → ModelFile F)
    (modelPath : ByteString) (fails nodes : Nat → Bool) :
    ∃ t, exec (analyze SM bound { modelPath := modelPath } calls)
        (start disk modelPath fails nodes) =
          (if calls.all (readable SM bound) then .ok ⟨⟩ else .error (.name .notIdentifier), t) ∧
      ∀ R ∈ t.reports, ∃ call ∈ calls, (∃ FD, call.decl = some FD) ∧
        Reports F SM bound call R := by
  have hstart : Sound SM bound (Checker.new { modelPath := modelPath } disk).weights calls
      (start disk modelPath fails nodes) :=
    ⟨stats_eq _, fun _ hBT => (by cases hBT), fun _ hR => absurd hR List.not_mem_nil⟩
  obtain ⟨e, t, hrun, ht, hall, hfirst⟩ := Gives.forM_takeWhile
    (checkPreCall SM bound { modelPath := modelPath }) (readable SM bound)
    (fun _ => .name .notIdentifier) (fun _ t => Sound SM bound _ calls t) calls
    (fun _ call hcall hreadable s hs =>
      checkPreCall_spec hlaw (hplaced call hcall) hbound (hsmall call hcall) hs hcall hreadable)
    (fun _ call hcall hreadable s hs =>
      ⟨s, checkPreCall_asserts hlaw (hplaced call hcall) hbound hreadable, hs⟩) hstart
  refine ⟨t, hrun.trans (congrArg (·, t) ?_), ht.reports⟩
  exact outcome_eq hall hfirst

end Runs

section Pets

/-- Locations from 100 on are in the expansion of the macro `DOGS` at 50, which 10 defines. -/
def petsManager : SourceManager Nat where
  isMacroID l := decide (100 ≤ l)
  getExpansionLoc l := if 100 ≤ l then 50 else l
  getImmediateSpellingLoc l := if 100 ≤ l then 10 else l
  getSpelling l := if l = 50 then bytes "DOGS" else []

def petsDepth (l : Nat) : Nat := if 100 ≤ l then 1 else 0

theorem petsManager_lawful : Lawful petsManager petsDepth where
  spelling_lt := by
    intro l hl
    have hmacro : 100 ≤ l := of_decide_eq_true hl
    simp [petsManager, petsDepth, hmacro]
  file_expansion := by
    intro l hl
    have hfile : ¬ 100 ≤ l := of_decide_eq_false hl
    exact if_neg hfile
  spelled := by
    intro l m hl hm _
    have hmacro : 100 ≤ l := of_decide_eq_true hl
    have hmacro' : 100 ≤ m := of_decide_eq_true hm
    simp [petsManager, hmacro, hmacro']

theorem petsDepth_lt (l : Nat) : petsDepth l < 2 := by
  unfold petsDepth
  split <;> omega

/-- The call `feed(DOGS, (int)cats)` of `feed(cats, dogs)`. -/
def petsCall : CallEvent Nat where
  decl := some ⟨bytes "feed", [bytes "cats", bytes "dogs"]⟩
  originExpr := some (.call ⟨1, 70⟩ (some (.identifier (bytes "feed")))
    (.declRef ⟨1, 1⟩ (.identifier (bytes "feed"))))
  args := [some (.literal ⟨100, 100⟩ (bytes "7")),
    some (.cast ⟨60, 65⟩ (.declRef ⟨65, 65⟩ (.identifier (bytes "cats"))))]

theorem placed_of_ne {call : Expr Nat} (h : call.getBeginLoc ≠ 50) :
    Placed petsManager (some call) := by
  intro call' hcall _ m hm
  cases hcall
  have hmacro : 100 ≤ m := of_decide_eq_true hm
  simpa [petsManager, hmacro] using Ne.symm h

theorem petsCall_placed : Placed petsManager petsCall.originExpr := placed_of_ne (by decide)

/-- The call `feed(operator+, (int)cats)`. -/
def operatorCall : CallEvent Nat :=
  { petsCall with args := [some (.declRef ⟨61, 63⟩ (.other (bytes "operator+"))),
      some (.cast ⟨60, 65⟩ (.declRef ⟨65, 65⟩ (.identifier (bytes "cats"))))] }

example : readable petsManager 2 operatorCall = false := by decide +kernel

theorem petsCall_reports :
    ∃ t, exec (analyze petsManager 2 { modelPath := bytes "pets.db" } [petsCall, operatorCall])
        (start (F := XRat) (fun _ => ⟨none, true, true⟩) (bytes "pets.db") (fun k => k == 3)
          (fun k => k == 1)) =
            (if [petsCall, operatorCall].all (readable petsManager 2) then .ok ⟨⟩
              else .error (.name .notIdentifier), t) ∧
      ∀ R ∈ t.reports, ∃ call ∈ [petsCall, operatorCall], (∃ FD, call.decl = some FD) ∧
        Reports XRat petsManager 2 call R :=
  analyze_reports petsManager_lawful (fun l _ => petsDepth_lt l)
    (fun call hcall => by
      rcases List.mem_pair.mp hcall with rfl | rfl
      · exact petsCall_placed
      · exact petsCall_placed)
    (fun call hcall => by
      rcases List.mem_pair.mp hcall with rfl | rfl
      · decide
      · decide) _ _ _ _

end Pets

/-! ## Without failing steps -/

section Exact
variable {α : Type}

/-- The elements a node is made for. -/
def kept : (Nat → Bool) → List α → List α
  | _, [] => []
  | nodes, a :: l => (if nodes 0 then [a] else []) ++ kept (fun k => nodes (k + 1)) l

theorem kept_append (nodes : Nat → Bool) (l l' : List α) :
    kept nodes (l ++ l') = kept nodes l ++ kept (fun k => nodes (k + l.length)) l' := by
  induction l generalizing nodes with
  | nil => rfl
  | cons a l ih =>
    rw [List.cons_append, kept, kept, ih, List.append_assoc]
    rfl

/-- One more element is kept if the next node is made. -/
theorem kept_snoc {nodes rest : Nat → Bool} {l : List α}
    (hrest : rest = fun k => nodes (k + l.length)) (a : α) :
    kept nodes (l ++ [a]) = kept nodes l ++ if rest 0 then [a] else [] := by
  rw [kept_append, kept, kept, List.append_nil, hrest]

theorem nodes_snoc {nodes rest : Nat → Bool} {l : List α}
    (hrest : rest = fun k => nodes (k + l.length)) (a : α) :
    (fun k => rest (k + 1)) = fun k => nodes (k + (l ++ [a]).length) := by
  rw [hrest, List.length_append, List.length_singleton]
  exact funext fun k => congrArg nodes (by omega)

variable (SM : SourceManager Loc) (bound : Nat) (c : Checker F)

def reportOfResult (call : CallEvent Loc) (R : Result F) : Report Loc :=
  reportOf call (R.arg1 - 1) (R.arg2 - 1) (message R) swappedArguments

/-- What a checker that has seen no other call reports about a call. -/
def freshReports (call : CallEvent Loc) : List (Report Loc) :=
  match call.decl, getArgNames SM bound call with
  | some FD, .ok names =>
    match c.results (callSiteOf FD names) .all with
    | .ok rs => rs.map (reportOfResult call)
    | .error _ => []
  | _, _ => []

/-- The state once the reports have been offered, each with a node or without. -/
structure Offered (nodes : Nat → Bool) (offers : List (Report Loc)) (s : Analysis F Loc) : Prop where
  check : s.check = ⟨c.stats, noFailure⟩
  bugType : ∀ BT, s.bugType = some BT → BT = swappedArguments
  rest : s.nodes = fun k => nodes (k + offers.length)
  reports : s.reports = kept nodes offers

variable {SM bound c} {nodes : Nat → Bool} {offers : List (Report Loc)} {s : Analysis F Loc}
  {call : CallEvent Loc}

omit [DecidableEq Loc] in
theorem reportRuleViolation_offers (hs : Offered c nodes offers s) (R : Result F) :
    Gives (reportRuleViolation call (R.arg1 - 1) (R.arg2 - 1) (message R)) s fun _ t =>
      Offered c nodes (offers ++ [reportOfResult call R]) t := by
  have hbug := bugType_getD hs.bugType
  have hrest := nodes_snoc hs.rest (reportOfResult call R)
  have hkept : kept nodes (offers ++ [reportOfResult call R]) =
      s.reports ++ if s.nodes 0 then [reportOfResult call R] else [] := by
    rw [kept_snoc hs.rest, hs.reports]
  rw [Gives, exec_reportRuleViolation, hbug]
  refine ⟨⟨⟩, _, rfl, ?_⟩
  cases hmade : s.nodes 0 with
  | false =>
    rw [hmade] at hkept
    exact ⟨hs.check, hs.bugType, hrest, hkept ▸ (List.append_nil _).symm⟩
  | true =>
    rw [hmade] at hkept
    exact ⟨hs.check, fun BT hBT => (Option.some.inj hBT).symm, hrest, hkept.symm⟩

theorem checkSite_fresh (site : CallSite) :
    exec (checkSite c.opts site .all) ⟨c.stats, noFailure⟩ =
      (c.results site .all, ⟨c.stats, noFailure⟩) := by
  obtain ⟨n, e, hconsumes⟩ := checkSite_consumes c.opts c.weights site .all noFailure
  have hrun := hconsumes.run
  rw [← show (⟨c.stats, noFailure⟩ : Session F) = idle c.weights noFailure from
    congrArg (Session.mk · noFailure) (stats_eq c)] at hrun
  rw [Checker.results, Checker.checkSite, hrun]
  exact Prod.ext rfl (congrArg (Session.mk · noFailure) (stats_eq c).symm)

theorem checkPreCall_offers {depth : Loc → Nat} (hlaw : Lawful SM depth)
    (hbound : ∀ l, SM.isMacroID l = true → depth l < bound) (hplaced : Placed SM call.originExpr)
    (hsmall : call.args.length < 2 ^ 32) (hreadable : readable SM bound call = true)
    (hs : Offered c nodes offers s) :
    Gives (checkPreCall SM bound c.opts call) s fun _ t =>
      Offered c nodes (offers ++ freshReports SM bound c call) t := by
  unfold checkPreCall freshReports
  cases hdecl : call.decl with
  | none => exact Gives.pure ((List.append_nil offers).symm ▸ hs)
  | some FD =>
    rw [readable, hdecl, Option.isNone_some, Bool.false_or] at hreadable
    rcases getArgNames_asserts hlaw hplaced hbound with ⟨-, names, hnames⟩ | ⟨hfails, -⟩
    · have hlen : names.length < 2 ^ 32 := (forall₂_of_mapM hnames).length_eq ▸ hsmall
      obtain ⟨rs, hresults⟩ : ∃ rs, c.results (callSiteOf FD names) .all = .ok rs :=
        results_of_single c hlen (single_of_getArgNames hnames)
      have hcheck : exec (runCheck (checkSite c.opts (callSiteOf FD names) .all)) s =
          (.ok rs, s) := by
        rw [exec_runCheck, hs.check, checkSite_fresh, hresults, ← hs.check]
        rfl
      simp only [hnames, hresults]
      refine Gives.exec_bind hcheck ?_
      have hnone : Offered c nodes (offers ++ ([] : List (Result F)).map (reportOfResult call)) s := by
        rwa [List.map_nil, List.append_nil]
      refine Gives.forM_prefix (I := fun done t => Offered c nodes
        (offers ++ done.map (reportOfResult call)) t) rs (fun done R _ u hu => ?_) hnone
      refine (reportRuleViolation_offers hu R).weaken fun _ v hv => ?_
      rwa [List.map_append, ← List.append_assoc]
    · cases hreadable.symm.trans hfails

/-- **Analyses without failing steps**: an analysis reports about each call what a checker that has
seen no other call reports, as far as nodes are made, up to the first call with an argument that
has no name to read. -/
theorem analyze_exact {depth : Loc → Nat} (hlaw : Lawful SM depth)
    (hbound : ∀ l, SM.isMacroID l = true → depth l < bound) (calls : List (CallEvent Loc))
    (hplaced : ∀ call ∈ calls, Placed SM call.originExpr)
    (hsmall : ∀ call ∈ calls, call.args.length < 2 ^ 32) (disk : CString → ModelFile F)
    (modelPath : ByteString) (nodes : Nat → Bool) :
    ∃ t, exec (analyze SM bound { modelPath := modelPath } calls)
        (start disk modelPath noFailure nodes) =
          (if calls.all (readable SM bound) then .ok ⟨⟩ else .error (.name .notIdentifier), t) ∧
      t.reports = kept nodes ((calls.takeWhile (readable SM bound)).flatMap
        (freshReports SM bound (Checker.new { modelPath := modelPath } disk))) := by
  let c : Checker F := Checker.new { modelPath := modelPath } disk
  have hstart : Offered c nodes ([].flatMap (freshReports SM bound c))
      (start disk modelPath noFailure nodes) :=
    ⟨rfl, fun _ hBT => (by cases hBT), rfl, rfl⟩
  have hnext : ∀ done, ∀ call ∈ calls, readable SM bound call = true → ∀ u,
      Offered c nodes (done.flatMap (freshReports SM bound c)) u →
      Gives (checkPreCall SM bound c.opts call) u fun _ v =>
        Offered c nodes ((done ++ [call]).flatMap (freshReports SM bound c)) v := by
    intro done call hcall hreadable u hu
    rw [List.flatMap_append, List.flatMap_singleton]
    exact checkPreCall_offers hlaw hbound (hplaced call hcall) (hsmall call hcall) hreadable hu
  obtain ⟨e, t, hrun, ht, hall, hfirst⟩ := Gives.forM_takeWhile (checkPreCall SM bound c.opts)
    (readable SM bound) (fun _ => .name .notIdentifier)
    (fun done u => Offered c nodes (done.flatMap (freshReports SM bound c)) u) calls hnext
    (fun _ call hcall hreadable u hu =>
      ⟨u, checkPreCall_asserts hlaw (hplaced call hcall) hbound hreadable, hu⟩) hstart
  exact ⟨t, hrun.trans (congrArg (·, t) (outcome_eq hall hfirst)), ht.reports⟩

theorem petsCall_exact :
    ∃ t, exec (analyze petsManager 2 { modelPath := bytes "pets.db" } [petsCall, petsCall])
        (start (F := XRat) (fun _ => ⟨none, true, true⟩) (bytes "pets.db") noFailure
          (fun k => k == 1)) =
            (if [petsCall, petsCall].all (readable petsManager 2) then .ok ⟨⟩
              else .error (.name .notIdentifier), t) ∧
      t.reports = kept (fun k => k == 1) (([petsCall, petsCall].takeWhile
        (readable petsManager 2)).flatMap (freshReports petsManager 2
          (Checker.new (F := XRat) { modelPath := bytes "pets.db" } fun _ => ⟨none, true, true⟩))) :=
  analyze_exact petsManager_lawful (fun l _ => petsDepth_lt l) _
    (fun call hcall => by simp_all [petsCall_placed]) (fun call hcall => by simp_all [petsCall])
    _ _ _

end Exact

/-! ## Wrapped arguments -/

/-- The arguments of the two calls differ in parentheses, casts and temporaries only. -/
structure SameNames (call call' : CallEvent Loc) : Prop where
  decl : call.decl = call'.decl
  originExpr : call.originExpr = call'.originExpr
  args : List.Forall₂ (fun arg arg' => arg.map strip = arg'.map strip) call.args call'.args

/-- The two analyses differ at most in what their reports show beside their messages. -/
structure SameMessages (s t : Analysis F Loc) : Prop where
  check : s.check = t.check
  bugType : s.bugType = t.bugType
  nodes : s.nodes = t.nodes
  messages : s.reports.map Report.message = t.reports.map Report.message

section Wrapped
variable {SM : SourceManager Loc} {bound : Nat} {call call' : CallEvent Loc}

theorem getArgName_congr (hcall : SameNames call call') {arg arg' : Option (Expr Loc)}
    (harg : arg.map strip = arg'.map strip) :
    getArgName SM bound call arg = getArgName SM bound call' arg' := by
  cases arg with
  | none =>
    cases arg' with
    | none => rfl
    | some E' => cases harg
  | some E =>
    cases arg' with
    | none => cases harg
    | some E' =>
      have hstrip : strip E = strip E' := Option.some.inj harg
      rw [getArgName, getArgName, ← exprName_strip SM _ bound E, ← exprName_strip SM _ bound E', hstrip,
        hcall.originExpr]

theorem getArgNames_congr (hcall : SameNames call call') :
    getArgNames SM bound call = getArgNames SM bound call' := by
  have hmap {args args' : List (Option (Expr Loc))}
      (h : List.Forall₂ (fun arg arg' => arg.map strip = arg'.map strip) args args') :
      args.mapM (getArgName SM bound call) = args'.mapM (getArgName SM bound call') := by
    induction h with
    | nil => rfl
    | cons harg _ ih => rw [List.mapM_cons, List.mapM_cons, getArgName_congr hcall harg, ih]
  exact hmap hcall.args

omit [FloatArith F] [DecidableEq Loc] in
theorem runCheck_agrees {α : Type} (x : CheckM F α) :
    Agree (SameMessages : Analysis F Loc → Analysis F Loc → Prop) (runCheck x) (runCheck x) := by
  intro s t hst
  rw [exec_runCheck, exec_runCheck, hst.check]
  exact ⟨rfl, rfl, hst.bugType, hst.nodes, hst.messages⟩

omit [FloatArith F] [DecidableEq Loc] in
theorem reportRuleViolation_agrees (arg1 arg2 : Nat) (message : ByteString) :
    Agree (SameMessages (F := F)) (reportRuleViolation call arg1 arg2 message)
      (reportRuleViolation call' arg1 arg2 message) := by
  intro s t hst
  rw [exec_reportRuleViolation, exec_reportRuleViolation, hst.nodes, hst.bugType]
  refine ⟨rfl, ?_⟩
  cases t.nodes 0 with
  | false => exact ⟨hst.check, rfl, rfl, hst.messages⟩
  | true =>
    refine ⟨hst.check, rfl, rfl, ?_⟩
    simp only [if_pos, List.map_append, hst.messages]
    rfl

theorem checkPreCall_agrees (SM : SourceManager Loc) (bound : Nat) (opts : CheckerConfiguration F)
    (hcall : SameNames call call') :
    Agree SameMessages (checkPreCall SM bound opts call) (checkPreCall SM bound opts call') := by
  unfold checkPreCall
  rw [← hcall.decl, ← getArgNames_congr hcall]
  cases call.decl with
  | none => exact Agree.pure _
  | some FD =>
    cases getArgNames SM bound call with
    | error f => exact Agree.throw _
    | ok names =>
      refine (runCheck_agrees _).bind fun rs => ?_
      refine Agree.forM (V := Eq) (List.forall₂_refl rs) ?_
      rintro R _ rfl
      exact reportRuleViolation_agrees _ _ _

/-- **Wrapped arguments**: whatever fails, parentheses, casts and temporaries around arguments
change neither how an analysis ends nor the messages of its reports. -/
theorem analyze_wrapped (SM : SourceManager Loc) (bound : Nat) {calls calls' : List (CallEvent Loc)}
    (hcalls : List.Forall₂ SameNames calls calls') (disk : CString → ModelFile F)
    (modelPath : ByteString) (fails nodes : Nat → Bool) :
    let analysis := exec (analyze SM bound { modelPath := modelPath } calls)
      (start disk modelPath fails nodes)
    let analysis' := exec (analyze SM bound { modelPath := modelPath } calls')
      (start disk modelPath fails nodes)
    analysis.1 = analysis'.1 ∧
      analysis.2.reports.map Report.message = analysis'.2.reports.map Report.message := by
  have hagree := Agree.forM (R := SameMessages) hcalls
    (fun _ _ hcall => checkPreCall_agrees SM bound { modelPath := modelPath } hcall)
    (start disk modelPath fails nodes) (start disk modelPath fails nodes) ⟨rfl, rfl, rfl, rfl⟩
  exact ⟨hagree.1, hagree.2.messages⟩

/-- The call `feed(DOGS, (cats))`. -/
def plainCall : CallEvent Nat :=
  { petsCall with args := [some (.literal ⟨100, 100⟩ (bytes "7")),
      some (.paren ⟨60, 66⟩ (.declRef ⟨65, 65⟩ (.identifier (bytes "cats"))))] }

theorem plainCall_sameNames : SameNames petsCall plainCall :=
  ⟨rfl, rfl, .cons rfl (.cons rfl .nil)⟩

theorem petsCall_wrapped :
    let analysis := exec (analyze petsManager 2 { modelPath := bytes "pets.db" } [petsCall])
      (start (F := XRat) (fun _ => ⟨none, true, true⟩) (bytes "pets.db") noFailure fun _ => true)
    let analysis' := exec (analyze petsManager 2 { modelPath := bytes "pets.db" } [plainCall])
      (start (F := XRat) (fun _ => ⟨none, true, true⟩) (bytes "pets.db") noFailure fun _ => true)
    analysis.1 = analysis'.1 ∧
      analysis.2.reports.map Report.message = analysis'.2.reports.map Report.message :=
  analyze_wrapped petsManager 2 (.cons plainCall_sameNames .nil) _ _ _ _

end Wrapped

end SwapDetector.Proofs.AnalyzerCalls
