import SwapDetector.Base.Traces
import SwapDetector.Proofs.Assertions

/-! # A checker has no memory between lookups

A call is a run of lookups with quiet parts in between, which read nothing of the
session but the statistics object. Whatever steps fail, a lookup leaves the object as
it found it: between lookups, both statements are reset and have no parameter bound. So
every lookup of every call starts its query anew and reads the rows of its own parameters,
and a call without failing steps answers as the first call of a new checker.
-/
namespace SwapDetector.Proofs.Sessions
open SwapDetector.Base.ExactFloat SwapDetector.Base.Exec SwapDetector.Base.OrderedSet
open SwapDetector.Base.Decisions SwapDetector.Base.Traces SwapDetector.Base.Permutations
open SwapDetector.Base.PreparedStatement
open SwapDetector.Model.Bytes SwapDetector.Model.Types SwapDetector.Model.StatsDatabase
open SwapDetector.Model.SwappedArgChecker SwapDetector.Spec.Judgement
open SwapDetector.Proofs.Lookups SwapDetector.Proofs.PairEnumeration
open SwapDetector.Proofs.Refinement SwapDetector.Proofs.FailingSteps SwapDetector.Proofs.Assertions

variable {F : Type}

/-! ## Lookups -/

/-- A lookup of the statistics, with its arguments. -/
inductive Lookup where
  | weightForMorphemeAtPos (funcName : ByteString) (argPos : Nat) (morpheme : ByteString)
  | morphemesAndWeightsAtPos (funcName : ByteString) (argPos : Nat)

/-- The computations that look something up. -/
inductive IsLookup : ∀ α : Type, Lookup → CheckM F α → Prop
  | weight (funcName : ByteString) (argPos : Nat) (morpheme : ByteString) :
      IsLookup (Option F) (.weightForMorphemeAtPos funcName argPos morpheme)
        (weightForMorphemeAtPos funcName argPos morpheme)
  | morphemes (funcName : ByteString) (argPos : Nat) :
      IsLookup (Bool × List (ByteString × F)) (.morphemesAndWeightsAtPos funcName argPos)
        (morphemesAndWeightsAtPos funcName argPos)

/-- No lookup is a quiet part, so a trace misses none: each of them takes a step. -/
theorem IsLookup.not_quiet {α : Type} {lookup : Lookup} {x : CheckM F α}
    (hx : IsLookup α lookup x) : ¬ Quiet Session.stats x := by
  intro hquiet
  obtain ⟨e, he⟩ := hquiet
  have hsame := congrArg (fun out => out.2.fails 0) (he ⟨some (.loaded []), fun k => k == 0⟩)
  cases hx <;> exact absurd hsame Bool.false_ne_true

/-- The statement is reset before its parameters are bound, and then runs with exactly
the given ones, whatever steps are made and fail. -/
structure RunsWith {R : Type} (select : (Nat → Option SqlValue) → List R)
    (st bound : Stmt SqlValue R) (values : List SqlValue) : Prop where
  reset : st.cursor = .ready
  starts : bound = ⟨parameters values, .ready⟩
  keeps : ∀ failed, (bound.stepped select failed).bound = parameters values

/-- A lookup that starts in the session starts its query on the table `db` anew, with its
own arguments. -/
def StartsAnew (db : List (Row F)) : Lookup → Session F → Prop
  | .weightForMorphemeAtPos funcName argPos morpheme, s => ∃ mq vq,
      s.stats = some ⟨some db, some mq, some vq⟩ ∧ RunsWith (selectValue db) vq
        (((vq.bind 1 (.text (cStr funcName))).bind 2 (.int argPos)).bind 3 (.text (cStr morpheme)))
        [.text (cStr funcName), .int argPos, .text (cStr morpheme)]
  | .morphemesAndWeightsAtPos funcName argPos, s => ∃ mq vq,
      s.stats = some ⟨some db, some mq, some vq⟩ ∧ RunsWith (selectMorphValue db) mq
        ((mq.bind 1 (.text (cStr funcName))).bind 2 (.int argPos))
        [.text (cStr funcName), .int argPos]

/-- The lookup's own run from the session is its query on the table `db` under its own
parameters: one step to the first row, or steps through all the rows. The object is left
as it was. -/
def RunsItsQuery (db : List (Row F)) : Lookup → Session F → Prop
  | .weightForMorphemeAtPos funcName argPos morpheme, s =>
    exec (weightForMorphemeAtPos funcName argPos morpheme) s =
      (.ok (readWeight (s.fails 0) (selectValue db
        (parameters [.text (cStr funcName), .int argPos, .text (cStr morpheme)])).head?),
      ⟨s.stats, skip 1 s.fails⟩)
  | .morphemesAndWeightsAtPos funcName argPos, s =>
    let rows := selectMorphValue db (parameters [.text (cStr funcName), .int argPos])
    exec (morphemesAndWeightsAtPos funcName argPos) s =
      (.ok ((fetch rows s.fails).ended && !rows.isEmpty,
        (fetch rows s.fails).read.map fun r => (r.1.val, r.2)),
      ⟨s.stats, skip (fetch rows s.fails).steps s.fails⟩)

theorem runsWith_of_bound {R : Type} {select : (Nat → Option SqlValue) → List R}
    {bound : Stmt SqlValue R} {values : List SqlValue} (h : bound = ⟨parameters values, .ready⟩) :
    RunsWith select .prepared bound values := by
  refine ⟨rfl, h, fun failed => ?_⟩
  rw [stepped_bound, h]

/-- In an idle session over a table, every lookup starts its query anew. -/
theorem startsAnew_of_idle {db : List (Row F)} {s : Session F} (hs : Idle (some db) s)
    (lookup : Lookup) : StartsAnew db lookup s := by
  cases lookup with
  | weightForMorphemeAtPos funcName argPos morpheme =>
    exact ⟨.prepared, .prepared, hs, runsWith_of_bound (prepared_bind_three _ _ _)⟩
  | morphemesAndWeightsAtPos funcName argPos =>
    exact ⟨.prepared, .prepared, hs, runsWith_of_bound (prepared_bind_two _ _)⟩

theorem runsItsQuery_of_idle {db : List (Row F)} {s : Session F} (hs : Idle (some db) s)
    (lookup : Lookup) : RunsItsQuery db lookup s := by
  rw [eq_idle hs]
  cases lookup with
  | weightForMorphemeAtPos funcName argPos morpheme =>
    have hrun := weightForMorphemeAtPos_takes db funcName argPos morpheme s.fails
    rwa [← selectValue_parameters] at hrun
  | morphemesAndWeightsAtPos funcName argPos =>
    exact (morphemesAndWeightsAtPos_fetch db funcName argPos s.fails).run

/-! ## The steps of a lookup -/

/-- A lookup takes some decisions, and leaves the session idle over the same table. -/
theorem lookup_consumes (weights : Option (List (Row F))) {α : Type} {lookup : Lookup}
    {x : CheckM F α} (hx : IsLookup α lookup x) (fails : Nat → Bool) :
    ∃ n e, Consumes (idle weights) x fails n e := by
  cases weights with
  | none =>
    refine ⟨0, .error .invalidStats, Consumes.of_steady fun _ => ?_⟩
    cases hx <;> exact Steady.bind_error (Steady.throw _)
  | some db =>
    cases hx with
    | weight funcName argPos morpheme =>
      refine ⟨1, _, Consumes.of_takes (weightForMorphemeAtPos_takes db funcName argPos morpheme) ?_⟩
      intro fails' hagree
      rw [hagree 0 Nat.one_pos]
    | morphemes funcName argPos =>
      obtain ⟨n, out, hconsumes, -⟩ := morphemesAndWeightsAtPos_consumes db funcName argPos fails
      exact ⟨n, .ok out, hconsumes⟩

theorem lookup_keeps_idle {weights : Option (List (Row F))} {α : Type} {lookup : Lookup}
    {x : CheckM F α} {s : Session F} (hx : IsLookup α lookup x) (hs : Idle weights s) :
    Idle weights (exec x s).2 := by
  obtain ⟨n, e, hconsumes⟩ := lookup_consumes weights hx s.fails
  rw [eq_idle hs, hconsumes.run]
  rfl

/-! ## Calls are made of lookups -/

theorem validStats_quiet : Quiet Session.stats (validStats (F := F)) := by
  refine ⟨fun stats => (exec validStats ⟨stats, noFailure⟩).1, fun s => ?_⟩
  obtain ⟨stats, fails⟩ := s
  cases stats with
  | none => rfl
  | some stats =>
    obtain ⟨db, mq, vq⟩ := stats
    cases db <;> cases mq <;> cases vq <;> rfl

/-- The computation is made of lookups and quiet parts. -/
abbrev Looks {α : Type} (x : CheckM F α) : Prop := Traceable Session.stats IsLookup x

theorem validStats_looks : Looks (validStats (F := F)) := Traceable.of_quiet validStats_quiet

variable [FloatArith F]

theorem morphemeConfidenceAtPosition_looks (site : CallSite) (morph : ByteString)
    (pos comparedToPos : Nat) :
    Looks (morphemeConfidenceAtPosition (F := F) site morph pos comparedToPos) := by
  unfold morphemeConfidenceAtPosition
  refine validStats_looks.bind fun _ => ?_
  refine (Traceable.of_part (IsLookup.weight _ pos morph)).bind fun pos1 => ?_
  refine (Traceable.of_part (IsLookup.weight _ comparedToPos morph)).bind fun pos2 => ?_
  cases pos1 <;> cases pos2 <;> exact Traceable.pure _

theorem fit_looks (morph : ByteString) (site : CallSite) (argPos : Nat) :
    Looks (fit (F := F) morph site argPos) := by
  unfold fit
  refine validStats_looks.bind fun _ => ?_
  refine (Traceable.of_part (IsLookup.morphemes _ argPos)).bind fun out => ?_
  exact Traceable.ite (Traceable.pure _) (Traceable.pure _)

theorem foldlM_vetMorpheme_looks (site : CallSite) (pos comparedToPos : Nat)
    (morphs : List ByteString) (score : Option F) :
    Looks (morphs.foldlM (vetMorpheme site pos comparedToPos) score) := by
  refine Traceable.foldlM _ _ fun score morph _ => ?_
  refine (morphemeConfidenceAtPosition_looks site morph pos comparedToPos).bind fun val => ?_
  cases val <;> exact Traceable.pure _

theorem vetWithStats_looks (site : CallSite) (unique1 unique2 : Finset ByteString)
    (pos1 pos2 : Nat) : Looks (vetWithStats (F := F) site unique1 unique2 pos1 pos2) := by
  refine Traceable.get_ite (c := fun stats => Option.isSome stats = true) ?_ (Traceable.pure none)
  refine validStats_looks.bind fun _ => ?_
  exact (foldlM_vetMorpheme_looks site pos1 pos2 _ none).bind fun score =>
    foldlM_vetMorpheme_looks site pos2 pos1 _ score

theorem coverStage_looks (site : CallSite) (d : PairData F) : Looks (coverStage site d) := by
  refine Traceable.ite ((Traceable.of_quiet (Quiet.ofExcept _)).bind fun passed => ?_)
    (Traceable.pure none)
  refine Traceable.ite ((vetWithStats_looks site _ _ _ _).bind fun score => ?_)
    (Traceable.pure none)
  exact Traceable.ite (Traceable.pure none) (Traceable.pure _)

theorem checkMorphemePair_looks (opts : CheckerConfiguration F) (args : MorphemeSet × MorphemeSet)
    (site : CallSite) (morph1 morph2 : ByteString) :
    Looks (checkMorphemePair opts args site morph1 morph2) := by
  unfold checkMorphemePair
  refine (morphemeConfidenceAtPosition_looks site morph1 _ _).bind fun psi1 => ?_
  refine (morphemeConfidenceAtPosition_looks site morph2 _ _).bind fun psi2 => ?_
  cases psi1 with
  | none => exact Traceable.pure none
  | some psi1 =>
    cases psi2 with
    | none => exact Traceable.pure none
    | some psi2 =>
      refine Traceable.ite (Traceable.pure none) (Traceable.ite (Traceable.pure none) ?_)
      refine (fit_looks morph1 site _).bind fun fit1 => ?_
      refine (fit_looks morph2 site _).bind fun fit2 => ?_
      exact Traceable.ite (Traceable.pure _) (Traceable.pure none)

theorem statsStage_looks (opts : CheckerConfiguration F) (site : CallSite) (whichCheck : Check)
    (p : Nat × Nat) : Looks (statsStage opts site whichCheck p) := by
  refine Traceable.get_ite (c := fun stats => (whichCheck = .all ∨ whichCheck = .statsBased) ∧
    Option.isSome stats = true) ?_ (Traceable.pure none)
  refine validStats_looks.bind fun _ => ?_
  refine Traceable.findSomeM _ fun morph1 _ => Traceable.findSomeM _ fun morph2 _ => ?_
  exact checkMorphemePair_looks opts _ site morph1 morph2

theorem checkPair_looks (opts : CheckerConfiguration F) (site : CallSite) (whichCheck : Check)
    (p : Nat × Nat) (hp1 : p.1 < site.positionalArgNames.length)
    (hp2 : p.2 < site.positionalArgNames.length) : Looks (checkPair opts site whichCheck p) := by
  rw [checkPair_eq opts none site whichCheck p hp1 hp2]
  refine Traceable.ite (Traceable.pure none) (Traceable.ite (Traceable.pure none) ?_)
  refine (coverStage_looks site _).bind fun r => ?_
  cases r with
  | none => exact statsStage_looks opts site whichCheck p
  | some r => exact Traceable.pure (some r)

theorem checkSite_looks (opts : CheckerConfiguration F) (site : CallSite) (whichCheck : Check) :
    Looks (checkSite opts site whichCheck) := by
  unfold checkSite
  by_cases hfew : site.positionalArgNames.length < 2
  · rw [if_pos hfew]
    exact Traceable.pure []
  rw [if_neg hfew]
  by_cases hn : site.positionalArgNames.length < 2 ^ 32
  · rw [pairwiseCombinations_ok (by omega) hn]
    show Looks (List.foldlM _ _ _)
    refine Traceable.foldlM _ _ fun results p hp => ?_
    have hlt := lt_of_mem_allPairs hp
    exact (checkPair_looks opts site whichCheck p hlt.1 hlt.2).bind fun r => Traceable.pure _
  · rw [pairwiseCombinations_large (by omega)]
    exact Traceable.of_quiet (Quiet.throw _)

/-! ## Sequences of calls -/

/-- A call takes some decisions, and leaves the session idle over the same table. -/
theorem checkSite_consumes (opts : CheckerConfiguration F) (weights : Option (List (Row F)))
    (site : CallSite) (whichCheck : Check) (fails : Nat → Bool) :
    ∃ n e, Consumes (idle weights) (checkSite opts site whichCheck) fails n e := by
  obtain ⟨trace, e, t, htraced⟩ := checkSite_looks opts site whichCheck (idle weights fails)
  have hpart (α : Type) (lookup : Lookup) (x : CheckM F α) (hx : IsLookup α lookup x) :
      ∀ fails, ∃ n e, Consumes (idle weights) x fails n e := lookup_consumes weights hx
  have hstats (fails : Nat → Bool) : (idle weights fails).stats = weights.map .loaded := rfl
  obtain ⟨n, hconsumes, -⟩ := htraced.consumes hstats hpart fails rfl
  exact ⟨n, e, hconsumes⟩

/-- The session a checker is in after some calls, each of which starts in the session that
the one before it has left. -/
def sessionAfter (c : Checker F) (fails : Nat → Bool) (calls : List (CallSite × Check)) :
    Session F :=
  calls.foldl (fun s call => (exec (checkSite c.opts call.1 call.2) s).2) ⟨c.stats, fails⟩

theorem checkSite_keeps_idle {opts : CheckerConfiguration F} {weights : Option (List (Row F))}
    {s : Session F} (hs : Idle weights s) (site : CallSite) (whichCheck : Check) :
    Idle weights (exec (checkSite opts site whichCheck) s).2 := by
  obtain ⟨n, e, hconsumes⟩ := checkSite_consumes opts weights site whichCheck s.fails
  rw [eq_idle hs, hconsumes.run]
  rfl

theorem sessionAfter_idle (c : Checker F) (fails : Nat → Bool) (calls : List (CallSite × Check)) :
    Idle c.weights (sessionAfter c fails calls) := by
  have hstart : Idle c.weights (⟨c.stats, fails⟩ : Session F) := stats_eq c
  unfold sessionAfter
  revert hstart
  generalize (⟨c.stats, fails⟩ : Session F) = s
  intro hs
  induction calls generalizing s with
  | nil => exact hs
  | cons call calls ih => exact ih _ (checkSite_keeps_idle hs call.1 call.2)

/-- The run makes exactly `n` steps: nothing depends on what the others would have done. -/
def MakesSteps {α : Type} (x : CheckM F α) (s : Session F) (n : Nat) : Prop :=
  Consumes (fun fails => ⟨s.stats, fails⟩) x s.fails n (exec x s).1

/-- A call that starts in the session remembers nothing of what came before. -/
structure Memoryless (c : Checker F) (s : Session F) (site : CallSite) (whichCheck : Check) :
    Prop where
  looks : ∃ trace e t, Traced Session.stats IsLookup (checkSite c.opts site whichCheck) s trace e t
  anew : ∀ trace e t,
    Traced Session.stats IsLookup (checkSite c.opts site whichCheck) s trace e t →
    ∀ start ∈ trace, ∃ db, c.weights = some db ∧ StartsAnew db start.1 start.2 ∧
      RunsItsQuery db start.1 start.2
  steps : ∃ n, MakesSteps (checkSite c.opts site whichCheck) s n
  fresh : ∀ n, MakesSteps (checkSite c.opts site whichCheck) s n → (∀ k < n, s.fails k = false) →
    (exec (checkSite c.opts site whichCheck) s).1 = c.results site whichCheck

theorem memoryless_of_idle {c : Checker F} {s : Session F} (hs : Idle c.weights s) (site : CallSite)
    (whichCheck : Check) : Memoryless c s site whichCheck := by
  refine ⟨checkSite_looks c.opts site whichCheck s, ?_, ?_, ?_⟩
  · intro trace e t htraced start hstart
    cases hweights : c.weights with
    | none =>
      -- without statistics, a lookup would break the assertion that they are valid
      have hpart (α : Type) (i : Lookup) (x : CheckM F α) (hx : IsLookup α i x) :
          Steady x s (.error .invalidStats) := by
        rw [hweights] at hs
        rw [eq_idle hs]
        cases hx <;> exact Steady.bind_error (Steady.throw _)
      have hvalid := checkSite_valid c.opts c.weights site whichCheck hs
      rw [htraced.run] at hvalid
      rw [(htraced.no_start hpart rfl).2 hvalid] at hstart
      exact absurd hstart List.not_mem_nil
    | some db =>
      have hidle := (htraced.invariant (fun α i x s hx hs => lookup_keeps_idle hx hs) hs).2
      have hstate : Idle (some db) start.2 := hweights ▸ hidle start hstart
      exact ⟨db, rfl, startsAnew_of_idle hstate start.1, runsItsQuery_of_idle hstate start.1⟩
  · obtain ⟨n, e, hconsumes⟩ := checkSite_consumes c.opts c.weights site whichCheck s.fails
    have hrun := hconsumes.run
    have hstart : (fun fails => ⟨s.stats, fails⟩) = idle c.weights := by
      rw [show s.stats = _ from hs]
      rfl
    rw [← eq_idle hs] at hrun
    exact ⟨n, by rwa [MakesSteps, hstart, hrun]⟩
  · intro n hsteps hclean
    have hrun := hsteps noFailure fun k hk => (hclean k hk).symm
    rw [show s.stats = _ from hs, ← stats_eq] at hrun
    rw [Checker.results, Checker.checkSite, hrun]

/-- **No memory between lookups**: whatever calls came before and whatever failed in them,
a call of a checker starts every lookup anew, which runs its query under its own
parameters, and when no step of the call fails, it returns what it returns as the first
call of a new checker. -/
theorem calls_memoryless (opts : CheckerConfiguration F) (disk : CString → ModelFile F)
    (fails : Nat → Bool) (before : List (CallSite × Check)) (site : CallSite) (whichCheck : Check) :
    Memoryless (Checker.new opts disk) (sessionAfter (Checker.new opts disk) fails before) site
      whichCheck :=
  memoryless_of_idle (sessionAfter_idle _ fails before) site whichCheck

end SwapDetector.Proofs.Sessions
