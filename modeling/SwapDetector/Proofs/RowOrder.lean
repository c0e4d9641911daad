import SwapDetector.Base.Postconditions
import SwapDetector.Proofs.FixedCalls
import SwapDetector.Proofs.Sessions

/-! # The order of the rows does not matter

Neither query of the statistics asks for an order of the rows. Two tables with the same
number of rows, weights and fits everywhere are indistinguishable to a checker: whatever
steps fail, its calls make the same steps on both and come to the same outcomes. Tables
with the same rows in different orders are such tables when no key occurs twice.
-/
namespace SwapDetector.Proofs.RowOrder
open SwapDetector.Base.ExactFloat SwapDetector.Base.ExactFloat.XRat SwapDetector.Base.Exec
open SwapDetector.Base.OrderedSet SwapDetector.Base.Decisions SwapDetector.Base.Permutations
open SwapDetector.Base.KeyedTables SwapDetector.Base.PreparedStatement
open SwapDetector.Base.Postconditions
open SwapDetector.Model.Bytes SwapDetector.Model.Types SwapDetector.Model.StatsDatabase
open SwapDetector.Model.SwappedArgChecker SwapDetector.Spec.Judgement SwapDetector.Spec.Tables
open SwapDetector.Proofs.Lookups SwapDetector.Proofs.PairEnumeration
open SwapDetector.Proofs.NormalisedTables SwapDetector.Proofs.Refinement
open SwapDetector.Proofs.FailingSteps SwapDetector.Proofs.FixedCalls SwapDetector.Proofs.Sessions

variable {F : Type}

/-! ## Sessions over two tables -/

/-- Idle sessions over two tables, with the same steps to fail. -/
def Twins (db db' : List (Row F)) (s t : Session F) : Prop :=
  ∃ fails, s = idle (some db) fails ∧ t = idle (some db') fails

variable {db db' : List (Row F)}

theorem agree_of_takes {α : Type} {x : CheckM F α} {n : Nat} {out out' : (Nat → Bool) → α}
    (hx : Takes (idle (some db)) x n out) (hy : Takes (idle (some db')) x n out')
    (h : ∀ fails, out fails = out' fails) : Agree (Twins db db') x x := by
  intro s t hst
  obtain ⟨fails, rfl, rfl⟩ := hst
  rw [hx fails, hy fails, h fails]
  exact ⟨rfl, skip n fails, rfl, rfl⟩

/-- The assertion that the statistics are valid holds on both sides. -/
theorem validStats_bind {β : Type} {x y : CheckM F β} (h : Agree (Twins db db') x y) :
    Agree (Twins db db') (validStats >>= fun _ => x) (validStats >>= fun _ => y) := by
  refine Agree.steady_bind fun s t hst => ?_
  obtain ⟨fails, rfl, rfl⟩ := hst
  exact ⟨_, _, rfl, rfl, h⟩

/-- There are statistics on both sides. -/
theorem get_stats_bind {β : Type} {c : Bool → Prop} [DecidablePred c] {x y x' y' : CheckM F β}
    (hx : Agree (Twins db db') x y) (hx' : Agree (Twins db db') x' y') :
    Agree (Twins db db') (do let s ← get; if c s.stats.isSome then x else x')
      (do let s ← get; if c s.stats.isSome then y else y') := by
  refine Agree.steady_bind fun s t hst => ?_
  obtain ⟨fails, rfl, rfl⟩ := hst
  exact ⟨_, _, Steady.get, Steady.get, Agree.ite hx hx'⟩

/-! ## Tables with the same answers -/

variable [FloatArith F]

/-- Two tables that no lookup tells apart by what a checker makes of it. -/
structure SameAnswers (db db' : List (Row F)) : Prop where
  count : ∀ func pos, (rowsAt db func pos).length = (rowsAt db' func pos).length
  weight : ∀ func pos morph,
    weightIn (rowsAt db func pos) morph = weightIn (rowsAt db' func pos) morph
  fit : ∀ func pos morph, fitIn (rowsAt db func pos) morph = fitIn (rowsAt db' func pos) morph

section Agreements
variable (h : SameAnswers db db')
include h

theorem morphemeConfidenceAtPosition_agree (site : CallSite) (morph : ByteString)
    (pos comparedToPos : Nat) :
    Agree (Twins db db') (morphemeConfidenceAtPosition site morph pos comparedToPos)
      (morphemeConfidenceAtPosition site morph pos comparedToPos) := by
  refine agree_of_takes (morphemeConfidenceAtPosition_takes db site morph pos comparedToPos)
    (morphemeConfidenceAtPosition_takes db' site morph pos comparedToPos) fun fails => ?_
  unfold confidenceUnder
  rw [h.weight, h.weight]

theorem fit_agree (morph : ByteString) (site : CallSite) (argPos : Nat) :
    Agree (Twins db db') (fit morph site argPos) (fit morph site argPos) := by
  unfold fit
  refine validStats_bind ?_
  intro s t hst
  obtain ⟨fails, rfl, rfl⟩ := hst
  have hrun := morphemesAndWeightsAtPos_fetch db site.callDecl.fullyQualifiedName argPos fails
  have hrun' := morphemesAndWeightsAtPos_fetch db' site.callDecl.fullyQualifiedName argPos fails
  rw [selectMorphValue_parameters, List.isEmpty_map] at hrun hrun'
  have hcount := h.count site.callDecl.fullyQualifiedName argPos
  have hread : ((rowsAt db site.callDecl.fullyQualifiedName argPos).map
      fun r => (r.morpheme, r.value)).length =
      ((rowsAt db' site.callDecl.fullyQualifiedName argPos).map
        fun r => (r.morpheme, r.value)).length := by
    rw [List.length_map, List.length_map, hcount]
  -- both lookups make the same steps, as they have the same number of rows to read
  obtain ⟨hsteps, hended⟩ := fetch_length hread fails
  have hempty : (rowsAt db site.callDecl.fullyQualifiedName argPos).isEmpty =
      (rowsAt db' site.callDecl.fullyQualifiedName argPos).isEmpty := by
    rw [Bool.eq_iff_iff, List.isEmpty_iff_length_eq_zero, List.isEmpty_iff_length_eq_zero, hcount]
  rw [exec_bind_ok hrun.run, exec_bind_ok hrun'.run, hsteps, hended, hempty]
  cases hfound : (fetch ((rowsAt db' site.callDecl.fullyQualifiedName argPos).map
      fun r => (r.morpheme, r.value)) fails).ended with
  | false => exact ⟨rfl, _, rfl, rfl⟩
  | true =>
    rw [fetch_read hfound, fetch_read (hended.trans hfound), Bool.true_and]
    cases (rowsAt db' site.callDecl.fullyQualifiedName argPos).isEmpty with
    | true => exact ⟨rfl, _, rfl, rfl⟩
    | false =>
      refine ⟨congrArg Except.ok ?_, _, rfl, rfl⟩
      rw [List.map_map, List.map_map, List.foldl_map, List.foldl_map]
      exact h.fit _ _ morph

theorem foldlM_vetMorpheme_agree (site : CallSite) (pos comparedToPos : Nat)
    (morphs : List ByteString) (score : Option F) :
    Agree (Twins db db') (morphs.foldlM (vetMorpheme site pos comparedToPos) score)
      (morphs.foldlM (vetMorpheme site pos comparedToPos) score) := by
  refine Agree.foldlM _ _ fun score morph _ => ?_
  exact (morphemeConfidenceAtPosition_agree h site morph pos comparedToPos).bind
    fun val => by cases val <;> exact Agree.pure _

theorem vetWithStats_agree (site : CallSite) (unique1 unique2 : Finset ByteString)
    (pos1 pos2 : Nat) :
    Agree (Twins db db') (vetWithStats site unique1 unique2 pos1 pos2)
      (vetWithStats site unique1 unique2 pos1 pos2) := by
  refine get_stats_bind (c := fun there => there = true) (validStats_bind ?_) (Agree.pure none)
  exact (foldlM_vetMorpheme_agree h site pos1 pos2 _ none).bind fun score =>
    foldlM_vetMorpheme_agree h site pos2 pos1 _ score

theorem coverStage_agree (site : CallSite) (d : PairData F) :
    Agree (Twins db db') (coverStage site d) (coverStage site d) := by
  refine Agree.ite ((Agree.ofExcept _).bind fun passed => ?_) (Agree.pure none)
  refine Agree.ite ((vetWithStats_agree h site _ _ _ _).bind fun score => ?_) (Agree.pure none)
  exact Agree.ite (Agree.pure none) (Agree.pure _)

theorem checkMorphemePair_agree (opts : CheckerConfiguration F) (args : MorphemeSet × MorphemeSet)
    (site : CallSite) (morph1 morph2 : ByteString) :
    Agree (Twins db db') (checkMorphemePair opts args site morph1 morph2)
      (checkMorphemePair opts args site morph1 morph2) := by
  unfold checkMorphemePair
  refine (morphemeConfidenceAtPosition_agree h site morph1 _ _).bind fun psi1 => ?_
  refine (morphemeConfidenceAtPosition_agree h site morph2 _ _).bind fun psi2 => ?_
  cases psi1 with
  | none => exact Agree.pure none
  | some psi1 =>
    cases psi2 with
    | none => exact Agree.pure none
    | some psi2 =>
      refine Agree.ite (Agree.pure none) (Agree.ite (Agree.pure none) ?_)
      refine (fit_agree h morph1 site _).bind fun fit1 => ?_
      refine (fit_agree h morph2 site _).bind fun fit2 => ?_
      exact Agree.ite (Agree.pure _) (Agree.pure none)

theorem statsStage_agree (opts : CheckerConfiguration F) (site : CallSite) (whichCheck : Check)
    (p : Nat × Nat) :
    Agree (Twins db db') (statsStage opts site whichCheck p)
      (statsStage opts site whichCheck p) := by
  refine get_stats_bind (c := fun there => (whichCheck = .all ∨ whichCheck = .statsBased) ∧
    there = true) (validStats_bind ?_) (Agree.pure none)
  refine Agree.findSomeM _ fun morph1 _ => Agree.findSomeM _ fun morph2 _ => ?_
  exact checkMorphemePair_agree h opts _ site morph1 morph2

theorem checkPair_agree (opts : CheckerConfiguration F) (site : CallSite) (whichCheck : Check)
    (p : Nat × Nat) (hp1 : p.1 < site.positionalArgNames.length)
    (hp2 : p.2 < site.positionalArgNames.length) :
    Agree (Twins db db') (checkPair opts site whichCheck p) (checkPair opts site whichCheck p) := by
  rw [checkPair_eq opts none site whichCheck p hp1 hp2]
  refine Agree.ite (Agree.pure none) (Agree.ite (Agree.pure none) ?_)
  refine (coverStage_agree h site _).bind fun r => ?_
  cases r with
  | none => exact statsStage_agree h opts site whichCheck p
  | some r => exact Agree.pure (some r)

/-- A call comes to the same outcome on both tables, and makes the same steps. -/
theorem checkSite_agree (opts : CheckerConfiguration F) (site : CallSite) (whichCheck : Check) :
    Agree (Twins db db') (checkSite opts site whichCheck) (checkSite opts site whichCheck) := by
  unfold checkSite
  by_cases hfew : site.positionalArgNames.length < 2
  · rw [if_pos hfew]
    exact Agree.pure []
  rw [if_neg hfew]
  by_cases hn : site.positionalArgNames.length < 2 ^ 32
  · rw [pairwiseCombinations_ok (by omega) hn]
    show Agree _ (List.foldlM _ _ _) (List.foldlM _ _ _)
    refine Agree.foldlM _ _ fun results p hp => ?_
    have hlt := lt_of_mem_allPairs hp
    exact (checkPair_agree h opts site whichCheck p hlt.1 hlt.2).bind fun r => Agree.pure _
  · rw [pairwiseCombinations_large (by omega)]
    exact fun _ _ hst => ⟨rfl, hst⟩

omit h in
/-- A call does not look at the path of the database. -/
theorem checkSite_thresholds {opts opts' : CheckerConfiguration F}
    (hopts : opts' = { opts with modelPath := opts'.modelPath }) (site : CallSite)
    (whichCheck : Check) : checkSite opts' site whichCheck = checkSite opts site whichCheck := by
  rw [hopts]
  rfl

theorem sessionAfter_twins {c c' : Checker F}
    (hopts : c'.opts = { c.opts with modelPath := c'.opts.modelPath })
    (hweights : c.weights = some db) (hweights' : c'.weights = some db') (fails : Nat → Bool)
    (calls : List (CallSite × Check)) :
    Twins db db' (sessionAfter c fails calls) (sessionAfter c' fails calls) := by
  have hstart : Twins db db' (⟨c.stats, fails⟩ : Session F) ⟨c'.stats, fails⟩ := by
    rw [stats_eq c, stats_eq c', hweights, hweights']
    exact ⟨fails, rfl, rfl⟩
  unfold sessionAfter
  revert hstart
  generalize (⟨c.stats, fails⟩ : Session F) = s
  generalize (⟨c'.stats, fails⟩ : Session F) = t
  intro hst
  induction calls generalizing s t with
  | nil => exact hst
  | cons call calls ih =>
    refine ih _ _ ?_
    show Twins db db' _ (exec (checkSite c'.opts call.1 call.2) t).2
    rw [checkSite_thresholds hopts]
    exact (checkSite_agree h c.opts call.1 call.2 s t hst).2

end Agreements

/-! ## Rows in another order -/

/-- Where no key occurs twice, no lookup tells the order of the rows. -/
theorem sameAnswers_of_perm {db db' : List (Row ℚ)} (hperm : db.Perm db')
    (hunique : (db.map fun r => (r.func, r.arg, r.morpheme)).Nodup) :
    SameAnswers (exactRows db) (exactRows db') := by
  have hrows (func : ByteString) (pos : Nat) :
      (ratRowsAt db func pos).Perm (ratRowsAt db' func pos) := hperm.filter _
  constructor
  · intro func pos
    rw [rowsAt_exactRows, rowsAt_exactRows, exactRows, exactRows, List.length_map, List.length_map,
      (hrows func pos).length_eq]
  · intro func pos morph
    rw [rowsAt_exactRows, rowsAt_exactRows, weightIn_exactRows, weightIn_exactRows]
    exact congrArg (Option.map _)
      (lookup_perm (hrows func pos) (nodup_morphemes hunique func pos) (cStr morph))
  · intro func pos morph
    rw [rowsAt_exactRows, rowsAt_exactRows]
    unfold fitIn
    rw [ofRat_eq, foldl_fit, foldl_fit, ((hrows func pos).map _).sum_eq]

/-- **The order of the rows does not matter**: over two tables with the same rows, no key
among them twice, checkers with the same thresholds come to the same outcome in every
call, whatever calls came before and whatever steps fail, and make the same steps. -/
theorem calls_of_perm {db db' : List (Row ℚ)} (c c' : Checker XRat) (hperm : db.Perm db')
    (hunique : (db.map fun r => (r.func, r.arg, r.morpheme)).Nodup)
    (hopts : c'.opts = { c.opts with modelPath := c'.opts.modelPath })
    (hweights : c.weights = some (exactRows db)) (hweights' : c'.weights = some (exactRows db'))
    (fails : Nat → Bool) (before : List (CallSite × Check)) (site : CallSite)
    (whichCheck : Check) :
    let run := exec (checkSite c.opts site whichCheck) (sessionAfter c fails before)
    let run' := exec (checkSite c'.opts site whichCheck) (sessionAfter c' fails before)
    run.1 = run'.1 ∧ run.2.fails = run'.2.fails := by
  have hsame := sameAnswers_of_perm hperm hunique
  have hbefore := sessionAfter_twins hsame hopts hweights hweights' fails before
  intro run run'
  have hrun' : run' = exec (checkSite c.opts site whichCheck) (sessionAfter c' fails before) := by
    rw [← checkSite_thresholds hopts]
  obtain ⟨hout, fails', hafter, hafter'⟩ := checkSite_agree hsame c.opts site whichCheck _ _ hbefore
  rw [hrun']
  exact ⟨hout, (congrArg Session.fails hafter).trans (congrArg Session.fails hafter').symm⟩

/-- After a call whose first lookup fails, the crossed pets are reported alike. -/
theorem petTable_reversed :
    let run := exec (checkSite {} (petCall (bytes "dogs") (bytes "cats")) .statsBased)
      (sessionAfter (checkerOver {} (some (exactRows petTable))) (fun k => k == 0)
        [(petCall (bytes "cats") (bytes "dogs"), .all)])
    let run' := exec (checkSite {} (petCall (bytes "dogs") (bytes "cats")) .statsBased)
      (sessionAfter (checkerOver {} (some (exactRows petTable.reverse))) (fun k => k == 0)
        [(petCall (bytes "cats") (bytes "dogs"), .all)])
    run.1 = run'.1 ∧ run.2.fails = run'.2.fails :=
  calls_of_perm (checkerOver {} (some (exactRows petTable)))
    (checkerOver {} (some (exactRows petTable.reverse))) (List.reverse_perm petTable).symm
    petTable_normalised.unique rfl rfl rfl (fun k => k == 0)
    [(petCall (bytes "cats") (bytes "dogs"), .all)] (petCall (bytes "dogs") (bytes "cats"))
    .statsBased

end SwapDetector.Proofs.RowOrder
