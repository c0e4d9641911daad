import SwapDetector.Proofs.StatsMeaning
import SwapDetector.Proofs.StatsVetting

/-! # The range of a confidence

A confidence is documented to lie between 0 and 1. It is the quotient of two weights
that are stored independently, so this holds exactly when a morpheme with rows at both
positions is not more common at the first of them, and not unused at the second.
-/
namespace SwapDetector.Proofs.ConfidenceRange
open SwapDetector.Base.ExactFloat SwapDetector.Base.ExactFloat.XRat SwapDetector.Base.Exec
open SwapDetector.Model.Bytes SwapDetector.Model.Types SwapDetector.Model.StatsDatabase
open SwapDetector.Model.SwappedArgChecker SwapDetector.Spec.Judgement SwapDetector.Spec.Tables
open SwapDetector.Proofs.Lookups SwapDetector.Proofs.Locality SwapDetector.Proofs.StatisticsBased
open SwapDetector.Proofs.NormalisedTables SwapDetector.Proofs.StatsVetting

/-! ## One lookup -/

/-- The row of a morpheme at a position of a function, as the queries select it. -/
def IsRowOf (r : Row ℚ) (func : ByteString) (pos : Nat) (morph : ByteString) : Prop :=
  r.func = cStr func ∧ r.arg = pos ∧ r.morpheme = cStr morph

/-- What is documented of the confidence of a morpheme. -/
structure Documented (db : List (Row ℚ)) (site : CallSite) (morph : ByteString)
    (pos comparedToPos : Nat) : Prop where
  noDivisionByZero : ∀ w, Steady (weightForMorphemeAtPos site.callDecl.fullyQualifiedName pos morph)
      (ready (some (exactRows db))) (.ok (some w)) →
    ¬ Steady (weightForMorphemeAtPos site.callDecl.fullyQualifiedName comparedToPos morph)
      (ready (some (exactRows db))) (.ok (some (.fin 0)))
  value : ∃ out, Steady (morphemeConfidenceAtPosition site morph pos comparedToPos)
      (ready (some (exactRows db))) (.ok out) ∧
    (out = none ↔ ∀ r ∈ db, ¬ IsRowOf r site.callDecl.fullyQualifiedName pos morph ∧
      ¬ IsRowOf r site.callDecl.fullyQualifiedName comparedToPos morph) ∧
    ∀ v, out = some v → InUnit v

/-- The weights of a morpheme at two positions can be compared by their quotient. -/
def Comparable (db : List (Row ℚ)) (func morph : ByteString) (pos comparedToPos : Nat) : Prop :=
  ∀ r ∈ db, ∀ s ∈ db, IsRowOf r func pos morph → IsRowOf s func comparedToPos morph →
    s.value ≠ 0 ∧ r.value ≤ s.value

section Lookup
variable {db : List (Row ℚ)} {func morph : ByteString} {pos comparedToPos : Nat}

theorem weightIn_eq_some_iff (hdb : WithinSchema db) {v : XRat} :
    weightIn (rowsAt (exactRows db) func pos) morph = some v ↔
      ∃ r ∈ db, IsRowOf r func pos morph ∧ v = .fin r.value := by
  rw [rowsAt_exactRows, (WithinSchema.at hdb func pos).weightIn_eq_some_iff]
  simp [ratRowsAt, IsRowOf, and_assoc]

theorem weightIn_eq_none_iff (hdb : WithinSchema db) :
    weightIn (rowsAt (exactRows db) func pos) morph = none ↔ ∀ r ∈ db, ¬ IsRowOf r func pos morph := by
  rw [Option.eq_none_iff_forall_ne_some]
  constructor
  · intro h r hr hrow
    exact h _ ((weightIn_eq_some_iff hdb).mpr ⟨r, hr, hrow, rfl⟩)
  · intro h v hv
    obtain ⟨r, hr, hrow, -⟩ := (weightIn_eq_some_iff hdb).mp hv
    exact h r hr hrow

/-- The quotient of two weights is a number from 0 to 1 when they can be compared. -/
theorem inUnit_div_iff {a b : ℚ} (ha : 0 ≤ a) (hb : 0 ≤ b) :
    InUnit (XRat.fin a / XRat.fin b) ↔ b ≠ 0 ∧ a ≤ b := by
  by_cases hzero : b = 0
  · rw [hzero]
    exact iff_of_false (not_inUnit_div_zero a) fun h => h.1 rfl
  · have hpos : 0 < b := lt_of_le_of_ne hb (Ne.symm hzero)
    rw [fin_div_fin hzero, inUnit_fin, div_le_one₀ hpos, and_iff_right hzero]
    exact and_iff_right (div_nonneg ha hb)

/-- The confidence of a morpheme is a number from 0 to 1 when its weights can be compared. -/
theorem confidence_inUnit_iff (hdb : WithinSchema db) :
    (∀ v, confidenceIn (rowsAt (exactRows db) func pos) (rowsAt (exactRows db) func comparedToPos)
        morph = some v → InUnit v) ↔ Comparable db func morph pos comparedToPos := by
  have hunit : InUnit (.fin 0) ∧ InUnit (.fin 1) := by simp [inUnit_fin]
  constructor
  · intro h r hr s hs hrow hrow'
    have hweight := (weightIn_eq_some_iff hdb).mpr ⟨r, hr, hrow, rfl⟩
    have hweight' := (weightIn_eq_some_iff hdb).mpr ⟨s, hs, hrow', rfl⟩
    refine (inUnit_div_iff (hdb.range r hr).1 (hdb.range s hs).1).mp (h _ ?_)
    rw [confidenceIn, hweight, hweight']
  · intro h v hv
    unfold confidenceIn at hv
    cases hweight : weightIn (rowsAt (exactRows db) func pos) morph with
    | none =>
      rw [hweight] at hv
      cases hweight' : weightIn (rowsAt (exactRows db) func comparedToPos) morph with
      | none => simp [hweight'] at hv
      | some w2 =>
        rw [hweight'] at hv
        cases hv
        exact hunit.1
    | some w1 =>
      rw [hweight] at hv
      cases hweight' : weightIn (rowsAt (exactRows db) func comparedToPos) morph with
      | none =>
        rw [hweight'] at hv
        cases hv
        exact hunit.2
      | some w2 =>
        rw [hweight'] at hv
        cases hv
        obtain ⟨r, hr, hrow, rfl⟩ := (weightIn_eq_some_iff hdb).mp hweight
        obtain ⟨s, hs, hrow', rfl⟩ := (weightIn_eq_some_iff hdb).mp hweight'
        exact (inUnit_div_iff (hdb.range r hr).1 (hdb.range s hs).1).mpr (h r hr s hs hrow hrow')

theorem confidence_eq_none_iff (hdb : WithinSchema db) :
    confidenceIn (rowsAt (exactRows db) func pos) (rowsAt (exactRows db) func comparedToPos) morph =
      none ↔ ∀ r ∈ db, ¬ IsRowOf r func pos morph ∧ ¬ IsRowOf r func comparedToPos morph := by
  have hboth : confidenceIn (rowsAt (exactRows db) func pos)
      (rowsAt (exactRows db) func comparedToPos) morph = none ↔
      weightIn (rowsAt (exactRows db) func pos) morph = none ∧
        weightIn (rowsAt (exactRows db) func comparedToPos) morph = none := by
    unfold confidenceIn
    cases weightIn (rowsAt (exactRows db) func pos) morph <;>
      cases weightIn (rowsAt (exactRows db) func comparedToPos) morph <;> simp
  rw [hboth, weightIn_eq_none_iff hdb, weightIn_eq_none_iff hdb]
  simp only [forall₂_and]

end Lookup

/-- A confidence is as documented when the weights of its morpheme can be compared. -/
theorem documented_iff_comparable {db : List (Row ℚ)} (hdb : WithinSchema db) (site : CallSite)
    (morph : ByteString) (pos comparedToPos : Nat) : Documented db site morph pos comparedToPos ↔
      Comparable db site.callDecl.fullyQualifiedName morph pos comparedToPos := by
  have hrun := morphemeConfidenceAtPosition_steady (exactRows db) site morph pos comparedToPos
  constructor
  · intro h
    obtain ⟨out, hout, -, hunit⟩ := h.value
    cases hrun.unique hout
    exact (confidence_inUnit_iff hdb).mp hunit
  · intro h
    refine ⟨fun w hw hzero => ?_, _, hrun, confidence_eq_none_iff hdb,
      (confidence_inUnit_iff hdb).mpr h⟩
    have hweight := (weightForMorphemeAtPos_steady (exactRows db) _ pos morph).unique hw
    have hweight' := (weightForMorphemeAtPos_steady (exactRows db) _ comparedToPos morph).unique hzero
    obtain ⟨r, hr, hrow, -⟩ := (weightIn_eq_some_iff hdb).mp (Except.ok.inj hweight)
    obtain ⟨s, hs, hrow', heq⟩ := (weightIn_eq_some_iff hdb).mp (Except.ok.inj hweight')
    exact (h r hr s hs hrow hrow').1 (XRat.fin.inj heq).symm

/-! ## Score cards -/

/-- The confidences a score card stores. -/
def storedConfidences : ScoreCard XRat → List XRat
  | .parameterNameBased _ statsVettedScore => statsVettedScore.toList
  | .usageStatisticsBased _ _ psi1 psi2 => [psi1, psi2]

/-- Every confidence stored with a result of a call is a number from 0 to 1. -/
def StoresInUnit (c : Checker XRat) (site : CallSite) (whichCheck : Check) : Prop :=
  ∀ rs, c.results site whichCheck = .ok rs → ∀ r ∈ rs, ∀ v ∈ storedConfidences r.score, InUnit v

theorem storesInUnit_of_comparable {c : Checker XRat} {db : List (Row ℚ)} {site : CallSite}
    {whichCheck : Check} (hweights : c.weights = some (exactRows db)) (hdb : WithinSchema db)
    (h : ∀ morph pos comparedToPos,
      Comparable db site.callDecl.fullyQualifiedName morph pos comparedToPos) :
    StoresInUnit c site whichCheck := by
  have hunit (morph : ByteString) (pos comparedToPos : Nat) :=
    (confidence_inUnit_iff hdb).mpr (h morph pos comparedToPos)
  intro rs hrs r hr v hv
  rw [(results_eq_ok.mp hrs).2] at hr
  obtain ⟨i, j, -, -, hverdict⟩ := mem_verdicts.mp hr
  rw [hweights] at hverdict
  rcases verdict_eq_some hverdict with ⟨-, rfl⟩ | ⟨-, -, -, hstats⟩
  · have hscore : (pairData c.opts (some (exactRows db)) site whichCheck (i, j)).statsScore = some v :=
      Option.mem_toList.mp hv
    rw [statsScore_eq rfl] at hscore
    refine foldl_keepMax_inUnit _ (fun u hu => ?_) none (by simp) v hscore
    rcases mem_confidences.mp hu with ⟨morph, -, hconf⟩ | ⟨morph, -, hconf⟩
    · exact hunit morph i j u hconf
    · exact hunit morph j i u hconf
  · obtain ⟨rows, morph1, morph2, psi1, psi2, hseen, rfl⟩ := statsOutcome_eq_some.mp hstats
    cases hseen.rows_eq
    rcases List.mem_pair.mp hv with rfl | rfl
    · exact hunit morph1 j i _ hseen.confidence1
    · exact hunit morph2 i j _ hseen.confidence2

/-- **The range of a confidence**: for a table within the schema, a confidence is as
documented when the weights of its morpheme can be compared; all of them are, and all
that score cards store, when the weights of all morphemes can. -/
theorem confidence_range_iff (db : List (Row ℚ)) (hdb : WithinSchema db) :
    (∀ site morph pos comparedToPos, Documented db site morph pos comparedToPos ↔
        Comparable db site.callDecl.fullyQualifiedName morph pos comparedToPos) ∧
      (((∀ site morph pos comparedToPos, Documented db site morph pos comparedToPos) ∧
          ∀ c : Checker XRat, c.weights = some (exactRows db) →
            ∀ site whichCheck, StoresInUnit c site whichCheck) ↔
        ∀ func morph pos comparedToPos, Comparable db func morph pos comparedToPos) := by
  refine ⟨documented_iff_comparable hdb, fun h func morph pos comparedToPos => ?_, fun h => ⟨?_, ?_⟩⟩
  · exact (documented_iff_comparable hdb ⟨⟨func, none⟩, []⟩ morph pos comparedToPos).mp (h.1 _ _ _ _)
  · exact fun site morph pos comparedToPos => (documented_iff_comparable hdb _ _ _ _).mpr (h _ _ _ _)
  · exact fun c hweights site whichCheck => storesInUnit_of_comparable hweights hdb (h _)

theorem petTable_range_iff :
    WithinSchema FixedCalls.petTable ∧
      ∀ site morph pos comparedToPos,
        Documented FixedCalls.petTable site morph pos comparedToPos ↔
          Comparable FixedCalls.petTable site.callDecl.fullyQualifiedName morph pos comparedToPos :=
  ⟨StatsMeaning.petTable_withinSchema,
    (confidence_range_iff FixedCalls.petTable StatsMeaning.petTable_withinSchema).1⟩

/-- A table in which a morpheme is used at one position and not at another one. -/
def unusedTable : List (Row ℚ) :=
  [⟨cStr (bytes "foo"), 0, cStr (bytes "cats"), 1⟩, ⟨cStr (bytes "foo"), 1, cStr (bytes "cats"), 0⟩]

/-- The confidence divides by zero. -/
theorem unusedTable_infinite : WithinSchema unusedTable ∧
    ¬ Documented unusedTable ⟨⟨bytes "foo", none⟩, []⟩ (bytes "cats") 0 1 := by
  refine ⟨⟨by decide +kernel, by decide +kernel⟩, fun h => ?_⟩
  have hweight := weightForMorphemeAtPos_steady (exactRows unusedTable) (bytes "foo") 0 (bytes "cats")
  have hweight' := weightForMorphemeAtPos_steady (exactRows unusedTable) (bytes "foo") 1 (bytes "cats")
  have hone : weightIn (rowsAt (exactRows unusedTable) (bytes "foo") 0) (bytes "cats") =
      some (.fin 1) := by decide +kernel
  have hzero : weightIn (rowsAt (exactRows unusedTable) (bytes "foo") 1) (bytes "cats") =
      some (.fin 0) := by decide +kernel
  exact h.noDivisionByZero (.fin 1) (hone ▸ hweight) (hzero ▸ hweight')

end SwapDetector.Proofs.ConfidenceRange
