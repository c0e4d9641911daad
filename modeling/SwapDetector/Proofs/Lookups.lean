import SwapDetector.Base.Decisions
import SwapDetector.Spec.Judgement

/-! # Lookups

A lookup in an idle session clears and resets its statement on the way out, so whatever
steps fail it leaves the session idle over the same table. The lookup of one weight
takes one decision of the environment, the lookup of all rows of a position takes one
for each step. When no step fails, both answer from the table.
-/
namespace SwapDetector.Proofs.Lookups
open SwapDetector.Base.ExactFloat SwapDetector.Base.Exec SwapDetector.Base.Decisions
open SwapDetector.Base.OrderedSet SwapDetector.Base.PreparedStatement
open SwapDetector.Model.Bytes SwapDetector.Model.Types SwapDetector.Model.StatsDatabase
open SwapDetector.Model.SwappedArgChecker SwapDetector.Spec.Judgement

variable {F : Type}

/-- An idle session over a table, or without statistics, with the decisions to come. -/
def idle (weights : Option (List (Row F))) (fails : Nat → Bool) : Session F :=
  ⟨weights.map .loaded, fails⟩

/-- An idle session over a table, or without statistics, in which no step fails. -/
def ready (weights : Option (List (Row F))) : Session F :=
  ⟨weights.map Statistics.loaded, noFailure⟩

theorem nextStep_takes (weights : Option (List (Row F))) :
    Takes (idle weights) (nextStep : CheckM F Bool) 1 fun fails => fails 0 := by
  intro fails
  have hskip : skip 1 fails = fun k => fails (k + 1) := by
    funext k
    rw [skip_apply, Nat.add_comm]
  rw [hskip]
  rfl

theorem validStats_takes (db : List (Row F)) :
    Takes (idle (some db)) validStats 0 fun _ => (db, .prepared, .prepared) :=
  Takes.of_steady fun _ => rfl

theorem validStats_steady (db : List (Row F)) :
    Steady validStats (ready (some db)) (.ok (db, .prepared, .prepared)) := rfl

/-- Putting back a table with cleared and reset statements changes nothing. -/
theorem setStats_takes (db : List (Row F)) :
    Takes (idle (some db)) (setStats db .prepared .prepared) 0 fun _ => () :=
  Takes.of_steady fun _ => rfl

/-! ## The weight of one morpheme -/

theorem selectValue_parameters (db : List (Row F)) (func : ByteString) (pos : Nat)
    (morph : ByteString) :
    (selectValue db (parameters [.text (cStr func), .int pos, .text (cStr morph)])).head? =
      weightIn (rowsAt db func pos) morph := by
  unfold selectValue weightIn rowsAt
  rw [List.head?_map, List.head?_filter, List.find?_filter]
  congr 2
  funext r
  simp [parameters, eq_comm (a := cStr func), eq_comm (a := pos), eq_comm (a := cStr morph),
    and_assoc]

/-- What a lookup finds of a weight in the table. -/
def readWeight (failed : Bool) (weight : Option F) : Option F := if failed then none else weight

theorem weightForMorphemeAtPos_takes (db : List (Row F)) (func : ByteString) (pos : Nat)
    (morph : ByteString) : Takes (idle (some db)) (weightForMorphemeAtPos func pos morph) 1
      fun fails => readWeight (fails 0) (weightIn (rowsAt db func pos) morph) := by
  have hselect := selectValue_parameters db func pos morph
  unfold weightForMorphemeAtPos
  refine (validStats_takes db).bind_const ?_
  refine (nextStep_takes _).bind (m := 0) (g := fun failed _ =>
    readWeight failed (weightIn (rowsAt db func pos) morph)) fun failed => ?_
  rw [prepared_bind_three]
  cases failed with
  | true => exact (setStats_takes db).bind_const (Takes.pure none)
  | false =>
    rcases step_ok_cases (selectValue db)
      ⟨parameters [.text (cStr func), .int pos, .text (cStr morph)], .ready⟩
      with ⟨hrows, hstep⟩ | ⟨v, rest, hrows, hstep⟩
    · have hnone : weightIn (rowsAt db func pos) morph = none :=
        hselect ▸ congrArg List.head? hrows
      simp only [hstep, clear_reset, hnone]
      exact (setStats_takes db).bind_const (Takes.pure none)
    · have hsome : weightIn (rowsAt db func pos) morph = some v :=
        hselect ▸ congrArg List.head? hrows
      simp only [hstep, clear_reset, hsome]
      exact (setStats_takes db).bind_const (Takes.pure (some v))

theorem weightForMorphemeAtPos_steady (db : List (Row F)) (func : ByteString) (pos : Nat)
    (morph : ByteString) : Steady (weightForMorphemeAtPos func pos morph) (ready (some db))
      (.ok (weightIn (rowsAt db func pos) morph)) :=
  (weightForMorphemeAtPos_takes db func pos morph).steady noFailure rfl

/-! ## All rows of a position -/

/-- The loop steps through the pending rows within its bound, and reports success when
these end and there was one. -/
theorem readRows_fetch (weights : Option (List (Row F))) (db : List (Row F)) (bound : Nat) :
    ∀ (stmt : Stmt SqlValue (CString × F)) (ret : Bool) (res : List (ByteString × F))
      (fails : Nat → Bool), (stmt.pending (selectMorphValue db)).length < bound →
      ∃ left, Consumes (idle weights) (readRows db bound stmt ret res) fails
        (fetch (stmt.pending (selectMorphValue db)) fails).steps
        (.ok ((fetch (stmt.pending (selectMorphValue db)) fails).ended &&
            (ret || !(stmt.pending (selectMorphValue db)).isEmpty),
          res ++ (fetch (stmt.pending (selectMorphValue db)) fails).read.map
            fun r => (r.1.val, r.2), left)) := by
  induction bound with
  | zero => intro stmt ret res fails h; omega
  | succ bound ih =>
    intro stmt ret res fails h
    have hnext : Consumes (idle weights) (nextStep : CheckM F Bool) fails 1 (.ok (fails 0)) :=
      Consumes.of_takes (nextStep_takes weights) fun _ hagree => hagree 0 Nat.one_pos
    rw [readRows]
    cases hfailed : fails 0 with
    | true =>
      rw [hfailed] at hnext
      rw [fetch_of_fails _ hfailed, Bool.false_and, List.map_nil, List.append_nil]
      refine ⟨{ stmt with cursor := .failed }, hnext.bind_ok (m := 0) ?_⟩
      exact Consumes.of_steady fun _ => Steady.pure _
    | false =>
      rw [hfailed] at hnext
      rcases step_ok_cases (selectMorphValue db) stmt with ⟨hrows, hstep⟩ | ⟨r, rest, hrows, hstep⟩
      · rw [hrows, fetch, hfailed, List.isEmpty_nil, Bool.not_true, Bool.or_false, Bool.not_false,
          Bool.true_and, List.map_nil, List.append_nil]
        refine ⟨{ stmt with cursor := .halted }, hnext.bind_ok (m := 0) ?_⟩
        simp only [hstep]
        exact Consumes.of_steady fun _ => Steady.pure _
      · have hpending : Stmt.pending (selectMorphValue db) { stmt with cursor := .onRow rest } =
            rest := rfl
        rw [hrows, List.length_cons] at h
        obtain ⟨left, hrest⟩ := ih { stmt with cursor := .onRow rest } true
          (res ++ [(r.1.val, r.2)]) (skip 1 fails) (by rw [hpending]; omega)
        rw [hpending, Bool.true_or, Bool.and_true, List.append_assoc] at hrest
        rw [hrows, fetch_cons r rest hfailed, List.isEmpty_cons, Bool.not_false, Bool.or_true,
          Bool.and_true]
        refine ⟨left, hnext.bind_ok ?_⟩
        simp only [hstep]
        exact hrest

/-- The lookup of all rows of a position steps through its query with its own parameters. -/
theorem morphemesAndWeightsAtPos_fetch (db : List (Row F)) (func : ByteString) (pos : Nat)
    (fails : Nat → Bool) :
    Consumes (idle (some db)) (morphemesAndWeightsAtPos func pos) fails
      (fetch (selectMorphValue db (parameters [.text (cStr func), .int pos])) fails).steps
      (.ok ((fetch (selectMorphValue db (parameters [.text (cStr func), .int pos])) fails).ended &&
          !(selectMorphValue db (parameters [.text (cStr func), .int pos])).isEmpty,
        (fetch (selectMorphValue db (parameters [.text (cStr func), .int pos])) fails).read.map
          fun r => (r.1.val, r.2))) := by
  let bound : Stmt SqlValue (CString × F) := ⟨parameters [.text (cStr func), .int pos], .ready⟩
  have hlen : (bound.pending (selectMorphValue db)).length < db.length + 1 := by
    refine Nat.lt_succ_of_le ?_
    show (List.map _ _).length ≤ _
    rw [List.length_map]
    exact List.length_filter_le _ _
  obtain ⟨left, hread⟩ := readRows_fetch (some db) db (db.length + 1) bound false [] fails hlen
  have hvalid : Consumes (idle (some db)) validStats fails 0 (.ok (db, .prepared, .prepared)) :=
    Consumes.of_steady fun _ => rfl
  unfold morphemesAndWeightsAtPos
  rw [← Nat.zero_add (Fetched.steps _)]
  refine hvalid.bind_ok ?_
  dsimp only
  rw [skip_zero, prepared_bind_two, ← Nat.add_zero (Fetched.steps _)]
  refine hread.bind_ok (Consumes.bind_ok (a := ()) (n := 0) (m := 0)
    (Consumes.of_steady fun _ => rfl) ?_)
  exact Consumes.of_steady fun _ => Steady.pure _

theorem selectMorphValue_parameters (db : List (Row F)) (func : ByteString) (pos : Nat) :
    selectMorphValue db (parameters [.text (cStr func), .int pos]) =
      (rowsAt db func pos).map fun r => (r.morpheme, r.value) := by
  unfold selectMorphValue rowsAt
  congr 2
  funext r
  simp [parameters, eq_comm (a := cStr func), eq_comm (a := pos)]

/-- Rows are reported only when all of them were read, and they are when no step fails. -/
theorem morphemesAndWeightsAtPos_consumes (db : List (Row F)) (func : ByteString) (pos : Nat)
    (fails : Nat → Bool) :
    ∃ n out, Consumes (idle (some db)) (morphemesAndWeightsAtPos func pos) fails n (.ok out) ∧
      (out.1 = true → out.2 = (rowsAt db func pos).map fun r => (r.morpheme.val, r.value)) ∧
      ((∀ k < n, fails k = false) → out = (!(rowsAt db func pos).isEmpty,
        (rowsAt db func pos).map fun r => (r.morpheme.val, r.value))) := by
  have hfetch := morphemesAndWeightsAtPos_fetch db func pos fails
  rw [selectMorphValue_parameters, List.isEmpty_map] at hfetch
  refine ⟨_, _, hfetch, fun hfound => ?_, fun hclean => ?_⟩
  · rw [fetch_read (Bool.and_eq_true_iff.mp hfound).1, List.map_map]
    rfl
  · have hended := fetch_ended hclean
    rw [fetch_read hended, hended, Bool.true_and, List.map_map]
    rfl

theorem morphemesAndWeightsAtPos_steady (db : List (Row F)) (func : ByteString) (pos : Nat) :
    Steady (morphemesAndWeightsAtPos func pos) (ready (some db))
      (.ok (!(rowsAt db func pos).isEmpty,
        (rowsAt db func pos).map fun r => (r.morpheme.val, r.value))) := by
  obtain ⟨n, out, hconsumes, -, hclean⟩ := morphemesAndWeightsAtPos_consumes db func pos noFailure
  rw [← hclean fun _ _ => rfl]
  exact hconsumes.run

/-! ## Confidence and fitness -/

variable [FloatArith F]

/-- The confidence made of the weights that were found at two positions. -/
def confidenceBetween (pos1 pos2 : Option F) : Option F :=
  match pos1, pos2 with
  | some _, none => some (FloatArith.ofRat 1)
  | none, some _ => some (FloatArith.ofRat 0)
  | some w1, some w2 => some (w1 / w2)
  | none, none => none

/-- The confidence in a morpheme at a position, compared to another one, when its two
lookups may fail. -/
def confidenceUnder (db : List (Row F)) (func : ByteString) (asked : ByteString × Nat × Nat)
    (fails : Nat → Bool) : Option F :=
  confidenceBetween (readWeight (fails 0) (weightIn (rowsAt db func asked.2.1) asked.1))
    (readWeight (fails 1) (weightIn (rowsAt db func asked.2.2) asked.1))

theorem morphemeConfidenceAtPosition_takes (db : List (Row F)) (site : CallSite)
    (morph : ByteString) (pos comparedToPos : Nat) :
    Takes (idle (some db)) (morphemeConfidenceAtPosition site morph pos comparedToPos) 2
      (confidenceUnder db site.callDecl.fullyQualifiedName (morph, pos, comparedToPos)) := by
  unfold morphemeConfidenceAtPosition
  refine (validStats_takes db).bind_const ?_
  refine (weightForMorphemeAtPos_takes db _ _ _).bind (m := 1) (g := fun pos1 fails =>
    confidenceBetween pos1 (readWeight (fails 0)
      (weightIn (rowsAt db site.callDecl.fullyQualifiedName comparedToPos) morph))) fun pos1 => ?_
  refine (weightForMorphemeAtPos_takes db _ _ _).bind_pure (g := confidenceBetween pos1)
    fun pos2 => ?_
  cases pos1 <;> cases pos2 <;> rfl

theorem morphemeConfidenceAtPosition_steady (db : List (Row F)) (site : CallSite)
    (morph : ByteString) (pos comparedToPos : Nat) :
    Steady (morphemeConfidenceAtPosition site morph pos comparedToPos) (ready (some db))
      (.ok (confidenceIn (rowsAt db site.callDecl.fullyQualifiedName pos)
        (rowsAt db site.callDecl.fullyQualifiedName comparedToPos) morph)) :=
  (morphemeConfidenceAtPosition_takes db site morph pos comparedToPos).steady noFailure rfl

theorem fit_steady (db : List (Row F)) (morph : ByteString) (site : CallSite) (argPos : Nat) :
    Steady (fit morph site argPos) (ready (some db))
      (.ok (fitIn (rowsAt db site.callDecl.fullyQualifiedName argPos) morph)) := by
  unfold fit fitIn
  refine (validStats_steady db).bind_ok ?_
  refine (morphemesAndWeightsAtPos_steady db _ _).bind_ok ?_
  cases hrows : rowsAt db site.callDecl.fullyQualifiedName argPos with
  | nil => exact Steady.pure _
  | cons r rows =>
    simp only [List.foldl_map]
    exact Steady.pure _

end SwapDetector.Proofs.Lookups
