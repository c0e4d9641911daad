import SwapDetector.Base.KeyedTables
import SwapDetector.Spec.Tables
import Mathlib.Algebra.Order.BigOperators.Group.List
import Mathlib.Tactic.Linarith
import Mathlib.Tactic.FieldSimp

/-! # Lookups in exact tables

At one position of a table within the schema a morpheme has at most one row, and the
fit of a morpheme is the weight of its row; what fits well there has a high confidence
against any other position. In a normalised table two morphemes of a position share a
total weight of 1, so that what fits well at one position has a low confidence where
something else fits well.
-/
namespace SwapDetector.Proofs.NormalisedTables
open SwapDetector.Base.ExactFloat SwapDetector.Base.ExactFloat.XRat SwapDetector.Base.KeyedTables
open SwapDetector.Model.Bytes SwapDetector.Model.Types SwapDetector.Model.StatsDatabase
open SwapDetector.Model.SwappedArgChecker SwapDetector.Spec.Judgement SwapDetector.Spec.Tables

/-! ## The rows of a position -/

/-- The rows of a function at a position, with rational weights. -/
def ratRowsAt (db : List (Row ℚ)) (func : ByteString) (pos : Nat) : List (Row ℚ) :=
  db.filter fun r => r.func = cStr func ∧ r.arg = pos

theorem rowsAt_exactRows (db : List (Row ℚ)) (func : ByteString) (pos : Nat) :
    rowsAt (exactRows db) func pos = exactRows (ratRowsAt db func pos) := by
  unfold rowsAt exactRows ratRowsAt
  rw [List.filter_map]
  rfl

/-- The morphemes of the rows of a position are as unique as the keys of the table. -/
theorem nodup_morphemes {db : List (Row ℚ)}
    (h : (db.map fun r => (r.func, r.arg, r.morpheme)).Nodup) (func : ByteString) (pos : Nat) :
    ((ratRowsAt db func pos).map Row.morpheme).Nodup := by
  have hkeys : (ratRowsAt db func pos).map (fun r => (r.func, r.arg, r.morpheme)) =
      ((ratRowsAt db func pos).map Row.morpheme).map fun m => (cStr func, pos, m) := by
    rw [List.map_map]
    refine List.map_congr_left fun r hr => ?_
    have hkey : r.func = cStr func ∧ r.arg = pos := by simpa using (List.mem_filter.mp hr).2
    rw [hkey.1, hkey.2]
    rfl
  have hsub : (ratRowsAt db func pos).Sublist db := List.filter_sublist
  have hnodup := (hsub.map fun r => (r.func, r.arg, r.morpheme)).nodup h
  rw [hkeys] at hnodup
  exact hnodup.of_map _

/-! ## The weight of a morpheme -/

/-- The text of the morpheme of a row. -/
def text (r : Row ℚ) : ByteString := r.morpheme.val

/-- The weight stored for a morpheme among the rows of a position. -/
def storedIn (rows : List (Row ℚ)) (morph : ByteString) : Option ℚ :=
  (lookup text rows morph).map Row.value

theorem storedWeight_eq (db : List (Row ℚ)) (func : ByteString) (pos : Nat) (morph : ByteString) :
    storedWeight db func pos morph = storedIn (ratRowsAt db func pos) morph := by
  unfold storedWeight storedIn lookup ratRowsAt text
  rw [List.find?_filter]
  simp [and_assoc]

section Position
variable {rows : List (Row ℚ)} {r s : Row ℚ} {morph : ByteString} {w : ℚ}

theorem exists_row_of_stored (h : storedIn rows morph = some w) :
    ∃ r ∈ rows, text r = morph ∧ r.value = w := by
  obtain ⟨r, hr, hw⟩ := Option.map_eq_some_iff.mp h
  exact ⟨r, (mem_of_lookup hr).1, (mem_of_lookup hr).2, hw⟩

/-- The morpheme of a row is read back as it is. -/
theorem cStr_text (r : Row ℚ) : cStr (text r) = r.morpheme :=
  Subtype.ext (cStr_of_nulFree r.morpheme.property)

theorem weightIn_exactRows (rows : List (Row ℚ)) (morph : ByteString) :
    weightIn (exactRows rows) morph =
      (rows.find? fun r => r.morpheme = cStr morph).map fun r => .fin r.value := by
  unfold weightIn exactRows
  rw [List.find?_map, Option.map_map]
  rfl

theorem exists_row_of_weightIn {v : XRat} (h : weightIn (exactRows rows) morph = some v) :
    ∃ r ∈ rows, r.morpheme = cStr morph ∧ v = .fin r.value := by
  rw [weightIn_exactRows] at h
  obtain ⟨r, hr, rfl⟩ := Option.map_eq_some_iff.mp h
  exact ⟨r, List.mem_of_find?_eq_some hr, by simpa using List.find?_some hr, rfl⟩

/-- The lookup of one weight finds a morpheme that is stored. -/
theorem weightIn_of_stored (h : storedIn rows morph = some w) :
    weightIn (exactRows rows) morph = some (.fin w) := by
  obtain ⟨r, hr, rfl⟩ := Option.map_eq_some_iff.mp h
  have hmorph := (mem_of_lookup hr).2
  have hkey : (fun s : Row ℚ => decide (s.morpheme = cStr morph)) =
      fun s : Row ℚ => decide (text s = morph) := by
    funext s
    rw [← hmorph, cStr_text]
    exact decide_eq_decide.mpr Subtype.ext_iff
  rw [weightIn_exactRows, hkey]
  show (lookup text rows morph).map _ = _
  rw [hr]
  rfl

/-- The fit of a morpheme adds up the weights of the rows with that morpheme. -/
theorem foldl_fit (rows : List (Row ℚ)) (morph : ByteString) (q : ℚ) :
    (exactRows rows).foldl (fun ret r => ret + similarity morph r.morpheme.val * r.value) (.fin q) =
      .fin (q + (rows.map fun r => if text r = morph then r.value else 0).sum) := by
  induction rows generalizing q with
  | nil => simp [exactRows]
  | cons r rows ih =>
    have hterm : (similarity morph r.morpheme.val * XRat.fin r.value : XRat) =
        .fin (if text r = morph then r.value else 0) := by
      unfold similarity text
      by_cases hmorph : r.morpheme.val = morph
      · rw [if_pos hmorph.symm, if_pos hmorph, ofRat_eq, fin_mul_fin, one_mul]
      · rw [if_neg (Ne.symm hmorph), if_neg hmorph, ofRat_eq, fin_mul_fin, zero_mul]
    have hstep := ih (q + if text r = morph then r.value else 0)
    rw [List.map_cons, List.sum_cons, ← add_assoc, ← hstep]
    show List.foldl _ (.fin q + similarity morph r.morpheme.val * XRat.fin r.value) (exactRows rows) = _
    rw [hterm, fin_add_fin]

/-- The fit of a morpheme is its stored weight, and 0 without one. -/
theorem fitIn_eq (h : (rows.map Row.morpheme).Nodup) (morph : ByteString) :
    fitIn (exactRows rows) morph = .fin ((storedIn rows morph).getD 0) := by
  have htext : (rows.map text).Nodup := by
    have hmap : rows.map text = (rows.map Row.morpheme).map Subtype.val := by
      rw [List.map_map]
      rfl
    rw [hmap]
    exact h.map Subtype.val_injective
  unfold fitIn
  rw [ofRat_eq, foldl_fit, zero_add, sum_eq_lookup Row.value htext]
  rfl

/-- What fits better than not at all has a stored weight. -/
theorem fitIn_gt_iff (h : (rows.map Row.morpheme).Nodup) {t : XRat} (ht : .fin 0 ≤ t) :
    fitIn (exactRows rows) morph > t ↔ ∃ w, storedIn rows morph = some w ∧ .fin w > t := by
  rw [fitIn_eq h]
  cases storedIn rows morph with
  | none => simpa using ((le_def _ _).mp ht).2.2
  | some w => simp

end Position

/-! ## Tables within the schema -/

/-- The rows of one position of a table within the schema. -/
structure SchemaAt (rows : List (Row ℚ)) : Prop where
  unique : (rows.map Row.morpheme).Nodup
  nonneg : ∀ r ∈ rows, 0 ≤ r.value
  atMostOne : ∀ r ∈ rows, r.value ≤ 1

theorem WithinSchema.at {db : List (Row ℚ)} (h : WithinSchema db) (func : ByteString) (pos : Nat) :
    SchemaAt (ratRowsAt db func pos) where
  unique := nodup_morphemes h.unique func pos
  nonneg := fun r hr => (h.range r (List.mem_of_mem_filter hr)).1
  atMostOne := fun r hr => (h.range r (List.mem_of_mem_filter hr)).2

/-- The lookup of one weight finds the row of the morpheme. -/
theorem SchemaAt.weightIn_eq_some_iff {rows : List (Row ℚ)} (h : SchemaAt rows) {morph : ByteString}
    {v : XRat} : weightIn (exactRows rows) morph = some v ↔
      ∃ r ∈ rows, r.morpheme = cStr morph ∧ v = .fin r.value := by
  constructor
  · exact exists_row_of_weightIn
  · intro hrow
    obtain ⟨r, hr, hmorph, rfl⟩ := hrow
    have hfind : lookup Row.morpheme rows (cStr morph) = some r :=
      (lookup_eq_some_iff h.unique).mpr ⟨hr, hmorph⟩
    rw [weightIn_exactRows]
    show (lookup Row.morpheme rows (cStr morph)).map _ = _
    rw [hfind]
    rfl

/-- What fits here better than some threshold has a confidence against any other position
that is not below it. -/
theorem SchemaAt.confidence_gt {here there : List (Row ℚ)} {morph : ByteString} {w : ℚ} {t : XRat}
    (hthere : SchemaAt there) (hw : storedIn here morph = some w) (hpos : 0 < w)
    (ht : .fin w > t) (hone : .fin 1 > t) :
    ∃ v, confidenceIn (exactRows here) (exactRows there) morph = some v ∧ v > t := by
  unfold confidenceIn
  rw [weightIn_of_stored hw]
  cases hweight : weightIn (exactRows there) morph with
  | none => exact ⟨_, rfl, hone⟩
  | some v =>
    obtain ⟨s, hs, -, rfl⟩ := exists_row_of_weightIn hweight
    refine ⟨_, rfl, ?_⟩
    by_cases hzero : s.value = 0
    · rw [hzero, fin_div_zero hpos]
      exact XRat.lt_of_lt_of_le ht (XRat.le_of_lt (fin_lt_posInf w))
    · have hspos : 0 < s.value := lt_of_le_of_ne (hthere.nonneg s hs) (Ne.symm hzero)
      have hle : w ≤ w / s.value := by
        rw [le_div_iff₀ hspos]
        have hsone := hthere.atMostOne s hs
        nlinarith
      rw [fin_div_fin hzero]
      exact XRat.lt_of_lt_of_le ht ((fin_le_fin _ _).mpr hle)

/-! ## Normalised tables -/

/-- The rows of one position of a normalised table. -/
structure NormalisedAt (rows : List (Row ℚ)) : Prop where
  unique : (rows.map Row.morpheme).Nodup
  nonneg : ∀ r ∈ rows, 0 ≤ r.value
  total : (rows.map Row.value).sum ≤ 1

theorem Normalised.at {db : List (Row ℚ)} (h : Normalised db) (func : ByteString) (pos : Nat) :
    NormalisedAt (ratRowsAt db func pos) where
  unique := nodup_morphemes h.unique func pos
  nonneg := fun r hr => h.nonneg r (List.mem_of_mem_filter hr)
  total := h.total (cStr func) pos

section Normalised
variable {rows : List (Row ℚ)} {r s : Row ℚ} {morph : ByteString}

theorem NormalisedAt.schemaAt (h : NormalisedAt rows) : SchemaAt rows := by
  refine ⟨h.unique, h.nonneg, fun r hr => ?_⟩
  have hsingle : r.value ≤ (rows.map Row.value).sum := by
    refine List.single_le_sum (fun v hv => ?_) _ (List.mem_map_of_mem hr)
    obtain ⟨s, hs, rfl⟩ := List.mem_map.mp hv
    exact h.nonneg s hs
  exact hsingle.trans h.total

theorem NormalisedAt.add_le_one (h : NormalisedAt rows) (hr : r ∈ rows) (hs : s ∈ rows)
    (hne : r ≠ s) : r.value + s.value ≤ 1 := by
  have hperm := List.perm_cons_erase hr
  have hs' : s ∈ rows.erase r := (List.mem_erase_of_ne hne.symm).mpr hs
  have hsum : (rows.map Row.value).sum = r.value + ((rows.erase r).map Row.value).sum := by
    rw [(hperm.map Row.value).sum_eq, List.map_cons, List.sum_cons]
  have hsingle : s.value ≤ ((rows.erase r).map Row.value).sum := by
    refine List.single_le_sum (fun v hv => ?_) _ (List.mem_map_of_mem hs')
    obtain ⟨t, ht, rfl⟩ := List.mem_map.mp hv
    exact h.nonneg t (List.mem_of_mem_erase ht)
  have htotal := h.total
  linarith

/-- What fits well at a position has a large stored weight there. -/
theorem NormalisedAt.stored_of_fit (h : NormalisedAt rows)
    (hfit : fitIn (exactRows rows) morph > .fin (3 / 4)) :
    ∃ w, storedIn rows morph = some w ∧ 3 / 4 < w := by
  obtain ⟨w, hw, hgt⟩ := (fitIn_gt_iff h.unique ((fin_le_fin _ _).mpr (by norm_num))).mp hfit
  exact ⟨w, hw, (fin_lt_fin _ _).mp hgt⟩

/-- Two morphemes cannot both fit well at a position. -/
theorem NormalisedAt.eq_of_fits (h : NormalisedAt rows) {morph' : ByteString}
    (hfit : fitIn (exactRows rows) morph > .fin (3 / 4))
    (hfit' : fitIn (exactRows rows) morph' > .fin (3 / 4)) : morph = morph' := by
  obtain ⟨w, hw, hlarge⟩ := h.stored_of_fit hfit
  obtain ⟨w', hw', hlarge'⟩ := h.stored_of_fit hfit'
  obtain ⟨r, hr, hmorph, hvalue⟩ := exists_row_of_stored hw
  obtain ⟨s, hs, hmorph', hvalue'⟩ := exists_row_of_stored hw'
  by_cases heq : r = s
  · rw [← hmorph, ← hmorph', heq]
  · have hsum := h.add_le_one hr hs heq
    linarith

end Normalised

/-! ## Two positions -/

section Confidence
variable {here there : List (Row ℚ)} {morph other : ByteString}

/-- What fits well here has a high confidence against any other position. -/
theorem confidence_of_fit (hhere : NormalisedAt here) (hthere : NormalisedAt there)
    (hfit : fitIn (exactRows here) morph > .fin (3 / 4)) :
    ∃ v, confidenceIn (exactRows here) (exactRows there) morph = some v ∧ v > .fin (3 / 4) := by
  obtain ⟨w, hw, hlarge⟩ := hhere.stored_of_fit hfit
  refine hthere.schemaAt.confidence_gt hw (by linarith) ((fin_lt_fin _ _).mpr hlarge) ?_
  rw [gt_iff_lt, fin_lt_fin]
  norm_num

/-- What fits well there, while something else fits well here, has a low confidence
here. -/
theorem confidence_of_other_fit (hhere : NormalisedAt here) (hthere : NormalisedAt there)
    (hne : morph ≠ other) (hfit : fitIn (exactRows there) morph > .fin (3 / 4))
    (hother : fitIn (exactRows here) other > .fin (3 / 4)) :
    ∃ v, confidenceIn (exactRows here) (exactRows there) morph = some v ∧ ¬ v > .fin (3 / 4) := by
  obtain ⟨w, hw, hlarge⟩ := hthere.stored_of_fit hfit
  obtain ⟨u, hu, hularge⟩ := hhere.stored_of_fit hother
  obtain ⟨r, -, hmorph, -⟩ := exists_row_of_stored hw
  obtain ⟨s, hs, hsmorph, hsvalue⟩ := exists_row_of_stored hu
  unfold confidenceIn
  rw [weightIn_of_stored hw]
  cases hweight : weightIn (exactRows here) morph with
  | none =>
    refine ⟨_, rfl, ?_⟩
    rw [ofRat_eq, gt_iff_lt, fin_lt_fin]
    norm_num
  | some v =>
    obtain ⟨t, ht, htmorph, rfl⟩ := exists_row_of_weightIn hweight
    refine ⟨_, rfl, ?_⟩
    -- the row of the morpheme here is another row than the one that fits well
    have hts : t ≠ s := by
      intro heq
      rw [← hmorph, cStr_text] at htmorph
      apply hne
      rw [← hmorph, ← hsmorph, ← heq, text, text, htmorph]
    have hsum := hhere.add_le_one ht hs hts
    rw [fin_div_fin (by linarith), gt_iff_lt, fin_lt_fin, not_lt, div_le_iff₀ (by linarith)]
    linarith

end Confidence

end SwapDetector.Proofs.NormalisedTables
