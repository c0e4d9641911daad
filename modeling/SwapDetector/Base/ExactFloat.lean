import Mathlib.Algebra.Order.Field.Rat
import Mathlib.Tactic.Linarith

/-! # Floating-point arithmetic, abstractly and without rounding

`FloatArith` lists the operations a program uses on its `float` values, so a
model can be written once for every reading of them. `XRat` is the exact
reading: rational numbers with the special values of IEEE 754 (a quotient by
zero is infinite or NaN, and NaN fails every comparison).
-/
namespace SwapDetector.Base.ExactFloat

/-- The operations a program uses on its floating-point values. -/
class FloatArith (F : Type) extends Add F, Mul F, Div F where
  /-- The value of a literal, or of a number converted from a wider format. -/
  ofRat : ℚ → F
  ltb : F → F → Bool
  leb : F → F → Bool

section Comparisons
variable {F : Type} [FloatArith F]

instance instLT : LT F := ⟨fun a b => FloatArith.ltb a b = true⟩

instance instLE : LE F := ⟨fun a b => FloatArith.leb a b = true⟩

instance decidableLT : DecidableLT F := fun a b => inferInstanceAs (Decidable (FloatArith.ltb a b = true))

instance decidableLE : DecidableLE F := fun a b => inferInstanceAs (Decidable (FloatArith.leb a b = true))

/-- `std::max`: the first argument unless it compares below the second. -/
def stdMax (a b : F) : F := if a < b then b else a

/-- `std::min`: the first argument unless the second compares below it. -/
def stdMin (a b : F) : F := if b < a then b else a

/-- A running maximum that starts at zero with the first value that is present. -/
def keepMax (acc val : Option F) : Option F :=
  match val with
  | some val => some (stdMax (acc.getD (FloatArith.ofRat 0)) val)
  | none => acc

end Comparisons

/-- Rational numbers with the special values of IEEE 754. -/
inductive XRat where
  | nan
  | negInf
  | fin (q : ℚ)
  | posInf
  deriving DecidableEq

namespace XRat

/-- `<`, which fails on NaN. -/
def ltb : XRat → XRat → Bool
  | .nan, _ => false
  | _, .nan => false
  | .negInf, b => b != .negInf
  | .fin _, .negInf => false
  | .fin a, .fin b => decide (a < b)
  | .fin _, .posInf => true
  | .posInf, _ => false

/-- `<=`, which fails on NaN. -/
def leb (a b : XRat) : Bool := a != .nan && b != .nan && !ltb b a

def add : XRat → XRat → XRat
  | .nan, _ => .nan
  | _, .nan => .nan
  | .fin a, .fin b => .fin (a + b)
  | .posInf, .negInf => .nan
  | .negInf, .posInf => .nan
  | .posInf, _ => .posInf
  | _, .posInf => .posInf
  | .negInf, _ => .negInf
  | _, .negInf => .negInf

/-- An infinity with the sign of `q`, and `z` when `q` has none. -/
def infSigned (q : ℚ) (z : XRat) : XRat :=
  if 0 < q then .posInf else if q < 0 then .negInf else z

/-- The sign of a value as a number, 0 for NaN. -/
def sign : XRat → ℚ
  | .nan => 0
  | .negInf => -1
  | .fin q => q
  | .posInf => 1

def mul : XRat → XRat → XRat
  | .nan, _ => .nan
  | _, .nan => .nan
  | .fin a, .fin b => .fin (a * b)
  | a, b => infSigned (sign a * sign b) .nan

/-- A quotient by zero is an infinity with the sign of the dividend, and NaN
for a zero dividend; a finite value divided by an infinity is zero. -/
def div : XRat → XRat → XRat
  | .nan, _ => .nan
  | _, .nan => .nan
  | .fin a, .fin b => if b = 0 then infSigned a .nan else .fin (a / b)
  | .fin _, _ => .fin 0
  | a, .fin b => if b = 0 then a else infSigned (sign a * b) .nan
  | _, _ => .nan

instance : FloatArith XRat where
  add := add
  mul := mul
  div := div
  ofRat := .fin
  ltb := ltb
  leb := leb

theorem lt_def (a b : XRat) : a < b ↔ ltb a b = true := Iff.rfl

theorem le_def (a b : XRat) : a ≤ b ↔ a ≠ .nan ∧ b ≠ .nan ∧ ¬ b < a := by
  show leb a b = true ↔ _
  simp [leb, lt_def, and_assoc]

@[simp] theorem ofRat_eq (q : ℚ) : FloatArith.ofRat q = XRat.fin q := rfl

@[simp] theorem fin_lt_fin (a b : ℚ) : XRat.fin a < XRat.fin b ↔ a < b := by
  simp [lt_def, ltb]

@[simp] theorem fin_lt_posInf (a : ℚ) : XRat.fin a < XRat.posInf := by
  simp [lt_def, ltb]

@[simp] theorem lt_nan (a : XRat) : ¬ a < XRat.nan := by
  cases a <;> simp [lt_def, ltb]

@[simp] theorem fin_add_fin (a b : ℚ) : XRat.fin a + XRat.fin b = XRat.fin (a + b) := rfl

@[simp] theorem fin_mul_fin (a b : ℚ) : XRat.fin a * XRat.fin b = XRat.fin (a * b) := rfl

theorem fin_div_fin {a b : ℚ} (hb : b ≠ 0) : XRat.fin a / XRat.fin b = XRat.fin (a / b) := by
  show div _ _ = _
  simp [div, hb]

theorem fin_div_zero {a : ℚ} (ha : 0 < a) : XRat.fin a / XRat.fin 0 = XRat.posInf := by
  show div _ _ = _
  simp [div, infSigned, ha]

protected theorem lt_of_le_of_lt {a b c : XRat} (hab : a ≤ b) (hbc : b < c) : a < c := by
  rw [le_def] at hab
  obtain ⟨ha, hb, hba⟩ := hab
  cases a <;> cases b <;> cases c <;> simp_all [lt_def, ltb]
  linarith

protected theorem lt_of_lt_of_le {a b c : XRat} (hab : a < b) (hbc : b ≤ c) : a < c := by
  rw [le_def] at hbc
  obtain ⟨hb, hc, hcb⟩ := hbc
  cases a <;> cases b <;> cases c <;> simp_all [lt_def, ltb]
  linarith

protected theorem le_trans {a b c : XRat} (hab : a ≤ b) (hbc : b ≤ c) : a ≤ c := by
  have ha := ((le_def a b).mp hab).1
  have hc := ((le_def b c).mp hbc).2.1
  refine (le_def a c).mpr ⟨ha, hc, fun hca => ?_⟩
  exact ((le_def a b).mp hab).2.2 (XRat.lt_of_le_of_lt hbc hca)

protected theorem le_of_lt {a b : XRat} (h : a < b) : a ≤ b := by
  rw [le_def]
  cases a <;> cases b <;> simp_all [lt_def, ltb]
  linarith

@[simp] theorem fin_le_fin (a b : ℚ) : XRat.fin a ≤ XRat.fin b ↔ a ≤ b := by
  simp [le_def]

theorem ne_nan_of_le {a b : XRat} (h : a ≤ b) : a ≠ .nan ∧ b ≠ .nan :=
  ⟨((le_def a b).mp h).1, ((le_def a b).mp h).2.1⟩

theorem le_stdMax {a b c : XRat} (h : c ≤ a) : c ≤ stdMax a b := by
  unfold stdMax
  by_cases hab : a < b
  · rw [if_pos hab]
    exact XRat.le_of_lt (XRat.lt_of_le_of_lt h hab)
  · rwa [if_neg hab]

/-- A maximum with a number exceeds what one of its arguments exceeds. -/
theorem stdMax_gt_iff {a b t : XRat} (ha : a ≠ .nan) : stdMax a b > t ↔ a > t ∨ b > t := by
  unfold stdMax
  by_cases hab : a < b
  · rw [if_pos hab]
    refine ⟨.inr, fun h => ?_⟩
    rcases h with hta | htb
    · exact XRat.lt_of_lt_of_le hta (XRat.le_of_lt hab)
    · exact htb
  · rw [if_neg hab]
    refine ⟨.inl, fun h => ?_⟩
    rcases h with hta | htb
    · exact hta
    · have hb : b ≠ .nan := fun hnan => lt_nan _ (hnan ▸ htb)
      exact XRat.lt_of_lt_of_le htb ((le_def b a).mpr ⟨hb, ha, hab⟩)

/-- The running maximum of values, some of which may be absent or NaN, exceeds a bound
when one of the values does; a negative bound is exceeded by any value. -/
theorem foldl_keepMax_gt (vals : List (Option XRat)) (t : XRat) :
    ∀ acc : Option XRat, (∀ a, acc = some a → .fin 0 ≤ a) →
      ((vals.foldl keepMax acc).any (· > t) = true ↔
        acc.any (· > t) = true ∨ ∃ v, some v ∈ vals ∧ (v > t ∨ .fin 0 > t)) := by
  induction vals with
  | nil => simp
  | cons val vals ih =>
    intro acc hacc
    rw [List.foldl_cons]
    cases val with
    | none =>
      rw [keepMax, ih acc hacc]
      simp
    | some v =>
      have hzero : .fin 0 ≤ acc.getD (.fin 0) := by
        cases acc with
        | none => simp
        | some a => exact hacc a rfl
      have hstart : acc.getD (.fin 0) > t ↔ acc.any (· > t) = true ∨ .fin 0 > t := by
        cases acc with
        | none => simp
        | some a =>
          have hgt : .fin 0 > t → a > t := fun h => XRat.lt_of_lt_of_le h (hacc a rfl)
          simpa using hgt
      have hfirst : (keepMax acc (some v)).any (· > t) = true ↔
          acc.any (· > t) = true ∨ v > t ∨ .fin 0 > t := by
        rw [keepMax, Option.any_some, decide_eq_true_iff, ofRat_eq,
          stdMax_gt_iff (ne_nan_of_le hzero).2, hstart]
        tauto
      have hnext : ∀ a, keepMax acc (some v) = some a → .fin 0 ≤ a :=
        fun a ha => Option.some.inj ha ▸ le_stdMax hzero
      rw [ih _ hnext, hfirst]
      simp only [List.mem_cons, Option.some.injEq, or_and_right, exists_or,
        exists_eq_left, or_assoc]

theorem stdMax_fin (a b : ℚ) : stdMax (XRat.fin a) (XRat.fin b) = XRat.fin (max a b) := by
  unfold stdMax
  simp only [fin_lt_fin]
  rcases lt_or_ge a b with h | h
  · rw [if_pos h, max_eq_right h.le]
  · rw [if_neg (not_lt.mpr h), max_eq_left h]

/-- Numbers from 0 to 1. -/
def InUnit (v : XRat) : Prop := ∃ q, v = .fin q ∧ 0 ≤ q ∧ q ≤ 1

theorem inUnit_fin {q : ℚ} : InUnit (.fin q) ↔ 0 ≤ q ∧ q ≤ 1 := by
  constructor
  · intro h
    obtain ⟨_, heq, hq⟩ := h
    cases heq
    exact hq
  · intro h
    exact ⟨q, rfl, h⟩

theorem not_inUnit_div_zero (a : ℚ) : ¬ InUnit (XRat.fin a / XRat.fin 0) := by
  have hdiv : XRat.fin a / XRat.fin 0 = infSigned a .nan := rfl
  intro h
  obtain ⟨q, hq, -⟩ := h
  rw [hdiv, infSigned] at hq
  split_ifs at hq

/-- The running maximum of numbers from 0 to 1 is one of them. -/
theorem foldl_keepMax_inUnit (vals : List (Option XRat)) (h : ∀ v, some v ∈ vals → InUnit v) :
    ∀ acc : Option XRat, (∀ a, acc = some a → InUnit a) →
      ∀ v, vals.foldl keepMax acc = some v → InUnit v := by
  induction vals with
  | nil => exact fun acc hacc => hacc
  | cons val vals ih =>
    intro acc hacc
    refine ih (fun v hv => h v (List.mem_cons_of_mem _ hv)) _ fun a ha => ?_
    cases val with
    | none => exact hacc a ha
    | some v =>
      obtain ⟨q, rfl, hq⟩ := h v List.mem_cons_self
      obtain ⟨p, hp, hpunit⟩ : InUnit (acc.getD (.fin 0)) := by
        cases acc with
        | none => exact inUnit_fin.mpr (by simp)
        | some a => exact hacc a rfl
      rw [keepMax, ofRat_eq, hp, stdMax_fin] at ha
      cases ha
      exact inUnit_fin.mpr ⟨le_max_of_le_left hpunit.1, max_le hpunit.2 hq.2⟩

/-- Between numbers, the minimum does not depend on the order of the arguments. -/
theorem stdMin_comm_fin (a b : ℚ) :
    stdMin (XRat.fin a) (XRat.fin b) = stdMin (XRat.fin b) (XRat.fin a) := by
  unfold stdMin
  simp only [fin_lt_fin]
  rcases lt_trichotomy a b with h | rfl | h
  · simp [h, not_lt.mpr h.le]
  · simp
  · simp [h, not_lt.mpr h.le]

end XRat

end SwapDetector.Base.ExactFloat
