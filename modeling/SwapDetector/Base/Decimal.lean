import Mathlib.Logic.Function.Basic

/-! # Decimal numerals

Natural numbers in decimal, as lists of bytes.
-/
namespace SwapDetector.Base.Decimal

/-- The decimal digits of a number. -/
def decimal (n : Nat) : List (Fin 256) := (Nat.toDigits 10 n).map fun c => Fin.ofNat 256 c.toNat

def IsDigit (b : Fin 256) : Prop := 48 ≤ b.val ∧ b.val ≤ 57

instance (b : Fin 256) : Decidable (IsDigit b) := inferInstanceAs (Decidable (_ ∧ _))

/-- The number that some digits stand for. -/
def numeral (ds : List (Fin 256)) : Nat := ds.foldl (fun acc d => 10 * acc + (d.val - 48)) 0

theorem toNat_digit {n : Nat} {c : Char} (hc : c ∈ Nat.toDigits 10 n) :
    48 ≤ c.toNat ∧ c.toNat ≤ 57 :=
  Char.isDigit_iff_toNat.mp (Nat.isDigit_of_mem_toDigits (by decide) (by decide) hc)

theorem isDigit_of_mem_decimal {n : Nat} {b : Fin 256} (hb : b ∈ decimal n) : IsDigit b := by
  obtain ⟨c, hc, rfl⟩ := List.mem_map.mp hb
  have hdigit := toNat_digit hc
  have hval : (Fin.ofNat 256 c.toNat).val = c.toNat := Nat.mod_eq_of_lt (by omega)
  rw [IsDigit, hval]
  exact hdigit

theorem decimal_ne_nil (n : Nat) : decimal n ≠ [] := by
  intro h
  exact Nat.toDigits_ne_nil (List.map_eq_nil_iff.mp h)

@[simp] theorem numeral_decimal (n : Nat) : numeral (decimal n) = n := by
  have hfold (cs : List Char) (hcs : ∀ c ∈ cs, 48 ≤ c.toNat ∧ c.toNat ≤ 57) (acc : Nat) :
      (cs.map fun c => (Fin.ofNat 256 c.toNat : Fin 256)).foldl
        (fun acc d => 10 * acc + (d.val - 48)) acc = Nat.ofDigitChars 10 cs acc := by
    induction cs generalizing acc with
    | nil => rw [List.map_nil, List.foldl_nil, Nat.ofDigitChars_nil]
    | cons c cs ih =>
      have hdigit := hcs c (List.mem_cons_self ..)
      have hval : (Fin.ofNat 256 c.toNat).val = c.toNat := Nat.mod_eq_of_lt (by omega)
      rw [List.map_cons, List.foldl_cons, hval, Nat.ofDigitChars_cons]
      exact ih (fun d hd => hcs d (List.mem_cons_of_mem c hd)) _
  rw [numeral, decimal, hfold _ fun c hc => toNat_digit hc]
  exact Nat.ofDigitChars_ten_toDigits

theorem decimal_injective : Function.Injective decimal := by
  intro m n h
  have hnumeral : numeral (decimal m) = numeral (decimal n) := congrArg numeral h
  simpa using hnumeral

end SwapDetector.Base.Decimal
