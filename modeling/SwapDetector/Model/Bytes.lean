import Mathlib.Algebra.GroupWithZero.Nat
import Mathlib.Data.List.Lex
import Mathlib.Data.List.TakeWhile
import Mathlib.Order.Fin.Basic

/-! # Byte strings and character classification

A `std::string` is a list of bytes, ordered byte by byte as unsigned values. The
functions of `<cctype>` take an `int`: a plain `char` is signed and is
sign-extended on the way, an `unsigned char` is not. They are those of the C
locale.
-/
namespace SwapDetector.Model.Bytes

abbrev Byte := Fin 256

/-- For the numerals of bytes. -/
instance neZeroByte : NeZero (256 : Nat) := ⟨Nat.succ_ne_zero 255⟩

abbrev ByteString := List Byte

/-- The bytes of an ASCII literal. -/
def bytes (s : String) : ByteString := s.toList.map fun c => Fin.ofNat 256 c.toNat

/-! ## Conversions -/

/-- A plain `char` passed as an `int`. -/
def charToInt (c : Byte) : Int := if c.val < 128 then c.val else c.val - 256

/-- An `unsigned char` passed as an `int`. -/
def ucharToInt (c : Byte) : Int := c.val

/-- An `int` stored into a `char`. -/
def intToChar (i : Int) : Byte := Fin.ofNat 256 (i % 256).toNat

/-! ## Classification in the C locale -/

def islower (c : Int) : Bool := 97 ≤ c ∧ c ≤ 122

def isupper (c : Int) : Bool := 65 ≤ c ∧ c ≤ 90

def isdigit (c : Int) : Bool := 48 ≤ c ∧ c ≤ 57

def tolower (c : Int) : Int := if isupper c then c + 32 else c

/-! ## C strings -/

/-- A byte string that a `const char*` can carry: it has no NUL. Values of type
TEXT are handed to and fro in this form. -/
abbrev CString := { s : ByteString // (0 : Byte) ∉ s }

/-- What a C function reads through `s.c_str()`: the bytes before the first NUL. -/
def cStr (s : ByteString) : CString :=
  ⟨s.takeWhile (· ≠ 0), fun h => by simpa using List.mem_takeWhile_imp h⟩

theorem cStr_of_nulFree {s : ByteString} (h : (0 : Byte) ∉ s) : (cStr s).val = s := by
  refine List.takeWhile_eq_self_iff.mpr fun c hc => ?_
  have hne : c ≠ 0 := fun h0 => h (h0 ▸ hc)
  simpa using hne

end SwapDetector.Model.Bytes
