import SwapDetector.Model.Bytes
import Mathlib.Data.Finset.Insert

/-! # Splitting identifiers into morphemes (IdentifierSplitting.cpp)

Pointers into the identifier are offsets from its first byte. `splitLoop` runs
over the bytes from `curLoc` on; the two pieces of state it carries are the start
of the current word and whether the previous byte was a lowercase letter.
-/
namespace SwapDetector.Model.IdentifierSplitting
open SwapDetector.Model.Bytes

/-- The bytes at the offsets from `a` up to, and without, `b`. -/
def slice (s : ByteString) (a b : Nat) : ByteString := (s.drop a).take (b - a)

def lowercase (str : ByteString) : ByteString := str.map fun c => intToChar (tolower (ucharToInt c))

def lower (input : ByteString) (wordStart wordEnd : Nat) : ByteString :=
  lowercase (slice input wordStart wordEnd)

/-- `'_'` -/
def underscore : Byte := 95

def splitLoop (input : ByteString) :
    ByteString → Nat → Nat → Bool → Finset ByteString → Finset ByteString
  | [], _, wordStart, _, ret =>
    -- the last part of the string, if any
    if wordStart ≠ input.length then insert (lower input wordStart input.length) ret else ret
  | c :: rest, curLoc, wordStart, prevCharWasLower, ret =>
    if c = underscore then
      let ret := if wordStart ≠ curLoc then insert (lower input wordStart curLoc) ret else ret
      splitLoop input rest (curLoc + 1) (curLoc + 1) (islower (charToInt c)) ret
    else if isupper (charToInt c) && prevCharWasLower then
      let ret := insert (lower input wordStart curLoc) ret
      splitLoop input rest (curLoc + 1) curLoc (islower (charToInt c)) ret
    else
      splitLoop input rest (curLoc + 1) wordStart (islower (charToInt c)) ret

/-- The scan starts with a look at the first byte, which is the terminating NUL
when the identifier is empty. -/
def split (input : ByteString) : Finset ByteString :=
  splitLoop input input 0 0 (islower (charToInt (input.headD 0))) ∅

example : split (bytes "foo_barBaz_bar") = {bytes "foo", bytes "bar", bytes "baz"} := by decide

@[simp] theorem split_nil : split [] = ∅ := rfl

/-- A byte at which no word can end. -/
def InWord (c : Byte) : Prop := c ≠ underscore ∧ isupper (charToInt c) = false

theorem splitLoop_inWord (input rest : ByteString) (curLoc wordStart : Nat) (prev : Bool)
    (ret : Finset ByteString) (h : ∀ c ∈ rest, InWord c) :
    splitLoop input rest curLoc wordStart prev ret =
      if wordStart ≠ input.length then insert (lower input wordStart input.length) ret else ret := by
  induction rest generalizing curLoc prev with
  | nil => rfl
  | cons c rest ih =>
    obtain ⟨hne, hup⟩ := h c (by simp)
    rw [splitLoop, if_neg hne, hup, Bool.false_and, if_neg Bool.false_ne_true]
    exact ih _ _ fun c' hc' => h c' (by simp [hc'])

/-- An identifier without separators and uppercase letters is one morpheme. -/
theorem split_inWord {s : ByteString} (hs : s ≠ []) (h : ∀ c ∈ s, InWord c) :
    split s = {lowercase s} := by
  rw [split, splitLoop_inWord _ _ _ _ _ _ h, if_pos]
  · simp [lower, slice]
  · intro h0
    exact hs (List.length_eq_zero_iff.mp h0.symm)

@[simp] theorem lowercase_eq_nil {s : ByteString} : lowercase s = [] ↔ s = [] := List.map_eq_nil_iff

end SwapDetector.Model.IdentifierSplitting
