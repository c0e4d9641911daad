import Mathlib.Data.Finset.Insert
import Mathlib.Data.Finset.Lattice.Basic

/-! # The morphemes of a text

What the splitter is for, on characters instead of bytes: the words of a name between
underscores and transitions from lowercase to uppercase letters, in lowercase. Letters are
those of the English alphabet; every other character belongs to the word it stands in.
-/
namespace SwapDetector.Spec.Text

/-- The morpheme of a word that has ended, if there is one. -/
def close (word : List Char) : Finset (List Char) :=
  if word = [] then ∅ else {word.map Char.toLower}

/-- The morphemes of the words that end in the rest of a text. -/
def morphemesFrom : List Char → List Char → Bool → Finset (List Char)
  | [], word, _ => close word
  | c :: rest, word, afterLower =>
    if c = '_' then close word ∪ morphemesFrom rest [] false
    else if c.isUpper && afterLower then close word ∪ morphemesFrom rest [c] false
    else morphemesFrom rest (word ++ [c]) c.isLower

def morphemes (text : List Char) : Finset (List Char) := morphemesFrom text [] false

example : morphemes "größeÄndern_ŁódźFoo".toList =
    {"größeÄndern".toList, "Łódźfoo".toList} := by decide

end SwapDetector.Spec.Text
