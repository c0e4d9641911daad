import SwapDetector.Proofs.Splitting
import SwapDetector.Spec.Judgement
import Mathlib.Data.Finset.Union

/-! # Splitting names that are joined by underscores

An underscore ends the word in front of it and starts a new one behind it, so that the
splitter sees the two sides of it as if each stood alone. A morpheme has no place at
which it could be split again: splitting gives it back.
-/
namespace SwapDetector.Proofs.JoinedNames
open SwapDetector.Base.Segments SwapDetector.Model.Bytes SwapDetector.Model.IdentifierSplitting
open SwapDetector.Spec.Judgement SwapDetector.Proofs.Splitting

/-- The names with an underscore between any two neighbours. -/
def joined (names : List ByteString) : ByteString := [underscore].intercalate names

/-! ## Two names -/

theorem not_caseChange_of_underscore (d : Byte) : ¬ CaseChange underscore d :=
  not_caseChange_underscore underscore d rfl

section Two
variable (s t : ByteString) {a b : Nat}

/-- The words of a name in front of an underscore are written as in that name. -/
theorem lower_join_left (hab : a ≤ b) (hb : b ≤ s.length) :
    lower (s ++ underscore :: t) a b = lower s a b := by
  unfold lower slice
  rw [List.drop_append_of_le_length (hab.trans hb), List.take_append_of_le_length]
  rw [List.length_drop]
  omega

/-- The words of a name behind an underscore are written as in that name. -/
theorem lower_join_right :
    lower (s ++ underscore :: t) (s.length + 1 + a) (s.length + 1 + b) = lower t a b := by
  unfold lower slice
  have hdrop : (s ++ underscore :: t).drop (s.length + 1 + a) = t.drop a := by
    rw [← List.drop_drop, ← List.drop_drop, List.drop_left]
    rfl
  rw [hdrop, Nat.add_sub_add_left]

/-- An underscore puts the scan back to its start. -/
theorem split_join : split (s ++ underscore :: t) = split s ∪ split t := by
  ext m
  have hwords (a b : Nat) : IsWord (s ++ underscore :: t) a b ↔ (b ≤ s.length ∧ IsWord s a b) ∨
      ∃ a' b', (a = s.length + 1 + a' ∧ b = s.length + 1 + b') ∧ IsWord t a' b' :=
    isSegment_join_iff rfl not_caseChange_of_underscore
  rw [Finset.mem_union, split, split, split, mem_splitLoop_start, mem_splitLoop_start,
    mem_splitLoop_start]
  simp only [Finset.notMem_empty, false_or, hwords]
  constructor
  · intro h
    obtain ⟨a, b, hword, rfl⟩ := h
    rcases hword with ⟨hb, hword⟩ | ⟨a', b', ⟨rfl, rfl⟩, hword⟩
    · exact .inl ⟨a, b, hword, lower_join_left s t hword.lt.le hb⟩
    · exact .inr ⟨a', b', hword, lower_join_right s t⟩
  · intro h
    rcases h with ⟨a, b, hword, rfl⟩ | ⟨a, b, hword, rfl⟩
    · exact ⟨a, b, .inl ⟨hword.le, hword⟩, (lower_join_left s t hword.lt.le hword.le).symm⟩
    · exact ⟨_, _, .inr ⟨a, b, ⟨rfl, rfl⟩, hword⟩, (lower_join_right s t).symm⟩

end Two

/-! ## Lists of names -/

/-- The morphemes of joined names are those of the names. -/
theorem split_joined (names : List ByteString) :
    split (joined names) = names.toFinset.biUnion split := by
  unfold joined
  induction names with
  | nil => rfl
  | cons name rest ih =>
    cases rest with
    | nil => simp
    | cons next rest =>
      rw [List.intercalate_cons_cons, List.append_assoc, List.singleton_append, split_join, ih,
        List.toFinset_cons (l := next :: rest), Finset.biUnion_insert]

/-- The collector finds in an argument what the splitter finds in its joined components. -/
theorem argMorphemes_eq_split (arg : List ByteString) : argMorphemes arg = split (joined arg) := by
  have hfold (start : Finset ByteString) : arg.foldl (fun m component => m ∪ split component) start =
      start ∪ arg.toFinset.biUnion split := by
    induction arg generalizing start with
    | nil => simp
    | cons component rest ih =>
      rw [List.foldl_cons, ih, List.toFinset_cons, Finset.biUnion_insert, Finset.union_assoc]
  rw [split_joined, argMorphemes, hfold, Finset.empty_union]

/-! ## Morphemes -/

theorem inWord_lowercase : ∀ c : Byte, c ≠ underscore →
    InWord (intToChar (tolower (ucharToInt c))) := by
  unfold InWord
  decide +kernel

theorem lowercase_of_inWord : ∀ c : Byte, InWord c → intToChar (tolower (ucharToInt c)) = c := by
  unfold InWord
  decide +kernel

/-- A morpheme is not empty, and no word ends within it. -/
theorem morpheme_inWord {s m : ByteString} (hm : m ∈ split s) : m ≠ [] ∧ ∀ c ∈ m, InWord c := by
  rw [split, mem_splitLoop_start] at hm
  simp only [Finset.notMem_empty, false_or] at hm
  obtain ⟨a, b, hword, rfl⟩ := hm
  have hlt := hword.lt
  have hle := hword.le
  constructor
  · rw [lower, ne_eq, lowercase_eq_nil, ← List.length_eq_zero_iff]
    simp [slice]
    omega
  · intro c hc
    obtain ⟨d, hd, rfl⟩ := List.mem_map.mp hc
    obtain ⟨k, hk, rfl⟩ := List.mem_iff_getElem.mp hd
    have hkb : k < b - a := by simp [slice] at hk; omega
    have hget : (slice s a b)[k] = s[a + k] := by simp [slice]
    refine inWord_lowercase _ fun hunder => ?_
    refine hword.noSep (a + k) (by omega) (by omega) ⟨_, ?_, hunder⟩
    rw [hget]
    exact List.getElem?_eq_getElem (by omega)

/-- A morpheme is the one morpheme of itself. -/
theorem split_morpheme {s m : ByteString} (hm : m ∈ split s) : split m = {m} := by
  obtain ⟨hne, hinWord⟩ := morpheme_inWord hm
  have hlower : lowercase m = m := by
    unfold lowercase
    rw [List.map_congr_left fun c hc => lowercase_of_inWord c (hinWord c hc), List.map_id']
  rw [split_inWord hne hinWord, hlower]

/-- Joining the morphemes of a name, in any order, and splitting again gives them back. -/
theorem split_joined_morphemes {s : ByteString} {names : List ByteString}
    (hnames : names.toFinset = split s) : split (joined names) = split s := by
  rw [split_joined, hnames]
  ext m
  rw [Finset.mem_biUnion]
  constructor
  · intro h
    obtain ⟨name, hname, hm⟩ := h
    rw [split_morpheme hname, Finset.mem_singleton] at hm
    rwa [hm]
  · intro hm
    exact ⟨m, hm, by rw [split_morpheme hm, Finset.mem_singleton]⟩

/-- **Splitting** turns joining into union, and its values are canonical: a morpheme is
split into itself, and the morphemes of a name can be joined and split again. -/
theorem split_canonical (names : List ByteString) (s : ByteString) :
    split (joined names) = names.toFinset.biUnion split ∧
      (∀ m ∈ split s, split m = {m}) ∧
      (names.toFinset = split s → split (joined names) = split s) :=
  ⟨split_joined names, fun _ hm => split_morpheme hm, split_joined_morphemes⟩

theorem split_canonical_fooBar :
    split (bytes "bar") = {bytes "bar"} ∧ split (bytes "bar_foo") = split (bytes "fooBar") := by
  obtain ⟨-, hmorpheme, hjoined⟩ := split_canonical [bytes "bar", bytes "foo"] (bytes "fooBar")
  exact ⟨hmorpheme _ (by decide), hjoined (by decide)⟩

end SwapDetector.Proofs.JoinedNames
