import Mathlib.Data.Nat.Digits.Lemmas
import SwapDetector.Proofs.Locality
import SwapDetector.Proofs.MatchValues

/-! # Calls with permuted arguments

The arguments of a call are the names of its own parameters in some order, and no two
names share a morpheme. The cover-based check then reports the transpositions of this
order and nothing else: a pair passes the gates only when each of its two arguments is
the name of the other one's parameter.
-/
namespace SwapDetector.Proofs.PermutedCalls
open SwapDetector.Base.ExactFloat SwapDetector.Base.Exec SwapDetector.Base.OrderedSet
open SwapDetector.Base.Permutations
open SwapDetector.Model.Bytes SwapDetector.Model.IdentifierSplitting SwapDetector.Model.Types
open SwapDetector.Model.StatsDatabase SwapDetector.Model.SwappedArgChecker
open SwapDetector.Spec.Judgement SwapDetector.Proofs.Assertions SwapDetector.Proofs.Refinement
open SwapDetector.Proofs.Locality SwapDetector.Proofs.MatchValues

/-! ## Disjoint families -/

section Family
variable {ι α : Type} {morphs : ι → Finset α} {s : ι → ι} {i j : ι}

/-- In a family of nonempty disjoint sets, only a set itself is covered by one of them. -/
theorem subset_family_iff (hnonempty : ∀ k, morphs k ≠ ∅)
    (hdisjoint : Pairwise fun k l => Disjoint (morphs k) (morphs l)) :
    morphs i ⊆ morphs j ↔ i = j := by
  constructor
  · intro hsub
    by_contra hij
    exact hnonempty i (disjoint_self.mp ((hdisjoint hij).mono_right hsub))
  · intro hij
    rw [hij]

/-- Sets of the family cover each other crosswise only after a transposition. -/
theorem crosswise_iff (hnonempty : ∀ k, morphs k ≠ ∅)
    (hdisjoint : Pairwise fun k l => Disjoint (morphs k) (morphs l)) (hij : i ≠ j) :
    (((morphs i).card = (morphs j).card ∧ (morphs (s i)).card = (morphs (s j)).card ∧
        (morphs i).card = (morphs (s i)).card) ∧
      Disjoint (morphs i) (morphs (s i)) ∧ Disjoint (morphs j) (morphs (s j)) ∧
      morphs j ⊆ morphs (s i) ∧ morphs i ⊆ morphs (s j)) ↔
      s i = j ∧ s j = i ∧ (morphs i).card = (morphs j).card := by
  rw [subset_family_iff hnonempty hdisjoint, subset_family_iff hnonempty hdisjoint]
  constructor
  · intro h
    obtain ⟨⟨hcard, -⟩, -, -, hi, hj⟩ := h
    exact ⟨hi.symm, hj.symm, hcard⟩
  · intro h
    obtain ⟨hi, hj, hcard⟩ := h
    rw [hi, hj]
    exact ⟨⟨hcard, hcard.symm, hcard⟩, hdisjoint hij, hdisjoint hij.symm, rfl, rfl⟩

end Family

/-! ## Permuted calls -/

/-- Parameter names with morphemes of their own and without numeric suffixes. -/
structure DistinctNames (names : List ByteString) : Prop where
  nonempty : ∀ name ∈ names, split name ≠ ∅
  disjoint : names.Pairwise fun one two => Disjoint (split one) (split two)
  noDigit : ∀ name ∈ names, name.getLast?.any (fun suf => isdigit (charToInt suf)) = false

/-- The call whose `i`-th argument is the name of parameter `s i`. -/
def permutedCall (func : ByteString) (names : List ByteString)
    (s : Equiv.Perm (Fin names.length)) : CallSite where
  callDecl := ⟨func, some names⟩
  positionalArgNames := List.ofFn fun i => [names.get (s i)]

/-- The result for a transposition of two parameters. -/
def transposed (names : List ByteString) (i j : Fin names.length) : Result XRat where
  arg1 := i + 1
  arg2 := j + 1
  morphemes1 := split (names.get j)
  morphemes2 := split (names.get i)
  score := .parameterNameBased (.fin 100) none

/-- The results are those of the transpositions of two parameters with equally many
morphemes, in lexicographic order. -/
structure ReportsTranspositions (names : List ByteString) (s : Equiv.Perm (Fin names.length))
    (rs : List (Result XRat)) : Prop where
  sorted : rs.Pairwise fun r r' => LexBefore (r.arg1, r.arg2) (r'.arg1, r'.arg2)
  mem_iff : ∀ r, r ∈ rs ↔ ∃ i j, i < j ∧ s i = j ∧ s j = i ∧
    (split (names.get i)).card = (split (names.get j)).card ∧ r = transposed names i j

variable {names : List ByteString} {s : Equiv.Perm (Fin names.length)}

/-- Correct calls and longer rotations are reported nowhere. -/
theorem ReportsTranspositions.eq_nil {rs : List (Result XRat)} (h : ReportsTranspositions names s rs)
    (hs : ∀ i, s i ≠ i → s (s i) ≠ i) : rs = [] := by
  refine List.eq_nil_iff_forall_not_mem.mpr fun r hr => ?_
  obtain ⟨i, j, hij, hi, hj, -⟩ := (h.mem_iff r).mp hr
  have hne : s i ≠ i := by
    rw [hi]
    exact hij.ne'
  exact hs i hne (by rw [hi, hj])

namespace DistinctNames
variable (h : DistinctNames names)
include h

theorem get_nonempty (k : Fin names.length) : split (names.get k) ≠ ∅ :=
  h.nonempty _ (List.get_mem names k)

theorem get_disjoint : Pairwise fun k l : Fin names.length =>
    Disjoint (split (names.get k)) (split (names.get l)) := by
  intro k l hkl
  have hpairs := List.pairwise_iff_get.mp h.disjoint
  rcases lt_or_gt_of_ne hkl with hlt | hgt
  · exact hpairs k l hlt
  · exact (hpairs l k hgt).symm

theorem get_ne_nil (k : Fin names.length) : names.get k ≠ [] := by
  intro hnil
  apply h.get_nonempty k
  rw [hnil, split_nil]

theorem not_twins (k : Fin names.length) (two : ByteString) :
    suffixTwins (names.get k) two = false := by
  rw [suffixTwins, h.noDigit _ (List.get_mem names k), Bool.false_and]

end DistinctNames

section Calls
variable {c : Checker XRat} {func : ByteString} {whichCheck : Check} {i j : Fin names.length}

theorem length_permutedCall : (permutedCall func names s).positionalArgNames.length = names.length :=
  List.length_ofFn

theorem getParamName_permutedCall (k : Fin names.length) :
    getParamName (permutedCall func names s) k = some (names.get k) := by
  simp [getParamName, permutedCall]

theorem arg_permutedCall (k : Fin names.length) :
    (permutedCall func names s).positionalArgNames[k.val]? = some [names.get (s k)] := by
  simp [permutedCall]

/-- The data of a pair of arguments of a permuted call. -/
theorem pairData_permutedCall : pairData c.opts c.weights (permutedCall func names s) whichCheck (i, j) =
    { opts := { c.opts with modelPath := [] }
      whichCheck := whichCheck
      pos1 := i
      pos2 := j
      arg1 := [names.get (s i)]
      arg2 := [names.get (s j)]
      param1 := names.get i
      param2 := names.get j
      rows := c.weights.map fun db => (rowsAt db func i, rowsAt db func j) } := by
  simp only [pairData, getParamName_permutedCall, arg_permutedCall, Option.getD_some]
  rfl

theorem argMorphemes_singleton (name : ByteString) : argMorphemes [name] = split name := by
  simp [argMorphemes]

theorem unique_permutedCall (hnames : DistinctNames names) (hij : i ≠ j) :
    (pairData c.opts c.weights (permutedCall func names s) whichCheck (i, j)).unique1 =
        split (names.get (s i)) ∧
      (pairData c.opts c.weights (permutedCall func names s) whichCheck (i, j)).unique2 =
        split (names.get (s j)) := by
  have hs : s i ≠ s j := s.injective.ne hij
  rw [pairData_permutedCall, PairData.unique1, PairData.unique2, argMorphemes_singleton,
    argMorphemes_singleton]
  exact ⟨Finset.sdiff_eq_self_of_disjoint (hnames.get_disjoint hs),
    Finset.sdiff_eq_self_of_disjoint (hnames.get_disjoint hs.symm)⟩

/-- The gates let transpositions through. -/
theorem gates_permutedCall (hopts : DefaultThresholds c.opts) (hnames : DistinctNames names)
    (hij : i ≠ j) :
    (pairData c.opts c.weights (permutedCall func names s) whichCheck (i, j)).Gates ↔
      s i = j ∧ s j = i ∧ (split (names.get i)).card = (split (names.get j)).card := by
  have hunique : (pairData c.opts c.weights (permutedCall func names s) whichCheck (i, j)).unique1 =
        split (names.get (s i)) ∧
      (pairData c.opts c.weights (permutedCall func names s) whichCheck (i, j)).unique2 =
        split (names.get (s j)) := unique_permutedCall hnames hij
  have hparam1 : split (names.get i) \ split (names.get j) = split (names.get i) :=
    Finset.sdiff_eq_self_of_disjoint (hnames.get_disjoint hij)
  have hparam2 : split (names.get j) \ split (names.get i) = split (names.get j) :=
    Finset.sdiff_eq_self_of_disjoint (hnames.get_disjoint hij.symm)
  have hnonempty : split (names.get i) ≠ ∅ ∧ split (names.get j) ≠ ∅ ∧
      split (names.get (s i)) ≠ ∅ ∧ split (names.get (s j)) ≠ ∅ :=
    ⟨hnames.get_nonempty i, hnames.get_nonempty j, hnames.get_nonempty _, hnames.get_nonempty _⟩
  rw [gates_iff (defaultMatch_of_defaults (pairData_defaults hopts _)), hunique.1, hunique.2, pairData_permutedCall]
  simp only [argMorphemes_singleton, hparam1, hparam2, hnonempty, ne_eq, not_false_eq_true, true_and]
  exact crosswise_iff hnames.get_nonempty hnames.get_disjoint hij

theorem noTrips_permutedCall (hnames : DistinctNames names) :
    NoTrips c (permutedCall func names s) whichCheck := by
  refine noTrips_of_lastNames fun arg harg hempty => ?_
  obtain ⟨k, rfl⟩ := List.mem_ofFn.mp harg
  exact hnames.get_ne_nil _ (Option.some.inj hempty)

/-- Whatever passes the gates is reported: no name has a suffix to be filtered by. -/
theorem covers_permutedCall (hweights : c.weights = none) (hnames : DistinctNames names)
    (hmode : whichCheck ≠ .statsBased) :
    Covers (pairData c.opts c.weights (permutedCall func names s) whichCheck (i, j)) ↔
      (pairData c.opts c.weights (permutedCall func names s) whichCheck (i, j)).Gates := by
  have hmodes : whichCheck = .all ∨ whichCheck = .coverBased := by
    cases whichCheck with
    | all => exact .inl rfl
    | coverBased => exact .inr rfl
    | statsBased => exact absurd rfl hmode
  have hname (name : ByteString) : lastName [name] = name := rfl
  rw [covers_iff, pairData_permutedCall, hweights]
  simp only [PairData.coverRuns, PairData.Named, hname, hnames.not_twins, hnames.get_ne_nil, hmodes,
    ne_eq, not_false_eq_true, Bool.false_eq_true, and_true, true_and]
  exact and_iff_left (by simp [PairData.vetoed, PairData.statsScore])

theorem coverResult_permutedCall (hopts : DefaultThresholds c.opts) (hweights : c.weights = none)
    (hnames : DistinctNames names) (hij : i ≠ j) (hi : s i = j) (hj : s j = i)
    (hgates : (pairData c.opts c.weights (permutedCall func names s) whichCheck (i, j)).Gates) :
    (pairData c.opts c.weights (permutedCall func names s) whichCheck (i, j)).coverResult =
      transposed names i j := by
  have hunique : (pairData c.opts c.weights (permutedCall func names s) whichCheck (i, j)).unique1 =
        split (names.get (s i)) ∧
      (pairData c.opts c.weights (permutedCall func names s) whichCheck (i, j)).unique2 =
        split (names.get (s j)) := unique_permutedCall hnames hij
  have hscore : (pairData c.opts c.weights (permutedCall func names s) whichCheck
      (i, j)).statsScore = none := by
    rw [PairData.statsScore, pairData_permutedCall, hweights]
    rfl
  rw [PairData.coverResult, worstPsi_of_gates (defaultMatch_of_defaults (pairData_defaults hopts _)) hgates,
    hunique.1, hunique.2, hscore, hi, hj]
  rfl

/-- The verdict on a pair of a permuted call. -/
theorem verdict_permutedCall (hopts : DefaultThresholds c.opts) (hweights : c.weights = none)
    (hnames : DistinctNames names) (hmode : whichCheck ≠ .statsBased) (hij : i < j)
    (r : Result XRat) :
    (pairData c.opts c.weights (permutedCall func names s) whichCheck (i, j)).verdict = some r ↔
      s i = j ∧ s j = i ∧ (split (names.get i)).card = (split (names.get j)).card ∧
        r = transposed names i j := by
  have htrips : ¬ (pairData c.opts c.weights (permutedCall func names s) whichCheck (i, j)).Trips :=
    noTrips_permutedCall hnames i j hij (by rw [length_permutedCall]; exact j.isLt)
  have hrows : (pairData c.opts c.weights (permutedCall func names s) whichCheck (i, j)).rows = none := by
    rw [pairData_permutedCall, hweights]
    rfl
  rw [verdict_without_rows htrips hrows, covers_permutedCall hweights hnames hmode]
  constructor
  · intro h
    obtain ⟨hgates, hr⟩ := h
    obtain ⟨hi, hj, hcard⟩ := (gates_permutedCall hopts hnames hij.ne).mp hgates
    rw [coverResult_permutedCall hopts hweights hnames hij.ne hi hj hgates] at hr
    exact ⟨hi, hj, hcard, hr⟩
  · intro h
    obtain ⟨hi, hj, hcard, hr⟩ := h
    have hgates : (pairData c.opts c.weights (permutedCall func names s) whichCheck (i, j)).Gates :=
      (gates_permutedCall hopts hnames hij.ne).mpr ⟨hi, hj, hcard⟩
    rw [coverResult_permutedCall hopts hweights hnames hij.ne hi hj hgates]
    exact ⟨hgates, hr⟩

theorem verdicts_permutedCall (hopts : DefaultThresholds c.opts) (hweights : c.weights = none)
    (hnames : DistinctNames names) (hmode : whichCheck ≠ .statsBased) :
    ReportsTranspositions names s (verdicts c (permutedCall func names s) whichCheck) where
  sorted := verdicts_sorted
  mem_iff := by
    intro r
    rw [mem_verdicts, length_permutedCall]
    constructor
    · intro h
      obtain ⟨i, j, hij, hj, hverdict⟩ := h
      have hlt : (⟨i, by omega⟩ : Fin names.length) < ⟨j, hj⟩ := hij
      exact ⟨⟨i, by omega⟩, ⟨j, hj⟩, hij,
        (verdict_permutedCall hopts hweights hnames hmode hlt r).mp hverdict⟩
    · intro h
      obtain ⟨i, j, hij, hpair⟩ := h
      exact ⟨i, j, hij, j.isLt, (verdict_permutedCall hopts hweights hnames hmode hij r).mpr hpair⟩

end Calls

/-- **Permuted calls**: the cover-based check reports exactly the transpositions, as long
as every index of an argument is below the 32-bit mark. -/
theorem reportsTranspositions_iff (c : Checker XRat) (func : ByteString) (names : List ByteString)
    (s : Equiv.Perm (Fin names.length)) (whichCheck : Check) (hopts : DefaultThresholds c.opts)
    (hweights : c.weights = none) (hnames : DistinctNames names)
    (hmode : whichCheck ≠ .statsBased) :
    (∃ rs, c.results (permutedCall func names s) whichCheck = .ok rs ∧
      ReportsTranspositions names s rs) ↔ names.length < 2 ^ 32 := by
  constructor
  · intro h
    obtain ⟨rs, hrs, -⟩ := h
    have hn := (results_eq_ok.mp hrs).1.1
    rwa [length_permutedCall] at hn
  · intro hn
    exact ⟨_, results_of_noTrips (by rwa [length_permutedCall]) (noTrips_permutedCall hnames),
      verdicts_permutedCall hopts hweights hnames hmode⟩

/-- Four parameters with distinct names. -/
def petNames : List ByteString := [bytes "cats", bytes "dogs", bytes "redBird", bytes "blueFish"]

theorem petNames_distinct : DistinctNames petNames := by
  constructor <;> decide +kernel

/-- The first two parameters in each other's place. -/
def swappedPetNames : Equiv.Perm (Fin petNames.length) := Equiv.swap ⟨0, by decide⟩ ⟨1, by decide⟩

theorem petNames_reportsTranspositions_iff :
    (∃ rs, (checkerOver {} none : Checker XRat).results
        (permutedCall (bytes "foo") petNames swappedPetNames) .all = .ok rs ∧
      ReportsTranspositions petNames swappedPetNames rs) ↔ petNames.length < 2 ^ 32 :=
  reportsTranspositions_iff (checkerOver {} none) (bytes "foo") petNames swappedPetNames .all rfl rfl
    petNames_distinct (by decide)

/-! ## Many short names -/

/-- The lowercase letter of a digit of base 26. -/
def letter (d : Nat) : Byte := Fin.ofNat 256 (97 + d)

theorem val_letter {d : Nat} (hd : d < 26) : (letter d).val - 97 = d := by
  simp only [letter, Fin.val_ofNat]
  omega

theorem letter_spec (d : Nat) (hd : d < 26) :
    InWord (letter d) ∧ intToChar (tolower (ucharToInt (letter d))) = letter d ∧
      isdigit (charToInt (letter d)) = false := by
  have hall : ∀ k : Fin 26, InWord (letter k) ∧
      intToChar (tolower (ucharToInt (letter k))) = letter k ∧
        isdigit (charToInt (letter k)) = false := by
    unfold InWord
    decide
  exact hall ⟨d, hd⟩

/-- The `k`-th name: `k + 1` in base 26, with letters for digits. -/
def shortName (k : Nat) : ByteString := (Nat.digits 26 (k + 1)).map letter

theorem shortName_ne_nil (k : Nat) : shortName k ≠ [] := by
  have hdigits : Nat.digits 26 (k + 1) ≠ [] := Nat.digits_ne_nil_iff_ne_zero.mpr (Nat.succ_ne_zero k)
  rw [shortName, Ne, List.map_eq_nil_iff]
  exact hdigits

theorem mem_shortName {k : Nat} {c : Byte} (hc : c ∈ shortName k) :
    ∃ d < 26, letter d = c := by
  obtain ⟨d, hd, heq⟩ := List.mem_map.mp hc
  exact ⟨d, Nat.digits_lt_base (by decide) hd, heq⟩

/-- A name can be read back. -/
theorem digits_shortName (k : Nat) :
    (shortName k).map (fun c => c.val - 97) = Nat.digits 26 (k + 1) := by
  rw [shortName, List.map_map]
  calc (Nat.digits 26 (k + 1)).map ((fun c => c.val - 97) ∘ letter)
      = (Nat.digits 26 (k + 1)).map id :=
        List.map_congr_left fun _ hd => val_letter (Nat.digits_lt_base (by decide) hd)
    _ = Nat.digits 26 (k + 1) := List.map_id _

theorem shortName_injective : Function.Injective shortName := by
  intro k l h
  have hdigits : Nat.digits 26 (k + 1) = Nat.digits 26 (l + 1) := by
    rw [← digits_shortName, ← digits_shortName, h]
  have hsucc : k + 1 = l + 1 := Nat.digits_inj_iff.mp hdigits
  omega

/-- Seven letters are enough for every name whose index fits 32 bits. -/
theorem length_shortName {k : Nat} (hk : k < 2 ^ 32) : (shortName k).length ≤ 7 := by
  rw [shortName, List.length_map, Nat.digits_length_le_iff (by decide)]
  omega

theorem split_shortName (k : Nat) : split (shortName k) = {shortName k} := by
  have hword (c : Byte) (hc : c ∈ shortName k) : InWord c := by
    obtain ⟨d, hd, rfl⟩ := mem_shortName hc
    exact (letter_spec d hd).1
  have hlower (c : Byte) (hc : c ∈ shortName k) : intToChar (tolower (ucharToInt c)) = c := by
    obtain ⟨d, hd, rfl⟩ := mem_shortName hc
    exact (letter_spec d hd).2.1
  rw [split_inWord (shortName_ne_nil k) hword, lowercase]
  congr 1
  calc (shortName k).map (fun c => intToChar (tolower (ucharToInt c)))
      = (shortName k).map id := List.map_congr_left hlower
    _ = shortName k := List.map_id _

/-- Distinct names: `b`, `c` and so on up to `z`, then `ab`, `bb`. -/
def manyNames (n : Nat) : List ByteString := (List.range n).map shortName

theorem length_manyNames (n : Nat) : (manyNames n).length = n := by
  simp [manyNames]

theorem mem_manyNames {n : Nat} {name : ByteString} (hname : name ∈ manyNames n) :
    ∃ k < n, shortName k = name := by
  obtain ⟨k, hk, heq⟩ := List.mem_map.mp hname
  exact ⟨k, List.mem_range.mp hk, heq⟩

theorem manyNames_short : ∀ name ∈ manyNames (2 ^ 32), name.length ≤ 7 := by
  intro name hname
  obtain ⟨k, hk, rfl⟩ := mem_manyNames hname
  exact length_shortName hk

theorem manyNames_distinct (n : Nat) : DistinctNames (manyNames n) where
  nonempty := by
    intro name hname
    obtain ⟨k, -, rfl⟩ := mem_manyNames hname
    rw [split_shortName]
    exact Finset.singleton_ne_empty _
  disjoint := by
    refine List.pairwise_map.mpr (List.pairwise_lt_range.imp fun {k l} hkl => ?_)
    rw [split_shortName, split_shortName, Finset.disjoint_singleton]
    exact fun heq => hkl.ne (shortName_injective heq)
  noDigit := by
    intro name hname
    obtain ⟨k, -, rfl⟩ := mem_manyNames hname
    rw [List.getLast?_eq_some_getLast (shortName_ne_nil k)]
    obtain ⟨d, hd, heq⟩ := mem_shortName (List.getLast_mem (shortName_ne_nil k))
    rw [← heq]
    exact (letter_spec d hd).2.2

/-- With 2^32 arguments in the right order, none of more than seven bytes, the call does
not return. -/
theorem manyNames_fault : (∀ name ∈ manyNames (2 ^ 32), name.length ≤ 7) ∧
    DistinctNames (manyNames (2 ^ 32)) ∧
    ¬ ∃ rs, (checkerOver {} none : Checker XRat).results
        (permutedCall (bytes "foo") (manyNames (2 ^ 32)) (Equiv.refl _)) .coverBased = .ok rs ∧
      ReportsTranspositions (manyNames (2 ^ 32)) (Equiv.refl _) rs := by
  refine ⟨manyNames_short, manyNames_distinct _, fun h => ?_⟩
  obtain ⟨rs, hrs, -⟩ := h
  have hn := (results_eq_ok.mp hrs).1.1
  rw [length_permutedCall, length_manyNames] at hn
  exact lt_irrefl _ hn

end SwapDetector.Proofs.PermutedCalls
