import SwapDetector.Base.Delimiters
import SwapDetector.Model.SwappedArgCheckerPlugin
import SwapDetector.Proofs.FailingResults
import SwapDetector.Proofs.JoinedNames

/-! # Messages of the static analyzer

A message says which arguments are swapped, and in which morphemes. No other result has the same
message, of whatever call, as long as no name has a comma or a space in it.
-/
namespace SwapDetector.Proofs.DiagnosticMessages
open SwapDetector.Base.Decimal SwapDetector.Base.Delimiters SwapDetector.Base.ExactFloat
open SwapDetector.Base.OrderedSet
open SwapDetector.Model.Bytes SwapDetector.Model.IdentifierSplitting SwapDetector.Model.Types
open SwapDetector.Model.StatsDatabase SwapDetector.Model.SwappedArgChecker
open SwapDetector.Model.SwappedArgCheckerPlugin SwapDetector.Spec.Judgement
open SwapDetector.Proofs.Splitting SwapDetector.Proofs.JoinedNames SwapDetector.Proofs.Refinement
open SwapDetector.Proofs.FailingResults

variable {F : Type}

/-! ## Messages of results -/

def comma : Byte := 44

def space : Byte := 32

/-- Morphemes that can be told apart in a message. -/
structure Readable (M : Finset ByteString) : Prop where
  nonempty : M ≠ ∅
  words : ∀ m ∈ M, comma ∉ m ∧ space ∉ m

theorem space_notMem_decimal (n : Nat) : space ∉ decimal n := by
  intro h
  exact absurd (isDigit_of_mem_decimal h) (by decide)

/-- The morphemes of a list in front of a space. -/
theorem flatten_inj {M M' : Finset ByteString} (hM : Readable M) (hM' : Readable M')
    {x x' : ByteString} (h : flattenMorphemeListForDiag M ++ space :: x =
      flattenMorphemeListForDiag M' ++ space :: x') : M = M' ∧ x = x' := by
  have hne {M : Finset ByteString} (hM : Readable M) : inOrder M ≠ [] := by
    obtain ⟨m, rest, hcons⟩ := inOrder_ne_nil hM.nonempty
    rw [hcons]
    exact List.cons_ne_nil m rest
  have hwords {M : Finset ByteString} (hM : Readable M) : ∀ m ∈ inOrder M, comma ∉ m ∧ space ∉ m :=
    fun m hm => hM.words m (mem_inOrder.mp hm)
  have hdelimiter : bytes ", " = [comma, space] := rfl
  rw [flattenMorphemeListForDiag, flattenMorphemeListForDiag, hdelimiter] at h
  obtain ⟨horder, hrest⟩ := intercalate_append_inj (by decide) (hne hM) (hne hM') (hwords hM)
    (hwords hM') h
  exact ⟨inOrder_inj.mp horder, hrest⟩

theorem message_injective {R R' : Result F} (hR₁ : Readable R.morphemes1)
    (hR₂ : Readable R.morphemes2) (hR'₁ : Readable R'.morphemes1) (hR'₂ : Readable R'.morphemes2)
    (h : message R = message R') : R.arg1 = R'.arg1 ∧ R.arg2 = R'.arg2 ∧
      R.morphemes1 = R'.morphemes1 ∧ R.morphemes2 = R'.morphemes2 := by
  -- the parts of a message, with a space after each
  have hparts (R : Result F) : message R ++ [space] =
      bytes "arguments " ++ (decimal R.arg1 ++ space :: (bytes "and " ++ (decimal R.arg2 ++
        space :: (bytes "are swapped with morpheme1 = " ++ (flattenMorphemeListForDiag R.morphemes1 ++
          space :: (bytes "and morpheme2 = " ++
            (flattenMorphemeListForDiag R.morphemes2 ++ space :: []))))))) := by
    have hand : bytes " and " = space :: bytes "and " := rfl
    have hare : bytes " are swapped with morpheme1 = " =
      space :: bytes "are swapped with morpheme1 = " := rfl
    have hmorpheme : bytes " and morpheme2 = " = space :: bytes "and morpheme2 = " := rfl
    simp only [message, hand, hare, hmorpheme, List.append_assoc, List.cons_append]
  have hall := congrArg (· ++ [space]) h
  simp only [hparts] at hall
  obtain ⟨harg1, hall⟩ := append_cons_inj (space_notMem_decimal _) (space_notMem_decimal _)
    (List.append_cancel_left hall)
  obtain ⟨harg2, hall⟩ := append_cons_inj (space_notMem_decimal _) (space_notMem_decimal _)
    (List.append_cancel_left hall)
  obtain ⟨hm₁, hall⟩ := flatten_inj hR₁ hR'₁ (List.append_cancel_left hall)
  obtain ⟨hm₂, -⟩ := flatten_inj hR₂ hR'₂ (List.append_cancel_left hall)
  exact ⟨decimal_injective harg1, decimal_injective harg2, hm₁, hm₂⟩

/-! ## Messages of calls -/

/-- The byte is itself in lowercase, and of no other byte. -/
def CaseFree (b : Byte) : Prop := ∀ c : Byte, intToChar (tolower (ucharToInt c)) = b → c = b

theorem comma_caseFree : CaseFree comma := by
  unfold CaseFree
  decide +kernel

theorem space_caseFree : CaseFree space := by
  unfold CaseFree
  decide +kernel

theorem mem_of_mem_morpheme {name m : ByteString} {b : Byte} (hb : CaseFree b) (hm : m ∈ split name)
    (hbm : b ∈ m) : b ∈ name := by
  rw [split, mem_splitLoop_start] at hm
  simp only [Finset.notMem_empty, false_or] at hm
  obtain ⟨i, j, -, rfl⟩ := hm
  obtain ⟨c, hc, hcb⟩ := List.mem_map.mp hbm
  rw [← hb c hcb]
  exact List.mem_of_mem_drop (List.mem_of_mem_take hc)

/-- No name of the call has a comma or a space in it. -/
def PlainNames (site : CallSite) : Prop :=
  ∀ arg ∈ site.positionalArgNames, ∀ name ∈ arg, comma ∉ name ∧ space ∉ name

theorem words_of_plainNames {site : CallSite} (h : PlainNames site) (i : Nat) :
    ∀ m ∈ argMorphemes (site.positionalArgNames[i]?.getD []), comma ∉ m ∧ space ∉ m := by
  intro m hm
  cases harg : site.positionalArgNames[i]? with
  | none =>
    rw [harg] at hm
    exact absurd hm (Finset.notMem_empty m)
  | some arg =>
    rw [harg, Option.getD_some, argMorphemes_eq_split, split_joined, Finset.mem_biUnion] at hm
    obtain ⟨name, hname, hm⟩ := hm
    obtain ⟨hcomma, hspace⟩ :=
      h arg (List.mem_of_getElem? harg) name (List.mem_toFinset.mp hname)
    exact ⟨fun hc => hcomma (mem_of_mem_morpheme comma_caseFree hm hc),
      fun hc => hspace (mem_of_mem_morpheme space_caseFree hm hc)⟩

variable [FloatArith F]

theorem readable_of_checkSite {c : Checker F} {fails : Nat → Bool} {site : CallSite} {w : Check}
    {rs : List (Result F)} (hsite : PlainNames site) (hrun : (c.checkSite fails site w).1 = .ok rs)
    {R : Result F} (hR : R ∈ rs) : Readable R.morphemes1 ∧ Readable R.morphemes2 := by
  have hwell : WellFormed site rs :=
    wellFormed_of_idle c.opts c.weights site w (s := ⟨c.stats, fails⟩) (stats_eq c) hrun
  obtain ⟨i, j, -, -, -, -, hm₁, hm₂, hne₁, hne₂⟩ := hwell.about R hR
  refine ⟨⟨hne₁, fun m hm => ?_⟩, ⟨hne₂, fun m hm => ?_⟩⟩
  · rw [hm₁] at hm
    exact words_of_plainNames hsite i m (Finset.mem_sdiff.mp hm).1
  · rw [hm₂] at hm
    exact words_of_plainNames hsite j m (Finset.mem_sdiff.mp hm).1

/-- **Messages**: whatever fails, two results with one message, of whatever calls by whatever
checkers, are about the same arguments and the same morphemes. -/
theorem messages_determine {c c' : Checker F} {fails fails' : Nat → Bool} {site site' : CallSite}
    {w w' : Check} {rs rs' : List (Result F)} (hsite : PlainNames site) (hsite' : PlainNames site')
    (hrun : (c.checkSite fails site w).1 = .ok rs) (hrun' : (c'.checkSite fails' site' w').1 = .ok rs')
    {R R' : Result F} (hR : R ∈ rs) (hR' : R' ∈ rs') (h : message R = message R') :
    R.arg1 = R'.arg1 ∧ R.arg2 = R'.arg2 ∧ R.morphemes1 = R'.morphemes1 ∧
      R.morphemes2 = R'.morphemes2 := by
  obtain ⟨hR₁, hR₂⟩ := readable_of_checkSite hsite hrun hR
  obtain ⟨hR'₁, hR'₂⟩ := readable_of_checkSite hsite' hrun' hR'
  exact message_injective hR₁ hR₂ hR'₁ hR'₂ h

/-- The pets of `crossedPets`, spelled in another way. -/
def shoutedPets : CallSite where
  callDecl := ⟨bytes "bar", some [bytes "cats", bytes "dogs"]⟩
  positionalArgNames := [[bytes "Dogs"], [bytes "_cats"]]

def petsRows : List (Row XRat) :=
  [⟨cStr (bytes "foo"), 0, cStr (bytes "cats"), .fin 1⟩,
    ⟨cStr (bytes "foo"), 1, cStr (bytes "dogs"), .fin 1⟩]

def petsResult (vetted : Option XRat) : Result XRat where
  arg1 := 1
  arg2 := 2
  morphemes1 := {bytes "dogs"}
  morphemes2 := {bytes "cats"}
  score := .parameterNameBased (.fin 100) vetted

/-- One of the results is vetted by statistics, and the other one is not. -/
theorem crossedPets_messages :
    (petsResult none).arg1 = (petsResult (some (.fin 0))).arg1 ∧
      (petsResult none).arg2 = (petsResult (some (.fin 0))).arg2 ∧
      (petsResult none).morphemes1 = (petsResult (some (.fin 0))).morphemes1 ∧
      (petsResult none).morphemes2 = (petsResult (some (.fin 0))).morphemes2 :=
  @messages_determine XRat _ (Checker.new {} (petsFile []))
    (Checker.new { modelPath := bytes "pets.db" } (petsFile petsRows)) noFailure noFailure shoutedPets
    crossedPets .coverBased .all [petsResult none] [petsResult (some (.fin 0))]
    (by unfold PlainNames; decide) (by unfold PlainNames; decide) (by decide +kernel)
    (by decide +kernel) _ _ (List.mem_singleton_self _) (List.mem_singleton_self _) rfl

end SwapDetector.Proofs.DiagnosticMessages
