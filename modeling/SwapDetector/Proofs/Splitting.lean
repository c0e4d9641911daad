import SwapDetector.Base.Segments
import SwapDetector.Model.IdentifierSplitting

/-! # What the splitter cuts out

The words of an identifier are its segments between underscores and transitions
from lowercase to uppercase. The scan has one open word; it adds a word to the set
where it closes one, so that after it the set has all words of the identifier.
-/
namespace SwapDetector.Proofs.Splitting
open SwapDetector.Base.Segments SwapDetector.Model.Bytes SwapDetector.Model.IdentifierSplitting

/-- An uppercase letter follows a lowercase one. -/
def CaseChange (c d : Byte) : Prop := islower (charToInt c) = true ∧ isupper (charToInt d) = true

/-- The bytes from `a` up to, and without, `b` are a word of the identifier. -/
def IsWord (input : ByteString) (a b : Nat) : Prop :=
  IsSegment (· = underscore) CaseChange input a b

theorem not_isupper_of_islower {c : Int} (h : islower c = true) : isupper c = false := by
  unfold islower isupper at *
  simp only [decide_eq_true_eq, decide_eq_false_iff_not] at *
  omega

theorem not_caseChange_underscore (c d : Byte) (hc : c = underscore) : ¬ CaseChange c d := by
  intro h
  rw [hc] at h
  exact absurd h.1 (by decide)

section Scan
variable {input : ByteString} {cur wordStart : Nat} {c : Byte} {prevCharWasLower : Bool}

theorem sepAt_iff (hc : input[cur]? = some c) :
    SepAt (· = underscore) input cur ↔ c = underscore := by
  simp [SepAt, hc]

/-- The flag and the current byte tell whether the identifier is cut here; at the first
byte the flag is that of the byte itself. -/
theorem cutAt_iff (hc : input[cur]? = some c)
    (hprev : ∀ p, input[cur - 1]? = some p → prevCharWasLower = islower (charToInt p)) :
    CutAt CaseChange input cur ↔ (isupper (charToInt c) && prevCharWasLower) = true := by
  rw [Bool.and_eq_true]
  constructor
  · intro h
    obtain ⟨-, p, d, hp, hd, hchange⟩ := h
    rw [hc] at hd
    cases hd
    exact ⟨hchange.2, (hprev p hp).trans hchange.1⟩
  · intro h
    obtain ⟨hupper, hlower⟩ := h
    by_cases hzero : cur = 0
    · subst hzero
      rw [hprev c hc] at hlower
      rw [not_isupper_of_islower hlower] at hupper
      cases hupper
    · have hlen : cur < input.length := (List.getElem?_eq_some_iff.mp hc).1
      have hp : input[cur - 1]? = some input[cur - 1] := List.getElem?_eq_getElem (by omega)
      rw [hprev _ hp] at hlower
      exact ⟨by omega, input[cur - 1], c, hp, hc, hlower, hupper⟩

/-- From an open word on, the scan adds the words that begin with it or behind it. -/
theorem mem_splitLoop (rest : ByteString) (ret : Finset ByteString) (m : ByteString)
    (hrest : input.drop cur = rest) (hopen : Open (· = underscore) CaseChange input wordStart cur)
    (hcur : cur ≤ input.length)
    (hprev : ∀ p, input[cur - 1]? = some p → prevCharWasLower = islower (charToInt p)) :
    m ∈ splitLoop input rest cur wordStart prevCharWasLower ret ↔
      m ∈ ret ∨ ∃ a b, (wordStart ≤ a ∧ IsWord input a b) ∧ m = lower input a b := by
  induction rest generalizing cur wordStart prevCharWasLower ret with
  | nil =>
    have hend : cur = input.length := by
      have hlen := List.drop_eq_nil_iff.mp hrest
      omega
    subst hend
    have hwords (a b : Nat) : (wordStart ≤ a ∧ IsWord input a b) ↔
        wordStart < input.length ∧ a = wordStart ∧ b = input.length := hopen.segment_iff_end
    have hle := hopen.le
    simp only [splitLoop, hwords]
    by_cases hne : wordStart ≠ input.length
    · rw [if_pos hne, Finset.mem_insert, or_comm]
      have hlt : wordStart < input.length := by omega
      simp [hlt]
    · rw [if_neg hne]
      have hlt : ¬ wordStart < input.length := by omega
      simp [hlt]
  | cons c rest ih =>
    have hc : input[cur]? = some c := by
      rw [← Nat.add_zero cur, ← List.getElem?_drop, hrest]
      rfl
    have hlen : cur < input.length := (List.getElem?_eq_some_iff.mp hc).1
    have hrest' : input.drop (cur + 1) = rest := by
      rw [← List.drop_drop, hrest]
      rfl
    have hprev' : ∀ p, input[cur + 1 - 1]? = some p →
        islower (charToInt c) = islower (charToInt p) := by
      intro p hp
      rw [Nat.add_sub_cancel, hc] at hp
      cases hp
      rfl
    rw [splitLoop]
    by_cases hsep : c = underscore
    · have hsepAt : SepAt (· = underscore) input cur := (sepAt_iff hc).mpr hsep
      have hwords (a b : Nat) : (wordStart ≤ a ∧ IsWord input a b) ↔
          (wordStart < cur ∧ a = wordStart ∧ b = cur) ∨ (cur + 1 ≤ a ∧ IsWord input a b) :=
        hopen.segment_iff_sep hlen hsepAt
      have hle := hopen.le
      rw [if_pos hsep, ih _ hrest' (Open.next_sep hsepAt) hlen hprev']
      simp only [hwords]
      by_cases hne : wordStart ≠ cur
      · have hlt : wordStart < cur := by omega
        rw [if_pos hne, Finset.mem_insert]
        simp only [hlt, true_and, or_and_right, exists_or]
        simp [or_assoc, or_comm (a := m ∈ ret)]
      · have hlt : ¬ wordStart < cur := by omega
        rw [if_neg hne]
        simp [hlt]
    rw [if_neg hsep]
    have hsepAt : ¬ SepAt (· = underscore) input cur := mt (sepAt_iff hc).mp hsep
    by_cases hcut : (isupper (charToInt c) && prevCharWasLower) = true
    · have hcutAt : CutAt CaseChange input cur := (cutAt_iff hc hprev).mpr hcut
      have hlt : wordStart < cur := hopen.lt_of_cutAt hcutAt not_caseChange_underscore
      have hwords (a b : Nat) : (wordStart ≤ a ∧ IsWord input a b) ↔
          (a = wordStart ∧ b = cur) ∨ (cur ≤ a ∧ IsWord input a b) :=
        hopen.segment_iff_cut hlen hcutAt hlt
      rw [if_pos hcut, ih _ hrest' (Open.next_cut hsepAt hcutAt) hlen hprev', Finset.mem_insert]
      simp only [hwords, or_and_right, exists_or]
      simp [or_assoc, or_comm (a := m ∈ ret)]
    · have hcutAt : ¬ CutAt CaseChange input cur := mt (cutAt_iff hc hprev).mp hcut
      rw [if_neg hcut]
      exact ih _ hrest' (hopen.next hsepAt hcutAt) hlen hprev'

/-- A scan from the start adds all words. -/
theorem mem_splitLoop_start (input : ByteString) (ret : Finset ByteString) (m : ByteString) :
    m ∈ splitLoop input input 0 0 (islower (charToInt (input.headD 0))) ret ↔
      m ∈ ret ∨ ∃ a b, IsWord input a b ∧ m = lower input a b := by
  have hprev : ∀ p, input[0 - 1]? = some p →
      islower (charToInt (input.headD 0)) = islower (charToInt p) := by
    intro p hp
    cases input with
    | nil => cases hp
    | cons c rest =>
      cases hp
      rfl
  rw [mem_splitLoop input ret m List.drop_zero Open.start (Nat.zero_le _) hprev]
  simp

end Scan

/-- **The splitter** cuts exactly at underscores and at transitions from lowercase to
uppercase: the morphemes are the words of the identifier in lowercase. -/
theorem mem_split_iff (input m : ByteString) :
    m ∈ split input ↔ ∃ a b, IsWord input a b ∧ m = lower input a b := by
  rw [split, mem_splitLoop_start]
  simp

end SwapDetector.Proofs.Splitting
