import Mathlib
import SwapDetector.Base.Utf8
import SwapDetector.Proofs.Splitting
import SwapDetector.Spec.Text

/-! # Splitting texts in UTF-8

The splitter scans bytes and knows nothing of UTF-8. On a text in UTF-8 it finds the
morphemes of the text, each again in UTF-8: it cuts next to bytes below 128 only, and it
changes no other bytes.
-/
namespace SwapDetector.Proofs.TextSplitting
open SwapDetector.Base.Utf8 SwapDetector.Spec.Text
open SwapDetector.Model.Bytes SwapDetector.Model.IdentifierSplitting
open SwapDetector.Proofs.Splitting

/-! ## Bytes and characters -/

section Bytes
variable {c : Char} {b : Byte}

theorem val_ascii (h : c.toNat < 128) : (Fin.ofNat 256 c.toNat : Byte).val = c.toNat :=
  Nat.mod_eq_of_lt (by omega)

theorem charToInt_ascii (h : c.toNat < 128) : charToInt (Fin.ofNat 256 c.toNat) = c.toNat := by
  rw [charToInt, val_ascii h, if_pos h]

theorem isUpper_iff : c.isUpper = true ↔ 65 ≤ c.toNat ∧ c.toNat ≤ 90 := by
  simp [Char.isUpper, UInt32.le_iff_toNat_le, ← Char.toNat_val]

theorem isLower_iff : c.isLower = true ↔ 97 ≤ c.toNat ∧ c.toNat ≤ 122 := by
  simp [Char.isLower, UInt32.le_iff_toNat_le, ← Char.toNat_val]

theorem isupper_ascii (h : c.toNat < 128) :
    isupper (charToInt (Fin.ofNat 256 c.toNat)) = c.isUpper := by
  rw [Bool.eq_iff_iff, isUpper_iff, charToInt_ascii h]
  simp only [isupper, decide_eq_true_eq]
  omega

theorem islower_ascii (h : c.toNat < 128) :
    islower (charToInt (Fin.ofNat 256 c.toNat)) = c.isLower := by
  rw [Bool.eq_iff_iff, isLower_iff, charToInt_ascii h]
  simp only [islower, decide_eq_true_eq]
  omega

theorem eq_underscore_iff (h : c.toNat < 128) :
    (Fin.ofNat 256 c.toNat : Byte) = underscore ↔ c = '_' := by
  rw [Fin.ext_iff, val_ascii h, ← Char.toNat_inj]
  rfl

/-- No byte of a character beyond ASCII means anything to the splitter. -/
theorem high_byte (h : 128 ≤ b.val) :
    b ≠ underscore ∧ isupper (charToInt b) = false ∧ islower (charToInt b) = false := by
  have hneg : charToInt b = b.val - 256 := by rw [charToInt, if_neg (by omega)]
  have hlt := b.isLt
  refine ⟨?_, ?_, ?_⟩
  · rintro rfl
    exact absurd h (by decide)
  · rw [hneg]
    simp only [isupper, decide_eq_false_iff_not]
    omega
  · rw [hneg]
    simp only [islower, decide_eq_false_iff_not]
    omega

/-- A character beyond ASCII is neither a separator nor a letter. -/
theorem high_char (h : 128 ≤ c.toNat) : c ≠ '_' ∧ c.isUpper = false ∧ c.isLower = false := by
  refine ⟨?_, ?_, ?_⟩
  · rintro rfl
    exact absurd h (by decide)
  · rw [Bool.eq_false_iff, Ne, isUpper_iff]
    omega
  · rw [Bool.eq_false_iff, Ne, isLower_iff]
    omega

theorem toNat_toLower (c : Char) :
    c.toLower.toNat = if c.isUpper = true then c.toNat + 32 else c.toNat := by
  by_cases h : 'A'.val ≤ c.val ∧ c.val ≤ 'Z'.val
  · have hup : c.isUpper = true := by simpa [Char.isUpper] using h
    have hle : c.val.toNat ≤ 90 := UInt32.le_iff_toNat_le.mp h.2
    rw [if_pos hup, Char.toLower, dif_pos h]
    show (c.val + 32).toNat = c.val.toNat + 32
    have h32 : (32 : UInt32).toNat = 32 := rfl
    rw [UInt32.toNat_add, h32]
    omega
  · have hup : ¬ c.isUpper = true := by simpa [Char.isUpper] using h
    rw [if_neg hup, Char.toLower, dif_neg h]

theorem lowercase_append (s t : ByteString) : lowercase (s ++ t) = lowercase s ++ lowercase t :=
  List.map_append

/-- An `unsigned char` that is put into lowercase. -/
theorem val_lowercase : ∀ b : Byte, (intToChar (tolower (ucharToInt b))).val =
    if 65 ≤ b.val ∧ b.val ≤ 90 then b.val + 32 else b.val := by
  decide +kernel

theorem lowercase_encodeChar (c : Char) : lowercase (encodeChar c) = encodeChar c.toLower := by
  have hlow := toNat_toLower c
  simp only [isUpper_iff] at hlow
  rcases Nat.lt_or_ge c.toNat 128 with h | h
  · have hlt : c.toLower.toNat < 128 := by
      rw [hlow]
      split_ifs <;> omega
    have hbyte : intToChar (tolower (ucharToInt (Fin.ofNat 256 c.toNat))) =
        Fin.ofNat 256 c.toLower.toNat := by
      rw [Fin.ext_iff, val_lowercase, val_ascii h, val_ascii hlt, hlow]
    rw [encodeChar_ascii h, encodeChar_ascii hlt, lowercase, List.map_singleton, hbyte]
  · have hkeep : c.toLower = c := by rw [← Char.toNat_inj, hlow, if_neg (by omega)]
    have hbyte : ∀ b ∈ encodeChar c, intToChar (tolower (ucharToInt b)) = id b := by
      intro b hb
      have hge := le_of_mem_encodeChar h hb
      rw [id, Fin.ext_iff, val_lowercase, if_neg (by omega)]
    rw [hkeep, lowercase, List.map_congr_left hbyte, List.map_id]

/-- Words in UTF-8 are put into lowercase as texts. -/
theorem lowercase_encode (word : List Char) :
    lowercase (encode word) = encode (word.map Char.toLower) := by
  induction word with
  | nil => rfl
  | cons c word ih => rw [encode_cons, lowercase_append, lowercase_encodeChar, ih]; rfl

end Bytes

/-! ## The scan -/

section Scan
variable {input rest : ByteString} {wordStart cur : Nat} {prevCharWasLower : Bool}
  {ret : Finset ByteString}

/-- The scan runs over the bytes of a character beyond ASCII without a cut. -/
theorem splitLoop_high (bs : ByteString) (hbs : ∀ b ∈ bs, 128 ≤ b.val) (hne : bs ≠ []) :
    splitLoop input (bs ++ rest) cur wordStart prevCharWasLower ret =
      splitLoop input rest (cur + bs.length) wordStart false ret := by
  induction bs generalizing cur prevCharWasLower with
  | nil => exact absurd rfl hne
  | cons b bs ih =>
    obtain ⟨hsep, hup, hlow⟩ := high_byte (hbs b List.mem_cons_self)
    rw [List.cons_append, splitLoop, if_neg hsep, hup, Bool.false_and, if_neg Bool.false_ne_true,
      hlow]
    cases bs with
    | nil => rfl
    | cons b' bs =>
      rw [ih (fun x hx => hbs x (List.mem_cons_of_mem b hx)) (List.cons_ne_nil b' bs),
        List.length_cons (a := b), Nat.add_assoc, Nat.add_comm 1]

/-- The bytes of a word that lies between two parts of a text. -/
theorem lower_encode (before word after : List Char) :
    lower (encode (before ++ word ++ after)) (encode before).length
        (encode (before ++ word)).length = encode (word.map Char.toLower) := by
  have hslice : slice (encode (before ++ word ++ after)) (encode before).length
      (encode (before ++ word)).length = encode word := by
    simp only [slice, encode_append, List.length_append, List.append_assoc, List.drop_left,
      Nat.add_sub_cancel_left, List.take_left]
  rw [lower, hslice, lowercase_encode]

/-- The word that ends here, as the scan adds it. -/
theorem insert_close (before word after : List Char) (ret : Finset ByteString) :
    (if (encode before).length ≠ (encode (before ++ word)).length then
      insert (lower (encode (before ++ word ++ after)) (encode before).length
        (encode (before ++ word)).length) ret else ret) = (close word).image encode ∪ ret := by
  have hlen : (encode before).length = (encode (before ++ word)).length ↔ word = [] := by
    rw [encode_append, List.length_append, Nat.left_eq_add, List.length_eq_zero_iff, encode_eq_nil]
  by_cases hword : word = []
  · rw [if_neg (by simpa using hlen.mpr hword), close, if_pos hword]
    simp
  · rw [if_pos (by simpa using mt hlen.mp hword), lower_encode, close, if_neg hword,
      Finset.image_singleton, Finset.insert_eq]

/-- The morphemes of a word and those behind it, in the order the scan adds them. -/
theorem image_union_encode (A B : Finset (List Char)) (ret : Finset ByteString) :
    B.image encode ∪ (A.image encode ∪ ret) = (A ∪ B).image encode ∪ ret := by
  rw [Finset.image_union, ← Finset.union_assoc, Finset.union_comm (B.image encode)]

/-- From an open word on, the scan adds the morphemes of the rest of the text. -/
theorem splitLoop_encode (after : List Char) :
    ∀ (before word : List Char) (prev : Bool) (ret : Finset ByteString),
      (prev = true → word ≠ []) →
      splitLoop (encode (before ++ word ++ after)) (encode after) (encode (before ++ word)).length
        (encode before).length prev ret = (morphemesFrom after word prev).image encode ∪ ret := by
  induction after with
  | nil =>
    intro before word prev ret _
    have hclose := insert_close before word [] ret
    rw [encode_nil, splitLoop, List.append_nil] at *
    exact hclose
  | cons c after ih =>
    intro before word prev ret hprev
    have hshift : before ++ word ++ c :: after = before ++ (word ++ [c]) ++ after := by simp
    rw [encode_cons, morphemesFrom]
    rcases Nat.lt_or_ge c.toNat 128 with h | h
    · have hlen : (encode (before ++ word)).length + 1 = (encode (before ++ word ++ [c])).length := by
        rw [encode_append (before ++ word), List.length_append, encode_cons, encodeChar_ascii h]
        rfl
      rw [encodeChar_ascii h, List.singleton_append, splitLoop, isupper_ascii h, islower_ascii h]
      by_cases hsep : c = '_'
      · -- the next word opens behind the separator
        have hnext := ih (before ++ word ++ [c]) [] c.isLower
          ((close word).image encode ∪ ret) (by rw [hsep]; decide)
        rw [if_pos ((eq_underscore_iff h).mpr hsep), if_pos hsep, insert_close, hlen]
        simp only [List.append_nil, List.append_assoc, List.singleton_append] at hnext ⊢
        have hlow : c.isLower = false := by rw [hsep]; decide
        rw [hnext, hlow, image_union_encode]
      · rw [if_neg (mt (eq_underscore_iff h).mp hsep), if_neg hsep]
        by_cases hcut : (c.isUpper && prev) = true
        · -- the next word opens with the uppercase letter
          obtain ⟨hup, hlow⟩ := Bool.and_eq_true_iff.mp hcut
          have hnotlow : c.isLower = false := by
            have hrange := isUpper_iff.mp hup
            rw [Bool.eq_false_iff, Ne, isLower_iff]
            omega
          have hword := hprev hlow
          have hnext := ih (before ++ word) [c] false
            ((close word).image encode ∪ ret) (by simp)
          have hclose : insert (lower (encode (before ++ word ++ c :: after)) (encode before).length
              (encode (before ++ word)).length) ret = (close word).image encode ∪ ret := by
            rw [lower_encode, close, if_neg hword, Finset.image_singleton, Finset.insert_eq]
          rw [if_pos hcut, if_pos hcut, hclose, hnotlow, hlen]
          simp only [List.append_assoc, List.singleton_append] at hnext ⊢
          rw [hnext, image_union_encode]
        · have hnext := ih before (word ++ [c]) c.isLower ret (by simp)
          rw [← List.append_assoc] at hnext
          rw [if_neg hcut, if_neg hcut, hlen, hshift, ← List.append_assoc]
          exact hnext
    · obtain ⟨hsep, hup, hlow⟩ := high_char h
      have hlen : (encode (before ++ word)).length + (encodeChar c).length =
          (encode (before ++ (word ++ [c]))).length := by
        rw [← List.append_assoc, encode_append (before ++ word), List.length_append, encode_cons,
          encode_nil, List.append_nil]
      rw [splitLoop_high _ (fun b hb => le_of_mem_encodeChar h hb) (encodeChar_ne_nil c),
        if_neg hsep, hup, Bool.false_and, if_neg Bool.false_ne_true, hlow, hlen, hshift]
      exact ih before (word ++ [c]) false ret (by simp)

end Scan

/-- The look at the first byte decides nothing: no word ends before it. -/
theorem splitLoop_start (input : ByteString) :
    splitLoop input input 0 0 (islower (charToInt (input.headD 0))) ∅ =
      splitLoop input input 0 0 false ∅ := by
  cases input with
  | nil => rfl
  | cons c rest =>
    have hcut : (isupper (charToInt c) && islower (charToInt c)) = false := by
      cases hlow : islower (charToInt c) with
      | false => exact Bool.and_false _
      | true => rw [not_isupper_of_islower hlow, Bool.false_and]
    rw [List.headD_cons, splitLoop, splitLoop, hcut, Bool.and_false]

theorem split_encode (text : List Char) : split (encode text) = (morphemes text).image encode := by
  cases text with
  | nil => rfl
  | cons c rest =>
    have hscan := splitLoop_encode (c :: rest) [] [] false ∅ (by simp)
    rw [split, splitLoop_start]
    simpa [morphemes] using hscan

/-- What is found is text again. -/
theorem decode_of_mem_split {text : List Char} {m : ByteString} (hm : m ∈ split (encode text)) :
    ∃ word ∈ morphemes text, decode m = some word := by
  rw [split_encode] at hm
  obtain ⟨word, hword, rfl⟩ := Finset.mem_image.mp hm
  exact ⟨word, hword, decode_encode word⟩

/-- **The splitter on text in UTF-8** works on its characters: the morphemes of the encoding are
the encodings of the morphemes, so that none of them is cut inside a character, and different
morphemes stay different. -/
theorem split_utf8 (text : List Char) :
    split (encode text) = (morphemes text).image encode ∧
      (split (encode text)).card = (morphemes text).card ∧
      ∀ m ∈ split (encode text), ∃ word ∈ morphemes text, decode m = some word := by
  refine ⟨split_encode text, ?_, fun m hm => decode_of_mem_split hm⟩
  rw [split_encode, Finset.card_image_of_injective _ encode_injective]

end SwapDetector.Proofs.TextSplitting
