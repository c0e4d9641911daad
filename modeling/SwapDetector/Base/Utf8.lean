import Mathlib.Data.List.Basic

/-! # UTF-8 over lists of bytes

The encoding of texts, with bytes as numbers below 256. Characters below 128 are one byte
each; all bytes of the other characters are 128 or more. So a byte below 128 stands for a
character of its own wherever it occurs.
-/
namespace SwapDetector.Base.Utf8

/-- The bytes of a character. -/
def encodeChar (c : Char) : List (Fin 256) := (String.utf8EncodeChar c).map UInt8.toFin

/-- The bytes of a text. -/
def encode (cs : List Char) : List (Fin 256) := cs.flatMap encodeChar

/-- The text that some bytes encode, if there is one. -/
def decode (s : List (Fin 256)) : Option (List Char) :=
  ((s.map UInt8.ofFin).toByteArray.utf8Decode?).map Array.toList

@[simp] theorem encode_nil : encode [] = [] := rfl

@[simp] theorem encode_cons (c : Char) (cs : List Char) :
    encode (c :: cs) = encodeChar c ++ encode cs := rfl

@[simp] theorem encode_append (cs ds : List Char) : encode (cs ++ ds) = encode cs ++ encode ds :=
  List.flatMap_append

theorem toByteArray_encode (cs : List Char) :
    ((encode cs).map UInt8.ofFin).toByteArray = cs.utf8Encode := by
  have hback (bs : List UInt8) : (bs.map UInt8.toFin).map UInt8.ofFin = bs := by
    rw [List.map_map]
    exact List.map_id bs
  have hlist : (encode cs).map UInt8.ofFin = cs.flatMap String.utf8EncodeChar := by
    induction cs with
    | nil => rfl
    | cons c cs ih =>
      rw [encode_cons, List.map_append, ih, encodeChar, hback]
      rfl
  rw [hlist]
  rfl

/-- What is encoded is decoded again. -/
@[simp] theorem decode_encode (cs : List Char) : decode (encode cs) = some cs := by
  rw [decode, toByteArray_encode, List.utf8Decode?_utf8Encode]
  rfl

theorem encode_injective : Function.Injective encode := by
  intro cs ds h
  have hdecode : decode (encode cs) = decode (encode ds) := congrArg decode h
  simpa using hdecode

/-- Only encodings are decoded. -/
theorem decode_eq_some_iff {s : List (Fin 256)} {cs : List Char} :
    decode s = some cs ↔ s = encode cs := by
  constructor
  · intro h
    obtain ⟨a, ha, rfl⟩ := Option.map_eq_some_iff.mp h
    have hinj : Function.Injective UInt8.ofFin := fun _ _ h => congrArg UInt8.toFin h
    have hsome : ((s.map UInt8.ofFin).toByteArray.utf8Decode?).isSome = true := by rw [ha]; rfl
    have hbytes := ByteArray.utf8Encode_get_utf8Decode? (h := hsome)
    have hget : ((s.map UInt8.ofFin).toByteArray.utf8Decode?).get hsome = a := by simp [ha]
    rw [hget, ← toByteArray_encode, List.toByteArray_inj] at hbytes
    exact (List.map_injective_iff.mpr hinj hbytes).symm
  · rintro rfl
    exact decode_encode cs

/-- A character below 128 is one byte. -/
theorem encodeChar_ascii {c : Char} (h : c.toNat < 128) : encodeChar c = [Fin.ofNat 256 c.toNat] := by
  have hle : c.val.toNat ≤ 127 := Nat.lt_succ_iff.mp h
  simp only [encodeChar, String.utf8EncodeChar, hle, if_true]
  rfl

/-- The bytes of every other character are 128 or more. -/
theorem le_of_mem_encodeChar {c : Char} (h : 128 ≤ c.toNat) {b : Fin 256} (hb : b ∈ encodeChar c) :
    128 ≤ b.val := by
  have hgt : ¬ c.val.toNat ≤ 127 := Nat.not_le.mpr h
  have hval (n : Nat) : (UInt8.toFin (UInt8.ofNat n)).val = n % 256 := rfl
  simp only [encodeChar, String.utf8EncodeChar, hgt, if_false] at hb
  split_ifs at hb <;> simp only [List.map_cons, List.map_nil, List.mem_cons, List.not_mem_nil,
    or_false] at hb <;> rcases hb with rfl | rfl | rfl | rfl <;> rw [hval] <;> omega

theorem encodeChar_ne_nil (c : Char) : encodeChar c ≠ [] := by
  intro h
  exact String.utf8EncodeChar_ne_nil (List.map_eq_nil_iff.mp h)

@[simp] theorem encode_eq_nil {cs : List Char} : encode cs = [] ↔ cs = [] := by
  constructor
  · intro h
    exact encode_injective h
  · rintro rfl
    rfl

end SwapDetector.Base.Utf8
