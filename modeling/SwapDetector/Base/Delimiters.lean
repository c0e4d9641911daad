import Mathlib.Data.List.Basic

/-! # Delimited words

Words that do not contain their delimiter can be read back from a text, also when another
symbol before the delimiter says that the list goes on.
-/
namespace SwapDetector.Base.Delimiters

variable {α : Type} {c d : α}

/-- A word and what comes after its delimiter. -/
theorem append_cons_inj {w w' x x' : List α} (hw : d ∉ w) (hw' : d ∉ w')
    (h : w ++ d :: x = w' ++ d :: x') : w = w' ∧ x = x' := by
  induction w generalizing w' with
  | nil =>
    cases w' with
    | nil => exact ⟨rfl, (List.cons.inj h).2⟩
    | cons a w' => exact absurd ((List.cons.inj h).1 ▸ List.mem_cons_self ..) hw'
  | cons a w ih =>
    cases w' with
    | nil => exact absurd ((List.cons.inj h).1 ▸ List.mem_cons_self ..) hw
    | cons a' w' =>
      obtain ⟨rfl, htail⟩ := List.cons.inj h
      obtain ⟨rfl, rfl⟩ := ih (fun hd => hw (List.mem_cons_of_mem a hd))
        (fun hd => hw' (List.mem_cons_of_mem a hd)) htail
      exact ⟨rfl, rfl⟩

/-- The words of a list, each with `c` and `d` behind it but the last one, and what comes after
another `d`. -/
theorem intercalate_append_inj {l l' : List (List α)} {x x' : List α} (hcd : c ≠ d)
    (hl : l ≠ []) (hl' : l' ≠ []) (hwords : ∀ w ∈ l, c ∉ w ∧ d ∉ w) (hwords' : ∀ w ∈ l', c ∉ w ∧ d ∉ w)
    (h : [c, d].intercalate l ++ d :: x = [c, d].intercalate l' ++ d :: x') : l = l' ∧ x = x' := by
  have hmarked {w : List α} (hw : d ∉ w) : d ∉ w ++ [c] := by
    rw [List.mem_append, List.mem_singleton]
    exact not_or.mpr ⟨hw, hcd.symm⟩
  have hends {w w' rest : List α} (hw : c ∉ w ∧ d ∉ w) (hw' : d ∉ w') {y : List α}
      (h : w ++ d :: y = w' ++ [c, d] ++ rest) : False := by
    have hsplit : w ++ d :: y = (w' ++ [c]) ++ d :: rest := by simpa using h
    have hword := (append_cons_inj hw.2 (hmarked hw') hsplit).1
    exact hw.1 (hword ▸ List.mem_append_right w' (List.mem_singleton_self c))
  induction l generalizing l' with
  | nil => exact absurd rfl hl
  | cons w l ih =>
    obtain ⟨w', l', rfl⟩ := List.exists_cons_of_ne_nil hl'
    have hw := hwords w (List.mem_cons_self ..)
    have hw' := hwords' w' (List.mem_cons_self ..)
    cases l with
    | nil =>
      cases l' with
      | nil =>
        rw [List.intercalate_singleton, List.intercalate_singleton] at h
        obtain ⟨rfl, rfl⟩ := append_cons_inj hw.2 hw'.2 h
        exact ⟨rfl, rfl⟩
      | cons v' l' =>
        rw [List.intercalate_singleton, List.intercalate_cons_cons, List.append_assoc _ _ (d :: x')] at h
        exact (hends hw hw'.2 h).elim
    | cons v l =>
      cases l' with
      | nil =>
        rw [List.intercalate_singleton, List.intercalate_cons_cons, List.append_assoc _ _ (d :: x)] at h
        exact (hends hw' hw.2 h.symm).elim
      | cons v' l' =>
        rw [List.intercalate_cons_cons, List.intercalate_cons_cons] at h
        have hsplit : (w ++ [c]) ++ d :: ([c, d].intercalate (v :: l) ++ d :: x) =
            (w' ++ [c]) ++ d :: ([c, d].intercalate (v' :: l') ++ d :: x') := by simpa using h
        obtain ⟨hword, hrest⟩ := append_cons_inj (hmarked hw.2) (hmarked hw'.2) hsplit
        obtain ⟨htail, rfl⟩ := ih (List.cons_ne_nil v l) (List.cons_ne_nil v' l')
          (fun u hu => hwords u (List.mem_cons_of_mem w hu))
          (fun u hu => hwords' u (List.mem_cons_of_mem w' hu)) hrest
        rw [List.append_cancel_right hword, htail]
        exact ⟨rfl, rfl⟩

end SwapDetector.Base.Delimiters
