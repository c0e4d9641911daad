import Mathlib.Data.List.Basic

/-! # Quoted text

A quoted text goes on until a quote that is not doubled. A doubled quote stands for one, so that
a text reads back as it was written exactly when its quotes were doubled.
-/
namespace SwapDetector.Base.QuotedText

variable {α : Type} [DecidableEq α] (q : α)

/-- A text with its quotes doubled. -/
def escape (text : List α) : List α := text.flatMap fun c => if c = q then [q, q] else [c]

/-- The text up to the closing quote, and what comes after it. -/
def unquote : List α → Option (List α × List α)
  | [] => none
  | [c] => if c = q then some ([], []) else none
  | c :: d :: z =>
    if c = q then
      if d = q then (unquote z).map (Prod.map (q :: ·) id) else some ([], d :: z)
    else (unquote (d :: z)).map (Prod.map (c :: ·) id)

variable {q} {c : α} {text rest rest' : List α}

theorem escape_cons_self : escape q (q :: text) = q :: q :: escape q text := by simp [escape]

theorem escape_cons_ne (h : c ≠ q) : escape q (c :: text) = c :: escape q text := by
  simp [escape, h]

theorem escape_of_not_mem (h : q ∉ text) : escape q text = text := by
  induction text with
  | nil => rfl
  | cons c text ih =>
    rw [List.mem_cons, not_or] at h
    rw [escape_cons_ne (Ne.symm h.1), ih h.2]

theorem mem_escape (h : c ∈ text) : c ∈ escape q text := by
  refine List.mem_flatMap.mpr ⟨c, h, ?_⟩
  split
  · rename_i hc
    simp [hc]
  · exact List.mem_singleton_self c

theorem unquote_close (h : rest.head? ≠ some q) : unquote q (q :: rest) = some ([], rest) := by
  cases rest with
  | nil => simp [unquote]
  | cons d z =>
    have hd : d ≠ q := fun hd => h (by simp [hd])
    rw [unquote, if_pos rfl, if_neg hd]

theorem unquote_double (z : List α) :
    unquote q (q :: q :: z) = (unquote q z).map (Prod.map (q :: ·) id) := by
  rw [unquote, if_pos rfl, if_pos rfl]

theorem unquote_cons_ne (h : c ≠ q) (z : List α) :
    unquote q (c :: z) = (unquote q z).map (Prod.map (c :: ·) id) := by
  cases z with
  | nil => simp [unquote, h]
  | cons d z => rw [unquote, if_neg h]

/-- What is written with doubled quotes is read back. -/
theorem unquote_escape (h : rest.head? ≠ some q) :
    unquote q (escape q text ++ q :: rest) = some (text, rest) := by
  induction text with
  | nil => exact unquote_close h
  | cons c text ih =>
    by_cases hc : c = q
    · subst hc
      rw [escape_cons_self, List.cons_append, List.cons_append, unquote_double, ih]
      rfl
    · rw [escape_cons_ne hc, List.cons_append, unquote_cons_ne hc, ih]
      rfl

/-- A text without quotes reads back as it stands. -/
theorem unquote_append (h : rest.head? ≠ some q) (htext : q ∉ text) :
    unquote q (text ++ q :: rest) = some (text, rest) := by
  have hread : unquote q (escape q text ++ q :: rest) = some (text, rest) := unquote_escape h
  rwa [escape_of_not_mem htext] at hread

/-- What is read was written with doubled quotes, up to a quote that is not. -/
theorem eq_escape_of_unquote {z : List α} (h : unquote q z = some (text, rest)) :
    z = escape q text ++ q :: rest ∧ rest.head? ≠ some q := by
  fun_induction unquote q z generalizing text with
  | case1 => cases h
  | case2 =>
    cases h
    simp [escape]
  | case3 => cases h
  | case4 z ih =>
    obtain ⟨⟨v, r⟩, hv, hmap⟩ := Option.map_eq_some_iff.mp h
    cases hmap
    obtain ⟨rfl, hrest⟩ := ih hv
    rw [escape_cons_self]
    exact ⟨rfl, hrest⟩
  | case5 d z hd =>
    cases h
    simp [escape, hd]
  | case6 c d z hc ih =>
    obtain ⟨⟨v, r⟩, hv, hmap⟩ := Option.map_eq_some_iff.mp h
    cases hmap
    obtain ⟨hz, hrest⟩ := ih hv
    rw [hz, escape_cons_ne hc]
    exact ⟨rfl, hrest⟩

/-- Doubled quotes do not end where the text itself ends: the quotes it starts with only move. -/
theorem quotes_escape_ne (k : Nat) (h : rest.head? ≠ some q) :
    List.replicate (k + 1) q ++ escape q text ++ q :: rest' ≠ text ++ q :: rest := by
  induction text generalizing k with
  | nil =>
    intro heq
    have hrest : rest = List.replicate k q ++ q :: rest' := by
      simpa [List.replicate_succ, escape] using heq.symm
    cases k with
    | zero => exact h (by simp [hrest])
    | succ k => exact h (by simp [hrest, List.replicate_succ])
  | cons c text ih =>
    intro heq
    rw [List.replicate_succ] at heq
    simp only [List.cons_append, List.cons.injEq] at heq
    obtain ⟨rfl, htail⟩ := heq
    apply ih (k + 1)
    rw [← htail, escape_cons_self]
    simp [List.replicate_succ']

/-- A text that reads back without doubled quotes has none. -/
theorem not_mem_of_unquote (h : rest.head? ≠ some q)
    (hread : unquote q (text ++ q :: rest) = some (text, rest')) : q ∉ text := by
  have hwritten := (eq_escape_of_unquote hread).1
  clear hread
  induction text with
  | nil => exact List.not_mem_nil
  | cons c text ih =>
    by_cases hc : c = q
    · subst hc
      rw [escape_cons_self] at hwritten
      have hshift := (List.cons.inj hwritten).2
      exact absurd hshift.symm (quotes_escape_ne 0 h)
    · rw [escape_cons_ne hc] at hwritten
      rw [List.mem_cons, not_or]
      exact ⟨Ne.symm hc, ih (List.cons.inj hwritten).2⟩

end SwapDetector.Base.QuotedText
