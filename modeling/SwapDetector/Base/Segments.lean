import Mathlib.Order.Nat

/-! # Cutting a list into segments

A list is cut at its separators, which belong to no segment, and between two
neighbours where a second relation holds. `IsSegment` says which index ranges are
left. A scan from left to right has an open segment `a` up to its position `cur`;
`Open` is what it knows of it, and each step either keeps it open or closes it.
-/
namespace SwapDetector.Base.Segments

variable {α : Type} (sep : α → Prop) (cut : α → α → Prop) (s : List α)

/-- A separator stands at an index. -/
def SepAt (k : Nat) : Prop := ∃ c, s[k]? = some c ∧ sep c

/-- The list is cut between an index and the one before it. -/
def CutAt (k : Nat) : Prop := 0 < k ∧ ∃ c d, s[k - 1]? = some c ∧ s[k]? = some d ∧ cut c d

/-- The indices from `a` up to, and without, `b` are a segment. -/
structure IsSegment (a b : Nat) : Prop where
  lt : a < b
  le : b ≤ s.length
  noSep : ∀ k, a ≤ k → k < b → ¬ SepAt sep s k
  noCut : ∀ k, a < k → k < b → ¬ CutAt cut s k
  starts : a = 0 ∨ SepAt sep s (a - 1) ∨ CutAt cut s a
  ends : b = s.length ∨ SepAt sep s b ∨ CutAt cut s b

/-- A segment may have started at `a`, and nothing has ended it before `cur`. It is empty
only at the start of the list and behind a separator. -/
structure Open (a cur : Nat) : Prop where
  le : a ≤ cur
  noSep : ∀ k, a ≤ k → k < cur → ¬ SepAt sep s k
  noCut : ∀ k, a < k → k < cur → ¬ CutAt cut s k
  starts : a = 0 ∨ SepAt sep s (a - 1) ∨ CutAt cut s a
  fresh : a = cur → cur = 0 ∨ SepAt sep s (cur - 1)

namespace Open
variable {sep cut s} {a b cur a' b' : Nat}

theorem start : Open sep cut s 0 0 where
  le := le_rfl
  noSep := fun _ _ hk => absurd hk (by omega)
  noCut := fun _ _ hk => absurd hk (by omega)
  starts := .inl rfl
  fresh := fun _ => .inl rfl

/-- A step over an element at which nothing ends. -/
theorem next (h : Open sep cut s a cur) (hsep : ¬ SepAt sep s cur) (hcut : ¬ CutAt cut s cur) :
    Open sep cut s a (cur + 1) where
  le := h.le.trans (Nat.le_succ cur)
  noSep := by
    intro k hak hk
    by_cases hkc : k = cur
    · rwa [hkc]
    · exact h.noSep k hak (by omega)
  noCut := by
    intro k hak hk
    by_cases hkc : k = cur
    · rwa [hkc]
    · exact h.noCut k hak (by omega)
  starts := h.starts
  fresh := fun heq => absurd heq (by have := h.le; omega)

/-- A step over a separator: the next segment opens behind it. -/
theorem next_sep (hsep : SepAt sep s cur) : Open sep cut s (cur + 1) (cur + 1) where
  le := le_rfl
  noSep := fun _ _ hk => absurd hk (by omega)
  noCut := fun _ _ hk => absurd hk (by omega)
  starts := .inr (.inl hsep)
  fresh := fun _ => .inr hsep

/-- A step over the first element behind a cut: the next segment opens with it. -/
theorem next_cut (hsep : ¬ SepAt sep s cur) (hcut : CutAt cut s cur) :
    Open sep cut s cur (cur + 1) where
  le := Nat.le_succ cur
  noSep := by
    intro k hck hk
    have hkc : k = cur := by omega
    rwa [hkc]
  noCut := fun _ _ hk => absurd hk (by omega)
  starts := .inr (.inr hcut)
  fresh := fun heq => absurd heq (by omega)

/-- Where no cut follows a separator, a cut does not close an empty segment. -/
theorem lt_of_cutAt (h : Open sep cut s a cur) (hcut : CutAt cut s cur)
    (hsepcut : ∀ c d, sep c → ¬ cut c d) : a < cur := by
  refine lt_of_le_of_ne h.le fun heq => ?_
  obtain ⟨hpos, c, d, hc, -, hcd⟩ := hcut
  rcases h.fresh heq with hzero | ⟨c', hc', hsep⟩
  · omega
  · rw [hc] at hc'
    cases hc'
    exact hsepcut c d hsep hcd

/-- Where something ends, the open segment is one unless it is empty. -/
theorem isSegment (h : Open sep cut s a cur) (hlt : a < cur) (hle : cur ≤ s.length)
    (hends : cur = s.length ∨ SepAt sep s cur ∨ CutAt cut s cur) : IsSegment sep cut s a cur :=
  ⟨hlt, hle, h.noSep, h.noCut, h.starts, hends⟩

/-- A segment from `a` on is the open one, or begins at the position of the scan or
behind it. -/
theorem segment_cases (h : Open sep cut s a cur) (hseg : IsSegment sep cut s a' b')
    (ha : a ≤ a') (hcur : cur ≤ s.length) : (a' = a ∧ cur ≤ b') ∨ (a < a' ∧ cur ≤ a') := by
  by_cases heq : a' = a
  · refine .inl ⟨heq, ?_⟩
    by_contra hlt
    have hab := hseg.lt
    rcases hseg.ends with hend | hsep | hcut
    · omega
    · exact h.noSep b' (by omega) (by omega) hsep
    · exact h.noCut b' (by omega) (by omega) hcut
  · refine .inr ⟨by omega, ?_⟩
    by_contra hlt
    rcases hseg.starts with hzero | hsep | hcut
    · omega
    · exact h.noSep (a' - 1) (by omega) (by omega) hsep
    · exact h.noCut a' (by omega) (by omega) hcut

/-- The segments from an open one on, at the end of the list. -/
theorem segment_iff_end (h : Open sep cut s a s.length) :
    (a ≤ a' ∧ IsSegment sep cut s a' b') ↔ a < s.length ∧ a' = a ∧ b' = s.length := by
  constructor
  · intro hseg
    obtain ⟨ha, hseg⟩ := hseg
    have hlt := hseg.lt
    have hle := hseg.le
    rcases h.segment_cases hseg ha le_rfl with ⟨heq, hb⟩ | ⟨-, hb⟩
    · exact ⟨by omega, heq, by omega⟩
    · omega
  · intro hend
    obtain ⟨hlt, rfl, rfl⟩ := hend
    exact ⟨le_rfl, h.isSegment hlt le_rfl (.inl rfl)⟩

/-- The segments from an open one on, at a separator. -/
theorem segment_iff_sep (h : Open sep cut s a cur) (hcur : cur < s.length)
    (hsep : SepAt sep s cur) : (a ≤ a' ∧ IsSegment sep cut s a' b') ↔
      (a < cur ∧ a' = a ∧ b' = cur) ∨ (cur + 1 ≤ a' ∧ IsSegment sep cut s a' b') := by
  have hle := h.le
  constructor
  · intro hseg
    obtain ⟨ha, hseg⟩ := hseg
    have hlt := hseg.lt
    have hout : ¬ (a' ≤ cur ∧ cur < b') := fun hin => hseg.noSep cur hin.1 hin.2 hsep
    rcases h.segment_cases hseg ha hcur.le with ⟨heq, hb⟩ | ⟨-, hb⟩
    · exact .inl ⟨by omega, heq, by omega⟩
    · exact .inr ⟨by omega, hseg⟩
  · intro hseg
    rcases hseg with ⟨hlt, rfl, rfl⟩ | ⟨ha, hseg⟩
    · exact ⟨le_rfl, h.isSegment hlt hcur.le (.inr (.inl hsep))⟩
    · exact ⟨by omega, hseg⟩

/-- The segments from an open one on, at a cut. -/
theorem segment_iff_cut (h : Open sep cut s a cur) (hcur : cur < s.length)
    (hcut : CutAt cut s cur) (hlt : a < cur) : (a ≤ a' ∧ IsSegment sep cut s a' b') ↔
      (a' = a ∧ b' = cur) ∨ (cur ≤ a' ∧ IsSegment sep cut s a' b') := by
  constructor
  · intro hseg
    obtain ⟨ha, hseg⟩ := hseg
    have hout : ¬ (a' < cur ∧ cur < b') := fun hin => hseg.noCut cur hin.1 hin.2 hcut
    rcases h.segment_cases hseg ha hcur.le with ⟨heq, hb⟩ | ⟨-, hb⟩
    · exact .inl ⟨heq, by omega⟩
    · exact .inr ⟨hb, hseg⟩
  · intro hseg
    rcases hseg with ⟨rfl, rfl⟩ | ⟨ha, hseg⟩
    · exact ⟨le_rfl, h.isSegment hlt hcur.le (.inr (.inr hcut))⟩
    · exact ⟨by omega, hseg⟩

end Open

/-! ## Joining two lists at a separator

A separator next to which nothing is cut keeps the segments of its two sides apart. -/
section Join
variable {sep cut s} {t : List α} {x : α} {a b k : Nat}

theorem sepAt_join_left (hk : k < s.length) : SepAt sep (s ++ x :: t) k ↔ SepAt sep s k := by
  unfold SepAt
  rw [List.getElem?_append_left hk]

theorem sepAt_join (hx : sep x) : SepAt sep (s ++ x :: t) s.length :=
  ⟨x, by simp, hx⟩

theorem getElem?_join_right : (s ++ x :: t)[s.length + 1 + k]? = t[k]? := by
  rw [Nat.add_assoc, List.getElem?_append_right (Nat.le_add_right _ _), Nat.add_sub_cancel_left,
    Nat.add_comm 1 k, List.getElem?_cons_succ]

theorem sepAt_join_right : SepAt sep (s ++ x :: t) (s.length + 1 + k) ↔ SepAt sep t k := by
  unfold SepAt
  rw [getElem?_join_right]

theorem cutAt_join_left (hk : k < s.length) : CutAt cut (s ++ x :: t) k ↔ CutAt cut s k := by
  unfold CutAt
  rw [List.getElem?_append_left hk, List.getElem?_append_left (by omega)]

theorem cutAt_join_right (hx : ∀ d, ¬ cut x d) :
    CutAt cut (s ++ x :: t) (s.length + 1 + k) ↔ CutAt cut t k := by
  unfold CutAt
  cases k with
  | zero =>
    have hlast : (s ++ x :: t)[s.length + 1 + 0 - 1]? = some x := by simp
    rw [hlast]
    constructor
    · intro h
      obtain ⟨-, c, d, hc, -, hcd⟩ := h
      cases hc
      exact absurd hcd (hx d)
    · intro h
      exact absurd h.1 (lt_irrefl 0)
  | succ k =>
    have hback : s.length + 1 + (k + 1) - 1 = s.length + 1 + k := by omega
    have hpos : 0 < s.length + 1 + (k + 1) ↔ 0 < k + 1 := by omega
    rw [hback, getElem?_join_right, getElem?_join_right, hpos, Nat.add_sub_cancel]

/-- The segments that end no later than the separator are those of the left side. -/
theorem isSegment_join_left (hsep : sep x) (hb : b ≤ s.length) :
    IsSegment sep cut (s ++ x :: t) a b ↔ IsSegment sep cut s a b := by
  constructor
  · intro h
    have hlt := h.lt
    refine ⟨hlt, hb, fun k hak hk => ?_, fun k hak hk => ?_, ?_, ?_⟩
    · exact mt (sepAt_join_left (by omega)).mpr (h.noSep k hak hk)
    · exact mt (cutAt_join_left (by omega)).mpr (h.noCut k hak hk)
    · exact h.starts.imp_right
        (Or.imp (sepAt_join_left (by omega)).mp (cutAt_join_left (by omega)).mp)
    · rcases hb.eq_or_lt with heq | hblt
      · exact .inl heq
      · refine .inr ?_
        rcases h.ends with hlen | hend | hend
        · simp at hlen
          omega
        · exact .inl ((sepAt_join_left hblt).mp hend)
        · exact .inr ((cutAt_join_left hblt).mp hend)
  · intro h
    have hlt := h.lt
    refine ⟨hlt, by simp; omega, fun k hak hk => ?_, fun k hak hk => ?_, ?_, .inr ?_⟩
    · exact mt (sepAt_join_left (by omega)).mp (h.noSep k hak hk)
    · exact mt (cutAt_join_left (by omega)).mp (h.noCut k hak hk)
    · exact h.starts.imp_right
        (Or.imp (sepAt_join_left (by omega)).mpr (cutAt_join_left (by omega)).mpr)
    · rcases hb.eq_or_lt with heq | hblt
      · rw [heq]
        exact .inl (sepAt_join hsep)
      · rcases h.ends with hlen | hend | hend
        · omega
        · exact .inl ((sepAt_join_left hblt).mpr hend)
        · exact .inr ((cutAt_join_left hblt).mpr hend)

/-- The segments behind the separator are those of the right side. -/
theorem isSegment_join_right (hsep : sep x) (hcut : ∀ d, ¬ cut x d) :
    IsSegment sep cut (s ++ x :: t) (s.length + 1 + a) (s.length + 1 + b) ↔
      IsSegment sep cut t a b := by
  have hlen : s.length + 1 + b = (s ++ x :: t).length ↔ b = t.length := by
    simp
    omega
  have hback : SepAt sep (s ++ x :: t) (s.length + 1 + a - 1) ↔ a = 0 ∨ SepAt sep t (a - 1) := by
    cases a with
    | zero => simpa using sepAt_join (t := t) hsep
    | succ a =>
      rw [show s.length + 1 + (a + 1) - 1 = s.length + 1 + a from by omega, sepAt_join_right]
      simp
  constructor
  · intro h
    refine ⟨by have := h.lt; omega, by have := h.le; simp at this; omega, fun k hak hk => ?_,
      fun k hak hk => ?_, ?_, ?_⟩
    · exact mt sepAt_join_right.mpr (h.noSep _ (by omega) (by omega))
    · exact mt (cutAt_join_right hcut).mpr (h.noCut _ (by omega) (by omega))
    · rcases h.starts with hzero | hstart | hstart
      · omega
      · exact or_assoc.mp (.inl (hback.mp hstart))
      · exact .inr (.inr ((cutAt_join_right hcut).mp hstart))
    · exact h.ends.imp hlen.mp (Or.imp sepAt_join_right.mp (cutAt_join_right hcut).mp)
  · intro h
    refine ⟨by have := h.lt; omega, by have := h.le; simp; omega, fun k hak hk => ?_,
      fun k hak hk => ?_, .inr ?_, ?_⟩
    · rw [show k = s.length + 1 + (k - (s.length + 1)) from by omega]
      exact mt sepAt_join_right.mp (h.noSep _ (by omega) (by omega))
    · rw [show k = s.length + 1 + (k - (s.length + 1)) from by omega]
      exact mt (cutAt_join_right hcut).mp (h.noCut _ (by omega) (by omega))
    · rcases or_assoc.mpr h.starts with hstart | hstart
      · exact .inl (hback.mpr hstart)
      · exact .inr ((cutAt_join_right hcut).mpr hstart)
    · exact h.ends.imp hlen.mpr (Or.imp sepAt_join_right.mpr (cutAt_join_right hcut).mpr)

/-- **Joining**: the segments are those of the left side and, moved behind the separator,
those of the right side. -/
theorem isSegment_join_iff (hsep : sep x) (hcut : ∀ d, ¬ cut x d) :
    IsSegment sep cut (s ++ x :: t) a b ↔ (b ≤ s.length ∧ IsSegment sep cut s a b) ∨
      ∃ a' b', (a = s.length + 1 + a' ∧ b = s.length + 1 + b') ∧ IsSegment sep cut t a' b' := by
  constructor
  · intro h
    have hlt := h.lt
    by_cases hb : b ≤ s.length
    · exact .inl ⟨hb, (isSegment_join_left hsep hb).mp h⟩
    · -- the separator is in no segment
      have ha : s.length < a := by
        by_contra hle
        exact h.noSep s.length (by omega) (by omega) (sepAt_join hsep)
      have heqa : a = s.length + 1 + (a - (s.length + 1)) := by omega
      have heqb : b = s.length + 1 + (b - (s.length + 1)) := by omega
      rw [heqa, heqb, isSegment_join_right hsep hcut] at h
      exact .inr ⟨_, _, ⟨heqa, heqb⟩, h⟩
  · intro h
    rcases h with ⟨hb, h⟩ | ⟨a', b', ⟨rfl, rfl⟩, h⟩
    · exact (isSegment_join_left hsep hb).mpr h
    · exact (isSegment_join_right hsep hcut).mpr h

end Join

end SwapDetector.Base.Segments
