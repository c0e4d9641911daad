import Mathlib.Algebra.BigOperators.Group.List.Basic
import Mathlib.Algebra.GroupWithZero.Nat
import Mathlib.Data.Multiset.AddSub

/-! # Heaps of reference-counted objects

Objects of any type `V` of values, where `refs v` lists the references a value holds. A
reference is owned by another object or from outside. `Counted h own` says that the counts
of a heap are those of its objects and of the outside owners `own`. Releasing a reference
may free its object, which releases the references the object held, and so on.
-/
namespace SwapDetector.Base.ReferenceCounts

structure Cell (V : Type) where
  count : Nat
  value : V

/-- The objects by place, which is what a reference names. The place of a freed object is `none`
and is not used again. -/
abbrev Heap (V : Type) := List (Option (Cell V))

variable {V : Type}

def cellAt (h : Heap V) (r : Nat) : Option (Cell V) := h[r]?.join

def valueAt (h : Heap V) (r : Nat) : Option V := (cellAt h r).map Cell.value

def countAt (h : Heap V) (r : Nat) : Nat := ((cellAt h r).map Cell.count).getD 0

/-- The sum of all counts. -/
def total (h : Heap V) : Nat := (h.map fun o => (o.map Cell.count).getD 0).sum

/-- A new object, with one owner. -/
def alloc (h : Heap V) (v : V) : Nat × Heap V := (h.length, h ++ [some ⟨1, v⟩])

/-- One more owner of an object. -/
def retain (h : Heap V) (r : Nat) : Option (Heap V) :=
  (cellAt h r).map fun c => h.set r (some { c with count := c.count + 1 })

/-- A new value in the place of the old one. -/
def store (h : Heap V) (r : Nat) (v : V) : Option (Heap V) :=
  (cellAt h r).map fun c => h.set r (some { c with value := v })

variable (refs : V → List Nat)

/-- Gives up the references of a work list, and those of every object that this frees. It
fails on a reference to a freed object. -/
def releaseAll : Nat → List Nat → Heap V → Option (Heap V)
  | _, [], h => some h
  | 0, _ :: _, _ => none
  | fuel + 1, r :: work, h =>
    match cellAt h r with
    | none => none
    | some c =>
      if c.count = 1 then releaseAll fuel (refs c.value ++ work) (h.set r none)
      else releaseAll fuel work (h.set r (some { c with count := c.count - 1 }))

/-- Every round lowers the sum of all counts. -/
def release (h : Heap V) (r : Nat) : Option (Heap V) := releaseAll refs (total h) [r] h

/-- How often an object holds a reference. -/
def holds (o : Option (Cell V)) (r : Nat) : Nat := ((o.map fun c => refs c.value).getD []).count r

/-- How often the objects of a heap hold a reference. -/
def held (h : Heap V) (r : Nat) : Nat := (h.map fun o => holds refs o r).sum

/-- Every count is the number of owners, and an object without owners is freed. -/
structure Counted (h : Heap V) (own : Multiset Nat) : Prop where
  count_eq : ∀ r, countAt h r = own.count r + held refs h r
  pos : ∀ r c, cellAt h r = some c → 0 < c.count

/-! ## Places -/

section Places
variable {h : Heap V} {r q : Nat} {o : Option (Cell V)} {c : Cell V}

theorem lt_of_cellAt (hc : cellAt h r = some c) : r < h.length := by
  by_contra hge
  rw [cellAt, List.getElem?_eq_none (by omega)] at hc
  cases hc

theorem cellAt_set (hr : r < h.length) : cellAt (h.set r o) q = if q = r then o else cellAt h q := by
  by_cases hq : q = r
  · subst hq
    rw [if_pos rfl, cellAt, List.getElem?_set_self hr]
    rfl
  · rw [if_neg hq, cellAt, List.getElem?_set_ne (Ne.symm hq)]
    rfl

theorem cellAt_append (v : V) :
    cellAt (h ++ [some ⟨1, v⟩]) q = if q = h.length then some ⟨1, v⟩ else cellAt h q := by
  by_cases hq : q = h.length
  · subst hq
    simp [cellAt]
  · rw [if_neg hq]
    unfold cellAt
    rcases Nat.lt_or_ge q h.length with hlt | hge
    · rw [List.getElem?_append_left hlt]
    · rw [List.getElem?_eq_none (by simp; omega), List.getElem?_eq_none hge]

theorem sum_map_set (f : Option (Cell V) → Nat) (hr : r < h.length) :
    ((h.set r o).map f).sum + f (cellAt h r) = (h.map f).sum + f o := by
  induction h generalizing r with
  | nil => simp at hr
  | cons a h ih =>
    cases r with
    | zero =>
      simp only [List.set_cons_zero, List.map_cons, List.sum_cons, cellAt, List.getElem?_cons_zero,
        Option.join_some]
      omega
    | succ r =>
      have hrest := ih (Nat.lt_of_succ_lt_succ hr)
      simp only [List.set_cons_succ, List.map_cons, List.sum_cons, cellAt,
        List.getElem?_cons_succ] at hrest ⊢
      omega

theorem held_set (hr : r < h.length) :
    held refs (h.set r o) q + holds refs (cellAt h r) q = held refs h q + holds refs o q :=
  sum_map_set (fun o => holds refs o q) hr

theorem held_append (v : V) :
    held refs (h ++ [some ⟨1, v⟩]) q = held refs h q + (refs v).count q := by
  simp [held, holds]

theorem total_set (hr : r < h.length) :
    total (h.set r o) + countAt h r = total h + (o.map Cell.count).getD 0 := by
  exact sum_map_set (fun o => (o.map Cell.count).getD 0) hr

theorem holds_le_held (hr : r < h.length) : holds refs (cellAt h r) q ≤ held refs h q := by
  have hset := held_set refs (q := q) (o := none) hr
  simp only [holds, Option.map_none, Option.getD_none, List.count_nil] at hset ⊢
  omega

/-- A reference is held when some object holds it. -/
theorem held_pos_iff : 0 < held refs h q ↔ ∃ p v, valueAt h p = some v ∧ q ∈ refs v := by
  constructor
  · intro hpos
    obtain ⟨n, hn, hne⟩ := List.exists_mem_ne_zero_of_sum_ne_zero (Nat.pos_iff_ne_zero.mp hpos)
    obtain ⟨o, ho, rfl⟩ := List.mem_map.mp hn
    obtain ⟨p, hp⟩ := List.mem_iff_getElem?.mp ho
    cases o with
    | none => exact absurd rfl hne
    | some c =>
      refine ⟨p, c.value, ?_, List.count_pos_iff.mp (Nat.pos_iff_ne_zero.mpr hne)⟩
      rw [valueAt, cellAt, hp]
      rfl
  · rintro ⟨p, v, hv, hq⟩
    obtain ⟨c, hc, rfl⟩ := Option.map_eq_some_iff.mp hv
    refine (List.count_pos_iff.mpr hq).trans_le ?_
    have hle := holds_le_held refs (q := q) (lt_of_cellAt hc)
    rwa [hc] at hle

theorem countAt_of_cellAt (hc : cellAt h r = some c) : countAt h r = c.count := by
  rw [countAt, hc]
  rfl

theorem valueAt_of_cellAt (hc : cellAt h r = some c) : valueAt h r = some c.value := by
  rw [valueAt, hc]
  rfl

end Places

/-! ## What the operations do to the owners -/

namespace Counted
variable {refs} {h : Heap V} {own own' : Multiset Nat} {r : Nat} {c : Cell V} {v : V}

/-- Everything that has an owner is there. -/
theorem exists_cellAt (hc : Counted refs h own) (h0 : 0 < own.count r + held refs h r) :
    ∃ c, cellAt h r = some c := by
  have heq := hc.count_eq r
  cases hcell : cellAt h r with
  | some c => exact ⟨c, rfl⟩
  | none =>
    rw [countAt, hcell, Option.map_none, Option.getD_none] at heq
    omega

theorem cellAt_of_mem (hc : Counted refs h own) (hr : r ∈ own) : ∃ c, cellAt h r = some c :=
  hc.exists_cellAt (by have := Multiset.count_pos.mpr hr; omega)

/-- What an object holds is there. -/
theorem cellAt_of_mem_refs (hc : Counted refs h own) (hcell : cellAt h r = some c) {q : Nat}
    (hq : q ∈ refs c.value) : ∃ d, cellAt h q = some d := by
  have hpos := (held_pos_iff refs).mpr ⟨r, c.value, valueAt_of_cellAt hcell, hq⟩
  exact hc.exists_cellAt (by omega)

theorem alloc (hc : Counted refs h ((refs v : Multiset Nat) + own)) :
    Counted refs (ReferenceCounts.alloc h v).2 (h.length ::ₘ own) := by
  constructor
  · intro q
    have heq := hc.count_eq q
    rw [Multiset.count_add, Multiset.coe_count] at heq
    rw [ReferenceCounts.alloc, held_append, countAt, cellAt_append, Multiset.count_cons]
    by_cases hq : q = h.length
    · subst hq
      have hzero : countAt h h.length = 0 := by simp [countAt, cellAt]
      simp only [if_pos, Option.map_some, Option.getD_some]
      omega
    · rw [if_neg hq, if_neg hq, ← countAt, heq]
      omega
  · intro q d hd
    rw [ReferenceCounts.alloc, cellAt_append] at hd
    split_ifs at hd
    · cases hd
      exact Nat.one_pos
    · exact hc.pos q d hd

theorem retain (hc : Counted refs h own) (hcell : cellAt h r = some c) :
    Counted refs (h.set r (some { c with count := c.count + 1 })) (r ::ₘ own) := by
  have hlt := lt_of_cellAt hcell
  constructor
  · intro q
    have heq := hc.count_eq q
    have hheld := held_set refs (q := q) (o := some { c with count := c.count + 1 }) hlt
    have hsame : holds refs (some { c with count := c.count + 1 }) q = holds refs (some c) q := rfl
    rw [hcell, hsame] at hheld
    rw [countAt, cellAt_set hlt, Multiset.count_cons]
    by_cases hq : q = r
    · subst hq
      rw [countAt_of_cellAt hcell] at heq
      simp only [if_pos, Option.map_some, Option.getD_some]
      omega
    · rw [if_neg hq, if_neg hq, ← countAt]
      omega
  · intro q d hd
    rw [cellAt_set hlt] at hd
    split_ifs at hd
    · cases hd
      exact Nat.succ_pos _
    · exact hc.pos q d hd

/-- References change hands between an object and the outside owners. -/
theorem store (hc : Counted refs h own) (hcell : cellAt h r = some c)
    (hown : own + (refs c.value : Multiset Nat) = own' + (refs v : Multiset Nat)) :
    Counted refs (h.set r (some { c with value := v })) own' := by
  have hlt := lt_of_cellAt hcell
  constructor
  · intro q
    have heq := hc.count_eq q
    have hheld := held_set refs (q := q) (o := some { c with value := v }) hlt
    have hmove := congrArg (Multiset.count q) hown
    rw [Multiset.count_add, Multiset.count_add, Multiset.coe_count, Multiset.coe_count] at hmove
    simp only [hcell, holds, Option.map_some, Option.getD_some] at hheld
    have hcount : countAt (h.set r (some { c with value := v })) q = countAt h q := by
      rw [countAt, cellAt_set hlt]
      by_cases hq : q = r
      · subst hq
        rw [if_pos rfl, countAt_of_cellAt hcell]
        rfl
      · rw [if_neg hq, ← countAt]
    omega
  · intro q d hd
    rw [cellAt_set hlt] at hd
    split_ifs at hd
    · cases hd
      exact hc.pos r c hcell
    · exact hc.pos q d hd

/-- One owner fewer, when there are others. -/
theorem lower (hc : Counted refs h (r ::ₘ own)) (hcell : cellAt h r = some c) (hcount : c.count ≠ 1) :
    Counted refs (h.set r (some { c with count := c.count - 1 })) own := by
  have hlt := lt_of_cellAt hcell
  have hpos := hc.pos r c hcell
  constructor
  · intro q
    have heq := hc.count_eq q
    have hheld := held_set refs (q := q) (o := some { c with count := c.count - 1 }) hlt
    have hsame : holds refs (some { c with count := c.count - 1 }) q = holds refs (some c) q := rfl
    rw [hcell, hsame] at hheld
    rw [Multiset.count_cons] at heq
    rw [countAt, cellAt_set hlt]
    by_cases hq : q = r
    · subst hq
      rw [countAt_of_cellAt hcell, if_pos rfl] at heq
      simp only [if_pos, Option.map_some, Option.getD_some]
      omega
    · rw [if_neg hq] at heq
      rw [if_neg hq, ← countAt]
      omega
  · intro q d hd
    rw [cellAt_set hlt] at hd
    split_ifs at hd
    · cases hd
      show 0 < c.count - 1
      omega
    · exact hc.pos q d hd

/-- The last owner gone, the references of the object are to be given up. -/
theorem free (hc : Counted refs h (r ::ₘ own)) (hcell : cellAt h r = some c) (hcount : c.count = 1) :
    Counted refs (h.set r none) ((refs c.value : Multiset Nat) + own) := by
  have hlt := lt_of_cellAt hcell
  constructor
  · intro q
    have heq := hc.count_eq q
    have hheld := held_set refs (q := q) (o := none) hlt
    have hle := holds_le_held refs (q := q) hlt
    simp only [hcell, holds, Option.map_none, Option.getD_none, List.count_nil, Option.map_some,
      Option.getD_some] at hheld hle
    rw [Multiset.count_cons] at heq
    rw [countAt, cellAt_set hlt, Multiset.count_add, Multiset.coe_count]
    by_cases hq : q = r
    · subst hq
      rw [countAt_of_cellAt hcell, hcount, if_pos rfl] at heq
      rw [if_pos rfl, Option.map_none, Option.getD_none]
      omega
    · rw [if_neg hq] at heq
      rw [if_neg hq, ← countAt]
      omega
  · intro q d hd
    rw [cellAt_set hlt] at hd
    split_ifs at hd
    exact hc.pos q d hd

/-- Whether a heap is counted can be checked place by place. -/
theorem of_places (hown : ∀ r ∈ own, r < h.length)
    (hrefs : ∀ o ∈ h, ∀ r ∈ (o.map fun c => refs c.value).getD [], r < h.length)
    (hcount : ∀ r < h.length, countAt h r = own.count r + held refs h r)
    (hpos : ∀ o ∈ h, 0 < (o.map Cell.count).getD 1) : Counted refs h own where
  count_eq := by
    intro r
    rcases Nat.lt_or_ge r h.length with hr | hr
    · exact hcount r hr
    · have hout : r ∉ own := fun hmem => absurd (hown r hmem) (Nat.not_lt.mpr hr)
      have hnone : held refs h r = 0 := by
        refine List.sum_eq_zero fun n hn => ?_
        obtain ⟨o, ho, rfl⟩ := List.mem_map.mp hn
        exact List.count_eq_zero.mpr fun hmem => absurd (hrefs o ho r hmem) (Nat.not_lt.mpr hr)
      have hzero : countAt h r = 0 := by
        rw [countAt, cellAt, List.getElem?_eq_none hr]
        rfl
      rw [hzero, hnone, Multiset.count_eq_zero_of_notMem hout]
  pos := by
    intro r c hc
    exact hpos (some c) (List.mem_of_getElem? (Option.join_eq_some_iff.mp hc))

end Counted

/-! ## Releasing -/

/-- Every member is owned from outside or held by another member. -/
def Supported (h : Heap V) (own : Multiset Nat) (S : Nat → Prop) : Prop :=
  ∀ r, S r → r ∈ own ∨ ∃ p v, S p ∧ valueAt h p = some v ∧ r ∈ refs v

/-- What giving up references leaves of a heap, when `own` are the owners that remain: no
place is added, no value changes, and what is supported stays. -/
structure Released (own : Multiset Nat) (h h' : Heap V) : Prop where
  length_eq : h'.length = h.length
  value : ∀ r v, valueAt h' r = some v → valueAt h r = some v
  kept : ∀ S, Supported refs h own S → ∀ r, S r → valueAt h' r = valueAt h r

namespace Released
variable {refs} {own : Multiset Nat} {h h' h'' : Heap V}

theorem refl : Released refs own h h := ⟨rfl, fun _ _ hv => hv, fun _ _ _ _ => rfl⟩

theorem trans (h1 : Released refs own h h') (h2 : Released refs own h' h'') :
    Released refs own h h'' where
  length_eq := h2.length_eq.trans h1.length_eq
  value := fun r v hv => h1.value r v (h2.value r v hv)
  kept := by
    intro S hS r hr
    refine (h2.kept S ?_ r hr).trans (h1.kept S hS r hr)
    intro q hq
    rcases hS q hq with hown | ⟨p, v, hp, hv, hmem⟩
    · exact .inl hown
    · exact .inr ⟨p, v, hp, (h1.kept S hS p hp).trans hv, hmem⟩

end Released

section Release
variable {refs} {h : Heap V} {own : Multiset Nat} {r : Nat} {c : Cell V}

theorem released_lower (hcell : cellAt h r = some c) (n : Nat) :
    Released refs own h (h.set r (some { c with count := n })) := by
  have hsame : ∀ q, valueAt (h.set r (some { c with count := n })) q = valueAt h q := by
    intro q
    rw [valueAt, cellAt_set (lt_of_cellAt hcell)]
    by_cases hq : q = r
    · subst hq
      rw [if_pos rfl, valueAt_of_cellAt hcell]
      rfl
    · rw [if_neg hq, valueAt]
  exact ⟨List.length_set, fun q v hv => (hsame q).symm.trans hv, fun _ _ q _ => hsame q⟩

/-- What has its last owner on the work list supports nothing. -/
theorem released_free {work : Multiset Nat} (hc : Counted refs h (r ::ₘ (work + own)))
    (hcell : cellAt h r = some c) (hcount : c.count = 1) :
    Released refs own h (h.set r none) := by
  have hvalue : ∀ q, valueAt (h.set r none) q = if q = r then none else valueAt h q := by
    intro q
    rw [valueAt, cellAt_set (lt_of_cellAt hcell)]
    split_ifs
    · rfl
    · rfl
  refine ⟨List.length_set, ?_, ?_⟩
  · intro q v hv
    rw [hvalue] at hv
    split_ifs at hv
    exact hv
  · intro S hS q hq
    rw [hvalue, if_neg ?_]
    rintro rfl
    have heq := hc.count_eq q
    rw [countAt_of_cellAt hcell, hcount, Multiset.count_cons_self, Multiset.count_add] at heq
    rcases hS q hq with hmem | ⟨p, v, -, hv, hmem⟩
    · have hpos := Multiset.count_pos.mpr hmem
      omega
    · have hpos := (held_pos_iff refs).mpr ⟨p, v, hv, hmem⟩
      omega

theorem countAt_le_total (hlt : r < h.length) : countAt h r ≤ total h := by
  have hset := total_set (o := none) hlt
  simp only [Option.map_none, Option.getD_none] at hset
  omega

/-- Releasing references that are owned succeeds, and leaves the other owners. -/
theorem releaseAll_spec (fuel : Nat) : ∀ (work : List Nat) (h : Heap V),
    Counted refs h ((work : Multiset Nat) + own) → total h ≤ fuel →
    ∃ h', releaseAll refs fuel work h = some h' ∧ Counted refs h' own ∧ Released refs own h h' := by
  induction fuel with
  | zero =>
    intro work h hc hfuel
    cases work with
    | nil => exact ⟨h, rfl, by simpa using hc, Released.refl⟩
    | cons r work =>
      obtain ⟨c, hcell⟩ := hc.cellAt_of_mem (r := r) (by simp)
      have hpos := hc.pos r c hcell
      have hle := countAt_le_total (lt_of_cellAt hcell)
      rw [countAt_of_cellAt hcell] at hle
      omega
  | succ fuel ih =>
    intro work h hc hfuel
    cases work with
    | nil => exact ⟨h, rfl, by simpa using hc, Released.refl⟩
    | cons r work =>
      obtain ⟨c, hcell⟩ := hc.cellAt_of_mem (r := r) (by simp)
      have hlt := lt_of_cellAt hcell
      have hpos := hc.pos r c hcell
      rw [← Multiset.cons_coe, Multiset.cons_add] at hc
      rw [releaseAll, hcell]
      by_cases hcount : c.count = 1
      · have hfree := hc.free hcell hcount
        rw [← Multiset.add_assoc, Multiset.coe_add] at hfree
        have htotal := total_set (o := none) hlt
        rw [countAt_of_cellAt hcell, hcount, Option.map_none, Option.getD_none] at htotal
        obtain ⟨h', hrun, hc', hrel⟩ := ih _ _ hfree (by omega)
        exact ⟨h', by simpa only [hcount, if_pos] using hrun, hc',
          (released_free hc hcell hcount).trans hrel⟩
      · have hlower := hc.lower hcell hcount
        have htotal := total_set (o := some { c with count := c.count - 1 }) hlt
        simp only [countAt_of_cellAt hcell, Option.map_some, Option.getD_some] at htotal
        obtain ⟨h', hrun, hc', hrel⟩ := ih _ _ hlower (by omega)
        exact ⟨h', by simpa only [hcount, if_false] using hrun, hc',
          (released_lower hcell _).trans hrel⟩

theorem release_spec (hc : Counted refs h (r ::ₘ own)) :
    ∃ h', release refs h r = some h' ∧ Counted refs h' own ∧ Released refs own h h' := by
  refine releaseAll_spec (total h) [r] h ?_ le_rfl
  rwa [Multiset.coe_singleton, Multiset.singleton_add]

/-- What is owned from outside keeps its value. -/
theorem Released.owned {h' : Heap V} (hrel : Released refs own h h') (hr : r ∈ own) :
    valueAt h' r = valueAt h r :=
  hrel.kept (· = r) (by rintro q rfl; exact .inl hr) r rfl

/-- Giving up one of several references to an object frees nothing. -/
theorem Released.shared {h' : Heap V} (hc : Counted refs h (r ::ₘ own))
    (hr : r ∈ own ∨ 0 < held refs h r) (hrel : Released refs own h h') (q : Nat) :
    valueAt h' q = valueAt h q := by
  have hsup : Supported refs h own fun q => ∃ v, valueAt h q = some v := by
    intro q hq
    have howned : q ∈ own ∨ 0 < held refs h q := by
      by_cases hqr : q = r
      · exact hqr ▸ hr
      · obtain ⟨v, hv⟩ := hq
        obtain ⟨c, hcell, -⟩ := Option.map_eq_some_iff.mp hv
        have heq := hc.count_eq q
        have hpos := hc.pos q c hcell
        rw [countAt_of_cellAt hcell, Multiset.count_cons_of_ne hqr] at heq
        by_cases hmem : q ∈ own
        · exact .inl hmem
        · rw [Multiset.count_eq_zero_of_notMem hmem] at heq
          exact .inr (by omega)
    refine howned.imp_right fun hheld => ?_
    obtain ⟨p, v, hv, hmem⟩ := (held_pos_iff refs).mp hheld
    exact ⟨p, v, ⟨v, hv⟩, hv, hmem⟩
  cases hv : valueAt h q with
  | some v => exact (hrel.kept _ hsup q ⟨v, hv⟩).trans hv
  | none =>
    cases hv' : valueAt h' q with
    | none => rfl
    | some v => exact absurd (hrel.value q v hv') (by simp [hv])

end Release

/-! ## What was there before -/

/-- The places of the first heap are as they were, apart from their counts. -/
structure Extends (h h' : Heap V) : Prop where
  length_le : h.length ≤ h'.length
  value : ∀ r, r < h.length → valueAt h' r = valueAt h r

theorem lt_of_valueAt {h : Heap V} {r : Nat} {v : V} (hv : valueAt h r = some v) : r < h.length := by
  obtain ⟨c, hc, -⟩ := Option.map_eq_some_iff.mp hv
  exact lt_of_cellAt hc

theorem cellAt_eq_of {h h' : Heap V} {r r' : Nat} (hv : valueAt h r = valueAt h' r')
    (hn : countAt h r = countAt h' r') : cellAt h r = cellAt h' r' := by
  unfold valueAt countAt at *
  cases hc : cellAt h r with
  | none =>
    cases hc' : cellAt h' r' with
    | none => rfl
    | some c' => simp [hc, hc'] at hv
  | some c =>
    cases hc' : cellAt h' r' with
    | none => simp [hc, hc'] at hv
    | some c' =>
      simp only [hc, hc', Option.map_some, Option.getD_some, Option.some.injEq] at hv hn
      obtain ⟨count, value⟩ := c
      simp_all

namespace Extends
variable {refs} {h h' h'' : Heap V} {own own' : Multiset Nat} {r : Nat} {c : Cell V} {v : V}

theorem refl : Extends h h := ⟨le_rfl, fun _ _ => rfl⟩

theorem trans (h1 : Extends h h') (h2 : Extends h' h'') : Extends h h'' where
  length_le := h1.length_le.trans h2.length_le
  value := fun r hr =>
    (h2.value r (hr.trans_le h1.length_le)).trans (h1.value r hr)

theorem valueAt_some (he : Extends h h') (hv : valueAt h r = some v) : valueAt h' r = some v :=
  (he.value r (lt_of_valueAt hv)).trans hv

theorem alloc (he : Extends h h') : Extends h (ReferenceCounts.alloc h' v).2 where
  length_le := by
    rw [ReferenceCounts.alloc, List.length_append]
    exact he.length_le.trans (Nat.le_add_right _ _)
  value := by
    intro q hq
    have hlt : q < h'.length := hq.trans_le he.length_le
    rw [ReferenceCounts.alloc, valueAt, cellAt_append, if_neg (Nat.ne_of_lt hlt)]
    exact he.value q hq

theorem retain (he : Extends h h') (hcell : cellAt h' r = some c) :
    Extends h (h'.set r (some { c with count := c.count + 1 })) where
  length_le := he.length_le.trans_eq List.length_set.symm
  value := by
    intro q hq
    refine Eq.trans ?_ (he.value q hq)
    rw [valueAt, cellAt_set (lt_of_cellAt hcell)]
    by_cases hqr : q = r
    · subst hqr
      rw [if_pos rfl, valueAt_of_cellAt hcell]
      rfl
    · rw [if_neg hqr, valueAt]

/-- While the former owners remain, nothing that was there is freed. -/
theorem released (he : Extends h h') (hc : Counted refs h own) (hown : ∀ r ∈ own, r ∈ own')
    (hrel : Released refs own' h' h'') : Extends h h'' where
  length_le := he.length_le.trans_eq hrel.length_eq.symm
  value := by
    intro q hq
    have hsup : Supported refs h' own' fun r => ∃ v, valueAt h r = some v := by
      intro r hr
      obtain ⟨v, hv⟩ := hr
      obtain ⟨c, hcell, -⟩ := Option.map_eq_some_iff.mp hv
      have heq := hc.count_eq r
      have hpos := hc.pos r c hcell
      rw [countAt_of_cellAt hcell] at heq
      by_cases hmem : r ∈ own
      · exact .inl (hown r hmem)
      · rw [Multiset.count_eq_zero_of_notMem hmem, Nat.zero_add] at heq
        obtain ⟨p, w, hw, hmem⟩ := (held_pos_iff refs).mp (heq ▸ hpos)
        exact .inr ⟨p, w, ⟨w, hw⟩, he.valueAt_some hw, hmem⟩
    cases hv : valueAt h q with
    | some v => exact (hrel.kept _ hsup q ⟨v, hv⟩).trans ((he.value q hq).trans hv)
    | none =>
      cases hv'' : valueAt h'' q with
      | none => rfl
      | some v =>
        have hold := hrel.value q v hv''
        rw [he.value q hq, hv] at hold
        cases hold

end Extends

/-- New objects that do not hold a reference do not change how often it is held. -/
theorem held_of_extends {h h' : Heap V} {q : Nat} (he : Extends h h')
    (hnew : ∀ p v, h.length ≤ p → valueAt h' p = some v → q ∉ refs v) :
    held refs h' q = held refs h q := by
  have hvalue {o o' : Option (Cell V)} (h : o.map Cell.value = o'.map Cell.value) :
      holds refs o q = holds refs o' q := by
    cases o <;> cases o' <;> simp_all [holds]
  have hold : (h'.take h.length).map (fun o => holds refs o q) = h.map fun o => holds refs o q := by
    refine List.ext_getElem? fun i => ?_
    rw [List.getElem?_map, List.getElem?_map]
    rcases Nat.lt_or_ge i h.length with hi | hi
    · have hi' : i < h'.length := hi.trans_le he.length_le
      have heq := he.value i hi
      simp only [valueAt, cellAt, List.getElem?_eq_getElem hi, List.getElem?_eq_getElem hi',
        Option.join_some] at heq
      rw [List.getElem?_take_of_lt hi, List.getElem?_eq_getElem hi, List.getElem?_eq_getElem hi',
        Option.map_some, Option.map_some, hvalue heq]
    · rw [List.getElem?_eq_none hi, List.getElem?_eq_none (by simp; omega)]
  have hzero : ((h'.drop h.length).map fun o => holds refs o q).sum = 0 := by
    refine List.sum_eq_zero fun n hn => ?_
    obtain ⟨o, ho, rfl⟩ := List.mem_map.mp hn
    obtain ⟨i, hi⟩ := List.mem_iff_getElem?.mp ho
    rw [List.getElem?_drop] at hi
    cases o with
    | none => rfl
    | some c =>
      have hv : valueAt h' (h.length + i) = some c.value := by
        rw [valueAt, cellAt, hi]
        rfl
      exact List.count_eq_zero.mpr (hnew _ _ (Nat.le_add_right _ _) hv)
  calc held refs h' q
      = ((h'.take h.length ++ h'.drop h.length).map fun o => holds refs o q).sum := by
        rw [List.take_append_drop, held]
    _ = (h.map fun o => holds refs o q).sum + 0 := by
        rw [List.map_append, List.sum_append, hold, hzero]
    _ = held refs h q := Nat.add_zero _

/-- The references the new objects do not hold are owned as before, when the outside owners
are the same. -/
theorem cellAt_of_extends {h h' : Heap V} {own own' : Multiset Nat} {q : Nat}
    (hc : Counted refs h own) (hc' : Counted refs h' own') (he : Extends h h') (hq : q < h.length)
    (hown : own'.count q = own.count q)
    (hnew : ∀ p v, h.length ≤ p → valueAt h' p = some v → q ∉ refs v) :
    cellAt h' q = cellAt h q := by
  refine cellAt_eq_of (he.value q hq) ?_
  rw [hc'.count_eq, hc.count_eq, hown, held_of_extends refs he hnew]

/-! ## Nothing is left behind -/

/-- The objects that are reached from some roots along the references objects hold. -/
inductive Reached (h : Heap V) (roots : Nat → Prop) : Nat → Prop where
  | root {r : Nat} (hr : roots r) : Reached h roots r
  | step {p q : Nat} {v : V} (hp : Reached h roots p) (hv : valueAt h p = some v) (hq : q ∈ refs v) :
      Reached h roots q

variable {refs} in
theorem Reached.mono {h : Heap V} {roots roots' : Nat → Prop} {q : Nat} (hq : Reached refs h roots q)
    (hsub : ∀ r, roots r → roots' r) : Reached refs h roots' q := by
  induction hq with
  | root hr => exact .root (hsub _ hr)
  | step _ hv hq ih => exact .step ih hv hq

section Reach
variable {refs} {rank : V → Nat} {bound start : Nat} {h : Heap V} {own : Multiset Nat}

/-- When objects hold older objects only, nothing without an owner outside is left. -/
theorem cellAt_of_older (hc : Counted refs h own) (hown : ∀ r ∈ own, r < start)
    (holder : ∀ p v q, start ≤ p → valueAt h p = some v → q ∈ refs v → q < p)
    (hbelow : ∀ p v q, p < start → valueAt h p = some v → q ∈ refs v → q < start) (n : Nat) :
    ∀ r, h.length - r ≤ n → start ≤ r → cellAt h r = none := by
  -- an object that is left is held by one at a later place
  induction n with
  | zero =>
    intro r hn _
    rw [cellAt, List.getElem?_eq_none (by omega)]
    rfl
  | succ n ih =>
    intro r hn hr
    cases hcell : cellAt h r with
    | none => rfl
    | some c =>
      have heq := hc.count_eq r
      have hpos := hc.pos r c hcell
      have hout : r ∉ own := fun hmem => absurd (hown r hmem) (Nat.not_lt.mpr hr)
      rw [countAt_of_cellAt hcell, Multiset.count_eq_zero_of_notMem hout, Nat.zero_add] at heq
      obtain ⟨p, v, hv, hheld⟩ := (held_pos_iff refs).mp (heq ▸ hpos)
      obtain ⟨d, hd, -⟩ := Option.map_eq_some_iff.mp hv
      have hp : start ≤ p := by
        by_contra hlt
        exact absurd (hbelow p v r (Nat.lt_of_not_le hlt) hv hheld) (Nat.not_lt.mpr hr)
      have hlt := holder p v r hp hv hheld
      have hlength := lt_of_cellAt hcell
      rw [ih p (by omega) hp] at hd
      cases hd

end Reach

end SwapDetector.Base.ReferenceCounts
