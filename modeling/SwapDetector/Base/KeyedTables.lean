import Mathlib.Algebra.BigOperators.Group.List.Basic
import Mathlib.Data.List.Nodup

/-! # Tables with a key

A table is a list of rows with a key. `lookup` finds the first row of a key; where no
key occurs twice, it is the only one, and a sum over the rows of a key has one term.
-/
namespace SwapDetector.Base.KeyedTables

variable {ρ κ : Type} [DecidableEq κ] (key : ρ → κ)

/-- The first row with a key. -/
def lookup (rows : List ρ) (k : κ) : Option ρ := rows.find? fun r => key r = k

variable {key} {rows : List ρ} {k : κ} {r : ρ}

theorem mem_of_lookup (h : lookup key rows k = some r) : r ∈ rows ∧ key r = k :=
  ⟨List.mem_of_find?_eq_some h, by simpa using List.find?_some h⟩

theorem lookup_cons_self (rows : List ρ) (r : ρ) : lookup key (r :: rows) (key r) = some r := by
  simp [lookup]

theorem lookup_cons_ne (rows : List ρ) (h : key r ≠ k) :
    lookup key (r :: rows) k = lookup key rows k := by
  simp [lookup, h]

/-- A key that no row has is not found. -/
theorem lookup_eq_none (h : k ∉ rows.map key) : lookup key rows k = none := by
  refine List.find?_eq_none.mpr fun r hr hkey => h ?_
  exact List.mem_map.mpr ⟨r, hr, of_decide_eq_true hkey⟩

theorem lookup_eq_some_iff (h : (rows.map key).Nodup) :
    lookup key rows k = some r ↔ r ∈ rows ∧ key r = k := by
  constructor
  · exact mem_of_lookup
  · intro hr
    cases hfind : lookup key rows k with
    | none =>
      have hnot := List.find?_eq_none.mp hfind r hr.1
      exact absurd (decide_eq_true hr.2) hnot
    | some s =>
      obtain ⟨hs, hskey⟩ := mem_of_lookup hfind
      rw [List.inj_on_of_nodup_map h hs hr.1 (hskey.trans hr.2.symm)]

/-- Where no key occurs twice, a lookup does not depend on the order of the rows. -/
theorem lookup_perm {rows' : List ρ} (hperm : rows.Perm rows') (h : (rows.map key).Nodup) (k : κ) :
    lookup key rows k = lookup key rows' k := by
  have h' : (rows'.map key).Nodup := (hperm.map key).nodup_iff.mp h
  refine Option.ext fun r => ?_
  rw [lookup_eq_some_iff h, lookup_eq_some_iff h', hperm.mem_iff]

/-- Where no key occurs twice, the sum over the rows of a key is the value of its row. -/
theorem sum_eq_lookup {M : Type} [AddCommMonoid M] (f : ρ → M) (h : (rows.map key).Nodup) (k : κ) :
    (rows.map fun r => if key r = k then f r else 0).sum = ((lookup key rows k).map f).getD 0 := by
  induction rows with
  | nil => rfl
  | cons r rows ih =>
    obtain ⟨hr, hrows⟩ := List.nodup_cons.mp h
    rw [List.map_cons, List.sum_cons, ih hrows]
    by_cases hkey : key r = k
    · subst hkey
      rw [lookup_cons_self, lookup_eq_none hr, if_pos rfl]
      simp
    · rw [lookup_cons_ne rows hkey, if_neg hkey, zero_add]

end SwapDetector.Base.KeyedTables
