import Mathlib.Logic.Function.Basic
import SwapDetector.Base.Decisions

/-! # Prepared SQL statements

The protocol of a prepared statement, over any type `V` of bound values and any
type `R` of result rows. Parameters can be bound only while the statement is
reset; a step starts the query when the statement is reset, continues it when it
is part-way through its rows, and starts it again when it has ended. The
environment decides which steps end in an error. `fetch` is what stepping through the
rows of a query comes to.
-/
namespace SwapDetector.Base.PreparedStatement
open SwapDetector.Base.Decisions

variable {V R : Type}

/-- How far a statement has been stepped. -/
inductive Cursor (R : Type) where
  /-- Prepared, or reset since the last step. -/
  | ready
  /-- On a row, with the rows that are still to come. -/
  | onRow (rest : List R)
  | halted
  | failed

/-- A prepared statement: its bound parameters (numbered from 1) and its cursor. -/
structure Stmt (V R : Type) where
  bound : Nat → Option V
  cursor : Cursor R

/-- What a step reports; a row comes with its columns. -/
inductive StepResult (R : Type) where
  | row (columns : R)
  | done
  | error

/-- A statement as `sqlite3_prepare_v2` returns it: every parameter is NULL. -/
def Stmt.prepared : Stmt V R := ⟨fun _ => none, .ready⟩

/-- Binding a statement that is not reset fails and leaves the old binding. -/
def Stmt.bind (st : Stmt V R) (i : Nat) (v : V) : Stmt V R :=
  match st.cursor with
  | .ready => { st with bound := Function.update st.bound i (some v) }
  | _ => st

def Stmt.clearBindings (st : Stmt V R) : Stmt V R := { st with bound := fun _ => none }

def Stmt.reset (st : Stmt V R) : Stmt V R := { st with cursor := .ready }

/-- The rows the next step chooses from: the remaining ones of a run that is
under way, else those the query selects under the current bindings. -/
def Stmt.pending (select : (Nat → Option V) → List R) (st : Stmt V R) : List R :=
  match st.cursor with
  | .onRow rest => rest
  | _ => select st.bound

def Stmt.step (select : (Nat → Option V) → List R) (fails : Bool) (st : Stmt V R) :
    StepResult R × Stmt V R :=
  if fails then (.error, { st with cursor := .failed })
  else match st.pending select with
    | [] => (.done, { st with cursor := .halted })
    | r :: rest => (.row r, { st with cursor := .onRow rest })

/-- Clearing and resetting forget everything that happened to the statement. -/
@[simp] theorem clear_reset (st : Stmt V R) : st.clearBindings.reset = Stmt.prepared := rfl

/-- The rows of a run that is under way and those that a step leaves. -/
theorem step_ok_cases (select : (Nat → Option V) → List R) (st : Stmt V R) :
    (st.pending select = [] ∧ st.step select false = (.done, { st with cursor := .halted })) ∨
    ∃ r rest, st.pending select = r :: rest ∧
      st.step select false = (.row r, { st with cursor := .onRow rest }) := by
  unfold Stmt.step
  cases h : st.pending select with
  | nil => exact .inl ⟨rfl, by simp⟩
  | cons r rest => exact .inr ⟨r, rest, rfl, by simp⟩

/-- The values `values` for the parameters 1, 2 and so on, and NULL for all others. -/
def parameters (values : List V) : Nat → Option V
  | 0 => none
  | i + 1 => values[i]?

theorem prepared_bind_two (v w : V) :
    ((Stmt.prepared : Stmt V R).bind 1 v).bind 2 w = ⟨parameters [v, w], .ready⟩ := by
  refine congrArg (Stmt.mk · .ready) (funext fun i => ?_)
  rcases i with _ | _ | _ | i <;> rfl

theorem prepared_bind_three (u v w : V) :
    (((Stmt.prepared : Stmt V R).bind 1 u).bind 2 v).bind 3 w =
      ⟨parameters [u, v, w], .ready⟩ := by
  refine congrArg (Stmt.mk · .ready) (funext fun i => ?_)
  rcases i with _ | _ | _ | _ | i <;> rfl

/-- The statement after some steps, of which the marked ones fail. -/
def Stmt.stepped (select : (Nat → Option V) → List R) (st : Stmt V R) (failed : List Bool) :
    Stmt V R :=
  failed.foldl (fun st fails => (st.step select fails).2) st

/-- Stepping keeps the parameters. -/
theorem stepped_bound (select : (Nat → Option V) → List R) (failed : List Bool) :
    ∀ st : Stmt V R, (st.stepped select failed).bound = st.bound := by
  induction failed with
  | nil => exact fun _ => rfl
  | cons fails failed ih =>
    intro st
    have hstep : (st.step select fails).2.bound = st.bound := by
      unfold Stmt.step
      cases fails with
      | true => rfl
      | false => cases st.pending select <;> rfl
    exact (ih _).trans hstep

/-! ## Reading the rows of a query -/

/-- What comes of stepping through the rows of a query: those that were read, whether the
last step reported the end of the rows, and how many steps were made. -/
structure Fetched (R : Type) where
  read : List R
  ended : Bool
  steps : Nat

/-- Steps through the rows of a query until they end or a step fails. -/
def fetch : List R → (Nat → Bool) → Fetched R
  | [], fails => ⟨[], !fails 0, 1⟩
  | r :: rows, fails =>
    if fails 0 then ⟨[], false, 1⟩
    else ⟨r :: (fetch rows (skip 1 fails)).read, (fetch rows (skip 1 fails)).ended,
      1 + (fetch rows (skip 1 fails)).steps⟩

theorem fetch_of_fails (rows : List R) {fails : Nat → Bool} (h : fails 0 = true) :
    fetch rows fails = ⟨[], false, 1⟩ := by
  cases rows with
  | nil => rw [fetch, h]; rfl
  | cons r rows => rw [fetch, if_pos h]

theorem fetch_cons (r : R) (rows : List R) {fails : Nat → Bool} (h : fails 0 = false) :
    fetch (r :: rows) fails = ⟨r :: (fetch rows (skip 1 fails)).read,
      (fetch rows (skip 1 fails)).ended, 1 + (fetch rows (skip 1 fails)).steps⟩ := by
  rw [fetch, if_neg (Bool.eq_false_iff.mp h)]

/-- The end is reported only behind the last row. -/
theorem fetch_read {rows : List R} {fails : Nat → Bool} (h : (fetch rows fails).ended = true) :
    (fetch rows fails).read = rows := by
  induction rows generalizing fails with
  | nil => rfl
  | cons r rows ih =>
    cases hfailed : fails 0 with
    | true => rw [fetch_of_fails _ hfailed] at h; cases h
    | false =>
      rw [fetch_cons r rows hfailed] at h ⊢
      exact congrArg (r :: ·) (ih h)

/-- When no step fails, the end is reported. -/
theorem fetch_ended {rows : List R} {fails : Nat → Bool}
    (h : ∀ k < (fetch rows fails).steps, fails k = false) : (fetch rows fails).ended = true := by
  induction rows generalizing fails with
  | nil =>
    have hfirst : fails 0 = false := h 0 Nat.one_pos
    rw [fetch, hfirst]
    rfl
  | cons r rows ih =>
    cases hfailed : fails 0 with
    | true =>
      rw [fetch_of_fails _ hfailed] at h
      cases hfailed.symm.trans (h 0 Nat.one_pos)
    | false =>
      rw [fetch_cons r rows hfailed] at h ⊢
      exact ih fun k hk => h (1 + k) (Nat.add_lt_add_left hk 1)

/-- Where the steps end depends on the number of the rows only. -/
theorem fetch_length {rows rows' : List R} (h : rows.length = rows'.length) (fails : Nat → Bool) :
    (fetch rows fails).steps = (fetch rows' fails).steps ∧
      (fetch rows fails).ended = (fetch rows' fails).ended := by
  induction rows generalizing rows' fails with
  | nil =>
    obtain rfl : rows' = [] := List.length_eq_zero_iff.mp h.symm
    exact ⟨rfl, rfl⟩
  | cons r rows ih =>
    cases rows' with
    | nil => cases h
    | cons r' rows' =>
      cases hfailed : fails 0 with
      | true => rw [fetch_of_fails _ hfailed, fetch_of_fails _ hfailed]; exact ⟨rfl, rfl⟩
      | false =>
        rw [fetch_cons r rows hfailed, fetch_cons r' rows' hfailed]
        obtain ⟨hsteps, hended⟩ := ih (Nat.succ.inj h) (skip 1 fails)
        exact ⟨congrArg (1 + ·) hsteps, hended⟩

end SwapDetector.Base.PreparedStatement
