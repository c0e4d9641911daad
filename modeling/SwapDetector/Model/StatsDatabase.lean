import SwapDetector.Base.Exec
import SwapDetector.Base.PreparedStatement
import SwapDetector.Model.Types

/-! # The statistics database (class Statistics)

A statistics object holds a connection to the table `weights` and two prepared
statements over it. A session is the state a check runs in: the statistics
object of the checker, if it has one, and the environment's decision for each
`sqlite3_step` still to come. Rows come in table order.
-/
namespace SwapDetector.Model.StatsDatabase
open SwapDetector.Base.ExactFloat SwapDetector.Base.Exec SwapDetector.Base.PreparedStatement
open SwapDetector.Model.Bytes SwapDetector.Model.Types

/-- A row of the table `weights`, with its value as the checker reads it. -/
structure Row (F : Type) where
  func : CString
  arg : Nat
  morpheme : CString
  value : F
  deriving DecidableEq

/-- A value bound to a parameter. -/
inductive SqlValue where
  | text (s : CString)
  | int (n : Nat)
  deriving DecidableEq

variable {F : Type}

/-- `SELECT morpheme, value FROM weights WHERE func == ? AND arg == ?` -/
def selectMorphValue (db : List (Row F)) (bound : Nat → Option SqlValue) : List (CString × F) :=
  (db.filter fun r => bound 1 = some (.text r.func) ∧ bound 2 = some (.int r.arg)).map
    fun r => (r.morpheme, r.value)

/-- `SELECT value FROM weights WHERE func == ? AND arg == ? AND morpheme == ?` -/
def selectValue (db : List (Row F)) (bound : Nat → Option SqlValue) : List F :=
  (db.filter fun r => bound 1 = some (.text r.func) ∧ bound 2 = some (.int r.arg) ∧
    bound 3 = some (.text r.morpheme)).map Row.value

structure Statistics (F : Type) where
  db : Option (List (Row F))
  morphValueQuery : Option (Stmt SqlValue (CString × F))
  valueQuery : Option (Stmt SqlValue F)

def Statistics.valid (s : Statistics F) : Bool :=
  s.db.isSome && s.morphValueQuery.isSome && s.valueQuery.isSome

/-- What opening a file and preparing the two queries on it gives. -/
structure ModelFile (F : Type) where
  weights : Option (List (Row F))
  preparesMorphValue : Bool
  preparesValue : Bool

/-- The constructor. A failure to load the database is not an error here. -/
def Statistics.new (disk : CString → ModelFile F) (path : ByteString) : Statistics F :=
  if path ≠ [] ∧ (disk (cStr path)).weights.isSome then
    { db := (disk (cStr path)).weights
      morphValueQuery := if (disk (cStr path)).preparesMorphValue then some .prepared else none
      valueQuery := if (disk (cStr path)).preparesValue then some .prepared else none }
  else { db := none, morphValueQuery := none, valueQuery := none }

/-- The statistics object over a table, with both statements as they were prepared. -/
def Statistics.loaded (db : List (Row F)) : Statistics F :=
  { db := some db, morphValueQuery := some .prepared, valueQuery := some .prepared }

/-- Between lookups the object is valid and nothing is left of the earlier ones. -/
def Statistics.Idle (s : Statistics F) : Prop := ∃ db, s = Statistics.loaded db

theorem Statistics.new_idle {disk : CString → ModelFile F} {path : ByteString}
    (h : (Statistics.new disk path).valid = true) : (Statistics.new disk path).Idle := by
  unfold Statistics.new at h ⊢
  split at h
  · rename_i hopen
    obtain ⟨db, hdb⟩ := Option.isSome_iff_exists.mp hopen.2
    rw [if_pos hopen]
    simp only [Statistics.valid, hdb, Bool.and_eq_true] at h
    refine ⟨db, ?_⟩
    cases hm : (disk (cStr path)).preparesMorphValue
    · simp [hm] at h
    · cases hv : (disk (cStr path)).preparesValue
      · simp [hv] at h
      · simp [hdb, Statistics.loaded]
  · simp [Statistics.valid] at h

/-- The state a check runs in. -/
structure Session (F : Type) where
  stats : Option (Statistics F)
  /-- Which of the coming `sqlite3_step` calls end in an error. -/
  fails : Nat → Bool

/-- Computations of the checker. -/
abbrev CheckM (F : Type) := ExceptT Fault (StateM (Session F))

/-- `assert` -/
def assertThat (p : Prop) [Decidable p] (f : Fault) : CheckM F Unit :=
  if p then pure () else throw f

/-- `operator*` of an optional -/
def deref {α : Type} : Option α → CheckM F α
  | some a => pure a
  | none => throw .emptyOptional

/-- The environment's decision for the next step. -/
def nextStep : CheckM F Bool := do
  let s ← get
  set { s with fails := fun k => s.fails (k + 1) }
  return s.fails 0

/-- The statistics object, once `assert(valid())` holds: its table and statements. -/
def validStats :
    CheckM F (List (Row F) × Stmt SqlValue (CString × F) × Stmt SqlValue F) := do
  match (← get).stats with
  | some { db := some db, morphValueQuery := some mq, valueQuery := some vq } => return (db, mq, vq)
  | _ => throw .invalidStats

def setStats (db : List (Row F)) (mq : Stmt SqlValue (CString × F)) (vq : Stmt SqlValue F) :
    CheckM F Unit := do
  set { (← get) with
    stats := some { db := some db, morphValueQuery := some mq, valueQuery := some vq } }

/-- Finds how often a morpheme is used at a position of a function. The binder
binds the query before the step, and clears and resets it on every way out. -/
def weightForMorphemeAtPos (funcName : ByteString) (argPos : Nat) (morpheme : ByteString) :
    CheckM F (Option F) := do
  let (db, mq, vq) ← validStats
  let bound := ((vq.bind 1 (.text (cStr funcName))).bind 2 (.int argPos)).bind 3
    (.text (cStr morpheme))
  let (rc, stepped) := bound.step (selectValue db) (← nextStep)
  setStats db mq stepped.clearBindings.reset
  match rc with
  | .row value => return some value
  | .done => return none
  | .error => return none

/-- The loop of `morphemesAndWeightsAtPos`: whether it ended well after at least
one row, the rows it has read, and the statement. -/
def readRows (db : List (Row F)) : Nat → Stmt SqlValue (CString × F) → Bool →
    List (ByteString × F) → CheckM F (Bool × List (ByteString × F) × Stmt SqlValue (CString × F))
  | 0, _, _, _ => throw .diverged
  | bound + 1, stmt, ret, res => do
    let (rc, stepped) := stmt.step (selectMorphValue db) (← nextStep)
    match rc with
    | .done => return (ret, res, stepped)
    | .row (morpheme, value) => readRows db bound stepped true (res ++ [(morpheme.val, value)])
    | .error => return (false, res, stepped)

/-- Finds all morphemes at a position of a function, with their weights. -/
def morphemesAndWeightsAtPos (funcName : ByteString) (argPos : Nat) :
    CheckM F (Bool × List (ByteString × F)) := do
  let (db, mq, vq) ← validStats
  let bound := (mq.bind 1 (.text (cStr funcName))).bind 2 (.int argPos)
  let (ret, res, stepped) ← readRows db (db.length + 1) bound false []
  setStats db stepped.clearBindings.reset vq
  return (ret, res)

end SwapDetector.Model.StatsDatabase
