import SwapDetector.Base.DatabaseHandles
import SwapDetector.Model.Bytes

/-! # The handles of a checker (classes Statistics and Checker)

What the constructors, the destructors and the lookups do with the handles of the database.
A call of a checker makes some lookups, which here are any lookups that end.
-/
namespace SwapDetector.Model.StatisticsHandles
open SwapDetector.Base.DatabaseHandles SwapDetector.Model.Bytes

/-! ## Statistics -/

structure Statistics where
  db : Option Nat
  morphValueQuery : Option Nat
  valueQuery : Option Nat
  deriving DecidableEq

/-- `Statistics::Statistics`. A failure to load the database is not an error here. -/
def Statistics.new (path : ByteString) : HandlesM Statistics := do
  if path = [] then
    return ⟨none, none, none⟩
  else
    let (ok, db) ← openConnection
    match ok, db with
    | true, some db =>
      let morphValueQuery ← prepare db
      let valueQuery ← prepare db
      return ⟨some db, morphValueQuery, valueQuery⟩
    | _, db => return ⟨db, none, none⟩

/-- A handle that is not null. -/
def release (free : Nat → HandlesM Unit) : Option Nat → HandlesM Unit
  | some handle => free handle
  | none => return

/-- `Statistics::~Statistics` -/
def Statistics.delete (s : Statistics) : HandlesM Unit := do
  release finalize s.morphValueQuery
  release finalize s.valueQuery
  release close s.db

def Statistics.valid (s : Statistics) : Bool :=
  s.db.isSome && s.morphValueQuery.isSome && s.valueQuery.isSome

/-- A query, once `assert(valid())` holds. -/
def Statistics.validQuery (s : Statistics) (query : Statistics → Option Nat) : HandlesM Nat :=
  match s.valid, query s with
  | true, some stmt => return stmt
  | _, _ => throw .assertion

/-- Binds the parameters, and on the way out clears them and resets the query. -/
def withBinder (stmt parameters : Nat) (body : HandlesM Unit) : HandlesM Unit := do
  (List.range parameters).forM fun _ => useStatement stmt
  body
  -- `sqlite3_clear_bindings`, `sqlite3_reset`
  useStatement stmt
  useStatement stmt

/-- One step, which may come to a row, and the columns that are read from it. -/
def stepRow (stmt columns : Nat) (row : Bool) : HandlesM Unit := do
  useStatement stmt
  if row then (List.range columns).forM fun _ => useStatement stmt

def Statistics.weightForMorphemeAtPos (s : Statistics) (row : Bool) : HandlesM Unit := do
  let stmt ← s.validQuery Statistics.valueQuery
  withBinder stmt 3 (stepRow stmt 1 row)

/-- As many rows as there are, and the step that comes to no other. -/
def Statistics.morphemesAndWeightsAtPos (s : Statistics) (rows : Nat) : HandlesM Unit := do
  let stmt ← s.validQuery Statistics.morphValueQuery
  withBinder stmt 2 do
    (List.range rows).forM fun _ => stepRow stmt 2 true
    stepRow stmt 2 false

/-! ## Checkers -/

inductive Lookup where
  | weightForMorphemeAtPos (row : Bool)
  | morphemesAndWeightsAtPos (rows : Nat)
  deriving DecidableEq

def Statistics.lookUp (s : Statistics) : Lookup → HandlesM Unit
  | .weightForMorphemeAtPos row => s.weightForMorphemeAtPos row
  | .morphemesAndWeightsAtPos rows => s.morphemesAndWeightsAtPos rows

structure Checker where
  stats : Option Statistics
  deriving DecidableEq

/-- `Checker::Checker`. Statistics that are not valid are deleted. -/
def Checker.new (modelPath : ByteString) : HandlesM Checker := do
  if modelPath = [] then
    return ⟨none⟩
  else
    let stats ← Statistics.new modelPath
    if stats.valid then
      return ⟨some stats⟩
    else
      stats.delete
      return ⟨none⟩

/-- `Checker::CheckSite`, which looks nothing up without statistics. -/
def Checker.checkSite (c : Checker) (lookups : List Lookup) : HandlesM Unit :=
  match c.stats with
  | some stats => lookups.forM stats.lookUp
  | none => return

/-- `Checker::~Checker` -/
def Checker.delete (c : Checker) : HandlesM Unit :=
  match c.stats with
  | some stats => stats.delete
  | none => return

/-! ## Programs that use checkers -/

/-- What is done with the checkers there are, by their numbers. -/
inductive Event where
  | create (modelPath : ByteString)
  | checkSite (k : Nat) (lookups : List Lookup)
  | delete (k : Nat)
  deriving DecidableEq

def perform (checkers : List Checker) : Event → HandlesM (List Checker)
  | .create modelPath => do
    let c ← Checker.new modelPath
    return checkers ++ [c]
  | .checkSite k lookups =>
    match checkers[k]? with
    | some c => do
      c.checkSite lookups
      return checkers
    | none => return checkers
  | .delete k =>
    match checkers[k]? with
    | some c => do
      c.delete
      return checkers.eraseIdx k
    | none => return checkers

/-- The events of a program, which starts without any checker. -/
def program (events : List Event) : HandlesM (List Checker) := events.foldlM perform []

/-- A library without open handles, with the decisions it will make. -/
def noHandles (openings : Nat → Opening) (prepares : Nat → Bool) : Handles where
  next := 0
  connections := 0
  statements := 0
  openings := openings
  prepares := prepares

end SwapDetector.Model.StatisticsHandles
