import SwapDetector.Base.Decimal
import SwapDetector.Base.QuotedText
import SwapDetector.Model.StatsDatabase

/-! # Making a statistics database (test::createStatsDB)

The rows are inserted by SQL texts that put every value between quotes as it is. Of the
database there is the reading of those with four plain string literals for values; what it
does with any other text, in which there may be expressions of them, is a parameter.
-/
namespace SwapDetector.Model.CreateStatsDB
open SwapDetector.Base.Decimal SwapDetector.Base.ExactFloat SwapDetector.Base.QuotedText
open SwapDetector.Model.Bytes SwapDetector.Model.StatsDatabase

/-- The tuple of a row. -/
structure StatsDBRow (F : Type) where
  func : ByteString
  argPos : Nat
  morpheme : ByteString
  weight : F

/-- The numbers of the streams and of the columns, which have doubles `D`. -/
structure Numbers (F D : Type) where
  /-- `operator<<` -/
  print : F → ByteString
  /-- What a text becomes in a column of type REAL, if it looks like a number. -/
  real : ByteString → Option D
  /-- `static_cast<float>` -/
  narrow : D → F

variable {F D : Type} (N : Numbers F D)

/-! ## Statements -/

def quote : Byte := 39

/-- What comes before the first value. -/
def insertHead : ByteString :=
  bytes "INSERT INTO weights " ++ bytes "('func', 'arg', 'morpheme', 'value')" ++ bytes "VALUES ('"

def insertText (row : StatsDBRow F) : ByteString :=
  insertHead ++ row.func ++ bytes "', '" ++ decimal row.argPos ++ bytes "', '" ++ row.morpheme ++
    bytes "', '" ++ N.print row.weight ++ bytes "');"

/-- The values of a list of plain string literals, the first of which has been opened: `n` of
them, and a last one. -/
def readValues : Nat → ByteString → Option (List ByteString)
  | 0, text => do
    let (value, rest) ← unquote quote text
    if rest = bytes ");" then some [value] else none
  | n + 1, text => do
    let (value, rest) ← unquote quote text
    let rest ← rest.dropPrefix? (bytes ", '")
    let values ← readValues n rest
    return value :: values

/-- The four values of an insertion, where each of them is a plain string literal. A value may be
any expression for SQLite; such texts are not read here. -/
def readLiteralInsert (sql : ByteString) : Option (List ByteString) := do
  let rest ← sql.dropPrefix? insertHead
  readValues 3 rest

/-! ## The database -/

/-- The row of some values, with the text of its weight. Texts of digits become integers. -/
def rowOf : List ByteString → Option (Row ByteString)
  | [func, arg, morpheme, value] =>
    if arg.all (IsDigit ·) ∧ arg ≠ [] ∧ numeral arg < 2 ^ 63 then
      some ⟨cStr func, numeral arg, cStr morpheme, value⟩
    else none
  | _ => none

variable [FloatArith D] (other : List (Row D) → CString → Option (List (Row D)))

/-- Adds a row, if its weight passes the check of the table. A text that is not a number does
not, as it compares above all numbers. -/
def insertRow (table : List (Row D)) (row : Row ByteString) : Option (List (Row D)) :=
  match N.real row.value with
  | some value =>
    if FloatArith.ofRat 0 ≤ value ∧ value ≤ FloatArith.ofRat 1 then
      some (table ++ [⟨row.func, row.arg, row.morpheme, value⟩])
    else none
  | none => none

/-- `sqlite3_exec` on the table `weights` -/
def sqlite3Exec (table : List (Row D)) (sql : CString) : Option (List (Row D)) :=
  match (readLiteralInsert sql.val).bind rowOf with
  | some row => insertRow N table row
  | none => other table sql

inductive Failure where
  /-- "Could not create a table in the database" -/
  | createTable
  /-- "Could not add a row to the database" -/
  | addRow
  deriving DecidableEq

def addRow (table : List (Row D)) (row : StatsDBRow F) : Except Failure (List (Row D)) :=
  (sqlite3Exec N other table (cStr (insertText N row))).elim (throw .addRow) pure

/-- The path of the database and its table. The path is empty if the database cannot be
opened. -/
def createStatsDB (fileName : ByteString) (opens creates : Bool) (rows : List (StatsDBRow F)) :
    Except Failure (ByteString × List (Row D)) := do
  if !opens then return ([], [])
  else if !creates then throw .createTable
  else
    let table ← rows.foldlM (addRow N other) []
    return (fileName, table)

/-- The file of a table, as a checker opens it. -/
def modelFile (table : List (Row D)) : ModelFile F where
  weights := some (table.map fun row => ⟨row.func, row.arg, row.morpheme, N.narrow row.value⟩)
  preparesMorphValue := true
  preparesValue := true

end SwapDetector.Model.CreateStatsDB
