import SwapDetector.Base.Exec
import SwapDetector.Base.ReferenceCounts
import SwapDetector.Base.Utf8
import SwapDetector.Model.Types

/-! # Python objects and their C API

The part of the C API of Python that the extension module uses, over a heap of
reference-counted objects. A reference is the place of its object; an API function that
returns an object returns a new reference to it, or none with the error indicator set. The
environment decides which calls run out of memory. Destructors and iterators of the caller's
objects run no code that changes other objects.
-/
namespace SwapDetector.Model.PythonObjects
open SwapDetector.Base.ReferenceCounts SwapDetector.Base.Utf8
open SwapDetector.Model.Bytes SwapDetector.Model.Types

/-- A code point. Those of surrogates are no characters and have no encoding. -/
abbrev CodePoint := Fin 1114112

def codePoint (c : Char) : CodePoint := Fin.ofNat 1114112 c.toNat

def charOf (p : CodePoint) : Option Char :=
  if h : p.val.isValidChar then some (Char.ofNatAux p.val h) else none

/-- The exceptions a call of the extension can end with. -/
inductive PyError where
  /-- `PyErr_NoMemory` -/
  | memoryError
  /-- `PyErr_BadInternalCall` -/
  | badInternalCall
  /-- A `TypeError` of the API: wrong arguments, an object that cannot be iterated over. -/
  | apiTypeError
  /-- A `str` with a NUL for a C string. -/
  | embeddedNull
  /-- A `str` with a surrogate for UTF-8. -/
  | unicodeEncodeError
  | unicodeDecodeError
  /-- `PyErr_SetString(PyExc_TypeError, message)` -/
  | typeError (message : ByteString)
  /-- An exception that an iterator raises. -/
  | raised (exception : Nat)
  deriving DecidableEq

/-- What an iterator hands out next: another owner's object, or a new one that holds no
references. -/
inductive Yield where
  | existing (item : Nat)
  /-- A key of a dict, for which no memory is needed. -/
  | key (text : List CodePoint)
  | newStr (text : List CodePoint)
  | newOther
  deriving DecidableEq

inductive PyValue where
  | none
  | str (text : List CodePoint)
  | int (value : Nat)
  | set (items : List Nat)
  /-- A dict with strings for keys, which are known by their texts only. -/
  | dict (entries : List (List CodePoint × Nat))
  | list (items : List Nat)
  /-- Any other object of the caller that can be iterated over: what its iterators hand out,
  and the exception they raise at the end, if they do. Running them changes nothing else. -/
  | iterable (yields : List Yield) (ending : Option PyError)
  /-- An iterator over an object, at its next item. -/
  | iterator (target next : Nat)
  | other
  deriving DecidableEq

namespace PyValue

def heldByYield : Yield → List Nat
  | .existing item => [item]
  | _ => []

/-- The references an object holds. -/
def refs : PyValue → List Nat
  | .set items => items
  | .dict entries => entries.map Prod.snd
  | .list items => items
  | .iterable yields _ => yields.flatMap heldByYield
  | .iterator target _ => [target]
  | _ => []

def isIterator : PyValue → Bool
  | .iterator _ _ => true
  | _ => false

/-- What the iterators over an object hand out, and how they end. -/
def script : PyValue → Option (List Yield × Option PyError)
  | .set items => some (items.map .existing, Option.none)
  | .list items => some (items.map .existing, Option.none)
  | .dict entries => some (entries.map fun e => .key e.1, Option.none)
  | .str text => some (text.map fun p => .newStr [p], Option.none)
  | .iterable yields ending => some (yields, ending)
  | _ => Option.none

end PyValue

/-- The state of the interpreter. -/
structure Interp where
  heap : Heap PyValue
  error : Option PyError
  /-- Which of the coming calls that need memory do not get it. -/
  fails : Nat → Bool

/-- What a call cannot recover from. -/
inductive Crash where
  /-- A reference to a freed object is used. -/
  | deadReference
  /-- An assertion of the checker fails. -/
  | check (f : Fault)
  /-- A loop runs longer than its bound. -/
  | diverged
  deriving DecidableEq

abbrev PyM := ExceptT Crash (StateM Interp)

def outOfMemory : PyM Bool := do
  let s ← get
  set { s with fails := fun k => s.fails (k + 1) }
  return s.fails 0

def setError (e : PyError) : PyM Unit := do
  let s ← get
  set { s with error := some e }

def lookUp (o : Nat) : PyM PyValue := do
  match valueAt (← get).heap o with
  | some v => return v
  | none => throw .deadReference

def newObject (v : PyValue) : PyM Nat := do
  let s ← get
  set { s with heap := (alloc s.heap v).2 }
  return (alloc s.heap v).1

def write (o : Nat) (v : PyValue) : PyM Unit := do
  let s ← get
  match store s.heap o v with
  | some heap => set { s with heap }
  | none => throw .deadReference

/-- `Py_INCREF` -/
def pyIncRef (o : Nat) : PyM Unit := do
  let s ← get
  match retain s.heap o with
  | some heap => set { s with heap }
  | none => throw .deadReference

/-- `Py_DECREF`, with the deallocations that follow from it. -/
def pyDecRef (o : Nat) : PyM Unit := do
  let s ← get
  match release PyValue.refs s.heap o with
  | some heap => set { s with heap }
  | none => throw .deadReference

/-- A new object, unless there is no memory for it. -/
def tryNew (v : PyValue) : PyM (Option Nat) := do
  if ← outOfMemory then
    setError .memoryError
    return none
  else return some (← newObject v)

/-! ## Strings and numbers -/

def pyUnicodeCheck (o : Nat) : PyM Bool := do
  match ← lookUp o with
  | .str _ => return true
  | _ => return false

def pyUnicodeAsUTF8AndSize (o : Nat) : PyM (Option ByteString) := do
  match ← lookUp o with
  | .str text =>
    match text.mapM charOf with
    | some chars =>
      if ← outOfMemory then
        setError .memoryError
        return none
      else return some (encode chars)
    | none =>
      setError .unicodeEncodeError
      return none
  | _ =>
    setError .apiTypeError
    return none

def pyUnicodeFromStringAndSize (s : ByteString) : PyM (Option Nat) :=
  match decode s with
  | some chars => tryNew (.str (chars.map codePoint))
  | none => do
    setError .unicodeDecodeError
    return none

def pyLongFromSizeT (n : Nat) : PyM (Option Nat) := tryNew (.int n)

/-! ## Containers -/

def pySetNew : PyM (Option Nat) := tryNew (.set [])

def pyDictNew : PyM (Option Nat) := tryNew (.dict [])

def pyListNew : PyM (Option Nat) := tryNew (.list [])

/-- Lists, sets and dicts cannot be members of a set. -/
def hashable : PyValue → Bool
  | .set _ | .dict _ | .list _ => false
  | _ => true

/-- Adds an object to a set, unless an equal one is there. -/
def pySetAdd (set key : Nat) : PyM Int := do
  match ← lookUp set, ← lookUp key with
  | .set items, v =>
    if !hashable v then
      setError .apiTypeError
      return -1
    let heap := (← get).heap
    if items.any fun item => valueAt heap item = some v then return 0
    if ← outOfMemory then
      setError .memoryError
      return -1
    pyIncRef key
    write set (.set (items ++ [key]))
    return 0
  | _, _ =>
    setError .badInternalCall
    return -1

/-- Puts an object into a dict under a new string; an object that had the key before is
released. -/
def pyDictSetItemString (dict : Nat) (name : ByteString) (val : Nat) : PyM Int := do
  match decode name with
  | none =>
    setError .unicodeDecodeError
    return -1
  | some chars =>
    match ← lookUp dict, ← lookUp val with
    | .dict entries, _ =>
      if ← outOfMemory then
        setError .memoryError
        return -1
      pyIncRef val
      let key := chars.map codePoint
      match entries.lookup key with
      | some old =>
        write dict (.dict (entries.map fun e => if e.1 = key then (key, val) else e))
        pyDecRef old
      | none => write dict (.dict (entries ++ [(key, val)]))
      return 0
    | _, _ =>
      setError .badInternalCall
      return -1

/-- Without an object to append, the call is an error. -/
def pyListAppend (list : Nat) (item : Option Nat) : PyM Int := do
  match ← lookUp list, item with
  | .list items, some item =>
    let _ ← lookUp item
    if ← outOfMemory then
      setError .memoryError
      return -1
    pyIncRef item
    write list (.list (items ++ [item]))
    return 0
  | _, _ =>
    setError .badInternalCall
    return -1

/-! ## Iteration -/

/-- An iterator is its own iterator; a new one keeps the object alive. -/
def pyObjectGetIter (o : Nat) : PyM (Option Nat) := do
  let v ← lookUp o
  if v.isIterator then
    pyIncRef o
    return some o
  match v.script with
  | some _ =>
    if ← outOfMemory then
      setError .memoryError
      return none
    else
      pyIncRef o
      return some (← newObject (.iterator o 0))
  | none =>
    setError .apiTypeError
    return none

/-- At the end there is no item, and an error only if the iterator raises one. -/
def pyIterNext (iterator : Nat) : PyM (Option Nat) := do
  match ← lookUp iterator with
  | .iterator target next =>
    match (← lookUp target).script with
    | some (yields, ending) =>
      match yields[next]? with
      | some (.existing item) =>
        write iterator (.iterator target (next + 1))
        pyIncRef item
        return some item
      | some (.key text) =>
        write iterator (.iterator target (next + 1))
        return some (← newObject (.str text))
      | some (.newStr text) =>
        write iterator (.iterator target (next + 1))
        tryNew (.str text)
      | some .newOther =>
        write iterator (.iterator target (next + 1))
        tryNew .other
      | none =>
        if let some e := ending then setError e
        return none
    | none =>
      setError .apiTypeError
      return none
  | _ =>
    setError .apiTypeError
    return none

end SwapDetector.Model.PythonObjects
