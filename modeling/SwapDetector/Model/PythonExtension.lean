import SwapDetector.Model.PythonObjects
import SwapDetector.Model.SwappedArgChecker

/-! # The Python extension module (SwappedArgsExt.cpp, PyOwnedObject.hpp)

A `PyOwnedObject` is a reference, or none, that its destructor gives up again. `withOwned` is
the scope of one: the destructor runs on every way out of the body. A function that returns
`none` returns a null pointer, and its caller raises what the error indicator holds.
-/
namespace SwapDetector.Model.PythonExtension
open SwapDetector.Base.ExactFloat SwapDetector.Base.OrderedSet
open SwapDetector.Model.Bytes SwapDetector.Model.Types
open SwapDetector.Model.SwappedArgChecker SwapDetector.Model.PythonObjects

variable {F : Type} [FloatArith F]

/-! ## Owned objects -/

abbrev PyOwnedObject := Option Nat

/-- The copy constructor. -/
def PyOwnedObject.copy (other : PyOwnedObject) : PyM PyOwnedObject := do
  if let some o := other then pyIncRef o
  return other

/-- The destructor. -/
def PyOwnedObject.destroy (this : PyOwnedObject) : PyM Unit := do
  if let some o := this then pyDecRef o

/-- The copy assignment, of another wrapper. -/
def PyOwnedObject.assign (this lhs : PyOwnedObject) : PyM PyOwnedObject := do
  if let some o := this then pyDecRef o
  if let some o := lhs then pyIncRef o
  return lhs

/-- The scope of a wrapper. -/
def withOwned {α : Type} (o : PyOwnedObject) (body : PyM α) : PyM α := do
  let r ← body
  o.destroy
  return r

/-! ## Conversions -/

/-- Tries to convert a Python unicode object to a byte string. -/
def pyStrToStr (pystr : Nat) : PyM (Option ByteString) := pyUnicodeAsUTF8AndSize pystr

/-- The loop of `morphemeSetToPy`: whether every morpheme was added. -/
def addMorphemes (result : Nat) : List ByteString → PyM Bool
  | [] => return true
  | m :: ms => do
    let mPy ← pyUnicodeFromStringAndSize m
    let added ← withOwned mPy do
      match mPy with
      | none => return false
      | some item => return decide (¬ (← pySetAdd result item) < 0)
    if added then addMorphemes result ms else return false

/-- Converts a set of morphemes to a Python set. -/
def morphemeSetToPy (morphemes : Finset ByteString) : PyM PyOwnedObject := do
  let result ← pySetNew
  withOwned result do
    match result with
    | none => return none
    | some set =>
      if ← addMorphemes set (inOrder morphemes) then PyOwnedObject.copy result else return none

/-- One item of a result: whether its value was there and could be put into the dict. The
value's wrapper lives on until the rest of the items are done. -/
def withItem (dict : Nat) (key : ByteString) (value : PyOwnedObject) (rest : PyM PyOwnedObject) :
    PyM PyOwnedObject :=
  withOwned value do
    match value with
    | none => return none
    | some val =>
      if (← pyDictSetItemString dict key val) < 0 then return none
      rest

/-- Converts a result into a Python dict. -/
def resultToPy (result : Result F) : PyM PyOwnedObject := do
  let resultDict ← pyDictNew
  withOwned resultDict do
    match resultDict with
    | none => return none
    | some dict =>
      withItem dict (bytes "arg1") (← pyLongFromSizeT result.arg1) do
      withItem dict (bytes "arg2") (← pyLongFromSizeT result.arg2) do
      withItem dict (bytes "morphemes1") (← morphemeSetToPy result.morphemes1) do
      withItem dict (bytes "morphemes2") (← morphemeSetToPy result.morphemes2) do
      PyOwnedObject.copy resultDict

/-! ## Arguments -/

/-- The arguments of a call from Python. -/
structure CallArgs where
  positional : List Nat
  keywords : List (ByteString × Nat)

def kwlist : List ByteString := [bytes "arguments", bytes "callee", bytes "parameters"]

/-- The argument for a parameter: by position, or else by keyword. -/
def CallArgs.get (args : CallArgs) (i : Nat) : Option Nat :=
  if i < args.positional.length then args.positional[i]?
  else kwlist[i]?.bind fun name => args.keywords.lookup name

/-- How many keywords belong to no parameter, or to one that is given by position. -/
def CallArgs.leftover (args : CallArgs) : Nat :=
  (args.keywords.filter fun k =>
    (kwlist.drop args.positional.length).all fun name => name ≠ k.1).length

/-- The format `z`: a C string, or a null pointer for `None`. -/
def convertZ (o : Nat) : PyM (Option (Option CString)) := do
  match ← lookUp o with
  | .none => return some none
  | .str _ =>
    match ← pyUnicodeAsUTF8AndSize o with
    | none => return none
    | some s =>
      if s.contains 0 then
        setError .embeddedNull
        return none
      else return some (some (cStr s))
  | _ =>
    setError .apiTypeError
    return none

structure Parsed where
  arguments : Nat
  callee : Option CString
  paramNames : Option Nat

/-- `PyArg_ParseTupleAndKeywords` with the format `O|zO:check2` -/
def parseArgs (args : CallArgs) : PyM (Option Parsed) := do
  if args.positional.length + args.keywords.length > kwlist.length then
    setError .apiTypeError
    return none
  match args.get 0 with
  | none =>
    setError .apiTypeError
    return none
  | some arguments =>
    match ← (match args.get 1 with
      | none => return some none
      | some callee => convertZ callee) with
    | none => return none
    | some callee =>
      if args.leftover > 0 then
        setError .apiTypeError
        return none
      return some ⟨arguments, callee, args.get 2⟩

/-! ## Names -/

/-- One item of an iterable of names. -/
def readItem (message : ByteString) (item : Nat) : PyM (Option ByteString) := do
  if !(← pyUnicodeCheck item) then
    setError (.typeError message)
    return none
  pyStrToStr item

/-- The loop over the items, at most `bound` times. -/
def readItems (message : ByteString) (iterator : Nat) :
    Nat → List ByteString → PyM (Option (List ByteString))
  | 0, _ => throw .diverged
  | bound + 1, names => do
    let item ← pyIterNext iterator
    match item with
    | none => return some names
    | some i =>
      match ← withOwned item (readItem message i) with
      | none => return none
      | some name => readItems message iterator bound (names ++ [name])

/-- A bound for the items that an object hands out. -/
def itemsBound (o : Nat) : PyM Nat := do
  let v ← match ← lookUp o with
    | .iterator target _ => lookUp target
    | v => pure v
  return (v.script.map fun script => script.1.length + 1).getD 0

/-- The names of an iterable. Both loops of `Checker_Check` are this one, with their own
messages. -/
def readNames (message : ByteString) (o : Nat) : PyM (Option (List ByteString)) := do
  let bound ← itemsBound o
  let iterator ← pyObjectGetIter o
  withOwned iterator do
    match iterator with
    | none =>
      setError (.typeError message)
      return none
    | some it =>
      match ← readItems message it bound [] with
      | none => return none
      | some names => if (← get).error.isSome then return none else return some names

def argumentsMessage : ByteString := bytes "arguments must be an iterable of str"

def parametersMessage : ByteString := bytes "parameters must be an iterable of str"

/-- The parameter names: absent when there is no such argument or it is `None`. -/
def readParamNames (paramNames : Option Nat) : PyM (Option (Option (List ByteString))) := do
  match paramNames with
  | none => return some none
  | some o =>
    if (← lookUp o) = .none then return some none
    return (← readNames parametersMessage o).map some

/-- The call site made from the arguments; every argument has one name. -/
def callSiteOf (arguments : List ByteString) (callee : Option CString)
    (paramNames : Option (List ByteString)) : CallSite where
  callDecl := ⟨(callee.map Subtype.val).getD [], paramNames⟩
  positionalArgNames := arguments.map fun name => [name]

/-! ## Checkers -/

/-- `Checker_New`: the checker in a new object. -/
def checkerNew : Checker F where
  opts := {}
  stats := none
  idle := by simp

/-- The loop over the results: whether every one was appended. -/
def appendResults (resultList : Nat) : List (Result F) → PyM Bool
  | [] => return true
  | r :: rs => do
    let resultDict ← resultToPy r
    let appended ← withOwned resultDict do
      return decide (¬ (← pyListAppend resultList resultDict) < 0)
    if appended then appendResults resultList rs else return false

/-- `Checker_Check`: checks a call site for swapped arguments. -/
def checkerCheck (self : Checker F) (args : CallArgs) : PyM (Option Nat) := do
  match ← parseArgs args with
  | none => return none
  | some parsed =>
    match ← readNames argumentsMessage parsed.arguments with
    | none => return none
    | some arguments =>
      match ← readParamNames parsed.paramNames with
      | none => return none
      | some paramNames =>
        let resultList ← pyListNew
        match resultList with
        | none => return none
        | some list =>
          match self.results (callSiteOf arguments parsed.callee paramNames) .all with
          | .error f => throw (.check f)
          | .ok results =>
            -- `release` on the way out, the destructor on the others
            if ← appendResults list results then return some list
            PyOwnedObject.destroy resultList
            return none

end SwapDetector.Model.PythonExtension
