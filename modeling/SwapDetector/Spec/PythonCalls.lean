import SwapDetector.Model.PythonExtension

/-! # Calls from Python as functions of the caller's objects

What a call of `check_call` is about: the names its iterables hand out, or the exception
that reading them ends with, as functions of the heap before the call.
-/
namespace SwapDetector.Spec.PythonCalls
open SwapDetector.Base.ReferenceCounts SwapDetector.Base.Utf8
open SwapDetector.Model.Bytes SwapDetector.Model.Types
open SwapDetector.Model.PythonObjects SwapDetector.Model.PythonExtension

/-- The UTF-8 of a `str`. -/
def utf8Of (text : List CodePoint) : Except PyError ByteString :=
  match text.mapM charOf with
  | some chars => .ok (encode chars)
  | none => .error .unicodeEncodeError

/-- The object that an iterator hands out. -/
def itemOf (h : Heap PyValue) : Yield → Option PyValue
  | .existing item => valueAt h item
  | .key text => some (.str text)
  | .newStr text => some (.str text)
  | .newOther => some .other

/-- The name an object stands for among those of an iterable. -/
def nameOf (message : ByteString) : Option PyValue → Except PyError ByteString
  | some (.str text) => utf8Of text
  | _ => .error (.typeError message)

/-- The names of the items that an iterator hands out, and how it ends. -/
def scriptNames (h : Heap PyValue) (message : ByteString) :
    List Yield → Option PyError → Except PyError (List ByteString)
  | [], none => .ok []
  | [], some e => .error e
  | y :: ys, ending => do
    let name ← nameOf message (itemOf h y)
    let names ← scriptNames h message ys ending
    return name :: names

/-- The names of an iterable. -/
def namesOf (h : Heap PyValue) (message : ByteString) (o : Nat) :
    Except PyError (List ByteString) :=
  match (valueAt h o).bind PyValue.script with
  | some (yields, ending) => scriptNames h message yields ending
  | none => .error (.typeError message)

/-- The parameter names: absent without an object, and with `None`. -/
def paramNamesOf (h : Heap PyValue) : Option Nat → Except PyError (Option (List ByteString))
  | none => .ok none
  | some o =>
    if valueAt h o = some .none then .ok none else (namesOf h parametersMessage o).map some

/-- The C string of a callee. -/
def calleeOf (h : Heap PyValue) : Option Nat → Except PyError (Option CString)
  | none => .ok none
  | some o =>
    match valueAt h o with
    | some .none => .ok none
    | some (.str text) => do
      let s ← utf8Of text
      if s.contains 0 then .error .embeddedNull else .ok (some (cStr s))
    | _ => .error .apiTypeError

/-- The arguments by parameter. -/
def parsedOf (h : Heap PyValue) (args : CallArgs) : Except PyError Parsed :=
  if args.positional.length + args.keywords.length > kwlist.length then .error .apiTypeError
  else match args.get 0 with
    | none => .error .apiTypeError
    | some arguments => do
      let callee ← calleeOf h (args.get 1)
      if args.leftover > 0 then .error .apiTypeError else .ok ⟨arguments, callee, args.get 2⟩

/-- The call site that a call from Python describes. -/
def siteOf (h : Heap PyValue) (args : CallArgs) : Except PyError CallSite := do
  let parsed ← parsedOf h args
  let arguments ← namesOf h argumentsMessage parsed.arguments
  let paramNames ← paramNamesOf h parsed.paramNames
  return callSiteOf arguments parsed.callee paramNames

end SwapDetector.Spec.PythonCalls
