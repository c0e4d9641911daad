import SwapDetector.Base.Exec
import SwapDetector.Base.Decimal
import SwapDetector.Model.Bytes

/-! # The runner of the integration tests (test/integration/integration_test_runner.py)

A document of the name database lists functions with their call sites. The runner starts one
process per site, and does not look at how it ends.
-/
namespace SwapDetector.Model.IntegrationRunner
open SwapDetector.Base.Decimal SwapDetector.Model.Bytes

/-! ## Documents -/

/-- An argument or a parameter, which may have no name. -/
structure Name where
  name : Option ByteString

structure Location where
  lineNo : Option Nat
  file : Option Nat

structure DeclAttrs where
  location : Option Location
  params : Option (List Name)

structure Site where
  args : List Name
  site : Location

structure Function where
  declAttrs : DeclAttrs
  callSites : List Site

structure Document where
  functions : List (ByteString × Function)
  fileNameMap : List ByteString

/-! ## The runner -/

inductive Failure where
  /-- A file that has no number. -/
  | typeError
  /-- A file that is not in the map. -/
  | indexError
  /-- A NUL on a command line. -/
  | valueError
  deriving DecidableEq

/-- Programs that start processes: the state is the command lines so far. -/
abbrev RunnerM := ExceptT Failure (StateM (List (List ByteString)))

def Name.get (n : Name) : ByteString := n.name.getD []

/-- `doc['fileNameMap'][file]` -/
def fileName (doc : Document) : Option Nat → RunnerM ByteString
  | none => throw .typeError
  | some k =>
    match doc.fileNameMap[k]? with
    | some file => return file
    | none => throw .indexError

/-- `subprocess.call` -/
def call (procArgs : List ByteString) : RunnerM Unit := do
  if procArgs.any fun token => token.contains 0 then
    throw .valueError
  else
    let commands ← get
    set (commands ++ [procArgs])

/-- Where the function is declared, as far as it is known. -/
structure Declared where
  line : Option Nat
  file : Option ByteString

def declTokens : Declared → List ByteString
  | ⟨some line, some file⟩ =>
    [bytes "--call_decl_file", file, bytes "--call_decl_line", decimal line]
  | _ => []

/-- The command line for a site. -/
def procArgs (executable fname : ByteString) (argNames paramNames : List ByteString)
    (declared : Declared) (callSiteFile : ByteString) (callSiteLine : Nat) : List ByteString :=
  [executable, bytes "--function", fname, bytes "--args"] ++ argNames ++
    [bytes "--params"] ++ paramNames ++ declTokens declared ++
    [bytes "--call_site_file", callSiteFile, bytes "--call_site_line", decimal callSiteLine]

def runSite (executable : ByteString) (doc : Document) (fname : ByteString)
    (paramNames : List ByteString) (declared : Declared) (site : Site) : RunnerM Unit := do
  let callSiteLine := site.site.lineNo.getD 0
  let callSiteFile ← fileName doc site.site.file
  call (procArgs executable fname (site.args.map Name.get) paramNames declared callSiteFile
    callSiteLine)

def declaredAt (doc : Document) (attrs : DeclAttrs) : RunnerM Declared :=
  match attrs.location with
  | some location => do
    let file ← fileName doc location.file
    return ⟨location.lineNo, some file⟩
  | none => return ⟨none, none⟩

/-- The sites of a function, if it has parameters in the database. -/
def runFunction (executable : ByteString) (doc : Document) (entry : ByteString × Function) :
    RunnerM Unit := do
  let declared ← declaredAt doc entry.2.declAttrs
  match entry.2.declAttrs.params with
  | some params =>
    entry.2.callSites.forM (runSite executable doc entry.1 (params.map Name.get) declared)
  | none => return

/-- The functions of one line of the input. -/
def runDocument (executable : ByteString) (doc : Document) : RunnerM Unit :=
  doc.functions.forM (runFunction executable doc)

/-- The lines of the input. -/
def run (executable : ByteString) (docs : List Document) : RunnerM Unit :=
  docs.forM (runDocument executable)

end SwapDetector.Model.IntegrationRunner
