import SwapDetector.Base.Decimal
import SwapDetector.Model.SwappedArgChecker

/-! # The driver of the integration tests (test/integration/main.cpp)

A process that checks one call site, which its command line describes. What it prints a score
as is left to the library.
-/
namespace SwapDetector.Model.IntegrationDriver
open SwapDetector.Base.Decimal SwapDetector.Base.ExactFloat
open SwapDetector.Model.Bytes SwapDetector.Model.Types SwapDetector.Model.SwappedArgChecker

/-! ## Numbers -/

/-- `isspace` in the C locale. -/
def isspace (c : Byte) : Bool := c = 32 ∨ 9 ≤ c.val ∧ c.val ≤ 13

/-- `std::stoull`, which throws where there is no number and where it does not fit. -/
def stoull (str : ByteString) : Option Nat :=
  let digits (s : ByteString) : Option Nat :=
    if s.takeWhile (IsDigit ·) = [] ∨ 2 ^ 64 ≤ numeral (s.takeWhile (IsDigit ·)) then none
    else some (numeral (s.takeWhile (IsDigit ·)))
  match str.dropWhile isspace with
  | 43 :: s => digits s
  -- a negative number wraps around
  | 45 :: s => (digits s).map fun n => (2 ^ 64 - n) % 2 ^ 64
  | s => digits s

/-! ## The command line -/

/-- Reads a single argument. -/
def getArg (rest : List ByteString) : ByteString := rest.head?.getD []

/-- Reads a list of arguments until reaching something with a preceding `--`. -/
def getArgs (rest : List ByteString) : List ByteString :=
  rest.takeWhile fun arg => arg.take 2 ≠ bytes "--"

/-- `std::numeric_limits<size_t>::max()` -/
def maxSize : Nat := 2 ^ 64 - 1

/-- The variables of `main`. -/
structure Options where
  functionName : ByteString := []
  callSiteFileName : ByteString := []
  callSiteLineNumber : Nat := maxSize
  callDeclFileName : Option ByteString := none
  callDeclLineNumber : Option Nat := none
  args : List ByteString := []
  params : Option (List ByteString) := none
  deriving DecidableEq

/-- The loop over the tokens that are left, the first `skipped` of which it passes over; `none`
when a number is none. -/
def parse : Nat → Options → List ByteString → Option Options
  | _, o, [] => some o
  | skipped + 1, o, _ :: rest => parse skipped o rest
  | 0, o, arg :: rest =>
    if arg = bytes "--function" then
      parse 1 { o with functionName := getArg rest } rest
    else if arg = bytes "--args" then
      parse (getArgs rest).length { o with args := getArgs rest } rest
    else if arg = bytes "--params" then
      -- as many tokens as there are arguments
      parse o.args.length { o with params := some (getArgs rest) } rest
    else if arg = bytes "--call_site_file" then
      parse 1 { o with callSiteFileName := getArg rest } rest
    else if arg = bytes "--call_site_line" then
      if getArg rest = [] then parse 1 o rest
      else
        match stoull (getArg rest) with
        | some line => parse 1 { o with callSiteLineNumber := line } rest
        | none => none
    else if arg = bytes "--call_decl_file" then
      parse 1 { o with callDeclFileName := some (getArg rest) } rest
    else if arg = bytes "--call_decl_line" then
      if getArg rest = [] then parse 1 o rest
      else
        match stoull (getArg rest) with
        | some line => parse 1 { o with callDeclLineNumber := some line } rest
        | none => none
    else parse 0 o rest

/-! ## The check -/

variable {F : Type} [FloatArith F]

def explodeCallSiteArguments (args : List ByteString) : List (List ByteString) := args.map fun v => [v]

def Options.site (o : Options) : CallSite where
  callDecl := ⟨o.functionName, o.params⟩
  positionalArgNames := explodeCallSiteArguments o.args

/-- What is printed about a result. -/
def diagnostic (print : F → ByteString) (o : Options) (res : Result F) : ByteString :=
  bytes "ERROR (" ++ o.callSiteFileName ++ bytes ":" ++ decimal o.callSiteLineNumber ++ bytes "): " ++
    o.functionName ++ bytes " has swapped arguments " ++ decimal res.arg1 ++ bytes " and " ++
    decimal res.arg2 ++ bytes " with a score of " ++ print res.score.score ++ bytes "\n" ++
  bytes "NOTE (" ++ o.callDeclFileName.getD (bytes "<unknown>") ++ bytes ":" ++
    decimal (o.callDeclLineNumber.getD maxSize) ++ bytes "): callee declared here\n"

inductive Exit where
  | success
  | failure
  /-- By an exception or a broken assertion. -/
  | terminated
  deriving DecidableEq

/-- How the process ends, and what it prints to `std::cerr`. -/
structure Outcome where
  exit : Exit
  errors : List ByteString
  deriving DecidableEq

/-- The check of a site by a checker without statistics. -/
def runCheck (print : F → ByteString) (o : Options) : Outcome :=
  match (Checker.new (F := F) {} fun _ => ⟨none, false, false⟩).results o.site .all with
  | .ok results => ⟨if results.isEmpty then .success else .failure, results.map (diagnostic print o)⟩
  | .error _ => ⟨.terminated, []⟩

/-- The process with the command line `argv`. Without a function or a file it prints its usage. -/
def main (print : F → ByteString) (argv : List ByteString) : Outcome :=
  match parse 0 {} argv with
  | none => ⟨.terminated, []⟩
  | some o =>
    if o.functionName = [] ∨ o.callSiteFileName = [] then ⟨.failure, []⟩
    else runCheck print o

end SwapDetector.Model.IntegrationDriver
