import SwapDetector.Model.IntegrationDriver
import SwapDetector.Model.IntegrationRunner

/-! # What the driver reads from the command lines of the runner

After the parameters, the driver passes over as many tokens as there are arguments. So it reads
back what the runner wrote exactly when there are no more arguments than parameters: any others
make it pass over options.
-/
namespace SwapDetector.Proofs.CommandLines
open SwapDetector.Base.Decimal SwapDetector.Model.Bytes
open SwapDetector.Model.IntegrationDriver SwapDetector.Model.IntegrationRunner

/-- A token that is no option. -/
def Plain (token : ByteString) : Prop := token.take 2 ≠ bytes "--"

instance (token : ByteString) : Decidable (Plain token) := inferInstanceAs (Decidable (_ ≠ _))

/-! ## Numbers -/

theorem isDigit_ne {b : Byte} (hb : IsDigit b) : isspace b = false ∧ b ≠ 43 ∧ b ≠ 45 := by
  obtain ⟨hlow, hhigh⟩ := hb
  refine ⟨?_, ?_, ?_⟩
  · simp only [isspace, decide_eq_false_iff_not, not_or]
    refine ⟨?_, by omega⟩
    rintro rfl
    exact absurd hlow (by decide)
  · rintro rfl
    exact absurd hlow (by decide)
  · rintro rfl
    exact absurd hlow (by decide)

theorem stoull_decimal {n : Nat} (hn : n < 2 ^ 64) : stoull (decimal n) = some n := by
  have hdigits : (decimal n).takeWhile (IsDigit ·) = decimal n :=
    List.takeWhile_eq_self_iff.mpr fun b hb => decide_eq_true (isDigit_of_mem_decimal hb)
  cases hcases : decimal n with
  | nil => exact absurd hcases (decimal_ne_nil n)
  | cons b ds =>
    have hb : IsDigit b := isDigit_of_mem_decimal (hcases ▸ List.mem_cons_self ..)
    obtain ⟨hspace, hplus, hminus⟩ := isDigit_ne hb
    rw [hcases] at hdigits
    have hvalue : numeral (b :: ds) = n := by rw [← hcases, numeral_decimal]
    unfold stoull
    rw [List.dropWhile_cons_of_neg (by simp [hspace])]
    simp only
    split
    · rename_i heq
      exact absurd (List.cons.inj heq).1 hplus
    · rename_i heq
      exact absurd (List.cons.inj heq).1 hminus
    · rw [hdigits, hvalue, if_neg (by simp; omega)]

theorem plain_decimal (n : Nat) : Plain (decimal n) := by
  intro h
  cases hcases : decimal n with
  | nil => exact absurd hcases (decimal_ne_nil n)
  | cons b ds =>
    have hb : IsDigit b := isDigit_of_mem_decimal (hcases ▸ List.mem_cons_self ..)
    rw [hcases] at h
    have hminus : b = 45 := by
      cases ds with
      | nil => cases h
      | cons d ds => exact (List.cons.inj h).1
    exact (isDigit_ne hb).2.2 hminus

/-! ## Tokens -/

section Tokens
variable {o : Options} {rest : List ByteString}

theorem parse_plain {token : ByteString} (h : Plain token) :
    parse 0 o (token :: rest) = parse 0 o rest := by
  have hne {option : ByteString} (hoption : option.take 2 = bytes "--") : token ≠ option := by
    rintro rfl
    exact h hoption
  rw [parse, if_neg (hne rfl), if_neg (hne rfl), if_neg (hne rfl), if_neg (hne rfl), if_neg (hne rfl),
    if_neg (hne rfl), if_neg (hne rfl)]

/-- Whatever is passed over of some plain tokens, nothing is read from the others. -/
theorem parse_append {tokens : List ByteString} (h : ∀ token ∈ tokens, Plain token) (skipped : Nat) :
    parse skipped o (tokens ++ rest) = parse (skipped - tokens.length) o rest := by
  induction tokens generalizing skipped with
  | nil => rfl
  | cons token tokens ih =>
    have htokens : ∀ token' ∈ tokens, Plain token' :=
      fun token' ht => h token' (List.mem_cons_of_mem token ht)
    cases skipped with
    | zero =>
      rw [List.cons_append, parse_plain (h token (List.mem_cons_self ..)), ih htokens]
      simp
    | succ skipped =>
      rw [List.cons_append, parse, ih htokens, List.length_cons, Nat.add_sub_add_right]

theorem getArgs_append {tokens : List ByteString} (h : ∀ token ∈ tokens, Plain token)
    {option : ByteString} (hoption : option.take 2 = bytes "--") :
    getArgs (tokens ++ option :: rest) = tokens := by
  have hplain : ∀ token ∈ tokens, decide (token.take 2 ≠ bytes "--") = true :=
    fun token ht => decide_eq_true (h token ht)
  unfold getArgs
  rw [List.takeWhile_append_of_pos hplain, List.takeWhile_cons_of_neg (by simp [hoption]),
    List.append_nil]

end Tokens

/-! ## Command lines -/

/-- A call site as the runner knows it. -/
structure Request where
  fname : ByteString
  argNames : List ByteString
  paramNames : List ByteString
  declared : Declared
  callSiteFile : ByteString
  callSiteLine : Nat

def Request.procArgs (r : Request) (executable : ByteString) : List ByteString :=
  SwapDetector.Model.IntegrationRunner.procArgs executable r.fname r.argNames r.paramNames r.declared r.callSiteFile
    r.callSiteLine

/-- Names and files are no options, files have names, and lines fit. -/
structure Request.Plain (r : Request) : Prop where
  fname_ne : r.fname ≠ []
  args : ∀ arg ∈ r.argNames, CommandLines.Plain arg
  params : ∀ param ∈ r.paramNames, CommandLines.Plain param
  declFile : ∀ file, r.declared.file = some file → CommandLines.Plain file
  declLine : ∀ line, r.declared.line = some line → line < 2 ^ 64
  file : CommandLines.Plain r.callSiteFile
  file_ne : r.callSiteFile ≠ []
  line : r.callSiteLine < 2 ^ 64

/-- The declaration, when both its line and its file are known. -/
def Request.declaration (r : Request) : Option (Nat × ByteString) :=
  match r.declared with
  | ⟨some line, some file⟩ => some (line, file)
  | _ => none

/-- What there is to find out about a request when the first `lost` of its last options are not
read. -/
def Request.found (r : Request) (lost : Nat) : Options where
  functionName := r.fname
  args := r.argNames
  params := some r.paramNames
  callDeclFileName := if lost = 0 then r.declaration.map Prod.snd else none
  callDeclLineNumber := if lost ≤ 1 then r.declaration.map Prod.fst else none
  callSiteFileName := if lost ≤ 2 * r.declaration.toList.length then r.callSiteFile else []
  callSiteLineNumber := if lost ≤ 2 * r.declaration.toList.length + 1 then r.callSiteLine else maxSize

/-- The options that are passed over: as many tokens as there are arguments without parameters. -/
def Request.lost (r : Request) : Nat := (r.argNames.length - r.paramNames.length + 1) / 2

/-- The options after the parameters. -/
def Request.lastOptions (r : Request) : List (ByteString × ByteString) :=
  (match r.declaration with
    | some (line, file) =>
      [(bytes "--call_decl_file", file), (bytes "--call_decl_line", decimal line)]
    | none => []) ++
  [(bytes "--call_site_file", r.callSiteFile), (bytes "--call_site_line", decimal r.callSiteLine)]

def tokens (options : List (ByteString × ByteString)) : List ByteString :=
  options.flatMap fun x => [x.1, x.2]

theorem tokens_cons (option value : ByteString) (options : List (ByteString × ByteString)) :
    tokens ((option, value) :: options) = option :: value :: tokens options := rfl

section Requests
variable {r : Request} {o : Options} {rest : List ByteString}

theorem parse_tokens {options : List (ByteString × ByteString)}
    (h : ∀ x ∈ options, Plain x.2) (skipped : Nat) :
    parse skipped o (tokens options) = parse 0 o (tokens (options.drop ((skipped + 1) / 2))) := by
  induction options generalizing skipped with
  | nil => simp [tokens, parse]
  | cons x options ih =>
    have hoptions : ∀ y ∈ options, Plain y.2 := fun y hy => h y (List.mem_cons_of_mem x hy)
    have hcons : tokens (x :: options) = x.1 :: x.2 :: tokens options := rfl
    match skipped with
    | 0 => rfl
    | 1 =>
      rw [hcons, parse, parse_plain (h x (List.mem_cons_self ..))]
      rfl
    | skipped + 2 =>
      have hhalf : (skipped + 2 + 1) / 2 = (skipped + 1) / 2 + 1 := by omega
      rw [hcons, parse, parse, ih hoptions, hhalf, List.drop_succ_cons]

theorem parse_function (fname : ByteString) :
    parse 0 o (bytes "--function" :: fname :: rest) =
      parse 0 { o with functionName := fname } rest := rfl

theorem parse_args {args : List ByteString} (h : ∀ arg ∈ args, Plain arg) {option : ByteString}
    (hoption : option.take 2 = bytes "--") :
    parse 0 o (bytes "--args" :: (args ++ option :: rest)) =
      parse 0 { o with args := args } (option :: rest) := by
  show parse (getArgs _).length { o with args := getArgs _ } _ = _
  rw [getArgs_append h hoption, parse_append h, Nat.sub_self]

theorem parse_params {params : List ByteString} (h : ∀ param ∈ params, Plain param)
    {option : ByteString} (hoption : option.take 2 = bytes "--") :
    parse 0 o (bytes "--params" :: (params ++ option :: rest)) =
      parse (o.args.length - params.length) { o with params := some params } (option :: rest) := by
  show parse o.args.length { o with params := some (getArgs _) } _ = _
  rw [getArgs_append h hoption, parse_append h]

theorem parse_callDeclFile (file : ByteString) :
    parse 0 o (bytes "--call_decl_file" :: file :: rest) =
      parse 0 { o with callDeclFileName := some file } rest := rfl

theorem parse_callSiteFile (file : ByteString) :
    parse 0 o (bytes "--call_site_file" :: file :: rest) =
      parse 0 { o with callSiteFileName := file } rest := rfl

theorem parse_callDeclLine {line : Nat} (h : line < 2 ^ 64) :
    parse 0 o (bytes "--call_decl_line" :: decimal line :: rest) =
      parse 0 { o with callDeclLineNumber := some line } rest := by
  have harg : getArg (decimal line :: rest) = decimal line := rfl
  rw [parse, if_neg (by decide), if_neg (by decide), if_neg (by decide), if_neg (by decide),
    if_neg (by decide), if_neg (by decide), if_pos rfl, harg, if_neg (decimal_ne_nil line),
    stoull_decimal h]
  rfl

theorem parse_callSiteLine {line : Nat} (h : line < 2 ^ 64) :
    parse 0 o (bytes "--call_site_line" :: decimal line :: rest) =
      parse 0 { o with callSiteLineNumber := line } rest := by
  have harg : getArg (decimal line :: rest) = decimal line := rfl
  rw [parse, if_neg (by decide), if_neg (by decide), if_neg (by decide), if_neg (by decide),
    if_pos rfl, harg, if_neg (decimal_ne_nil line), stoull_decimal h]
  rfl

theorem procArgs_eq (executable : ByteString) : r.procArgs executable =
    executable :: bytes "--function" :: r.fname :: bytes "--args" :: (r.argNames ++
      bytes "--params" :: (r.paramNames ++ tokens r.lastOptions)) := by
  obtain ⟨fname, argNames, paramNames, ⟨line, file⟩, callSiteFile, callSiteLine⟩ := r
  cases line <;> cases file <;>
    simp [Request.procArgs, procArgs, declTokens, Request.lastOptions, Request.declaration, tokens]

theorem lastOptions_head : ∃ option rest, tokens r.lastOptions = option :: rest ∧
    option.take 2 = bytes "--" := by
  unfold Request.lastOptions
  cases r.declaration with
  | none => exact ⟨_, _, rfl, rfl⟩
  | some declaration => exact ⟨_, _, rfl, rfl⟩

theorem plain_lastOptions (hr : r.Plain) : ∀ x ∈ r.lastOptions, Plain x.2 := by
  obtain ⟨fname, argNames, paramNames, ⟨line, file⟩, callSiteFile, callSiteLine⟩ := r
  have hfile := hr.file
  have hdecl := hr.declFile
  cases line <;> cases file <;>
    simp_all [Request.lastOptions, Request.declaration, plain_decimal]

theorem parse_siteOptions {line : Nat} (hline : line < 2 ^ 64) (file : ByteString) (lost : Nat) :
    parse 0 o (tokens ([(bytes "--call_site_file", file),
        (bytes "--call_site_line", decimal line)].drop lost)) =
      some { o with
        callSiteFileName := if lost ≤ 0 then file else o.callSiteFileName
        callSiteLineNumber := if lost ≤ 1 then line else o.callSiteLineNumber } := by
  match lost with
  | 0 => exact (parse_callSiteFile file).trans (parse_callSiteLine hline)
  | 1 => exact parse_callSiteLine hline
  | lost + 2 => simp [tokens, parse]

/-- The options that are left say what there is to find out. -/
theorem parse_drop (hr : r.Plain) (lost : Nat) :
    parse 0 { functionName := r.fname, args := r.argNames, params := some r.paramNames }
      (tokens (r.lastOptions.drop lost)) = some (r.found lost) := by
  unfold Request.lastOptions Request.found
  cases hdecl : r.declaration with
  | none =>
    rw [List.nil_append, parse_siteOptions hr.line]
    simp
  | some declaration =>
    obtain ⟨line, file⟩ := declaration
    have hline : line < 2 ^ 64 := by
      refine hr.declLine line ?_
      unfold Request.declaration at hdecl
      split at hdecl
      · rename_i h
        cases hdecl
        rw [h]
      · cases hdecl
    simp only [List.cons_append, List.nil_append]
    match lost with
    | 0 =>
      have hsite := fun o => parse_siteOptions (o := o) hr.line r.callSiteFile 0
      rw [List.drop_zero] at hsite ⊢
      rw [tokens_cons, tokens_cons, parse_callDeclFile, parse_callDeclLine hline, hsite]
      simp
    | 1 =>
      have hsite := fun o => parse_siteOptions (o := o) hr.line r.callSiteFile 0
      rw [List.drop_zero] at hsite
      rw [List.drop_succ_cons, List.drop_zero, tokens_cons, parse_callDeclLine hline, hsite]
      simp
    | lost + 2 =>
      rw [List.drop_succ_cons, List.drop_succ_cons, parse_siteOptions hr.line]
      simp

/-- What the driver makes of a command line of the runner. -/
theorem parse_procArgs (hr : r.Plain) {executable : ByteString} (hexecutable : Plain executable) :
    parse 0 {} (r.procArgs executable) = some (r.found r.lost) := by
  obtain ⟨option, rest, hhead, hoption⟩ := lastOptions_head (r := r)
  rw [procArgs_eq, parse_plain hexecutable, parse_function, hhead, parse_args hr.args rfl,
    parse_params hr.params hoption, ← hhead, parse_tokens (plain_lastOptions hr)]
  exact parse_drop hr _

theorem found_lost_eq (hr : r.Plain) : r.found r.lost = r.found 0 ↔ r.lost = 0 := by
  refine ⟨fun h => ?_, fun h => by rw [h]⟩
  by_contra hlost
  cases hdecl : r.declaration with
  | some declaration =>
    have hfile := congrArg Options.callDeclFileName h
    simp [Request.found, hdecl, hlost] at hfile
  | none =>
    have hfile := congrArg Options.callSiteFileName h
    simp [Request.found, hdecl, hlost] at hfile
    exact hr.file_ne hfile

/-- **Command lines**: the driver reads back what the runner wrote exactly when there are no more
arguments than parameters. -/
theorem parse_iff (hr : r.Plain) {executable : ByteString} (hexecutable : Plain executable) :
    parse 0 {} (r.procArgs executable) = some (r.found 0) ↔
      r.argNames.length ≤ r.paramNames.length := by
  rw [parse_procArgs hr hexecutable, Option.some_inj, found_lost_eq hr, Request.lost]
  omega

end Requests

/-- A call with fewer arguments than parameters. -/
def shortRequest : Request where
  fname := bytes "feed"
  argNames := [bytes "dogs", bytes "cats"]
  paramNames := [bytes "cats", bytes "dogs", []]
  declared := ⟨some 12, some (bytes "pets.h")⟩
  callSiteFile := bytes "main.c"
  callSiteLine := 193

theorem shortRequest_plain : shortRequest.Plain where
  fname_ne := by decide
  args := by decide
  params := by decide
  declFile := by rintro _ ⟨⟩; decide
  declLine := by rintro _ ⟨⟩; decide
  file := by decide
  file_ne := by decide
  line := by decide

theorem shortRequest_parse : parse 0 {} (shortRequest.procArgs (bytes "IntegrationTestSwappedArgs")) =
    some (shortRequest.found 0) ↔ shortRequest.argNames.length ≤ shortRequest.paramNames.length :=
  parse_iff shortRequest_plain (by decide)

end SwapDetector.Proofs.CommandLines
