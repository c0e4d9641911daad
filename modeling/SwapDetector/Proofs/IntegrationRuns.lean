import SwapDetector.Base.Postconditions
import SwapDetector.Proofs.CommandLines
import SwapDetector.Proofs.FailingResults

/-! # How the processes of the integration tests end

Every call site of a function with parameters in the database gets its process, and the process
ends as the checker judges the site, unless it has passed over the file of the site.
-/
namespace SwapDetector.Proofs.IntegrationRuns
open SwapDetector.Base.ExactFloat SwapDetector.Base.Exec SwapDetector.Base.Postconditions
open SwapDetector.Model.Bytes SwapDetector.Model.Types SwapDetector.Model.SwappedArgChecker
open SwapDetector.Model.IntegrationDriver SwapDetector.Model.IntegrationRunner
open SwapDetector.Proofs.Refinement SwapDetector.Proofs.FailingResults
open SwapDetector.Proofs.CommandLines

/-! ## Runs of the runner -/

def fileAt (doc : Document) (file : Option Nat) : Option ByteString :=
  file.bind fun k => doc.fileNameMap[k]?

def declared (doc : Document) (attrs : DeclAttrs) : Declared :=
  match attrs.location with
  | some location => ⟨location.lineNo, fileAt doc location.file⟩
  | none => ⟨none, none⟩

def siteRequest (doc : Document) (entry : ByteString × Function) (params : List Name) (site : Site) :
    Request where
  fname := entry.1
  argNames := site.args.map Name.get
  paramNames := params.map Name.get
  declared := declared doc entry.2.declAttrs
  callSiteFile := (fileAt doc site.site.file).getD []
  callSiteLine := site.site.lineNo.getD 0

/-- The sites of a function that has parameters in the database. -/
def requestsOf (doc : Document) (entry : ByteString × Function) : List Request :=
  match entry.2.declAttrs.params with
  | some params => entry.2.callSites.map (siteRequest doc entry params)
  | none => []

def requests (docs : List Document) : List Request :=
  docs.flatMap fun doc => doc.functions.flatMap (requestsOf doc)

/-- Every file there is a number for is in the map. -/
structure Complete (doc : Document) : Prop where
  declared : ∀ entry ∈ doc.functions, ∀ location,
    entry.2.declAttrs.location = some location → (fileAt doc location.file).isSome = true
  sites : ∀ entry ∈ doc.functions, ∀ site ∈ entry.2.callSites,
    (fileAt doc site.site.file).isSome = true

section Runs
variable {doc : Document} {executable : ByteString} {s : List (List ByteString)}

theorem exec_fileName {file : Option Nat} (h : (fileAt doc file).isSome = true) :
    exec (fileName doc file) s = (.ok ((fileAt doc file).getD []), s) := by
  cases file with
  | none => cases h
  | some k =>
    obtain ⟨name, hname⟩ := Option.isSome_iff_exists.mp h
    have hget : doc.fileNameMap[k]? = some name := hname
    simp only [fileName, fileAt, Option.bind_some, hget]
    rfl

theorem exec_call {command : List ByteString} (h : ∀ token ∈ command, 0 ∉ token) :
    exec (call command) s = (.ok ⟨⟩, s ++ [command]) := by
  have hany : (command.any fun token => token.contains 0) = false := by
    simpa using h
  unfold call
  rw [hany]
  rfl

theorem exec_declaredAt {attrs : DeclAttrs}
    (h : ∀ location, attrs.location = some location → (fileAt doc location.file).isSome = true) :
    exec (declaredAt doc attrs) s = (.ok (declared doc attrs), s) := by
  unfold declaredAt declared
  cases hlocation : attrs.location with
  | none => rfl
  | some location =>
    obtain ⟨file, hfile⟩ := Option.isSome_iff_exists.mp (h location hlocation)
    refine (exec_bind_ok (exec_fileName (h location hlocation))).trans ?_
    simp only [hfile, Option.getD_some]
    rfl

theorem exec_runFunction (hdoc : Complete doc) {entry : ByteString × Function}
    (hentry : entry ∈ doc.functions)
    (hnul : ∀ r ∈ requestsOf doc entry, ∀ token ∈ r.procArgs executable, 0 ∉ token) :
    exec (runFunction executable doc entry) s =
      (.ok ⟨⟩, s ++ (requestsOf doc entry).map fun r => r.procArgs executable) := by
  unfold runFunction
  refine (exec_bind_ok (exec_declaredAt (hdoc.declared entry hentry))).trans ?_
  unfold requestsOf at hnul ⊢
  cases hparams : entry.2.declAttrs.params with
  | none => exact congrArg (Prod.mk _) (List.append_nil s).symm
  | some params =>
    simp only [hparams, List.mem_map, forall_exists_index, and_imp,
      forall_apply_eq_imp_iff₂] at hnul
    have hmap : (entry.2.callSites.map (siteRequest doc entry params)).map
        (fun r => r.procArgs executable) = entry.2.callSites.flatMap
          fun site => [(siteRequest doc entry params site).procArgs executable] := by
      rw [List.map_map, List.map_eq_flatMap]
      rfl
    simp only [hmap]
    refine exec_forM_append _ (fun site hsite u => ?_) s
    unfold runSite
    refine (exec_bind_ok (exec_fileName (hdoc.sites entry hentry site hsite))).trans ?_
    exact exec_call (hnul site hsite)

/-- The runner starts a process for every request of the documents, in their order. -/
theorem exec_run {docs : List Document} (hdocs : ∀ doc ∈ docs, Complete doc)
    (hnul : ∀ r ∈ requests docs, ∀ token ∈ r.procArgs executable, 0 ∉ token) :
    exec (run executable docs) s =
      (.ok ⟨⟩, s ++ (requests docs).map fun r => r.procArgs executable) := by
  unfold requests at hnul ⊢
  rw [List.map_flatMap]
  refine exec_forM_append docs (fun doc hdoc u => ?_) s
  rw [List.map_flatMap]
  refine exec_forM_append doc.functions (fun entry hentry v => ?_) u
  refine exec_runFunction (hdocs doc hdoc) hentry fun r hr => hnul r ?_
  exact List.mem_flatMap.mpr ⟨doc, hdoc, List.mem_flatMap.mpr ⟨entry, hentry, hr⟩⟩

end Runs

/-! ## Processes -/

section Processes
variable {F : Type} [FloatArith F] (print : F → ByteString) {executable : ByteString} {r : Request}

/-- The site of a request. -/
def siteOf (r : Request) : CallSite where
  callDecl := ⟨r.fname, some r.paramNames⟩
  positionalArgNames := explodeCallSiteArguments r.argNames

/-- How the process for a request has to end: by what a checker without statistics says about the
site, unless its file is passed over. -/
structure Judged (r : Request) (out : Outcome) : Prop where
  read : r.lost ≤ 2 * r.declaration.toList.length →
    ∃ rs, (Checker.new (F := F) {} fun _ => ⟨none, false, false⟩).results (siteOf r) .all = .ok rs ∧
      out.exit = (if rs.isEmpty then .success else .failure) ∧
      out.errors = rs.map (diagnostic print (r.found r.lost))
  unread : ¬ r.lost ≤ 2 * r.declaration.toList.length → out = ⟨.failure, []⟩

theorem judged_of_procArgs (hexecutable : Plain executable) (hr : r.Plain)
    (hsmall : r.argNames.length < 2 ^ 32) : Judged print r (main print (r.procArgs executable)) := by
  have hlen : (siteOf r).positionalArgNames.length < 2 ^ 32 := by
    rw [siteOf, explodeCallSiteArguments, List.length_map]
    exact hsmall
  have hsingle : ∀ arg ∈ (siteOf r).positionalArgNames, arg.length ≤ 1 := by
    intro arg harg
    obtain ⟨name, -, rfl⟩ := List.mem_map.mp harg
    exact le_rfl
  unfold main
  rw [parse_procArgs hr hexecutable]
  refine ⟨fun hread => ?_, fun hunread => ?_⟩
  · obtain ⟨rs, hrs⟩ := results_of_single (Checker.new (F := F) {} fun _ => ⟨none, false, false⟩) hlen
      hsingle
    have hnames : ¬ ((r.found r.lost).functionName = [] ∨ (r.found r.lost).callSiteFileName = []) := by
      simp only [Request.found, if_pos hread]
      exact not_or.mpr ⟨hr.fname_ne, hr.file_ne⟩
    have hsite : (r.found r.lost).site = siteOf r := rfl
    simp only [if_neg hnames, runCheck, hsite, hrs]
    exact ⟨rs, rfl, rfl, rfl⟩
  · have hfile : (r.found r.lost).callSiteFileName = [] := if_neg hunread
    simp only [hfile, or_true, if_true]

/-- **Runs of the integration tests**: over documents whose files are all in their maps, there is one
process for every call site of a function with parameters, in their order, and each process ends
as the checker judges its site, unless it has passed over the file of the site. -/
theorem run_judged (hexecutable : Plain executable) {docs : List Document}
    (hdocs : ∀ doc ∈ docs, Complete doc) (hplain : ∀ r ∈ requests docs, r.Plain)
    (hnul : ∀ r ∈ requests docs, ∀ token ∈ r.procArgs executable, 0 ∉ token)
    (hsmall : ∀ r ∈ requests docs, r.argNames.length < 2 ^ 32) :
    ∃ commands, exec (run executable docs) [] = (.ok ⟨⟩, commands) ∧
      List.Forall₂ (fun r command => Judged print r (main print command)) (requests docs) commands := by
  refine ⟨_, exec_run hdocs hnul, ?_⟩
  rw [List.nil_append, List.forall₂_map_right_iff, List.forall₂_same]
  exact fun r hr => judged_of_procArgs print hexecutable (hplain r hr) (hsmall r hr)

end Processes

/-! ## A document -/

/-- Two calls of `feed(cats, dogs)`, one of which has an argument too many. -/
def petsDocument : Document where
  functions := [(bytes "feed",
    { declAttrs := ⟨some ⟨some 12, some 0⟩, some [⟨some (bytes "cats")⟩, ⟨some (bytes "dogs")⟩]⟩
      callSites := [⟨[⟨some (bytes "dogs")⟩, ⟨some (bytes "cats")⟩], ⟨some 193, some 1⟩⟩,
        ⟨[⟨none⟩, ⟨none⟩, ⟨some (bytes "pigs")⟩], ⟨none, some 1⟩⟩] })]
  fileNameMap := [bytes "pets.h", bytes "main.c"]

theorem petsDocument_complete : Complete petsDocument := by
  constructor
  · intro entry hentry location hlocation
    cases List.mem_singleton.mp hentry
    cases hlocation
    rfl
  · intro entry hentry site hsite
    cases List.mem_singleton.mp hentry
    revert site
    decide

theorem petsDocument_plain {r : Request} (hr : r ∈ requests [petsDocument]) : r.Plain := by
  rcases List.mem_cons.mp hr with rfl | hr
  · exact ⟨by decide, by decide, by decide, by rintro _ ⟨⟩; decide, by rintro _ ⟨⟩; decide, by decide,
      by decide, by decide⟩
  · cases List.mem_singleton.mp hr
    exact ⟨by decide, by decide, by decide, by rintro _ ⟨⟩; decide, by rintro _ ⟨⟩; decide, by decide,
      by decide, by decide⟩

theorem petsDocument_judged :
    ∃ commands, exec (run (bytes "IntegrationTestSwappedArgs") [petsDocument]) [] =
        (.ok ⟨⟩, commands) ∧
      List.Forall₂ (fun r command => Judged (fun _ : XRat => bytes "1") r
        (main (fun _ : XRat => bytes "1") command)) (requests [petsDocument]) commands :=
  run_judged (F := XRat) _ (by decide) (fun doc hdoc => (List.mem_singleton.mp hdoc) ▸ petsDocument_complete)
    (fun r hr => petsDocument_plain hr) (by decide) (by decide)

end SwapDetector.Proofs.IntegrationRuns
