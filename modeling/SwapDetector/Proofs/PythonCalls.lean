import SwapDetector.Proofs.FailingResults
import SwapDetector.Proofs.Locality
import SwapDetector.Proofs.PythonNames
import SwapDetector.Proofs.PythonResults
import SwapDetector.Proofs.TextSplitting

/-! # Calls of `check_call` from Python

A call leaves the objects of its caller with the owners they had. When it fails, everything
it made is gone; when it returns a list, everything it made is reached from the list.
-/
namespace SwapDetector.Proofs.PythonCalls
open SwapDetector.Base.Exec SwapDetector.Base.Postconditions SwapDetector.Base.ReferenceCounts
open SwapDetector.Base.Utf8 SwapDetector.Base.ExactFloat
open SwapDetector.Model.Bytes SwapDetector.Model.IdentifierSplitting SwapDetector.Model.Types
open SwapDetector.Model.SwappedArgChecker
open SwapDetector.Model.PythonObjects SwapDetector.Model.PythonExtension
open SwapDetector.Spec.Judgement SwapDetector.Spec.PythonCalls
open SwapDetector.Proofs.FailingResults SwapDetector.Proofs.Locality
open SwapDetector.Proofs.StatisticsBased
open SwapDetector.Proofs.TextSplitting
open SwapDetector.Proofs.PythonApi SwapDetector.Proofs.PythonNames SwapDetector.Proofs.PythonResults

variable {F : Type} [FloatArith F]

/-! ## The results of names that are texts -/

theorem verdict_morphemes {d : PairData F} {r : Result F} (h : d.verdict = some r) :
    r.morphemes1 = d.unique1 ∧ r.morphemes2 = d.unique2 := by
  rcases verdict_eq_some h with ⟨-, rfl⟩ | ⟨-, -, -, hstats⟩
  · exact ⟨rfl, rfl⟩
  · obtain ⟨rows, morph1, morph2, psi1, psi2, hseen, rfl⟩ := statsOutcome_eq_some.mp hstats
    exact ⟨hseen.unique1.symm, hseen.unique2.symm⟩

/-- Every argument has one name, which is a text. -/
def Texts (site : CallSite) : Prop :=
  ∀ arg ∈ site.positionalArgNames, ∃ text, arg = [encode text]

theorem decodes_of_mem {site : CallSite} (hsite : Texts site) {pos : Nat} {m : ByteString}
    (hm : m ∈ argMorphemes (site.positionalArgNames[pos]?.getD [])) : (decode m).isSome = true := by
  cases harg : site.positionalArgNames[pos]? with
  | none => simp [argMorphemes, harg] at hm
  | some arg =>
    obtain ⟨text, rfl⟩ := hsite arg (List.mem_of_getElem? harg)
    rw [harg, Option.getD_some, argMorphemes, List.foldl_cons, List.foldl_nil,
      Finset.empty_union] at hm
    obtain ⟨word, -, hword⟩ := decode_of_mem_split hm
    rw [hword]
    rfl

theorem results_of_texts {site : CallSite} (hsite : Texts site)
    (hn : site.positionalArgNames.length < 2 ^ 32) (c : Checker F) (whichCheck : Check) :
    ∃ rs, c.results site whichCheck = .ok rs ∧ ∀ r ∈ rs, Decodes r := by
  have hsingle : ∀ arg ∈ site.positionalArgNames, arg.length ≤ 1 := by
    intro arg harg
    obtain ⟨text, rfl⟩ := hsite arg harg
    exact le_rfl
  have hsafe : NoTrips c site whichCheck := fun i j _ _ =>
    not_trips_of_single hsingle c.opts c.weights whichCheck (i, j)
  refine ⟨_, results_of_noTrips hn hsafe, fun r hr m hm => ?_⟩
  obtain ⟨i, j, -, -, hverdict⟩ := mem_verdicts.mp hr
  obtain ⟨h1, h2⟩ := verdict_morphemes hverdict
  rw [h1, h2] at hm
  rcases hm with hm | hm
  · exact decodes_of_mem hsite (Finset.mem_sdiff.mp hm).1
  · exact decodes_of_mem hsite (Finset.mem_sdiff.mp hm).1

/-! ## Call sites from Python -/

theorem bind_eq_ok {ε α β : Type} {x : Except ε α} {f : α → Except ε β} {b : β} :
    x >>= f = .ok b ↔ ∃ a, x = .ok a ∧ f a = .ok b := by
  cases x with
  | ok a => exact ⟨fun h => ⟨a, rfl, h⟩, fun ⟨a', ha, h⟩ => (by cases ha; exact h)⟩
  | error e => exact ⟨fun h => (by cases h), fun ⟨a, ha, _⟩ => by cases ha⟩

theorem bind_of_ok {ε α β : Type} {x : Except ε α} {f : α → Except ε β} {a : α} {r : Except ε β}
    (hx : x = .ok a) (hf : f a = r) : x >>= f = r := by
  rw [hx]
  exact hf

theorem bind_of_error {ε α β : Type} {x : Except ε α} {e : ε} (hx : x = .error e)
    (f : α → Except ε β) : x >>= f = .error e := by
  rw [hx]
  rfl

section Sites
variable {h : Heap PyValue} {message : ByteString} {names : List ByteString}

theorem nameOf_eq_ok {o : Option PyValue} {name : ByteString} (hname : nameOf message o = .ok name) :
    ∃ text, name = encode text := by
  cases o with
  | none => cases hname
  | some v =>
    cases v with
    | str text =>
      simp only [nameOf, utf8Of] at hname
      split at hname
      · exact ⟨_, (Except.ok.inj hname).symm⟩
      · cases hname
    | _ => cases hname

theorem scriptNames_texts {ys : List Yield} {ending : Option PyError}
    (hnames : scriptNames h message ys ending = .ok names) :
    ∀ name ∈ names, ∃ text, name = encode text := by
  induction ys generalizing names with
  | nil =>
    cases ending with
    | none =>
      cases hnames
      simp
    | some e => cases hnames
  | cons y ys ih =>
    rw [scriptNames] at hnames
    obtain ⟨name, hname, hnames⟩ := bind_eq_ok.mp hnames
    obtain ⟨rest, hrest, hnames⟩ := bind_eq_ok.mp hnames
    cases hnames
    intro n hn
    rcases List.mem_cons.mp hn with rfl | hn
    · exact nameOf_eq_ok hname
    · exact ih hrest n hn

theorem siteOf_texts {args : CallArgs} {site : CallSite} (hsite : siteOf h args = .ok site) :
    Texts site := by
  unfold siteOf at hsite
  obtain ⟨parsed, -, hsite⟩ := bind_eq_ok.mp hsite
  obtain ⟨arguments, harguments, hsite⟩ := bind_eq_ok.mp hsite
  obtain ⟨paramNames, -, hsite⟩ := bind_eq_ok.mp hsite
  cases hsite
  intro arg harg
  obtain ⟨name, hname, rfl⟩ := List.mem_map.mp harg
  unfold namesOf at harguments
  split at harguments
  · obtain ⟨text, rfl⟩ := scriptNames_texts harguments name hname
    exact ⟨text, rfl⟩
  · cases harguments

theorem parsedOf_eq_ok {args : CallArgs} {parsed : Parsed} (hparsed : parsedOf h args = .ok parsed) :
    args.get 0 = some parsed.arguments ∧ args.get 2 = parsed.paramNames := by
  unfold parsedOf at hparsed
  split at hparsed
  · cases hparsed
  · split at hparsed
    · cases hparsed
    · rename_i arguments hget
      obtain ⟨callee, -, hparsed⟩ := bind_eq_ok.mp hparsed
      split at hparsed
      · cases hparsed
      · cases hparsed
        exact ⟨hget, rfl⟩

end Sites

/-! ## Two swapped pairs -/

def pyStr (s : String) : PyValue := .str (s.toList.map codePoint)

/-- The names of four parameters, and the same names swapped in pairs. -/
def swappedHeap : Heap PyValue :=
  [some ⟨2, pyStr "hi"⟩, some ⟨2, pyStr "lo"⟩, some ⟨2, pyStr "foo"⟩, some ⟨3, pyStr "bar"⟩,
    some ⟨1, .list [0, 1, 2, 3]⟩, some ⟨1, .list [1, 0, 3, 2]⟩]

def swappedArgs : CallArgs :=
  ⟨[], [(bytes "callee", 3), (bytes "parameters", 4), (bytes "arguments", 5)]⟩

theorem swappedHeap_counted : Counted PyValue.refs swappedHeap {3, 4, 5} :=
  Counted.of_places (by decide) (by decide) (by decide) (by decide)

theorem swappedArgs_live : Live swappedHeap swappedArgs := by
  intro o ho
  simp only [swappedArgs, List.nil_append, List.map_cons, List.map_nil, List.mem_cons,
    List.not_mem_nil, or_false] at ho
  rcases ho with rfl | rfl | rfl
  · exact ⟨_, rfl, rfl⟩
  · exact ⟨_, rfl, rfl⟩
  · exact ⟨_, rfl, rfl⟩

theorem siteOf_swapped : siteOf swappedHeap swappedArgs = .ok
    ⟨⟨bytes "bar", some [bytes "hi", bytes "lo", bytes "foo", bytes "bar"]⟩,
      [[bytes "lo"], [bytes "hi"], [bytes "bar"], [bytes "foo"]]⟩ := by
  decide +kernel

theorem swappedSite_small (site : CallSite) (h : siteOf swappedHeap swappedArgs = .ok site) :
    site.positionalArgNames.length < 2 ^ 32 := by
  cases siteOf_swapped.symm.trans h
  decide

/-! ## The call -/

section Calls
variable {own : Multiset Nat} {s : Interp} {args : CallArgs} {self : Checker F}

/-- The call fails: all that it made is gone, and an error is set. Unless some call ran out of
memory it is the one that the arguments stand for. -/
structure Failed (s : Interp) (args : CallArgs) (own : Multiset Nat) (t : Interp) : Prop where
  settled : Settled own 0 s.heap t.heap
  raised : t.error.isSome = true
  expected : Calm s → ∃ e, siteOf s.heap args = .error e ∧ t.error = some e

/-- The call returns the list of the results for the call site that the arguments stand for. -/
structure Succeeded (checker : Checker F) (s : Interp) (args : CallArgs) (own : Multiset Nat)
    (list : Nat) (t : Interp) : Prop where
  settled : Settled own {list} s.heap t.heap
  quiet : t.error = none
  answered : ∃ site rs, siteOf s.heap args = .ok site ∧ checker.results site .all = .ok rs ∧
    IsResultList t.heap list rs

theorem checkerCheck_spec (self : Checker F) (hc : Counted PyValue.refs s.heap own)
    (hquiet : s.error = none) (hlive : Live s.heap args)
    (hsmall : ∀ site, siteOf s.heap args = .ok site → site.positionalArgNames.length < 2 ^ 32) :
    Gives (checkerCheck self args) s fun r t => match r with
      | none => Failed s args own t
      | some list => Succeeded self s args own list t := by
  have hbase := good_of_counted hc
  have hfail {t : Interp} (hg : Good s.heap.length own t.heap) (hext : Extends s.heap t.heap)
      (hset : t.error.isSome = true)
      (hwhy : Calm s → ∃ e, siteOf s.heap args = .error e ∧ t.error = some e) :
      Failed s args own t :=
    ⟨⟨hc, by rwa [Multiset.zero_add], hext, fun _ hr => absurd hr (Multiset.notMem_zero _)⟩, hset, hwhy⟩
  unfold checkerCheck
  refine (parseArgs_spec hbase Extends.refl hlive).bind fun parsed t₁ h₁ => ?_
  cases parsed with
  | none =>
    obtain ⟨hset, hwhy⟩ := h₁.failed rfl
    refine Gives.pure (hfail h₁.good h₁.grows hset fun hcalm => ?_)
    obtain ⟨e, he, hte⟩ := hwhy hcalm
    exact ⟨e, bind_of_error he _, hte⟩
  | some parsed =>
    obtain ⟨hquiet₁, hparsed⟩ := h₁.read parsed rfl
    obtain ⟨harguments, hparams⟩ := parsedOf_eq_ok hparsed
    obtain ⟨v, hv, hiterator⟩ := hlive.get harguments
    refine (readNames_spec argumentsMessage hbase (fun _ hr => hr) rfl h₁.good h₁.grows
      (hquiet₁.trans hquiet) hv hiterator).bind fun arguments t₂ h₂ => ?_
    cases arguments with
    | none =>
      obtain ⟨hset, hwhy⟩ := h₂.failed rfl
      refine Gives.pure (hfail h₂.good h₂.grows hset fun hcalm => ?_)
      obtain ⟨e, he, hte⟩ := hwhy (h₁.calm hcalm)
      exact ⟨e, bind_of_ok hparsed (bind_of_error he _), hte⟩
    | some arguments =>
      obtain ⟨hquiet₂, hnames⟩ := h₂.read arguments rfl
      refine (readParamNames_spec hbase (fun _ hr => hr) rfl h₂.good h₂.grows
        (hquiet₂.trans (hquiet₁.trans hquiet))
        (fun o ho => hlive.get (hparams.trans ho))).bind fun paramNames t₃ h₃ => ?_
      cases paramNames with
      | none =>
        obtain ⟨hset, hwhy⟩ := h₃.failed rfl
        refine Gives.pure (hfail h₃.good h₃.grows hset fun hcalm => ?_)
        obtain ⟨e, he, hte⟩ := hwhy (h₂.calm (h₁.calm hcalm))
        exact ⟨e, bind_of_ok hparsed (bind_of_ok hnames (bind_of_error he _)), hte⟩
      | some paramNames =>
        obtain ⟨hquiet₃, hparamNames⟩ := h₃.read paramNames rfl
        have hsite : siteOf s.heap args =
            .ok (callSiteOf arguments parsed.callee paramNames) :=
          bind_of_ok hparsed (bind_of_ok hnames (bind_of_ok hparamNames rfl))
        have hcalm₃ : Calm s → Calm t₃ := fun hcalm => h₃.calm (h₂.calm (h₁.calm hcalm))
        have hquiet' : t₃.error = none := hquiet₃.trans (hquiet₂.trans (hquiet₁.trans hquiet))
        obtain ⟨rs, hrs, hdecodes⟩ :=
          results_of_texts (siteOf_texts hsite) (hsmall _ hsite) self .all
        refine (tryNew_spec True h₃.good rfl).bind fun resultList t₄ h₄ => ?_
        have hext₄ := h₃.grows.trans h₄.grows
        cases resultList with
        | none =>
          obtain ⟨hg, hset, hwhy⟩ := h₄.failed rfl
          exact Gives.pure (hfail hg hext₄ hset fun hcalm => absurd ⟨hcalm₃ hcalm, trivial⟩ hwhy)
        | some list =>
          obtain ⟨hg, hquiet₄, hfresh, hlist⟩ := h₄.made list rfl
          have hle : s.heap.length ≤ list := h₃.grows.length_le.trans hfresh
          simp only [hrs]
          refine (appendResults_spec (list ::ₘ own) hc
            (fun r hr => Multiset.mem_cons_of_mem hr) hle le_rfl rs [] [] t₄ hg hext₄ hlist
            .nil).bind ?_
          rintro appended t₅ ⟨hg₅, hext₅, hcalm₅, hfailed, happended⟩
          cases appended with
          | true =>
            obtain ⟨hquiet₅, items, hitems, hall⟩ := happended rfl
            refine Gives.pure ⟨⟨hc, hg₅, hext₅, fun r hr => ?_⟩,
              hquiet₅.trans (hquiet₄.trans hquiet'), _, rs, hsite, hrs, items, hitems, hall⟩
            obtain rfl := Multiset.mem_singleton.mp hr
            exact ⟨hle, _, hitems, by simp [rank]⟩
          | false =>
            obtain ⟨hset, hwhy⟩ := hfailed rfl
            refine (pyDecRef_spec hg₅).bind ?_
            rintro _ t₆ ⟨hg₆, hsame, hfails, hrel⟩
            refine Gives.pure (hfail hg₆ (hext₅.released hc (fun _ hr => hr) hrel)
              (by rw [hsame, hset]) fun hcalm => ?_)
            exact absurd ⟨h₄.calm (hcalm₃ hcalm), hdecodes⟩ hwhy

/-- **Answers**: a call returns nothing exactly when it leaves an exception. The list it returns
holds the results for the call site that the arguments stand for, and when no memory runs out
it fails only with the exception they stand for. -/
theorem checkerCheck_answers (self : Checker F) (s : Interp) (args : CallArgs) (own : Multiset Nat)
    (hc : Counted PyValue.refs s.heap own) (hquiet : s.error = none) (hlive : Live s.heap args)
    (hsmall : ∀ site, siteOf s.heap args = .ok site → site.positionalArgNames.length < 2 ^ 32) :
    ∃ r t, exec (checkerCheck self args) s = (.ok r, t) ∧ (r = none ↔ t.error.isSome = true) ∧
      (∀ list, r = some list → ∃ site rs, siteOf s.heap args = .ok site ∧
        self.results site .all = .ok rs ∧ IsResultList t.heap list rs) ∧
      (Calm s → match siteOf s.heap args with
        | .ok _ => r.isSome = true
        | .error e => r = none ∧ t.error = some e) := by
  obtain ⟨r, t, hrun, hpost⟩ := checkerCheck_spec self hc hquiet hlive hsmall
  refine ⟨r, t, hrun, ?_⟩
  cases r with
  | none =>
    replace hpost : Failed s args own t := hpost
    refine ⟨iff_of_true rfl hpost.raised, fun _ h => (by cases h), fun hcalm => ?_⟩
    obtain ⟨e, he, hte⟩ := hpost.expected hcalm
    rw [he]
    exact ⟨rfl, hte⟩
  | some list =>
    replace hpost : Succeeded self s args own list t := hpost
    obtain ⟨site, rs, hsite, hrs, hlist⟩ := hpost.answered
    refine ⟨iff_of_false (by simp) (by simp [hpost.quiet]), ?_, fun _ => ?_⟩
    · intro l hl
      cases hl
      exact ⟨site, rs, hsite, hrs, hlist⟩
    · rw [hsite]
      rfl

theorem swapped_answers : ∃ r t,
    exec (checkerCheck (checkerNew : Checker XRat) swappedArgs) ⟨swappedHeap, none, noFailure⟩ =
      (.ok r, t) ∧ (r = none ↔ t.error.isSome = true) ∧
    (∀ list, r = some list → ∃ site rs, siteOf swappedHeap swappedArgs = .ok site ∧
      (checkerNew : Checker XRat).results site .all = .ok rs ∧ IsResultList t.heap list rs) ∧
    (Calm ⟨swappedHeap, none, noFailure⟩ → match siteOf swappedHeap swappedArgs with
      | .ok _ => r.isSome = true
      | .error e => r = none ∧ t.error = some e) :=
  checkerCheck_answers checkerNew ⟨swappedHeap, none, noFailure⟩ swappedArgs {3, 4, 5}
    swappedHeap_counted rfl swappedArgs_live swappedSite_small

end Calls

end SwapDetector.Proofs.PythonCalls
