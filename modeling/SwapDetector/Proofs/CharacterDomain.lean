import SwapDetector.Model.CharacterCalls
import SwapDetector.Proofs.Assertions

/-! # The values passed to `<cctype>`

`lower` converts every byte to `unsigned char` before it asks for its lowercase form. The
scan and the suffix filter pass a plain `char`: from 128 on it arrives as a negative
number, which is outside the domain of the functions unless it is `EOF`, the byte 255.
The scan asks about every byte of a name, so that all calls are in the domain when no name
that the loop reaches has such a byte, and only then.
-/
namespace SwapDetector.Proofs.CharacterDomain
open SwapDetector.Base.ExactFloat SwapDetector.Base.Exec SwapDetector.Base.Logging
open SwapDetector.Base.Permutations
open SwapDetector.Model.Bytes SwapDetector.Model.IdentifierSplitting SwapDetector.Model.Types
open SwapDetector.Model.StatsDatabase SwapDetector.Model.SwappedArgChecker
open SwapDetector.Model.CharacterCalls SwapDetector.Spec.Judgement
open SwapDetector.Proofs.PairEnumeration SwapDetector.Proofs.Refinement
open SwapDetector.Proofs.FailingSteps SwapDetector.Proofs.Assertions

/-- The byte may be passed to `<cctype>` as a plain `char`. -/
def PlainByte (c : Byte) : Prop := c.val < 128 ∨ c.val = 255

/-- All bytes of the name may be passed as they are. -/
def PlainName (name : ByteString) : Prop := ∀ c ∈ name, PlainByte c

theorem inDomain_charToInt (function : CtypeFunction) (c : Byte) :
    InDomain ⟨function, charToInt c⟩ ↔ PlainByte c := by
  have hc := c.isLt
  unfold InDomain PlainByte charToInt eof
  by_cases hlow : c.val < 128
  · rw [if_pos hlow]
    simp only
    omega
  · rw [if_neg hlow]
    simp only
    omega

theorem inDomain_ucharToInt (function : CtypeFunction) (c : Byte) :
    InDomain ⟨function, ucharToInt c⟩ := by
  have hc := c.isLt
  unfold InDomain ucharToInt
  simp only
  omega

section Splitting
variable {F α : Type}

/-! ## Splitting -/

theorem callCtype_logs (function : CtypeFunction) (answer : Int → α) (c : Int) :
    Logs (callCtype function answer c : LoggedM F α) (pure (answer c))
      (AllIff InDomain (InDomain ⟨function, c⟩)) :=
  (Logs.record _ (AllIff.single _)).bind_pure_map

/-- A call with a plain `char`. -/
theorem callChar_logs (function : CtypeFunction) (answer : Int → α) (c : Byte) :
    Logs (callCtype function answer (charToInt c) : LoggedM F α) (pure (answer (charToInt c)))
      (AllIff InDomain (PlainByte c)) :=
  (callCtype_logs function answer _).congr (inDomain_charToInt function c)

/-- The conversion in `lower` keeps its calls in the domain. -/
theorem loggedLower_logs (input : ByteString) (wordStart wordEnd : Nat) :
    Logs (loggedLower input wordStart wordEnd : LoggedM F ByteString)
      (pure (lower input wordStart wordEnd)) (AllIff InDomain True) := by
  unfold loggedLower lower lowercase
  have hcall (c : Byte) : Logs (callTolower (ucharToInt c) : LoggedM F Int)
      (pure (tolower (ucharToInt c))) (AllIff InDomain True) :=
    (callCtype_logs .tolower tolower _).congr (iff_true_intro (inDomain_ucharToInt .tolower c))
  have hbyte (c : Byte) : Logs (do return intToChar (← callTolower (ucharToInt c)) : LoggedM F Byte)
      (pure (intToChar (tolower (ucharToInt c)))) (AllIff InDomain True) := (hcall c).bind_pure_map
  exact (Logs.mapM_pure _ fun c _ => hbyte c).congr (by simp)

theorem loggedAddWord_logs (input : ByteString) (wordStart wordEnd : Nat)
    (ret : Finset ByteString) :
    Logs (loggedAddWord input wordStart wordEnd ret : LoggedM F (Finset ByteString))
      (pure (if wordStart ≠ wordEnd then insert (lower input wordStart wordEnd) ret else ret))
      (AllIff InDomain True) := by
  unfold loggedAddWord
  by_cases hword : wordStart ≠ wordEnd
  · rw [if_pos hword, if_pos hword]
    exact (loggedLower_logs input wordStart wordEnd).bind_pure_map
  · rw [if_neg hword, if_neg hword]
    exact Logs.pure _ AllIff.nil

/-- The scan asks about every byte that is left. -/
theorem loggedSplitLoop_logs (input rest : ByteString) (curLoc wordStart : Nat)
    (prevCharWasLower : Bool) (ret : Finset ByteString) :
    Logs (loggedSplitLoop input rest curLoc wordStart prevCharWasLower ret :
        LoggedM F (Finset ByteString))
      (pure (splitLoop input rest curLoc wordStart prevCharWasLower ret))
      (AllIff InDomain (PlainName rest)) := by
  induction rest generalizing curLoc wordStart prevCharWasLower ret with
  | nil => exact (loggedAddWord_logs input wordStart input.length ret).congr (by simp [PlainName])
  | cons c rest ih =>
    have hnext (wordStart : Nat) (ret : Finset ByteString) : Logs
        (do loggedSplitLoop input rest (curLoc + 1) wordStart (← callIslower (charToInt c)) ret :
          LoggedM F (Finset ByteString))
        (pure (splitLoop input rest (curLoc + 1) wordStart (islower (charToInt c)) ret))
        (AllIff InDomain (PlainByte c ∧ PlainName rest)) :=
      (callChar_logs .islower islower c).bind_pure_allIff (ih _ _ _ _)
    have hcons : PlainName (c :: rest) ↔ PlainByte c ∧ PlainName rest := List.forall_mem_cons
    rw [loggedSplitLoop, splitLoop, hcons]
    by_cases hsep : c = underscore
    · rw [if_pos hsep, if_pos hsep]
      exact ((loggedAddWord_logs input wordStart curLoc ret).bind_pure_allIff (hnext _ _)).congr
        (and_iff_right trivial)
    · rw [if_neg hsep, if_neg hsep]
      refine Logs.congr (P := PlainByte c ∧ PlainByte c ∧ PlainName rest) ?_ and_self_left
      refine (callChar_logs .isupper isupper c).bind_pure_allIff ?_
      by_cases hcut : (isupper (charToInt c) && prevCharWasLower) = true
      · rw [if_pos hcut, if_pos hcut]
        refine Logs.congr (P := True ∧ PlainByte c ∧ PlainName rest) ?_ (and_iff_right trivial)
        exact (loggedLower_logs input wordStart curLoc).bind_pure_allIff (hnext _ _)
      · rw [if_neg hcut, if_neg hcut]
        exact hnext _ _

/-- The splitter asks about every byte of the name. -/
theorem loggedSplit_logs (input : ByteString) :
    Logs (loggedSplit input : LoggedM F (Finset ByteString)) (pure (split input))
      (AllIff InDomain (PlainName input)) := by
  refine Logs.congr (P := PlainByte (input.headD 0) ∧ PlainName input) ?_ ?_
  · exact (callChar_logs .islower islower _).bind_pure_allIff (loggedSplitLoop_logs _ _ _ _ _ _)
  · refine and_iff_right_of_imp fun h => ?_
    cases input with
    | nil => exact .inl (by decide)
    | cons c rest => exact h c List.mem_cons_self

end Splitting

/-! ## Pairs -/

/-- The names that are split for a position of a call site. -/
def namesAt (site : CallSite) (pos : Nat) : List ByteString :=
  (getParamName site pos).toList ++ site.positionalArgNames[pos]?.getD []

/-- All bytes of the names of a pair of positions may be passed as they are. -/
def PlainPair (site : CallSite) (p : Nat × Nat) : Prop :=
  (∀ name ∈ namesAt site p.1, PlainName name) ∧ ∀ name ∈ namesAt site p.2, PlainName name

section Names
variable {F : Type}

theorem loggedSuffixCheck_logs (one two : ByteString) :
    Logs (loggedSuffixCheck one two : LoggedM F Bool) (suffixCheck one two)
      (AllIf InDomain (PlainName one)) := by
  unfold loggedSuffixCheck suffixCheck
  refine (Logs.silently _ AllIf.nil).bind_allIf fun _ => ?_
  cases hlast : one.getLast? with
  | none => exact Logs.throw _ AllIf.nil
  | some suf =>
    have hdigit : Logs (callIsdigit (charToInt suf) : LoggedM F Bool)
        (pure (isdigit (charToInt suf))) (AllIf InDomain (PlainName one)) :=
      (callChar_logs .isdigit isdigit suf).weaken fun _ hk =>
        AllIf.of_allIff (fun hone => hone suf (List.mem_of_getLast? hlast)) hk
    show Logs _ (pure (isdigit (charToInt suf) && isdigit (charToInt suf) &&
      one.dropLast == two.dropLast)) _
    refine hdigit.bind_pure ?_ fun _ _ => AllIf.append
    by_cases hsuf : isdigit (charToInt suf) = true
    · rw [if_pos hsuf]
      refine hdigit.bind_pure ?_ fun _ _ => AllIf.append
      rw [if_pos hsuf, hsuf]
      exact Logs.pure _ AllIf.nil
    · rw [if_neg hsuf, Bool.eq_false_of_not_eq_true hsuf]
      exact Logs.pure _ AllIf.nil

theorem loggedMorphemeCollector_logs (site : CallSite) {pos : Nat}
    (hpos : pos < site.positionalArgNames.length) :
    Logs (loggedMorphemeCollector site pos : LoggedM F MorphemeSet)
      (pure ⟨argMorphemes (site.positionalArgNames[pos]?.getD []), pos⟩)
      (AllIff InDomain (∀ name ∈ site.positionalArgNames[pos]?.getD [], PlainName name)) := by
  unfold loggedMorphemeCollector argMorphemes
  rw [List.getElem?_eq_getElem hpos]
  have hstep (m : Finset ByteString) (component : ByteString) : Logs
      (do return m ∪ (← loggedSplit component) : LoggedM F (Finset ByteString))
      (pure (m ∪ split component)) (AllIff InDomain (PlainName component)) :=
    (loggedSplit_logs component).bind_pure_map
  exact (Logs.foldlM_pure _ _ fun m component _ => hstep m component).bind_pure_map

theorem eq_some_of_deref {α : Type} {o : Option α} {s t : Session F} {a : α}
    (h : exec (deref o : CheckM F α) s = (.ok a, t)) : o = some a := by
  cases o with
  | none => cases h
  | some b =>
    cases h
    rfl

theorem mem_of_getLastArgName {site : CallSite} {pos : Nat} {s t : Session F}
    {r : Option ByteString} (h : exec (getLastArgName site pos) s = (.ok r, t)) :
    ∀ name ∈ r, name ∈ site.positionalArgNames[pos]?.getD [] := by
  unfold getLastArgName at h
  cases hnames : site.positionalArgNames[pos]? with
  | none =>
    rw [hnames] at h
    cases h
    simp
  | some names =>
    rw [hnames] at h
    cases hlast : names.getLast? with
    | none =>
      simp only [hlast] at h
      cases h
    | some name =>
      simp only [hlast] at h
      cases h
      intro name' hname'
      cases hname'
      exact List.mem_of_getLast? hlast

/-- The names of a position are plain when what is split for it is. -/
theorem namesAt_plain_iff (site : CallSite) (pos : Nat) :
    (∀ name ∈ namesAt site pos, PlainName name) ↔
      PlainName ((getParamName site pos).getD []) ∧
        ∀ name ∈ site.positionalArgNames[pos]?.getD [], PlainName name := by
  unfold namesAt
  rw [List.forall_mem_append]
  cases getParamName site pos with
  | none => simp [PlainName]
  | some name => simp

/-- The end of the loop body asks about no byte. -/
theorem statsTail_logs (c : Prop) [Decidable c] (y : CheckM F (Option (Result F))) {P : Prop} :
    Logs
      (do
        if c ∧ (← silently get).stats.isSome then
          let _ ← silently validStats
          silently y
        else return none : LoggedM F (Option (Result F)))
      (do
        if c ∧ (← get).stats.isSome then
          let _ ← validStats
          y
        else return none)
      (AllIf InDomain P) := by
  refine (Logs.silently _ AllIf.nil).bind_allIf fun s => ?_
  refine Logs.ite (fun _ => ?_) fun _ => Logs.pure none AllIf.nil
  exact (Logs.silently _ AllIf.nil).bind_allIf fun _ => Logs.silently y AllIf.nil

end Names

section Pair
variable {F : Type} [FloatArith F] (opts : CheckerConfiguration F) (site : CallSite)

/-- What follows the gates in the cover-based check asks about names that were split. -/
theorem loggedCheckForCoverBasedSwap_logs (params args : MorphemeSet × MorphemeSet) {P : Prop}
    (hparam : P → ∀ name ∈ getParamName site params.1.position, PlainName name)
    (harg : P → ∀ name ∈ site.positionalArgNames[args.1.position]?.getD [], PlainName name) :
    Logs (loggedCheckForCoverBasedSwap opts params args site)
      (checkForCoverBasedSwap opts params args site) (AllIf InDomain P) := by
  have hnone : Logs (pure none : LoggedM F (Option (Result F))) (pure none) (AllIf InDomain P) :=
    Logs.pure none AllIf.nil
  have hsilent {α : Type} (y : CheckM F α) : Logs (silently y) y (AllIf InDomain P) :=
    Logs.silently y AllIf.nil
  unfold loggedCheckForCoverBasedSwap checkForCoverBasedSwap
  refine (hsilent _).bind_allIf fun _ => ?_
  refine Logs.ite (fun _ => hnone) fun _ => ?_
  refine Logs.ite (fun _ => hnone) fun _ => ?_
  refine (hsilent _).bind_allIf fun _ => Logs.ite (fun _ => hnone) fun _ => ?_
  refine (hsilent _).bind_allIf fun _ => Logs.ite (fun _ => hnone) fun _ => ?_
  refine (hsilent _).bind_allIf fun _ => Logs.ite (fun _ => hnone) fun _ => ?_
  refine (hsilent _).bind_allIf fun _ => Logs.ite (fun _ => hnone) fun _ => ?_
  refine (hsilent _).bind_answer_allIf (fun _ _ _ => eq_some_of_deref) fun param1 hparam1 => ?_
  refine (hsilent _).bind_allIf fun param2 => ?_
  have hsuffix1 : Logs (loggedSuffixCheck param1 param2 : LoggedM F Bool)
      (suffixCheck param1 param2) (AllIf InDomain P) :=
    (loggedSuffixCheck_logs param1 param2).weaken fun _ hk hP => hk (hparam hP param1 hparam1)
  refine hsuffix1.bind_allIf fun _ => Logs.ite (fun _ => hnone) fun _ => ?_
  refine (hsilent _).bind_answer_allIf (fun _ _ _ => mem_of_getLastArgName) fun name1 hname1 => ?_
  refine (hsilent _).bind_answer_allIf (fun _ _ _ => eq_some_of_deref) fun arg1 harg1 => ?_
  refine (hsilent _).bind_allIf fun name2 => (hsilent _).bind_allIf fun arg2 => ?_
  have hsuffix2 : Logs (loggedSuffixCheck arg1 arg2 : LoggedM F Bool) (suffixCheck arg1 arg2)
      (AllIf InDomain P) :=
    (loggedSuffixCheck_logs arg1 arg2).weaken fun _ hk hP => hk (harg hP arg1 (hname1 arg1 harg1))
  refine hsuffix2.bind_allIf fun _ => Logs.ite (fun _ => hnone) fun _ => ?_
  refine (hsilent _).bind_allIf fun _ => Logs.ite (fun _ => hnone) fun _ => ?_
  exact Logs.pure _ AllIf.nil

/-- The calls for a pair are in the domain when its names are plain. -/
theorem loggedCheckPair_logs (whichCheck : Check) {p : Nat × Nat}
    (hp1 : p.1 < site.positionalArgNames.length) (hp2 : p.2 < site.positionalArgNames.length) :
    Logs (loggedCheckPair opts site whichCheck p) (checkPair opts site whichCheck p)
      (AllIff InDomain (PlainPair site p)) := by
  unfold checkPair
  rw [bind_of_eq_pure (morphemeCollector_eq site hp1),
    bind_of_eq_pure (morphemeCollector_eq site hp2)]
  unfold loggedCheckPair
  refine ((loggedSplit_logs _).bind_pure_then _ ((loggedSplit_logs _).bind_pure_then _
    ((loggedMorphemeCollector_logs site hp1).bind_pure_then _
      ((loggedMorphemeCollector_logs site hp2).bind_pure_then
        (AllIf InDomain (PlainPair site p)) ?_)))).weaken ?_
  · have hnone : Logs (pure none : LoggedM F (Option (Result F))) (pure none)
        (AllIf InDomain (PlainPair site p)) := Logs.pure none AllIf.nil
    refine Logs.ite (fun _ => hnone) fun _ => ?_
    refine Logs.ite (fun _ => ?_) fun _ => statsTail_logs _ _
    refine Logs.ite (fun _ => hnone) fun _ => ?_
    refine Logs.ite (fun _ => ?_) fun _ => statsTail_logs _ _
    refine (loggedCheckForCoverBasedSwap_logs opts site _ _ ?_ ?_).bind_allIf fun r => ?_
    · intro hplain name hname
      exact hplain.1 name (List.mem_append_left _ (Option.mem_toList.mpr hname))
    · intro hplain name hname
      exact hplain.1 name (List.mem_append_right _ hname)
    · cases r with
      | none => exact statsTail_logs _ _
      | some r => exact Logs.pure (some r) AllIf.nil
  · -- the calls of the four splits, then those of the checks
    intro k hk
    obtain ⟨k1, _, rfl, h1, k2, _, rfl, h2, k3, _, rfl, h3, k4, k5, rfl, h4, h5⟩ := hk
    have hsplit : AllIff InDomain (PlainPair site p) (k1 ++ (k2 ++ (k3 ++ k4))) := by
      refine (h1.append (h2.append (h3.append h4))).congr ?_
      unfold PlainPair
      rw [namesAt_plain_iff, namesAt_plain_iff, ← and_assoc, and_and_and_comm]
    have hall := hsplit.append_of_allIf h5
    simpa only [List.append_assoc] using hall

/-! ## Call sites -/

theorem loggedStep_logs (whichCheck : Check) :
    ∀ (results : List (Result F)), ∀ p ∈ allPairs site.positionalArgNames.length, Logs
      (do
        let r ← loggedCheckPair opts site whichCheck p
        return results ++ r.toList : LoggedM F (List (Result F)))
      (do
        let r ← checkPair opts site whichCheck p
        return results ++ r.toList)
      (AllIff InDomain (PlainPair site p)) := by
  intro results p hp
  have hlt := lt_of_mem_allPairs hp
  exact (loggedCheckPair_logs opts site whichCheck hlt.1 hlt.2).bind_map

theorem loggedCheckSite_eq (whichCheck : Check) (h2 : ¬ site.positionalArgNames.length < 2)
    (hn : site.positionalArgNames.length < 2 ^ 32) :
    loggedCheckSite opts site whichCheck = (allPairs site.positionalArgNames.length).foldlM
      (fun results p => do
        let r ← loggedCheckPair opts site whichCheck p
        return results ++ r.toList) [] := by
  unfold loggedCheckSite
  rw [if_neg h2, pairwiseCombinations_ok (by omega) hn]
  exact pure_bind _ _

/-- The log changes nothing: a call with it has the outcome and leaves the session of a
call without it. -/
theorem loggedCheckSite_erase (whichCheck : Check) (s : Session F) (log : List CtypeCall) :
    (exec (loggedCheckSite opts site whichCheck) (s, log)).1 =
        (exec (checkSite opts site whichCheck) s).1 ∧
      (exec (loggedCheckSite opts site whichCheck) (s, log)).2.1 =
        (exec (checkSite opts site whichCheck) s).2 := by
  have hlogs : Logs (loggedCheckSite opts site whichCheck) (checkSite opts site whichCheck)
      (AllIf InDomain False) := by
    unfold loggedCheckSite checkSite
    refine Logs.ite (fun _ => Logs.pure [] AllIf.nil) fun hmany => ?_
    by_cases hn : site.positionalArgNames.length < 2 ^ 32
    · rw [pairwiseCombinations_ok (by omega) hn]
      refine Logs.foldlM_allIf _ _ fun results p hp => ?_
      exact (loggedStep_logs opts site whichCheck results p hp).weaken fun _ =>
        AllIf.of_allIff False.elim
    · rw [pairwiseCombinations_large (by omega)]
      exact Logs.throw _ AllIf.nil
  exact hlogs.erase s log

end Pair

/-- The loop over the pairs reaches a pair: there are fewer than 2^32 arguments, and no
earlier pair ends the call at the suffix filter. -/
structure LoopReaches {F : Type} [FloatArith F] (c : Checker F) (site : CallSite)
    (whichCheck : Check) (p : Nat × Nat) : Prop where
  few : site.positionalArgNames.length < 2 ^ 32
  pair : p.1 < p.2 ∧ p.2 < site.positionalArgNames.length
  earlier : ∀ q : Nat × Nat, q.1 < q.2 ∧ q.2 < site.positionalArgNames.length → LexBefore q p →
    ¬ (pairData c.opts c.weights site whichCheck q).Trips

section Calls
variable {F : Type} [FloatArith F] (c : Checker F) (fails : Nat → Bool) (site : CallSite)
  (whichCheck : Check)

/-- The loop goes over the pairs up to the first one that ends the call. -/
theorem loopReaches_iff {p : Nat × Nat} :
    LoopReaches c site whichCheck p ↔ site.positionalArgNames.length < 2 ^ 32 ∧
      Reached (fun q => (pairData c.opts c.weights site whichCheck q).Trips)
        (allPairs site.positionalArgNames.length) p := by
  rw [reached_iff (allPairs_sorted _) LexBefore.asymm]
  simp only [mem_allPairs]
  exact ⟨fun h => ⟨h.few, h.pair, h.earlier⟩, fun h => ⟨h.1, h.2.1, h.2.2⟩⟩

/-- The calls of a loop over the pairs. -/
theorem ctypeCalls_pairs (h2 : ¬ site.positionalArgNames.length < 2)
    (hn : site.positionalArgNames.length < 2 ^ 32) :
    AllIff InDomain
      (∀ p, Reached (fun q => (pairData c.opts c.weights site whichCheck q).Trips)
        (allPairs site.positionalArgNames.length) p → PlainPair site p)
      (ctypeCalls c fails site whichCheck) := by
  have hidle : Idle c.weights (⟨c.stats, fails⟩ : Session F) := stats_eq c
  obtain ⟨k, hrun, hk⟩ := exec_foldlM (I := Idle c.weights)
    (T := fun q => (pairData c.opts c.weights site whichCheck q).Trips)
    (allPairs site.positionalArgNames.length) []
    (loggedStep_logs c.opts site whichCheck)
    (fun results _ => pairStep_fails c.opts c.weights site whichCheck results)
    (fun results _ => pairStep_returns c.opts c.weights site whichCheck results) hidle []
  have hcalls : ctypeCalls c fails site whichCheck = k := by
    rw [ctypeCalls, loggedCheckSite_eq c.opts site whichCheck h2 hn]
    exact hrun
  rw [hcalls]
  exact hk

/-- When no pair ends the call, the loop reaches every name. -/
theorem ctypeCalls_inDomain_iff_names (h2 : 2 ≤ site.positionalArgNames.length)
    (hn : site.positionalArgNames.length < 2 ^ 32)
    (hsafe : ∀ p ∈ allPairs site.positionalArgNames.length,
      ¬ (pairData c.opts c.weights site whichCheck p).Trips) :
    (∀ call ∈ ctypeCalls c fails site whichCheck, InDomain call) ↔
      ∀ pos < site.positionalArgNames.length, ∀ name ∈ namesAt site pos, PlainName name := by
  refine (ctypeCalls_pairs c fails site whichCheck (by omega) hn).trans ?_
  simp only [reached_iff (allPairs_sorted _) LexBefore.asymm]
  constructor
  · intro h pos hpos
    have hplain (i j : Nat) (hij : i < j) (hj : j < site.positionalArgNames.length) :
        PlainPair site (i, j) :=
      h (i, j) ⟨mem_allPairs.mpr ⟨hij, hj⟩, fun q hq _ => hsafe q hq⟩
    by_cases hzero : pos = 0
    · rw [hzero]
      exact (hplain 0 1 (by omega) (by omega)).1
    · exact (hplain 0 pos (by omega) hpos).2
  · intro h p hp
    have hlt := lt_of_mem_allPairs hp.1
    exact ⟨h p.1 hlt.1, h p.2 hlt.2⟩

/-- **Character classification** is only asked about values in its domain exactly when, in
every pair that the loop reaches, all bytes of the names are below 128 or are 255. -/
theorem ctypeCalls_inDomain_iff :
    (∀ call ∈ ctypeCalls c fails site whichCheck, InDomain call) ↔
      ∀ p, LoopReaches c site whichCheck p → PlainPair site p := by
  by_cases hloop : ¬ site.positionalArgNames.length < 2 ∧ site.positionalArgNames.length < 2 ^ 32
  · have hcalls := ctypeCalls_pairs c fails site whichCheck hloop.1 hloop.2
    unfold AllIff at hcalls
    simp only [hcalls, loopReaches_iff, hloop.2, true_and]
  · -- there is no loop
    have hnil : ctypeCalls c fails site whichCheck = [] := by
      unfold ctypeCalls loggedCheckSite
      by_cases hfew : site.positionalArgNames.length < 2
      · rw [if_pos hfew]
        rfl
      · rw [if_neg hfew, pairwiseCombinations_large (by omega)]
        rfl
    rw [hnil]
    refine iff_of_true (by simp) fun p hp => ?_
    have hfew := hp.few
    have hpair := hp.pair
    omega

/-- A call with an argument `é` in UTF-8. -/
def accentedCall : CallSite where
  callDecl := ⟨bytes "draw", some [bytes "x", bytes "y"]⟩
  positionalArgNames := [[[195, 169]], [bytes "y"]]

theorem accentedCall_outOfDomain : ¬ ∀ call ∈ ctypeCalls (checkerOver {} none : Checker XRat)
    noFailure accentedCall .all, InDomain call := by
  decide +kernel

end Calls

end SwapDetector.Proofs.CharacterDomain
