import SwapDetector.Proofs.Assertions
import SwapDetector.Proofs.StatisticsBased

/-! # Call sites are judged pair by pair

The results of a call are the verdicts on its pairs in lexicographic order, and a
verdict depends on the data of its own pair only. What ends this is the one
assertion a pair can break: it takes the results of all other pairs with it.
-/
namespace SwapDetector.Proofs.Locality
open SwapDetector.Base.ExactFloat SwapDetector.Base.Exec SwapDetector.Base.OrderedSet
open SwapDetector.Base.Permutations
open SwapDetector.Model.Bytes SwapDetector.Model.IdentifierSplitting SwapDetector.Model.Types
open SwapDetector.Model.StatsDatabase SwapDetector.Model.SwappedArgChecker
open SwapDetector.Spec.Judgement SwapDetector.Proofs.Refinement SwapDetector.Proofs.Assertions
open SwapDetector.Proofs.StatisticsBased

variable {F : Type} [FloatArith F]

/-! ## The verdict on one pair -/

theorem judge_of_trips {d : PairData F} (h : d.Trips) : d.judge = .error .emptyName := by
  obtain ⟨hargs, husable⟩ := gates_usable h.2.1
  rw [PairData.judge, if_neg hargs, if_neg husable, PairData.coverPart, if_pos h.1,
    PairData.coverOutcome, candidate_of_trips h]
  rfl

theorem candidate_eq_true {d : PairData F} : d.candidate = .ok true ↔
    d.Gates ∧ suffixTwins d.param1 d.param2 = false ∧ lastName d.arg1 ≠ [] ∧
      suffixTwins (lastName d.arg1) (lastName d.arg2) = false := by
  unfold PairData.candidate
  by_cases hgates : d.Gates
  · by_cases hparams : suffixTwins d.param1 d.param2 = true
    · rw [if_pos (.inr hparams)]
      simp [hparams]
    · rw [if_neg (not_or.mpr ⟨not_not.mpr hgates, hparams⟩)]
      rw [Bool.not_eq_true] at hparams
      by_cases hempty : lastName d.arg1 = []
      · rw [if_pos hempty]
        simp [hempty]
      · rw [if_neg hempty]
        simp [hgates, hparams, hempty]
  · rw [if_pos (.inl hgates)]
    simp [hgates]

/-- The cover-based check reports the pair. -/
def Covers (d : PairData F) : Prop := d.coverRuns ∧ d.candidate = .ok true ∧ d.vetoed = false

instance (d : PairData F) : Decidable (Covers d) := inferInstanceAs (Decidable (_ ∧ _ ∧ _))

theorem covers_iff {d : PairData F} : Covers d ↔ d.coverRuns ∧
    (d.Gates ∧ ¬ suffixTwins d.param1 d.param2 = true ∧ ¬ lastName d.arg1 = [] ∧
      ¬ suffixTwins (lastName d.arg1) (lastName d.arg2) = true) ∧ ¬ d.vetoed = true := by
  rw [Covers, candidate_eq_true, Bool.not_eq_true, Bool.not_eq_true, Bool.not_eq_true]

/-- What the cover-based check reports has morphemes in all names. -/
theorem Covers.usable {d : PairData F} (h : Covers d) :
    ¬ (argMorphemes d.arg1 = ∅ ∨ argMorphemes d.arg2 = ∅) ∧ ¬ d.Unusable :=
  gates_usable (candidate_eq_true.mp h.2.1).1

theorem coverPart_of_not_trips {d : PairData F} (h : ¬ d.Trips) :
    d.coverPart = .ok (if Covers d then some d.coverResult else none) := by
  unfold PairData.coverPart
  by_cases hruns : d.coverRuns
  · obtain ⟨passed, hpassed⟩ := candidate_of_not_trips h hruns
    rw [if_pos hruns, PairData.coverOutcome, hpassed]
    refine congrArg Except.ok (if_congr ?_ rfl rfl)
    rw [Covers, hpassed]
    simp [hruns]
  · have hcovers : ¬ Covers d := fun hcovers => hruns hcovers.1
    rw [if_neg hruns, if_neg hcovers]

theorem statsPart_eq_some {d : PairData F} {r : Result F} :
    d.statsPart = some r ↔ d.statsRuns ∧ d.statsOutcome = some r := by
  unfold PairData.statsPart
  by_cases hruns : d.statsRuns
  · rw [if_pos hruns, and_iff_right hruns]
  · rw [if_neg hruns]
    exact iff_of_false (by simp) fun h => hruns h.1

theorem statsPart_of_empty {d : PairData F}
    (h : argMorphemes d.arg1 = ∅ ∨ argMorphemes d.arg2 = ∅) : d.statsPart = none := by
  cases hr : d.statsPart with
  | none => rfl
  | some r => exact absurd h (statsOutcome_nonempty (statsPart_eq_some.mp hr).2)

/-- A pair that does not break the assertion is judged by the parameter names, then by
the statistics. -/
theorem judge_of_not_trips {d : PairData F} (h : ¬ d.Trips) :
    d.judge = .ok (if Covers d then some d.coverResult
      else if d.Unusable then none else d.statsPart) := by
  unfold PairData.judge
  by_cases hargs : argMorphemes d.arg1 = ∅ ∨ argMorphemes d.arg2 = ∅
  · have hcovers : ¬ Covers d := fun hcovers => hcovers.usable.1 hargs
    rw [if_pos hargs, if_neg hcovers, statsPart_of_empty hargs, ite_self]
  rw [if_neg hargs]
  by_cases hunusable : d.Unusable
  · have hcovers : ¬ Covers d := fun hcovers => hcovers.usable.2 hunusable
    rw [if_pos hunusable, if_neg hcovers, if_pos hunusable]
  rw [if_neg hunusable, if_neg hunusable, coverPart_of_not_trips h]
  by_cases hcovers : Covers d
  · rw [if_pos hcovers, if_pos hcovers]
    rfl
  · rw [if_neg hcovers, if_neg hcovers]
    rfl

theorem verdict_of_not_trips {d : PairData F} (h : ¬ d.Trips) :
    d.verdict = if Covers d then some d.coverResult
      else if d.Unusable then none else d.statsPart := by
  rw [PairData.verdict, judge_of_not_trips h, answer]

theorem judge_eq_verdict {d : PairData F} (h : ¬ d.Trips) : d.judge = .ok d.verdict := by
  rw [verdict_of_not_trips h, judge_of_not_trips h]

/-- The verdict is that of the cover-based check, or else that of the statistics. -/
theorem verdict_eq_some_iff {d : PairData F} {r : Result F} (htrips : ¬ d.Trips) :
    d.verdict = some r ↔ (Covers d ∧ r = d.coverResult) ∨
      (¬ Covers d ∧ ¬ d.Unusable ∧ d.statsRuns ∧ d.statsOutcome = some r) := by
  rw [verdict_of_not_trips htrips]
  by_cases hcovers : Covers d
  · rw [if_pos hcovers, Option.some.injEq]
    simp only [hcovers, true_and, not_true, false_and, or_false, eq_comm]
  · rw [if_neg hcovers]
    simp only [hcovers, false_and, not_false_eq_true, true_and, false_or]
    by_cases hunusable : d.Unusable
    · rw [if_pos hunusable]
      exact iff_of_false (by simp) fun h => h.1 hunusable
    · rw [if_neg hunusable, statsPart_eq_some, and_iff_right hunusable]

theorem verdict_eq_some {d : PairData F} {r : Result F} (h : d.verdict = some r) :
    (Covers d ∧ r = d.coverResult) ∨
      (¬ Covers d ∧ ¬ d.Unusable ∧ d.statsRuns ∧ d.statsOutcome = some r) := by
  refine (verdict_eq_some_iff fun htrips => ?_).mp h
  rw [PairData.verdict, judge_of_trips htrips] at h
  cases h

/-- In the cover-based mode the cover-based check alone decides. -/
theorem verdict_coverBased {d : PairData F} (hmode : d.whichCheck = .coverBased)
    (htrips : ¬ d.Trips) : d.verdict = if Covers d then some d.coverResult else none := by
  have hstats : d.statsPart = none := if_neg fun hruns => by
    rcases hruns with hall | hstats
    · cases hmode.symm.trans hall
    · cases hmode.symm.trans hstats
  rw [verdict_of_not_trips htrips, hstats, ite_self]

/-- Without statistics the cover-based check alone decides. -/
theorem verdict_without_rows {d : PairData F} {r : Result F} (htrips : ¬ d.Trips)
    (hrows : d.rows = none) : d.verdict = some r ↔ Covers d ∧ r = d.coverResult := by
  have hstats : d.statsOutcome = none := by rw [PairData.statsOutcome, hrows]; rfl
  rw [verdict_eq_some_iff htrips, hstats]
  simp

/-- A verdict names its own pair, with one-based positions. -/
theorem verdict_positions {d : PairData F} {r : Result F} (h : d.verdict = some r) :
    r.arg1 = d.pos1 + 1 ∧ r.arg2 = d.pos2 + 1 := by
  rcases verdict_eq_some h with ⟨-, rfl⟩ | ⟨-, -, -, hstats⟩
  · exact ⟨rfl, rfl⟩
  · exact statsOutcome_positions hstats

/-! ## The results of a call -/

/-- No pair of the call breaks the assertion of the suffix filter. -/
def NoTrips (c : Checker F) (site : CallSite) (whichCheck : Check) : Prop :=
  ∀ i j, i < j → j < site.positionalArgNames.length →
    ¬ (pairData c.opts c.weights site whichCheck (i, j)).Trips

/-- The verdicts on all pairs of a call. -/
def verdicts (c : Checker F) (site : CallSite) (whichCheck : Check) : List (Result F) :=
  (allPairs site.positionalArgNames.length).filterMap fun p =>
    (pairData c.opts c.weights site whichCheck p).verdict

section Calls
variable {c : Checker F} {site : CallSite} {whichCheck : Check}

theorem pairData_defaults (hopts : DefaultThresholds c.opts) (p : Nat × Nat) :
    DefaultThresholds (pairData c.opts c.weights site whichCheck p).opts := by
  have heq : (pairData c.opts c.weights site whichCheck p).opts = { c.opts with modelPath := [] } :=
    rfl
  rw [DefaultThresholds, heq, hopts]

theorem results_of_noTrips (hn : site.positionalArgNames.length < 2 ^ 32)
    (h : NoTrips c site whichCheck) :
    c.results site whichCheck = .ok (verdicts c site whichCheck) := by
  rw [results_eq, if_pos hn]
  refine collect_of_ok fun p hp => ?_
  rw [mem_allPairs] at hp
  exact judge_eq_verdict (h p.1 p.2 hp.1 hp.2)

theorem results_of_trips (hn : site.positionalArgNames.length < 2 ^ 32)
    (h : ¬ NoTrips c site whichCheck) : c.results site whichCheck = .error .emptyName := by
  rw [results_eq, if_pos hn]
  simp only [NoTrips, not_forall, not_not] at h
  obtain ⟨i, j, hij, hj, htrips⟩ := h
  cases hjudge : judgeAll c.opts c.weights site whichCheck with
  | ok rs =>
    obtain ⟨r, hr⟩ := exists_collect_iff.mp ⟨rs, hjudge⟩ (i, j) (mem_allPairs.mpr ⟨hij, hj⟩)
    rw [judge_of_trips htrips] at hr
    cases hr
  | error f =>
    obtain ⟨before, p, after, -, hp, -⟩ := collect_eq_error.mp hjudge
    by_cases hptrips : (pairData c.opts c.weights site whichCheck p).Trips
    · rw [judge_of_trips hptrips] at hp
      cases hp
      rfl
    · rw [judge_of_not_trips hptrips] at hp
      cases hp

/-- A call that returns has judged every pair, and none of them breaks the assertion. -/
theorem results_eq_ok {rs : List (Result F)} :
    c.results site whichCheck = .ok rs ↔
      (site.positionalArgNames.length < 2 ^ 32 ∧ NoTrips c site whichCheck) ∧
        rs = verdicts c site whichCheck := by
  constructor
  · intro h
    by_cases hn : site.positionalArgNames.length < 2 ^ 32
    · by_cases hsafe : NoTrips c site whichCheck
      · rw [results_of_noTrips hn hsafe] at h
        exact ⟨⟨hn, hsafe⟩, (Except.ok.inj h).symm⟩
      · rw [results_of_trips hn hsafe] at h
        cases h
    · rw [results_eq, if_neg hn] at h
      cases h
  · intro h
    obtain ⟨⟨hn, hsafe⟩, hrs⟩ := h
    rw [hrs]
    exact results_of_noTrips hn hsafe

theorem mem_verdicts {r : Result F} :
    r ∈ verdicts c site whichCheck ↔ ∃ i j, i < j ∧ j < site.positionalArgNames.length ∧
      (pairData c.opts c.weights site whichCheck (i, j)).verdict = some r := by
  unfold verdicts
  rw [List.mem_filterMap]
  constructor
  · intro h
    obtain ⟨p, hp, hr⟩ := h
    exact ⟨p.1, p.2, (mem_allPairs.mp hp).1, (mem_allPairs.mp hp).2, hr⟩
  · intro h
    obtain ⟨i, j, hij, hj, hr⟩ := h
    exact ⟨(i, j), mem_allPairs.mpr ⟨hij, hj⟩, hr⟩

/-- A result that names a pair is the verdict on it. -/
theorem verdict_of_mem {i j : Nat} {r : Result F} (hr : r ∈ verdicts c site whichCheck)
    (harg1 : r.arg1 = i + 1) (harg2 : r.arg2 = j + 1) :
    (pairData c.opts c.weights site whichCheck (i, j)).verdict = some r := by
  obtain ⟨i', j', -, -, hverdict⟩ := mem_verdicts.mp hr
  obtain ⟨hi, hj⟩ := verdict_positions hverdict
  obtain rfl : i' = i := Nat.succ.inj (hi.symm.trans harg1)
  obtain rfl : j' = j := Nat.succ.inj (hj.symm.trans harg2)
  exact hverdict

/-- The call reports a pair. -/
def ReportsPair (c : Checker F) (site : CallSite) (whichCheck : Check) (i j : Nat) : Prop :=
  ∃ rs, c.results site whichCheck = .ok rs ∧ ∃ r ∈ rs, r.arg1 = i + 1 ∧ r.arg2 = j + 1

theorem reportsPair_iff {i j : Nat} (hij : i < j) (hj : j < site.positionalArgNames.length) :
    ReportsPair c site whichCheck i j ↔
      (site.positionalArgNames.length < 2 ^ 32 ∧ NoTrips c site whichCheck) ∧
        ∃ r, (pairData c.opts c.weights site whichCheck (i, j)).verdict = some r := by
  constructor
  · intro h
    obtain ⟨rs, hrs, r, hr, harg1, harg2⟩ := h
    obtain ⟨hsafe, rfl⟩ := results_eq_ok.mp hrs
    exact ⟨hsafe, r, verdict_of_mem hr harg1 harg2⟩
  · intro h
    obtain ⟨hsafe, r, hverdict⟩ := h
    obtain ⟨harg1, harg2⟩ := verdict_positions hverdict
    exact ⟨_, results_eq_ok.mpr ⟨hsafe, rfl⟩, r, mem_verdicts.mpr ⟨i, j, hij, hj, hverdict⟩,
      harg1, harg2⟩

/-- Arguments that do not end in an empty component break no assertion. -/
theorem noTrips_of_lastNames (h : ∀ arg ∈ site.positionalArgNames, arg.getLast? ≠ some []) :
    NoTrips c site whichCheck := by
  intro i j hij hj htrips
  obtain ⟨-, hgates, -, hempty⟩ := htrips
  obtain ⟨-, harg1, -⟩ := gates_nonempty hgates
  have hi : i < site.positionalArgNames.length := by omega
  have hdata : (pairData c.opts c.weights site whichCheck (i, j)).arg1 = site.positionalArgNames[i] := by
    simp only [pairData, List.getElem?_eq_getElem hi, Option.getD_some]
  rw [hdata] at harg1 hempty
  cases hlast : site.positionalArgNames[i].getLast? with
  | none =>
    rw [List.getLast?_eq_none_iff] at hlast
    exact harg1 (by rw [hlast]; rfl)
  | some name =>
    have hname : name = [] := by simpa [lastName, hlast] using hempty
    exact h _ (List.getElem_mem hi) (hname ▸ hlast)

/-- The results come in lexicographic order of their positions, none of them twice. -/
theorem verdicts_sorted : (verdicts c site whichCheck).Pairwise fun r r' =>
    LexBefore (r.arg1, r.arg2) (r'.arg1, r'.arg2) := by
  refine List.pairwise_filterMap.mpr ((allPairs_sorted _).imp fun {p q} hpq r hr r' hr' => ?_)
  obtain ⟨harg1, harg2⟩ := verdict_positions hr
  obtain ⟨harg1', harg2'⟩ := verdict_positions hr'
  simp only [pairData] at harg1 harg2 harg1' harg2'
  unfold LexBefore at hpq ⊢
  omega

/-- Among the results of a call, the one for a pair is the verdict on it. -/
theorem reported_verdicts {i j : Nat} (hij : i < j) (hj : j < site.positionalArgNames.length) :
    reported (verdicts c site whichCheck) (i, j) =
      (pairData c.opts c.weights site whichCheck (i, j)).verdict := by
  refine find?_filterMap (a := (i, j)) (fun p _ r hr => ?_) (mem_allPairs.mpr ⟨hij, hj⟩)
  obtain ⟨harg1, harg2⟩ := verdict_positions hr
  rw [decide_eq_true_iff, harg1, harg2]
  show p.1 + 1 = i + 1 ∧ p.2 + 1 = j + 1 ↔ p = (i, j)
  rw [Prod.ext_iff]
  simp

/-- Calls with equally many arguments have the same results when their verdicts agree
on every pair. -/
theorem verdicts_eq_iff {c' : Checker F} {site' : CallSite} {whichCheck' : Check}
    (hlen : site.positionalArgNames.length = site'.positionalArgNames.length) :
    verdicts c site whichCheck = verdicts c' site' whichCheck' ↔
      ∀ i j, i < j → j < site.positionalArgNames.length →
        (pairData c.opts c.weights site whichCheck (i, j)).verdict =
          (pairData c'.opts c'.weights site' whichCheck' (i, j)).verdict := by
  constructor
  · intro h i j hij hj
    rw [← reported_verdicts hij hj, h, reported_verdicts hij (by omega)]
  · intro h
    unfold verdicts
    rw [← hlen]
    refine List.filterMap_congr fun p hp => ?_
    rw [mem_allPairs] at hp
    exact h p.1 p.2 hp.1 hp.2

/-- Two calls with equally many arguments return the same results when no pair of either
breaks the assertion and all verdicts agree. -/
theorem same_results_iff {c' : Checker F} {site' : CallSite} {whichCheck' : Check}
    (hlen : site'.positionalArgNames.length = site.positionalArgNames.length) :
    (∃ rs, c.results site whichCheck = .ok rs ∧ c'.results site' whichCheck' = .ok rs) ↔
      site.positionalArgNames.length < 2 ^ 32 ∧
        ∀ i j, i < j → j < site.positionalArgNames.length →
          ¬ (pairData c.opts c.weights site whichCheck (i, j)).Trips ∧
            ¬ (pairData c'.opts c'.weights site' whichCheck' (i, j)).Trips ∧
            (pairData c'.opts c'.weights site' whichCheck' (i, j)).verdict =
              (pairData c.opts c.weights site whichCheck (i, j)).verdict := by
  constructor
  · intro h
    obtain ⟨rs, hrs, hrs'⟩ := h
    obtain ⟨⟨hn, hsafe⟩, heq⟩ := results_eq_ok.mp hrs
    obtain ⟨⟨-, hsafe'⟩, heq'⟩ := results_eq_ok.mp hrs'
    have hverdicts := (verdicts_eq_iff hlen).mp (heq'.symm.trans heq)
    refine ⟨hn, fun i j hij hj => ⟨hsafe i j hij hj, ?_, ?_⟩⟩
    · exact hsafe' i j hij (by omega)
    · exact hverdicts i j hij (by omega)
  · intro h
    obtain ⟨hn, hpairs⟩ := h
    have hsafe' : NoTrips c' site' whichCheck' := fun i j hij hj => (hpairs i j hij (by omega)).2.1
    refine ⟨_, results_of_noTrips hn fun i j hij hj => (hpairs i j hij hj).1, ?_⟩
    rw [results_of_noTrips (by omega) hsafe']
    exact congrArg Except.ok
      ((verdicts_eq_iff hlen).mpr fun i j hij hj => (hpairs i j hij (by omega)).2.2)

end Calls

/-! ## Locality -/

/-- A call site with its first `k` arguments only. -/
def firstArgs (site : CallSite) (k : Nat) : CallSite :=
  { site with positionalArgNames := site.positionalArgNames.take k }

/-- The call returns the verdicts on its pairs, in order and complete; they name
their pairs, and fewer arguments mean the results of the pairs that are left. -/
structure PairByPair (c : Checker F) (site : CallSite) (whichCheck : Check) : Prop where
  complete : c.results site whichCheck = .ok (verdicts c site whichCheck)
  positions : ∀ i j r, (pairData c.opts c.weights site whichCheck (i, j)).verdict = some r →
    r.arg1 = i + 1 ∧ r.arg2 = j + 1
  truncated : ∀ k ≤ site.positionalArgNames.length, c.results (firstArgs site k) whichCheck =
    .ok ((verdicts c site whichCheck).filter fun r => r.arg2 ≤ k)

theorem pairData_firstArgs (opts : CheckerConfiguration F) (weights : Option (List (Row F)))
    (site : CallSite) (whichCheck : Check) {k i j : Nat} (hij : i < j) (hj : j < k) :
    pairData opts weights (firstArgs site k) whichCheck (i, j) =
      pairData opts weights site whichCheck (i, j) := by
  have hi : (firstArgs site k).positionalArgNames[i]? = site.positionalArgNames[i]? :=
    List.getElem?_take_of_lt (by omega)
  have hj : (firstArgs site k).positionalArgNames[j]? = site.positionalArgNames[j]? :=
    List.getElem?_take_of_lt hj
  simp only [pairData, hi, hj]
  rfl

theorem verdicts_firstArgs (c : Checker F) (site : CallSite) (whichCheck : Check) {k : Nat}
    (hk : k ≤ site.positionalArgNames.length) :
    verdicts c (firstArgs site k) whichCheck =
      (verdicts c site whichCheck).filter fun r => r.arg2 ≤ k := by
  have hlen : (firstArgs site k).positionalArgNames.length = k := by simp [firstArgs, hk]
  unfold verdicts
  rw [hlen, ← filter_allPairs hk, List.filterMap_filter, List.filter_filterMap]
  refine List.filterMap_congr fun p hp => ?_
  rw [mem_allPairs] at hp
  by_cases hpk : p.2 < k
  · rw [if_pos (by simpa using hpk), pairData_firstArgs _ _ _ _ hp.1 hpk]
    cases hr : (pairData c.opts c.weights site whichCheck p).verdict with
    | none => rfl
    | some r =>
      have harg2 : r.arg2 ≤ k := by
        rw [(verdict_positions hr).2]
        exact hpk
      exact (if_pos (decide_eq_true harg2)).symm
  · rw [if_neg (by simpa using hpk)]
    cases hr : (pairData c.opts c.weights site whichCheck p).verdict with
    | none => rfl
    | some r =>
      have harg2 : ¬ r.arg2 ≤ k := by
        rw [(verdict_positions hr).2]
        exact hpk
      exact (if_neg (by simpa using harg2)).symm

/-- **Pair by pair**: a call is judged pair by pair exactly when no pair of it breaks
the assertion of the suffix filter, and two calls that agree on the data of a pair agree
on its report exactly when both or neither of them have such a pair. -/
theorem pairByPair_iff (c : Checker F) (site : CallSite) (whichCheck : Check)
    (hn : site.positionalArgNames.length < 2 ^ 32) :
    (PairByPair c site whichCheck ↔ NoTrips c site whichCheck) ∧
      ∀ (c' : Checker F) (site' : CallSite) (whichCheck' : Check) (i j : Nat),
        site'.positionalArgNames.length < 2 ^ 32 → i < j → j < site.positionalArgNames.length →
        j < site'.positionalArgNames.length →
        pairData c.opts c.weights site whichCheck (i, j) =
          pairData c'.opts c'.weights site' whichCheck' (i, j) →
        ((c.results site whichCheck).map (reported · (i, j)) =
            (c'.results site' whichCheck').map (reported · (i, j)) ↔
          (NoTrips c site whichCheck ↔ NoTrips c' site' whichCheck')) := by
  refine ⟨⟨fun h => ((results_eq_ok.mp h.complete).1).2, fun h => ?_⟩, ?_⟩
  · refine ⟨results_of_noTrips hn h, fun i j r hr => verdict_positions hr, fun k hk => ?_⟩
    have hlen : (firstArgs site k).positionalArgNames.length = k := by simp [firstArgs, hk]
    rw [← verdicts_firstArgs c site whichCheck hk]
    refine results_of_noTrips (by omega) fun i j hij hj => ?_
    rw [hlen] at hj
    rw [pairData_firstArgs _ _ _ _ hij hj]
    exact h i j hij (by omega)
  · intro c' site' whichCheck' i j hn' hij hj hj' hdata
    by_cases h : NoTrips c site whichCheck <;> by_cases h' : NoTrips c' site' whichCheck'
    · rw [results_of_noTrips hn h, results_of_noTrips hn' h']
      simp only [Except.map, reported_verdicts hij hj, reported_verdicts hij hj', hdata, h, h']
    · rw [results_of_noTrips hn h, results_of_trips hn' h']
      simp [Except.map, h, h']
    · rw [results_of_trips hn h, results_of_noTrips hn' h']
      simp [Except.map, h, h']
    · rw [results_of_trips hn h, results_of_trips hn' h']
      simp [Except.map, h, h']

/-- Two swapped arguments, and two more of which the first ends in an empty component. -/
def swappedAndEmpty : CallSite where
  callDecl := ⟨bytes "foo", some [bytes "cats", bytes "dogs", bytes "bird", bytes "fish"]⟩
  positionalArgNames := [[bytes "dogs"], [bytes "cats"], [bytes "fish", []], [bytes "bird"]]

theorem pairByPair_firstArgs :
    (firstArgs swappedAndEmpty 2).positionalArgNames.length < 2 ^ 32 ∧
      (PairByPair (checkerOver {} none : Checker XRat) (firstArgs swappedAndEmpty 2) .coverBased ↔
        NoTrips (checkerOver {} none : Checker XRat) (firstArgs swappedAndEmpty 2) .coverBased) :=
  ⟨by decide, (pairByPair_iff (checkerOver {} none) (firstArgs swappedAndEmpty 2) .coverBased
    (by decide)).1⟩

/-- The first two arguments are reported without the others, and not with them. -/
theorem swappedAndEmpty_lost :
    (checkerOver {} none : Checker XRat).results (firstArgs swappedAndEmpty 2) .coverBased =
        .ok [{ arg1 := 1, arg2 := 2, morphemes1 := {bytes "dogs"}, morphemes2 := {bytes "cats"},
               score := .parameterNameBased (.fin 100) none }] ∧
      (checkerOver {} none : Checker XRat).results swappedAndEmpty .coverBased =
        .error .emptyName := by
  decide +kernel

/-! ## The mode that makes both checks -/

theorem trips_all (opts : CheckerConfiguration F) (weights : Option (List (Row F)))
    (site : CallSite) (p : Nat × Nat) : (pairData opts weights site .all p).Trips ↔
      (pairData opts weights site .coverBased p).Trips := by
  have hruns : (pairData opts weights site .all p).coverRuns ↔
      (pairData opts weights site .coverBased p).coverRuns := by
    simp [PairData.coverRuns, PairData.Named, pairData]
  exact and_congr hruns Iff.rfl

theorem not_trips_statsBased (opts : CheckerConfiguration F) (weights : Option (List (Row F)))
    (site : CallSite) (p : Nat × Nat) : ¬ (pairData opts weights site .statsBased p).Trips := by
  intro h
  rcases h.1.2 with hall | hcover
  · cases hall
  · cases hcover

theorem not_covers_statsBased (opts : CheckerConfiguration F) (weights : Option (List (Row F)))
    (site : CallSite) (p : Nat × Nat) : ¬ Covers (pairData opts weights site .statsBased p) := by
  intro h
  rcases h.1.2 with hall | hcover
  · cases hall
  · cases hcover

/-- The verdict of both checks is the one of the parameter names, or else the one of
the statistics. -/
theorem verdict_all (opts : CheckerConfiguration F) (weights : Option (List (Row F)))
    (site : CallSite) (p : Nat × Nat) (h : ¬ (pairData opts weights site .coverBased p).Trips) :
    (pairData opts weights site .all p).verdict =
      (pairData opts weights site .coverBased p).verdict.or
        (pairData opts weights site .statsBased p).verdict := by
  let dAll := pairData opts weights site .all p
  let dCover := pairData opts weights site .coverBased p
  let dStats := pairData opts weights site .statsBased p
  -- the cover-based check gives the same in both modes in which it runs
  have hcovers : Covers dAll ↔ Covers dCover := by
    have hruns : dAll.coverRuns ↔ dCover.coverRuns :=
      and_congr_right fun _ => iff_of_true (.inl rfl) (.inr rfl)
    exact and_congr hruns Iff.rfl
  have hstatsCover : dCover.statsPart = none := if_neg fun hruns => by
    rcases hruns with hall | hstats
    · cases hall
    · cases hstats
  have hnot : ¬ Covers dStats := not_covers_statsBased opts weights site p
  rw [verdict_of_not_trips (mt (trips_all opts weights site p).mp h), verdict_of_not_trips h,
    verdict_of_not_trips (not_trips_statsBased opts weights site p)]
  show (if Covers dAll then some dCover.coverResult
      else if dCover.Unusable then none else dStats.statsPart) =
    (if Covers dCover then some dCover.coverResult
      else if dCover.Unusable then none else dCover.statsPart).or
    (if Covers dStats then some dStats.coverResult
      else if dCover.Unusable then none else dStats.statsPart)
  rw [if_neg hnot, hstatsCover, ite_self]
  by_cases hcover : Covers dCover
  · rw [if_pos (hcovers.mpr hcover), if_pos hcover, Option.some_or]
  · rw [if_neg (mt hcovers.mp hcover), if_neg hcover, Option.none_or]

/-- **Mode `All`** is the combination of the two single modes, pair by pair: the
result of the parameter names if there is one, else the result of the statistics. -/
theorem results_all (c : Checker F) (site : CallSite) :
    c.results site .all = (do
      let cover ← c.results site .coverBased
      let stats ← c.results site .statsBased
      return (allPairs site.positionalArgNames.length).filterMap fun p =>
        (reported cover p).or (reported stats p)) := by
  by_cases hn : site.positionalArgNames.length < 2 ^ 32
  · have hiff : NoTrips c site .all ↔ NoTrips c site .coverBased := by
      simp only [NoTrips, trips_all]
    have hstats : NoTrips c site .statsBased := fun i j _ _ => not_trips_statsBased _ _ _ _
    by_cases h : NoTrips c site .coverBased
    · rw [results_of_noTrips hn (hiff.mpr h), results_of_noTrips hn h, results_of_noTrips hn hstats]
      refine congrArg Except.ok (List.filterMap_congr fun p hp => ?_)
      have hlt := mem_allPairs.mp hp
      rw [reported_verdicts hlt.1 hlt.2, reported_verdicts hlt.1 hlt.2]
      exact verdict_all _ _ _ _ (h p.1 p.2 hlt.1 hlt.2)
    · rw [results_of_trips hn (mt hiff.mp h), results_of_trips hn h]
      rfl
  · rw [results_eq, results_eq, if_neg hn, if_neg hn]
    rfl

end SwapDetector.Proofs.Locality
