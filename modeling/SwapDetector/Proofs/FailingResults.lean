import SwapDetector.Proofs.Locality
import SwapDetector.Proofs.Sessions

/-! # What a call returns whatever fails

Failing steps of the statistics can hide results and add others. But every result a call
returns is about a pair of its arguments, names the morphemes of which each of the two has
what the other lacks, and comes in its place among the results.
-/
namespace SwapDetector.Proofs.FailingResults
open SwapDetector.Base.ExactFloat SwapDetector.Base.Exec SwapDetector.Base.OrderedSet
open SwapDetector.Base.Permutations
open SwapDetector.Model.Bytes SwapDetector.Model.Types SwapDetector.Model.StatsDatabase
open SwapDetector.Model.SwappedArgChecker SwapDetector.Spec.Judgement
open SwapDetector.Proofs.PairEnumeration SwapDetector.Proofs.Refinement
open SwapDetector.Proofs.FailingSteps SwapDetector.Proofs.Assertions SwapDetector.Proofs.Locality
open SwapDetector.Proofs.Sessions

variable {F : Type} [FloatArith F]

/-- The result is about the pair. -/
structure About (d : PairData F) (r : Result F) : Prop where
  arg1 : r.arg1 = d.pos1 + 1
  arg2 : r.arg2 = d.pos2 + 1
  morphemes1 : r.morphemes1 = d.unique1
  morphemes2 : r.morphemes2 = d.unique2
  nonempty1 : d.unique1 ≠ ∅
  nonempty2 : d.unique2 ≠ ∅

section Pair
variable (opts : CheckerConfiguration F) (weights : Option (List (Row F))) (site : CallSite)
  (whichCheck : Check) (p : Nat × Nat)

theorem vetCandidate_about {d : PairData F} (hgates : d.Gates) :
    Returns (Idle weights) (vetCandidate site d) fun out => ∀ r, out = some r → About d r := by
  unfold vetCandidate
  refine (vetWithStats_returns weights site _ _ _ _).bind fun score _ => ?_
  refine Returns.ite (fun _ => Returns.pure fun r hr => by cases hr) fun _ => Returns.pure ?_
  intro r hr
  cases hr
  exact ⟨rfl, rfl, rfl, rfl, hgates.unique.2.2.1, hgates.unique.2.2.2⟩

theorem statsStage_about :
    Returns (Idle weights) (statsStage opts site whichCheck p) fun out =>
      ∀ r, out = some r → About (pairData opts weights site whichCheck p) r := by
  refine (statsStage_returns opts weights site whichCheck p).weaken fun out hout r hr => ?_
  obtain ⟨db, -, morph1, hmorph1, morph2, hmorph2, hshows⟩ := hout r hr
  obtain ⟨-, fit1, fit2, psi1, psi2, -, -, -, -, rfl⟩ := hshows
  exact ⟨rfl, rfl, rfl, rfl, Finset.ne_empty_of_mem hmorph1, Finset.ne_empty_of_mem hmorph2⟩

theorem checkPair_about (hp1 : p.1 < site.positionalArgNames.length)
    (hp2 : p.2 < site.positionalArgNames.length)
    (h : ¬ (pairData opts weights site whichCheck p).Trips) :
    Returns (Idle weights) (checkPair opts site whichCheck p) fun out =>
      ∀ r, out = some r → About (pairData opts weights site whichCheck p) r := by
  have hnone : Returns (Idle weights) (pure none : CheckM F (Option (Result F))) fun out =>
      ∀ r, out = some r → About (pairData opts weights site whichCheck p) r :=
    Returns.pure fun r hr => by cases hr
  rw [checkPair_eq opts weights site whichCheck p hp1 hp2]
  refine Returns.ite (fun _ => hnone) fun _ => Returns.ite (fun _ => hnone) fun _ => ?_
  have hcover : Returns (Idle weights) (coverStage site (pairData opts weights site whichCheck p))
      fun out => ∀ r, out = some r → About (pairData opts weights site whichCheck p) r := by
    unfold coverStage
    refine Returns.ite (fun hruns => ?_) fun _ => hnone
    obtain ⟨passed, hpassed⟩ := candidate_of_not_trips h hruns
    rw [hpassed]
    refine (Returns.pure (Q := (· = passed)) rfl).bind ?_
    rintro _ rfl
    refine Returns.ite (fun htrue => ?_) fun _ => hnone
    exact vetCandidate_about weights site (candidate_eq_true.mp (htrue ▸ hpassed)).1
  refine hcover.bind fun r hr => ?_
  cases r with
  | none => exact statsStage_about opts weights site whichCheck p
  | some r => exact Returns.pure hr

end Pair

/-- An argument with at most one component reaches no filter with an empty name. -/
theorem not_trips_of_single {site : CallSite} (h : ∀ arg ∈ site.positionalArgNames, arg.length ≤ 1)
    (opts : CheckerConfiguration F) (weights : Option (List (Row F))) (whichCheck : Check)
    (p : Nat × Nat) : ¬ (pairData opts weights site whichCheck p).Trips := by
  intro htrips
  obtain ⟨-, hgates, -, hempty⟩ := htrips
  obtain ⟨-, harg1, -⟩ := gates_nonempty hgates
  have hsingle : (pairData opts weights site whichCheck p).arg1.length ≤ 1 := by
    show (site.positionalArgNames[p.1]?.getD []).length ≤ 1
    cases harg : site.positionalArgNames[p.1]? with
    | none => exact Nat.zero_le 1
    | some arg => exact h arg (List.mem_of_getElem? harg)
  match hnames : (pairData opts weights site whichCheck p).arg1 with
  | [] => exact harg1 (by rw [hnames]; rfl)
  | [name] =>
    rw [hnames] at harg1 hempty
    obtain rfl : name = [] := hempty
    exact harg1 rfl
  | _ :: _ :: _ => simp [hnames] at hsingle

/-! ## Calls -/

/-- The results are about pairs of the call, in the order of the pairs. -/
structure WellFormed (site : CallSite) (rs : List (Result F)) : Prop where
  sorted : rs.Pairwise fun r r' => LexBefore (r.arg1, r.arg2) (r'.arg1, r'.arg2)
  length_le : rs.length ≤ site.positionalArgNames.length * (site.positionalArgNames.length - 1) / 2
  about : ∀ r ∈ rs, ∃ i j, i < j ∧ j < site.positionalArgNames.length ∧
    r.arg1 = i + 1 ∧ r.arg2 = j + 1 ∧
    r.morphemes1 = argMorphemes (site.positionalArgNames[i]?.getD []) \
      argMorphemes (site.positionalArgNames[j]?.getD []) ∧
    r.morphemes2 = argMorphemes (site.positionalArgNames[j]?.getD []) \
      argMorphemes (site.positionalArgNames[i]?.getD []) ∧
    r.morphemes1 ≠ ∅ ∧ r.morphemes2 ≠ ∅

section Calls
variable (opts : CheckerConfiguration F) (weights : Option (List (Row F))) (site : CallSite)
  (whichCheck : Check)

theorem wellFormed_of_about {found : List ((Nat × Nat) × Result F)}
    (hsub : (found.map Prod.fst).Sublist (allPairs site.positionalArgNames.length))
    (hfound : ∀ x ∈ found, About (pairData opts weights site whichCheck x.1) x.2) :
    WellFormed site (found.map Prod.snd) where
  sorted := by
    have hsorted := (allPairs_sorted site.positionalArgNames.length).sublist hsub
    rw [List.pairwise_map] at hsorted ⊢
    refine hsorted.imp_of_mem fun {x y} hx hy hxy => ?_
    have hx1 := (hfound x hx).arg1
    have hx2 := (hfound x hx).arg2
    have hy1 := (hfound y hy).arg1
    have hy2 := (hfound y hy).arg2
    simp only [pairData] at hx1 hx2 hy1 hy2
    unfold LexBefore at hxy ⊢
    omega
  length_le := by
    have hlen := hsub.length_le
    rw [List.length_map, length_allPairs] at hlen
    rwa [List.length_map]
  about := by
    intro r hr
    obtain ⟨x, hx, rfl⟩ := List.mem_map.mp hr
    have hpair := mem_allPairs.mp (hsub.subset (List.mem_map.mpr ⟨x, hx, rfl⟩))
    have habout := hfound x hx
    refine ⟨x.1.1, x.1.2, hpair.1, hpair.2, habout.arg1, habout.arg2, habout.morphemes1,
      habout.morphemes2, ?_, ?_⟩
    · exact habout.morphemes1 ▸ habout.nonempty1
    · exact habout.morphemes2 ▸ habout.nonempty2

theorem checkSite_wellFormed (hn : site.positionalArgNames.length < 2 ^ 32)
    (h : ∀ p ∈ allPairs site.positionalArgNames.length,
      ¬ (pairData opts weights site whichCheck p).Trips) :
    Returns (Idle weights) (checkSite opts site whichCheck) (WellFormed site) := by
  unfold checkSite
  refine Returns.ite (fun _ => Returns.pure ⟨List.Pairwise.nil, Nat.zero_le _, by simp⟩) fun hmany => ?_
  rw [pairwiseCombinations_ok (by omega) hn]
  refine (Returns.pure (Q := (· = allPairs _)) rfl).bind ?_
  rintro _ rfl
  refine (Returns.foldlM_push (Q := fun p r => About (pairData opts weights site whichCheck p) r) _ []
    fun p hp => ?_).weaken ?_
  · have hlt := lt_of_mem_allPairs hp
    exact checkPair_about opts weights site whichCheck p hlt.1 hlt.2 (h p hp)
  · rintro _ ⟨found, rfl, hsub, hfound⟩
    exact wellFormed_of_about opts weights site whichCheck hsub hfound

/-- A checker judges every call whose arguments have at most one name each. -/
theorem results_of_single (c : Checker F) {site : CallSite}
    (hn : site.positionalArgNames.length < 2 ^ 32)
    (h : ∀ arg ∈ site.positionalArgNames, arg.length ≤ 1) : ∃ rs, c.results site .all = .ok rs := by
  obtain ⟨rs, t, hrun, -⟩ := checkSite_wellFormed c.opts c.weights site .all hn
    (fun p _ => not_trips_of_single h c.opts c.weights .all p) ⟨c.stats, noFailure⟩ (stats_eq c)
  exact ⟨rs, by rw [Checker.results, Checker.checkSite, hrun]⟩

/-- A call that returns has well-formed results. -/
theorem wellFormed_of_idle {s : Session F} (hs : Idle weights s) {rs : List (Result F)}
    (hrun : (exec (checkSite opts site whichCheck) s).1 = .ok rs) : WellFormed site rs := by
  by_cases hn : site.positionalArgNames.length < 2 ^ 32
  · by_cases h : ∃ p ∈ allPairs site.positionalArgNames.length,
        (pairData opts weights site whichCheck p).Trips
    · obtain ⟨t, ht⟩ := checkSite_fails opts weights site whichCheck hn h s hs
      rw [ht] at hrun
      cases hrun
    · have hsafe : ∀ p ∈ allPairs site.positionalArgNames.length,
          ¬ (pairData opts weights site whichCheck p).Trips := fun p hp htrips => h ⟨p, hp, htrips⟩
      obtain ⟨rs', t, ht, -, hwell⟩ := checkSite_wellFormed opts weights site whichCheck hn hsafe s hs
      rw [ht] at hrun
      cases hrun
      exact hwell
  · obtain ⟨t, ht⟩ := checkSite_large opts weights site whichCheck hn s hs
    rw [ht] at hrun
    cases hrun

end Calls

/-- **Results whatever fails**: whatever calls came before and whatever steps fail, the results of
a call that returns are about different pairs of its arguments, in their order, and each names
exactly the morphemes that one argument of its pair has and the other one lacks. -/
theorem returned_wellFormed (opts : CheckerConfiguration F) (disk : CString → ModelFile F)
    (fails : Nat → Bool) (before : List (CallSite × Check)) (site : CallSite) (whichCheck : Check)
    (rs : List (Result F))
    (hrun : (exec (checkSite opts site whichCheck)
      (sessionAfter (Checker.new opts disk) fails before)).1 = .ok rs) : WellFormed site rs :=
  wellFormed_of_idle opts _ site whichCheck (sessionAfter_idle _ fails before) hrun

def crossedPets : CallSite where
  callDecl := ⟨bytes "foo", some [bytes "cats", bytes "dogs"]⟩
  positionalArgNames := [[bytes "dogs"], [bytes "cats"]]

def petsFile (rows : List (Row XRat)) : CString → ModelFile XRat := fun _ => ⟨some rows, true, true⟩

/-- With dogs in the first place, statistics speak against a swap. The step that does not find
them is the first one of the second call. -/
theorem crossedPets_wellFormed : WellFormed crossedPets
    [{ arg1 := 1, arg2 := 2, morphemes1 := {bytes "dogs"}, morphemes2 := {bytes "cats"},
       score := .parameterNameBased (.fin 100) none : Result XRat }] :=
  returned_wellFormed { modelPath := bytes "pets.db" }
    (petsFile [⟨cStr (bytes "foo"), 0, cStr (bytes "dogs"), .fin 1⟩]) (fun k => k == 8)
    [(crossedPets, .all)] crossedPets .all _ (by decide +kernel)

end SwapDetector.Proofs.FailingResults
