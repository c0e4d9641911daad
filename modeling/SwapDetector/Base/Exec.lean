import Mathlib.Control.Monad.Basic

/-! # Runs of computations that read a state and may fail

`exec` runs a computation of `ExceptT ε (StateM σ)` to its outcome and final
state. Most computations of a checker leave the state as they found it:
`Steady x s e` says that `x`, started in `s`, has outcome `e` and ends in `s`
again. The rules below derive it along the syntax of the program, so that its
outcome is computed by ordinary functions. `collect` is the pure reading of a
loop that appends at most one result per element and stops at the first failure.
-/
namespace SwapDetector.Base.Exec

variable {ε σ α β γ : Type}

/-- The outcome of a computation started in a state, and the state it leaves. -/
def exec (x : ExceptT ε (StateM σ) α) (s : σ) : Except ε α × σ := (x.run.run s).run

section Rules
variable {s : σ}

theorem exec_bind_ok {x : ExceptT ε (StateM σ) α} {f : α → ExceptT ε (StateM σ) β} {a : α} {t : σ}
    (h : exec x s = (.ok a, t)) : exec (x >>= f) s = exec (f a) t := by
  have hb : exec (x >>= f) s = match exec x s with
      | (.ok a, t) => exec (f a) t
      | (.error e, t) => (.error e, t) := by
    simp only [exec, bind, ExceptT.bind, ExceptT.mk, ExceptT.run, StateT.bind, StateT.run, Id.run]
    cases hx : x s with
    | mk r t => cases r <;> rfl
  rw [hb, h]

theorem exec_bind_error {x : ExceptT ε (StateM σ) α} {f : α → ExceptT ε (StateM σ) β} {e : ε} {t : σ}
    (h : exec x s = (.error e, t)) : exec (x >>= f) s = (.error e, t) := by
  have hx : x s = (.error e, t) := h
  simp only [exec, bind, ExceptT.bind, ExceptT.mk, ExceptT.run, StateT.bind, StateT.run, Id.run, hx]
  rfl

end Rules

/-- Started in `s`, the computation has outcome `e` and leaves `s` as it was. -/
def Steady (x : ExceptT ε (StateM σ) α) (s : σ) (e : Except ε α) : Prop := exec x s = (e, s)

namespace Steady
variable {s : σ}

theorem pure (a : α) : Steady (Pure.pure a : ExceptT ε (StateM σ) α) s (.ok a) := rfl

theorem throw (e : ε) : Steady (MonadExcept.throw e : ExceptT ε (StateM σ) α) s (.error e) := rfl

theorem get : Steady (MonadState.get : ExceptT ε (StateM σ) σ) s (.ok s) := rfl

theorem unique {x : ExceptT ε (StateM σ) α} {e e' : Except ε α} (h : Steady x s e)
    (h' : Steady x s e') : e = e' := congrArg Prod.fst (h.symm.trans h')

theorem bind {x : ExceptT ε (StateM σ) α} {f : α → ExceptT ε (StateM σ) β} {e : Except ε α}
    {g : α → Except ε β} (hx : Steady x s e) (hf : ∀ a, e = .ok a → Steady (f a) s (g a)) :
    Steady (x >>= f) s (e >>= g) := by
  cases e with
  | ok a => exact (exec_bind_ok hx).trans (hf a rfl)
  | error e => exact exec_bind_error hx

theorem bind_ok {x : ExceptT ε (StateM σ) α} {f : α → ExceptT ε (StateM σ) β} {a : α}
    {e : Except ε β} (hx : Steady x s (.ok a)) (hf : Steady (f a) s e) : Steady (x >>= f) s e :=
  (exec_bind_ok hx).trans hf

theorem bind_error {x : ExceptT ε (StateM σ) α} {f : α → ExceptT ε (StateM σ) β} {e : ε}
    (hx : Steady x s (.error e)) : Steady (x >>= f) s (.error e) := exec_bind_error hx

theorem ite_pos {c : Prop} [Decidable c] {x y : ExceptT ε (StateM σ) α} {e : Except ε α} (hc : c)
    (hx : Steady x s e) : Steady (if c then x else y) s e := by
  rwa [if_pos hc]

theorem ite_neg {c : Prop} [Decidable c] {x y : ExceptT ε (StateM σ) α} {e : Except ε α}
    (hc : ¬ c) (hy : Steady y s e) : Steady (if c then x else y) s e := by
  rwa [if_neg hc]

/-- A branch that answers on both sides. -/
theorem ite_ok {c : Prop} [Decidable c] {x y : ExceptT ε (StateM σ) α} {a b : α}
    (hx : c → Steady x s (.ok a)) (hy : ¬ c → Steady y s (.ok b)) :
    Steady (if c then x else y) s (.ok (if c then a else b)) := by
  by_cases hc : c
  · rw [if_pos hc, if_pos hc]
    exact hx hc
  · rw [if_neg hc, if_neg hc]
    exact hy hc

theorem foldlM {f : β → α → ExceptT ε (StateM σ) β} {g : β → α → Except ε β} (l : List α) (b : β)
    (h : ∀ b, ∀ a ∈ l, Steady (f b a) s (g b a)) : Steady (l.foldlM f b) s (l.foldlM g b) := by
  induction l generalizing b with
  | nil => exact Steady.pure b
  | cons a l ih =>
    rw [List.foldlM_cons, List.foldlM_cons]
    exact (h b a (by simp)).bind fun b' _ => ih b' fun b a' ha => h b a' (by simp [ha])

/-- A loop whose body never fails is an ordinary fold. -/
theorem foldlM_ok {f : β → α → ExceptT ε (StateM σ) β} {g : β → α → β} (l : List α) (b : β)
    (h : ∀ b, ∀ a ∈ l, Steady (f b a) s (.ok (g b a))) :
    Steady (l.foldlM f b) s (.ok (l.foldl g b)) := by
  have hpure : l.foldlM (fun b a => (Except.ok (g b a) : Except ε β)) b = .ok (l.foldl g b) :=
    List.foldlM_pure
  rw [← hpure]
  exact Steady.foldlM l b h

/-- A search whose body always answers is the search over its answers. -/
theorem findSomeM {f : α → ExceptT ε (StateM σ) (Option β)} {g : α → Option β} (l : List α)
    (h : ∀ a ∈ l, Steady (f a) s (.ok (g a))) : Steady (l.findSomeM? f) s (.ok (l.findSome? g)) := by
  induction l with
  | nil => exact Steady.pure none
  | cons a l ih =>
    refine (h a (by simp)).bind_ok ?_
    rw [List.findSome?_cons]
    cases g a with
    | none => exact ih fun a' ha => h a' (by simp [ha])
    | some b => exact Steady.pure (some b)

end Steady

/-- From every state of `I`, the computation returns a value of `Q` and ends in `I`. -/
def Returns (I : σ → Prop) (x : ExceptT ε (StateM σ) α) (Q : α → Prop) : Prop :=
  ∀ s, I s → ∃ a t, exec x s = (.ok a, t) ∧ I t ∧ Q a

/-- From every state of `I`, the computation fails with `e`. -/
def Fails (I : σ → Prop) (x : ExceptT ε (StateM σ) α) (e : ε) : Prop :=
  ∀ s, I s → ∃ t, exec x s = (.error e, t)

namespace Returns
variable {I : σ → Prop}

theorem pure {Q : α → Prop} {a : α} (h : Q a) :
    Returns I (Pure.pure a : ExceptT ε (StateM σ) α) Q := fun s hs => ⟨a, s, rfl, hs, h⟩

theorem bind {x : ExceptT ε (StateM σ) α} {f : α → ExceptT ε (StateM σ) β} {P : α → Prop}
    {Q : β → Prop} (hx : Returns I x P) (hf : ∀ a, P a → Returns I (f a) Q) :
    Returns I (x >>= f) Q := by
  intro s hs
  obtain ⟨a, t, hxrun, ht, hP⟩ := hx s hs
  obtain ⟨b, u, hfrun, hu, hQ⟩ := hf a hP t ht
  exact ⟨b, u, (exec_bind_ok hxrun).trans hfrun, hu, hQ⟩

theorem get : Returns I (MonadState.get : ExceptT ε (StateM σ) σ) I :=
  fun s hs => ⟨s, s, rfl, hs, hs⟩

theorem weaken {x : ExceptT ε (StateM σ) α} {P Q : α → Prop} (hx : Returns I x P)
    (h : ∀ a, P a → Q a) : Returns I x Q := by
  intro s hs
  obtain ⟨a, t, hrun, ht, hP⟩ := hx s hs
  exact ⟨a, t, hrun, ht, h a hP⟩

theorem ite {c : Prop} [Decidable c] {x y : ExceptT ε (StateM σ) α} {Q : α → Prop}
    (hx : c → Returns I x Q) (hy : ¬ c → Returns I y Q) : Returns I (if c then x else y) Q := by
  by_cases hc : c
  · rw [if_pos hc]
    exact hx hc
  · rw [if_neg hc]
    exact hy hc

/-- A loop keeps what its body keeps. -/
theorem foldlM {f : β → α → ExceptT ε (StateM σ) β} {Q : β → Prop} (l : List α) (b : β) (hb : Q b)
    (h : ∀ b, Q b → ∀ a ∈ l, Returns I (f b a) Q) : Returns I (l.foldlM f b) Q := by
  induction l generalizing b with
  | nil => exact Returns.pure hb
  | cons a l ih =>
    rw [List.foldlM_cons]
    exact (h b hb a (by simp)).bind fun b' hb' =>
      ih b' hb' fun b hb a' ha => h b hb a' (by simp [ha])

theorem findSomeM {f : α → ExceptT ε (StateM σ) (Option β)} {Q : Option β → Prop} (l : List α)
    (hnone : Q none) (h : ∀ a ∈ l, Returns I (f a) Q) : Returns I (l.findSomeM? f) Q := by
  induction l with
  | nil => exact Returns.pure hnone
  | cons a l ih =>
    refine (h a (by simp)).bind fun r hr => ?_
    cases r with
    | none => exact ih fun a' ha => h a' (by simp [ha])
    | some b => exact Returns.pure hr

/-- A loop that collects what its body finds: the elements something is found for come in the
order of the list. -/
theorem foldlM_push {f : α → ExceptT ε (StateM σ) (Option β)} {Q : α → β → Prop} (l : List α)
    (acc : List β) (h : ∀ a ∈ l, Returns I (f a) fun out => ∀ b, out = some b → Q a b) :
    Returns I (l.foldlM (fun acc a => do
      let r ← f a
      return acc ++ r.toList) acc) fun bs =>
      ∃ found : List (α × β), bs = acc ++ found.map Prod.snd ∧
        (found.map Prod.fst).Sublist l ∧ ∀ x ∈ found, Q x.1 x.2 := by
  induction l generalizing acc with
  | nil => exact Returns.pure ⟨[], (List.append_nil acc).symm, List.nil_sublist _, by simp⟩
  | cons a l ih =>
    rw [List.foldlM_cons]
    refine ((h a (List.mem_cons_self ..)).bind (Q := fun acc' => ∃ r : Option β,
      acc' = acc ++ r.toList ∧ ∀ b, r = some b → Q a b) fun r hr => Returns.pure ⟨r, rfl, hr⟩).bind ?_
    rintro _ ⟨r, rfl, hr⟩
    refine (ih _ fun a' ha' => h a' (List.mem_cons_of_mem a ha')).weaken ?_
    rintro _ ⟨found, rfl, hsub, hfound⟩
    cases r with
    | none => exact ⟨found, by simp, hsub.cons a, hfound⟩
    | some b =>
      refine ⟨(a, b) :: found, by simp, hsub.cons_cons a, fun x hx => ?_⟩
      rcases List.mem_cons.mp hx with rfl | hx
      · exact hr b rfl
      · exact hfound x hx

end Returns

namespace Fails
variable {I : σ → Prop} {e : ε}

theorem throw : Fails I (MonadExcept.throw e : ExceptT ε (StateM σ) α) e := fun s _ => ⟨s, rfl⟩

theorem bind {x : ExceptT ε (StateM σ) α} {f : α → ExceptT ε (StateM σ) β} (hx : Fails I x e) :
    Fails I (x >>= f) e := by
  intro s hs
  obtain ⟨t, hrun⟩ := hx s hs
  exact ⟨t, exec_bind_error hrun⟩

theorem bind_returns {x : ExceptT ε (StateM σ) α} {f : α → ExceptT ε (StateM σ) β} {P : α → Prop}
    (hx : Returns I x P) (hf : ∀ a, P a → Fails I (f a) e) : Fails I (x >>= f) e := by
  intro s hs
  obtain ⟨a, t, hxrun, ht, hP⟩ := hx s hs
  obtain ⟨u, hfrun⟩ := hf a hP t ht
  exact ⟨u, (exec_bind_ok hxrun).trans hfrun⟩

/-- A loop fails when its body fails on one of the elements and returns on the others. -/
theorem foldlM {f : β → α → ExceptT ε (StateM σ) β} {T : α → Prop} (l : List α) (b : β)
    (hl : ∃ a ∈ l, T a) (hf : ∀ b, ∀ a ∈ l, T a → Fails I (f b a) e)
    (hr : ∀ b, ∀ a ∈ l, ¬ T a → Returns I (f b a) fun _ => True) :
    Fails I (l.foldlM f b) e := by
  induction l generalizing b with
  | nil => simp at hl
  | cons a l ih =>
    rw [List.foldlM_cons]
    by_cases ha : T a
    · exact (hf b a (by simp) ha).bind
    · refine bind_returns (hr b a (by simp) ha) fun b' _ => ih b' ?_ ?_ ?_
      · obtain ⟨a', ha', hT⟩ := hl
        rcases List.mem_cons.mp ha' with rfl | hmem
        · exact absurd hT ha
        · exact ⟨a', hmem, hT⟩
      · exact fun b a' ha' => hf b a' (by simp [ha'])
      · exact fun b a' ha' => hr b a' (by simp [ha'])

end Fails

/-- The results of a loop that appends at most one result per element. -/
def collect (f : α → Except ε (Option β)) : List α → Except ε (List β)
  | [] => .ok []
  | a :: l => do
    let r ← f a
    let rs ← collect f l
    return r.toList ++ rs

/-- Pushing results onto a growing vector collects them. -/
theorem foldlM_push (f : α → Except ε (Option β)) (l : List α) (acc : List β) :
    l.foldlM (fun acc a => do let r ← f a; return acc ++ r.toList) acc =
      (collect f l).map (acc ++ ·) := by
  induction l generalizing acc with
  | nil => simp [collect, Except.map, pure, Except.pure]
  | cons a l ih =>
    rw [List.foldlM_cons]
    simp only [collect]
    cases f a with
    | error e => rfl
    | ok r =>
      show l.foldlM _ (acc ++ r.toList) = _
      rw [ih]
      cases collect f l with
      | error e => rfl
      | ok rs => simp [Except.map, bind, Except.bind, pure, Except.pure]

theorem foldlM_push_nil (f : α → Except ε (Option β)) (l : List α) :
    l.foldlM (fun acc a => do let r ← f a; return acc ++ r.toList) [] = collect f l := by
  rw [foldlM_push]
  cases collect f l <;> rfl

theorem collect_of_ok {f : α → Except ε (Option β)} {g : α → Option β} {l : List α}
    (h : ∀ a ∈ l, f a = .ok (g a)) : collect f l = .ok (l.filterMap g) := by
  induction l with
  | nil => rfl
  | cons a l ih =>
    simp only [collect, h a (by simp), ih fun a' ha => h a' (by simp [ha])]
    cases hg : g a <;> simp [hg, bind, Except.bind, pure, Except.pure]

/-- A loop fails with the failure of the first element that fails. -/
theorem collect_eq_error {f : α → Except ε (Option β)} {l : List α} {e : ε} :
    collect f l = .error e ↔
      ∃ before a after, l = before ++ a :: after ∧ f a = .error e ∧
        ∀ b ∈ before, ∃ r, f b = .ok r := by
  induction l with
  | nil => simp [collect]
  | cons a l ih =>
    simp only [collect]
    cases hf : f a with
    | error e' =>
      constructor
      · intro h
        cases h
        exact ⟨[], a, l, rfl, hf, by simp⟩
      · rintro ⟨before, b, after, hl, hb, hbefore⟩
        cases before with
        | nil =>
          obtain ⟨rfl, rfl⟩ := List.cons.inj hl
          rw [hf] at hb
          cases hb
          rfl
        | cons c before =>
          obtain ⟨rfl, rfl⟩ := List.cons.inj hl
          obtain ⟨r, hr⟩ := hbefore a (by simp)
          rw [hf] at hr
          cases hr
    | ok r =>
      have hstep : ((Except.ok r : Except ε (Option β)) >>= fun r => collect f l >>= fun rs =>
          pure (r.toList ++ rs)) = .error e ↔ collect f l = .error e := by
        cases collect f l <;> simp [bind, Except.bind, pure, Except.pure]
      rw [hstep, ih]
      constructor
      · rintro ⟨before, b, after, rfl, hb, hbefore⟩
        exact ⟨a :: before, b, after, rfl, hb, by simpa using ⟨⟨r, hf⟩, hbefore⟩⟩
      · rintro ⟨before, b, after, hl, hb, hbefore⟩
        cases before with
        | nil =>
          obtain ⟨rfl, rfl⟩ := List.cons.inj hl
          rw [hf] at hb
          cases hb
        | cons c before =>
          obtain ⟨rfl, rfl⟩ := List.cons.inj hl
          exact ⟨before, b, after, rfl, hb, fun x hx => hbefore x (by simp [hx])⟩

/-- The answer of a body that did not fail. -/
def answer : Except ε (Option β) → Option β
  | .ok r => r
  | .error _ => none

theorem exists_collect_iff {f : α → Except ε (Option β)} {l : List α} :
    (∃ rs, collect f l = .ok rs) ↔ ∀ a ∈ l, ∃ r, f a = .ok r := by
  induction l with
  | nil => simp [collect]
  | cons a l ih =>
    simp only [collect, List.forall_mem_cons, ← ih]
    cases f a <;> cases collect f l <;> simp [bind, Except.bind, pure, Except.pure]

/-- A result that tells which element it came from is found again. -/
theorem find?_filterMap {v : α → Option β} {l : List α} {a : α} {q : β → Bool}
    (hq : ∀ a' ∈ l, ∀ b, v a' = some b → (q b = true ↔ a' = a)) (ha : a ∈ l) :
    (l.filterMap v).find? q = v a := by
  cases hfind : (l.filterMap v).find? q with
  | some b =>
    obtain ⟨a', ha', hv⟩ := List.mem_filterMap.mp (List.mem_of_find?_eq_some hfind)
    have heq : a' = a := (hq a' ha' b hv).mp (List.find?_some hfind)
    rw [← heq, hv]
  | none =>
    rw [List.find?_eq_none] at hfind
    cases hv : v a with
    | none => rfl
    | some b => exact absurd ((hq a ha b hv).mpr rfl) (hfind b (List.mem_filterMap.mpr ⟨a, ha, hv⟩))

end SwapDetector.Base.Exec
