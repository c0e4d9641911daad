import Mathlib.Data.List.Forall2
import SwapDetector.Base.Exec

/-! # Postconditions of runs

`Gives x s Q` says that the computation `x`, started in `s`, returns a value and ends in a
state that satisfy `Q`. The rules go along the syntax of a program: a sequence passes on
what its first part gives. `Agree R x y` compares two runs: from related states they come to the
same outcome and to related states.
-/
namespace SwapDetector.Base.Postconditions
open SwapDetector.Base.Exec

variable {ε σ α β γ : Type}

/-- Started in `s`, the computation returns a value and ends in a state with `Q`. -/
def Gives (x : ExceptT ε (StateM σ) α) (s : σ) (Q : α → σ → Prop) : Prop :=
  ∃ a t, exec x s = (.ok a, t) ∧ Q a t

namespace Gives
variable {s t : σ} {x : ExceptT ε (StateM σ) α} {f : α → ExceptT ε (StateM σ) β}
  {P Q : α → σ → Prop} {R : β → σ → Prop} {a : α}

theorem pure (h : Q a s) : Gives (Pure.pure a : ExceptT ε (StateM σ) α) s Q := ⟨a, s, rfl, h⟩

theorem bind (hx : Gives x s P) (hf : ∀ a t, P a t → Gives (f a) t R) : Gives (x >>= f) s R := by
  obtain ⟨a, t, hrun, hP⟩ := hx
  obtain ⟨b, u, hrun', hR⟩ := hf a t hP
  exact ⟨b, u, (exec_bind_ok hrun).trans hrun', hR⟩

theorem weaken (hx : Gives x s P) (h : ∀ a t, P a t → Q a t) : Gives x s Q := by
  obtain ⟨a, t, hrun, hP⟩ := hx
  exact ⟨a, t, hrun, h a t hP⟩

theorem both (hP : Gives x s P) (hQ : Gives x s Q) : Gives x s fun a t => P a t ∧ Q a t := by
  obtain ⟨a, t, hrun, hP⟩ := hP
  obtain ⟨b, u, hrun', hQ⟩ := hQ
  rw [hrun] at hrun'
  cases hrun'
  exact ⟨a, t, hrun, hP, hQ⟩

theorem set {Q : PUnit → σ → Prop} (h : Q ⟨⟩ t) :
    Gives (MonadState.set t : ExceptT ε (StateM σ) PUnit) s Q := ⟨⟨⟩, t, rfl, h⟩

theorem ite {c : Prop} [Decidable c] {y : ExceptT ε (StateM σ) α} (hx : c → Gives x s Q)
    (hy : ¬ c → Gives y s Q) : Gives (if c then x else y) s Q := by
  by_cases hc : c
  · rw [if_pos hc]
    exact hx hc
  · rw [if_neg hc]
    exact hy hc

theorem of_exec (h : exec x s = (.ok a, t)) (hQ : Q a t) : Gives x s Q := ⟨a, t, h, hQ⟩

/-- A first part whose run is known. -/
theorem exec_bind (h : exec x s = (.ok a, t)) (hf : Gives (f a) t R) : Gives (x >>= f) s R :=
  (of_exec (Q := fun a' t' => a' = a ∧ t' = t) h ⟨rfl, rfl⟩).bind fun _ _ h => h.1 ▸ h.2 ▸ hf

/-- A loop keeps what its body keeps. -/
theorem forM {f : α → ExceptT ε (StateM σ) PUnit} {I : σ → Prop} (l : List α)
    (h : ∀ a ∈ l, ∀ s, I s → Gives (f a) s fun _ t => I t) (hs : I s) :
    Gives (l.forM f) s fun _ t => I t := by
  induction l generalizing s with
  | nil => exact Gives.pure hs
  | cons a l ih =>
    refine (h a (List.mem_cons_self ..) s hs).bind fun _ t ht => ?_
    exact ih (fun a' ha' => h a' (List.mem_cons_of_mem a ha')) ht

/-- A loop that hands on a value. -/
theorem foldlM {f : β → α → ExceptT ε (StateM σ) β} {I : β → σ → Prop} (l : List α) {b : β}
    (h : ∀ b, ∀ a ∈ l, ∀ s, I b s → Gives (f b a) s I) (hs : I b s) :
    Gives (l.foldlM f b) s I := by
  induction l generalizing s b with
  | nil => exact Gives.pure hs
  | cons a l ih =>
    rw [List.foldlM_cons]
    refine (h b a (List.mem_cons_self ..) s hs).bind fun b' _ ht => ?_
    exact ih (fun b a' ha' => h b a' (List.mem_cons_of_mem a ha')) ht

/-- A loop with an invariant about the elements that are behind it. -/
theorem forM_prefix {f : α → ExceptT ε (StateM σ) PUnit} {I : List α → σ → Prop} (l : List α)
    (h : ∀ done, ∀ a ∈ l, ∀ s, I done s → Gives (f a) s fun _ t => I (done ++ [a]) t)
    (hs : I [] s) : Gives (l.forM f) s fun _ t => I l t := by
  suffices hfrom : ∀ done, I done s → Gives (l.forM f) s fun _ t => I (done ++ l) t from hfrom [] hs
  clear hs
  induction l generalizing s with
  | nil =>
    intro done hdone
    exact Gives.pure ((List.append_nil done).symm ▸ hdone)
  | cons a l ih =>
    intro done hdone
    refine (h done a (List.mem_cons_self ..) s hdone).bind fun _ t ht => ?_
    refine (ih (fun done a' ha' => h done a' (List.mem_cons_of_mem a ha')) _ ht).weaken fun _ u hu => ?_
    rwa [List.append_assoc] at hu

/-- A loop that fails at the first element without `p`. -/
theorem forM_takeWhile (f : α → ExceptT ε (StateM σ) PUnit) (p : α → Bool) (err : α → ε)
    (I : List α → σ → Prop) (l : List α)
    (hok : ∀ done, ∀ a ∈ l, p a = true → ∀ s, I done s → Gives (f a) s fun _ t => I (done ++ [a]) t)
    (herr : ∀ done, ∀ a ∈ l, p a = false → ∀ s, I done s →
      ∃ t, exec (f a) s = (.error (err a), t) ∧ I done t) (hs : I [] s) :
    ∃ e t, exec (l.forM f) s = (e, t) ∧ I (l.takeWhile p) t ∧ (l.all p = true → e = .ok ⟨⟩) ∧
      (l.all p = false → ∃ a, l.find? (fun a => !p a) = some a ∧ e = .error (err a)) := by
  suffices hfrom : ∀ done, I done s → ∃ e t, exec (l.forM f) s = (e, t) ∧
      I (done ++ l.takeWhile p) t ∧ (l.all p = true → e = .ok ⟨⟩) ∧
      (l.all p = false → ∃ a, l.find? (fun a => !p a) = some a ∧ e = .error (err a)) from hfrom [] hs
  clear hs
  induction l generalizing s with
  | nil =>
    intro done hdone
    exact ⟨_, s, rfl, (List.append_nil done).symm ▸ hdone, fun _ => rfl, fun h => by cases h⟩
  | cons a l ih =>
    intro done hdone
    cases hp : p a with
    | true =>
      obtain ⟨_, t, hrun, ht⟩ := hok done a (List.mem_cons_self ..) hp s hdone
      obtain ⟨e, u, hrest, hu, hall, hfirst⟩ := ih
        (fun done a' ha' => hok done a' (List.mem_cons_of_mem a ha'))
        (fun done a' ha' => herr done a' (List.mem_cons_of_mem a ha')) (done ++ [a]) ht
      rw [List.append_assoc] at hu
      rw [List.takeWhile_cons_of_pos hp, List.all_cons, hp, Bool.true_and,
        List.find?_cons_of_neg (by rw [hp]; exact Bool.false_ne_true)]
      exact ⟨e, u, (exec_bind_ok hrun).trans hrest, hu, hall, hfirst⟩
    | false =>
      obtain ⟨t, hrun, ht⟩ := herr done a (List.mem_cons_self ..) hp s hdone
      rw [List.takeWhile_cons_of_neg (by rw [hp]; exact Bool.false_ne_true), List.all_cons, hp,
        Bool.false_and, List.append_nil, List.find?_cons_of_pos (by rw [hp]; rfl)]
      exact ⟨_, t, exec_bind_error hrun, ht, fun h => (by cases h), fun _ => ⟨a, rfl, rfl⟩⟩

end Gives

/-! ## Logs -/

/-- A loop whose rounds append to a list appends what they append. -/
theorem exec_forM_append {f : α → ExceptT ε (StateM (List β)) PUnit} {g : α → List β} (l : List α)
    (h : ∀ a ∈ l, ∀ s, exec (f a) s = (.ok ⟨⟩, s ++ g a)) (s : List β) :
    exec (l.forM f) s = (.ok ⟨⟩, s ++ l.flatMap g) := by
  induction l generalizing s with
  | nil => exact congrArg (Prod.mk _) (List.append_nil s).symm
  | cons a l ih =>
    refine (exec_bind_ok (h a (List.mem_cons_self ..) s)).trans ?_
    rw [ih (fun a' ha' => h a' (List.mem_cons_of_mem a ha')), List.flatMap_cons, List.append_assoc]

/-! ## Two runs -/

/-- Started in related states, both computations have the same outcome and end in related
states. -/
def Agree (R : σ → σ → Prop) (x y : ExceptT ε (StateM σ) α) : Prop :=
  ∀ s t, R s t → (exec x s).1 = (exec y t).1 ∧ R (exec x s).2 (exec y t).2

namespace Agree
variable {R : σ → σ → Prop}

theorem pure (a : α) : Agree R (Pure.pure a : ExceptT ε (StateM σ) α) (Pure.pure a) :=
  fun _ _ h => ⟨rfl, h⟩

theorem throw (e : ε) :
    Agree R (MonadExcept.throw e : ExceptT ε (StateM σ) α) (MonadExcept.throw e) :=
  fun _ _ h => ⟨rfl, h⟩

theorem bind {x y : ExceptT ε (StateM σ) α} {f g : α → ExceptT ε (StateM σ) β} (hx : Agree R x y)
    (hf : ∀ a, Agree R (f a) (g a)) : Agree R (x >>= f) (y >>= g) := by
  intro s t hst
  obtain ⟨hout, hstates⟩ := hx s t hst
  cases hxs : exec x s with
  | mk outcome s' =>
    cases hyt : exec y t with
    | mk outcome' t' =>
      rw [hxs, hyt] at hout hstates
      obtain rfl : outcome = outcome' := hout
      cases outcome with
      | ok a =>
        rw [exec_bind_ok hxs, exec_bind_ok hyt]
        exact hf a s' t' hstates
      | error e =>
        rw [exec_bind_error hxs, exec_bind_error hyt]
        exact ⟨rfl, hstates⟩

theorem ofExcept (e : Except ε α) :
    Agree R (MonadExcept.ofExcept e : ExceptT ε (StateM σ) α) (MonadExcept.ofExcept e) := by
  cases e with
  | ok a => exact Agree.pure a
  | error e => exact Agree.throw e

theorem ite {c : Prop} [Decidable c] {x x' y y' : ExceptT ε (StateM σ) α} (hx : Agree R x y)
    (hx' : Agree R x' y') : Agree R (if c then x else x') (if c then y else y') := by
  by_cases hc : c
  · rw [if_pos hc, if_pos hc]
    exact hx
  · rw [if_neg hc, if_neg hc]
    exact hx'

/-- A first part that changes nothing, with a value in each run. -/
theorem steady_bind {x : ExceptT ε (StateM σ) α} {y : ExceptT ε (StateM σ) β}
    {f : α → ExceptT ε (StateM σ) γ} {g : β → ExceptT ε (StateM σ) γ}
    (h : ∀ s t, R s t → ∃ a b, Steady x s (.ok a) ∧ Steady y t (.ok b) ∧ Agree R (f a) (g b)) :
    Agree R (x >>= f) (y >>= g) := by
  intro s t hst
  obtain ⟨a, b, hx, hy, hfg⟩ := h s t hst
  rw [exec_bind_ok hx, exec_bind_ok hy]
  exact hfg s t hst

theorem foldlM {f g : β → α → ExceptT ε (StateM σ) β} (l : List α) (b : β)
    (h : ∀ b, ∀ a ∈ l, Agree R (f b a) (g b a)) : Agree R (l.foldlM f b) (l.foldlM g b) := by
  induction l generalizing b with
  | nil => exact Agree.pure b
  | cons a l ih =>
    rw [List.foldlM_cons, List.foldlM_cons]
    refine (h b a (List.mem_cons_self ..)).bind fun b' => ?_
    exact ih b' fun b a' ha' => h b a' (List.mem_cons_of_mem a ha')

theorem findSomeM {f g : α → ExceptT ε (StateM σ) (Option β)} (l : List α)
    (h : ∀ a ∈ l, Agree R (f a) (g a)) : Agree R (l.findSomeM? f) (l.findSomeM? g) := by
  induction l with
  | nil => exact Agree.pure none
  | cons a l ih =>
    refine (h a (List.mem_cons_self ..)).bind fun r => ?_
    cases r with
    | none => exact ih fun a' ha' => h a' (List.mem_cons_of_mem a ha')
    | some b => exact Agree.pure (some b)

/-- Loops over lists that are related element by element. -/
theorem forM {V : α → β → Prop} {f : α → ExceptT ε (StateM σ) PUnit}
    {g : β → ExceptT ε (StateM σ) PUnit} {l : List α} {l' : List β} (hl : List.Forall₂ V l l')
    (h : ∀ a b, V a b → Agree R (f a) (g b)) : Agree R (l.forM f) (l'.forM g) := by
  induction hl with
  | nil => exact Agree.pure _
  | cons hab _ ih => exact (h _ _ hab).bind fun _ => ih

end Agree

end SwapDetector.Base.Postconditions
