import SwapDetector.Base.Exec

/-! # Computations that keep a log

A computation with a log has a list of entries beside its state. `Logs x y Q` says that
`x` is the computation `y` which in addition appends entries, and what `Q` says of them.
The rules derive this along the syntax of the program. The first conclusion of it is that
the log changes nothing: the outcome and the final state are those of `y`.
-/
namespace SwapDetector.Base.Logging
open SwapDetector.Base.Exec

variable {ε σ ω α β γ : Type}

/-- Appends an entry. -/
def record (w : ω) : ExceptT ε (StateM (σ × List ω)) Unit := modify fun s => (s.1, s.2 ++ [w])

/-- A computation without a log. -/
def silently (y : ExceptT ε (StateM σ) α) : ExceptT ε (StateM (σ × List ω)) α :=
  ExceptT.mk (StateT.mk fun s => ((exec y s.1).1, ((exec y s.1).2, s.2)))

/-- The computation `x` does what `y` does, and the entries it appends satisfy `Q`. -/
def Logs (x : ExceptT ε (StateM (σ × List ω)) α) (y : ExceptT ε (StateM σ) α)
    (Q : List ω → Prop) : Prop :=
  ∀ s log, ∃ k, exec x (s, log) = ((exec y s).1, ((exec y s).2, log ++ k)) ∧ Q k

namespace Logs
variable {Q Q' R : List ω → Prop} {x : ExceptT ε (StateM (σ × List ω)) α}
  {y : ExceptT ε (StateM σ) α} {f : α → ExceptT ε (StateM (σ × List ω)) β}
  {g : α → ExceptT ε (StateM σ) β} {z : ExceptT ε (StateM σ) β} {a : α}

theorem pure (a : α) (h : Q []) :
    Logs (Pure.pure a : ExceptT ε (StateM (σ × List ω)) α) (Pure.pure a) Q :=
  fun s log => ⟨[], by rw [List.append_nil]; rfl, h⟩

theorem throw (e : ε) (h : Q []) :
    Logs (MonadExcept.throw e : ExceptT ε (StateM (σ × List ω)) α) (MonadExcept.throw e) Q :=
  fun s log => ⟨[], by rw [List.append_nil]; rfl, h⟩

theorem silently (y : ExceptT ε (StateM σ) α) (h : Q []) : Logs (Logging.silently y) y Q :=
  fun s log => ⟨[], by rw [List.append_nil]; rfl, h⟩

theorem record (w : ω) (h : Q [w]) :
    Logs (Logging.record w : ExceptT ε (StateM (σ × List ω)) Unit) (Pure.pure ()) Q :=
  fun _ _ => ⟨[w], rfl, h⟩

theorem weaken (hx : Logs x y Q) (h : ∀ k, Q k → R k) : Logs x y R := by
  intro s log
  obtain ⟨k, hrun, hQ⟩ := hx s log
  exact ⟨k, hrun, h k hQ⟩

/-- The entries of a sequence are those of its parts, as far as it gets. What is known of
the answers of the first part is known in the second. -/
theorem bind {A : α → Prop} (hx : Logs x y Q) (hA : ∀ s a t, exec y s = (.ok a, t) → A a)
    (hf : ∀ a, A a → Logs (f a) (g a) Q') (hstop : ∀ k, Q k → R k)
    (happend : ∀ k l, Q k → Q' l → R (k ++ l)) : Logs (x >>= f) (y >>= g) R := by
  intro s log
  obtain ⟨k, hrun, hQ⟩ := hx s log
  cases hy : exec y s with
  | mk r t =>
    rw [hy] at hrun
    cases r with
    | error e =>
      refine ⟨k, ?_, hstop k hQ⟩
      rw [exec_bind_error hrun, exec_bind_error hy]
    | ok a =>
      obtain ⟨l, hrun', hQ'⟩ := hf a (hA s a t hy) t (log ++ k)
      refine ⟨k ++ l, ?_, happend k l hQ hQ'⟩
      rw [exec_bind_ok hrun, exec_bind_ok hy, hrun', List.append_assoc]

/-- A first part that only computes a value. -/
theorem bind_pure (hx : Logs x (Pure.pure a) Q) (hf : Logs (f a) z Q')
    (happend : ∀ k l, Q k → Q' l → R (k ++ l)) : Logs (x >>= f) z R := by
  intro s log
  obtain ⟨k, hrun, hQ⟩ := hx s log
  obtain ⟨l, hrun', hQ'⟩ := hf s (log ++ k)
  refine ⟨k ++ l, ?_, happend k l hQ hQ'⟩
  rw [exec_bind_ok hrun]
  exact hrun'.trans (by rw [List.append_assoc])

theorem ite {c : Prop} [Decidable c] {x' : ExceptT ε (StateM (σ × List ω)) α}
    {y' : ExceptT ε (StateM σ) α} (hx : c → Logs x y Q) (hx' : ¬ c → Logs x' y' Q) :
    Logs (if c then x else x') (if c then y else y') Q := by
  by_cases hc : c
  · rw [if_pos hc, if_pos hc]
    exact hx hc
  · rw [if_neg hc, if_neg hc]
    exact hx' hc

/-- The log changes nothing. -/
theorem erase (hx : Logs x y Q) (s : σ) (log : List ω) :
    (exec x (s, log)).1 = (exec y s).1 ∧ (exec x (s, log)).2.1 = (exec y s).2 := by
  obtain ⟨k, hrun, -⟩ := hx s log
  rw [hrun]
  exact ⟨rfl, rfl⟩

end Logs

/-! ## Conditions on all entries -/

/-- Every entry is allowed exactly when a condition holds. -/
def AllIff (ok : ω → Prop) (P : Prop) (k : List ω) : Prop := (∀ w ∈ k, ok w) ↔ P

/-- Every entry is allowed if a condition holds. -/
def AllIf (ok : ω → Prop) (P : Prop) (k : List ω) : Prop := P → ∀ w ∈ k, ok w

section Conditions
variable {ok : ω → Prop} {P P' : Prop} {k l : List ω}

theorem AllIff.nil : AllIff ok True [] := by simp [AllIff]

theorem AllIff.single (w : ω) : AllIff ok (ok w) [w] := by simp [AllIff]

theorem AllIff.append (hk : AllIff ok P k) (hl : AllIff ok P' l) : AllIff ok (P ∧ P') (k ++ l) := by
  unfold AllIff at *
  rw [← hk, ← hl, List.forall_mem_append]

theorem AllIff.congr (h : P ↔ P') (hk : AllIff ok P k) : AllIff ok P' k := Iff.trans hk h

/-- What comes later adds nothing when the condition allows it. -/
theorem AllIff.append_of_allIf (hk : AllIff ok P k) (hl : AllIf ok P l) :
    AllIff ok P (k ++ l) := by
  unfold AllIff AllIf at *
  rw [List.forall_mem_append, hk]
  exact and_iff_left_of_imp hl

theorem AllIf.nil : AllIf ok P [] := by simp [AllIf]

theorem AllIf.append (hk : AllIf ok P k) (hl : AllIf ok P l) : AllIf ok P (k ++ l) := by
  intro hP
  exact List.forall_mem_append.mpr ⟨hk hP, hl hP⟩

theorem AllIf.of_allIff (h : P' → P) (hk : AllIff ok P k) : AllIf ok P' k :=
  fun hP' => hk.mpr (h hP')

end Conditions

namespace Logs
variable {ok : ω → Prop} {P P' : Prop} {Q Q' : List ω → Prop}
  {x : ExceptT ε (StateM (σ × List ω)) α} {y : ExceptT ε (StateM σ) α}
  {f : α → ExceptT ε (StateM (σ × List ω)) β} {g : α → ExceptT ε (StateM σ) β}
  {z : ExceptT ε (StateM σ) β} {a : α}

theorem congr (hx : Logs x y (AllIff ok P)) (h : P ↔ P') : Logs x y (AllIff ok P') :=
  hx.weaken fun _ => AllIff.congr h

theorem bind_answer_allIf {A : α → Prop} (hx : Logs x y (AllIf ok P))
    (hA : ∀ s a t, exec y s = (.ok a, t) → A a)
    (hf : ∀ a, A a → Logs (f a) (g a) (AllIf ok P)) : Logs (x >>= f) (y >>= g) (AllIf ok P) :=
  hx.bind hA hf (fun _ h => h) fun _ _ => AllIf.append

theorem bind_allIf (hx : Logs x y (AllIf ok P)) (hf : ∀ a, Logs (f a) (g a) (AllIf ok P)) :
    Logs (x >>= f) (y >>= g) (AllIf ok P) :=
  hx.bind_answer_allIf (fun _ _ _ _ => trivial) fun a _ => hf a

/-- The parts of the log in their order. -/
theorem bind_pure_then (Q' : List ω → Prop) (hx : Logs x (Pure.pure a) Q) (hf : Logs (f a) z Q') :
    Logs (x >>= f) z fun k => ∃ k₁ k₂, k = k₁ ++ k₂ ∧ Q k₁ ∧ Q' k₂ :=
  hx.bind_pure hf fun k₁ k₂ h₁ h₂ => ⟨k₁, k₂, rfl, h₁, h₂⟩

theorem bind_pure_allIff (hx : Logs x (Pure.pure a) (AllIff ok P))
    (hf : Logs (f a) z (AllIff ok P')) : Logs (x >>= f) z (AllIff ok (P ∧ P')) :=
  hx.bind_pure hf fun _ _ => AllIff.append

/-- What is computed from the answer adds nothing. -/
theorem bind_map {h : α → β} (hx : Logs x y (AllIff ok P)) :
    Logs (x >>= fun a => Pure.pure (h a)) (y >>= fun a => Pure.pure (h a)) (AllIff ok P) := by
  have hpure (a : α) : True → Logs (Pure.pure (h a) : ExceptT ε (StateM (σ × List ω)) β)
      (Pure.pure (h a)) (AllIff ok True) := fun _ => Logs.pure (h a) AllIff.nil
  exact hx.bind (fun _ _ _ _ => trivial) hpure (fun _ h => h)
    fun _ _ hk hl => (hk.append hl).congr (and_iff_left trivial)

theorem bind_pure_map {h : α → β} (hx : Logs x (Pure.pure a) (AllIff ok P)) :
    Logs (x >>= fun a => Pure.pure (h a)) (Pure.pure (h a)) (AllIff ok P) := hx.bind_map

theorem foldlM_allIf {f : β → α → ExceptT ε (StateM (σ × List ω)) β}
    {g : β → α → ExceptT ε (StateM σ) β} (l : List α) (b : β)
    (h : ∀ b, ∀ a ∈ l, Logs (f b a) (g b a) (AllIf ok P)) :
    Logs (l.foldlM f b) (l.foldlM g b) (AllIf ok P) := by
  induction l generalizing b with
  | nil => exact Logs.pure b AllIf.nil
  | cons a l ih =>
    rw [List.foldlM_cons, List.foldlM_cons]
    exact (h b a List.mem_cons_self).bind_allIf fun b' =>
      ih b' fun b a' ha' => h b a' (List.mem_cons_of_mem a ha')

/-- Pure steps along a list. -/
theorem mapM_pure {f : α → ExceptT ε (StateM (σ × List ω)) β} {g : α → β} {P : α → Prop}
    (l : List α)
    (h : ∀ a ∈ l, Logs (f a) (Pure.pure (g a) : ExceptT ε (StateM σ) β) (AllIff ok (P a))) :
    Logs (l.mapM f) (Pure.pure (l.map g) : ExceptT ε (StateM σ) (List β))
      (AllIff ok (∀ a ∈ l, P a)) := by
  induction l with
  | nil => exact Logs.pure [] (AllIff.nil.congr (by simp))
  | cons a l ih =>
    rw [List.mapM_cons]
    have htail := ih fun a' ha' => h a' (List.mem_cons_of_mem a ha')
    exact ((h a List.mem_cons_self).bind_pure_allIff htail.bind_pure_map).congr
      List.forall_mem_cons.symm

/-- A loop of pure steps. -/
theorem foldlM_pure {f : β → α → ExceptT ε (StateM (σ × List ω)) β} {g : β → α → β}
    {P : α → Prop} (l : List α) (b : β)
    (h : ∀ b, ∀ a ∈ l, Logs (f b a) (Pure.pure (g b a) : ExceptT ε (StateM σ) β) (AllIff ok (P a))) :
    Logs (l.foldlM f b) (Pure.pure (l.foldl g b) : ExceptT ε (StateM σ) β)
      (AllIff ok (∀ a ∈ l, P a)) := by
  induction l generalizing b with
  | nil => exact Logs.pure b (AllIff.nil.congr (by simp))
  | cons a l ih =>
    rw [List.foldlM_cons]
    have htail := ih (g b a) fun b a' ha' => h b a' (List.mem_cons_of_mem a ha')
    exact ((h b a List.mem_cons_self).bind_pure_allIff htail).congr List.forall_mem_cons.symm

end Logs

/-! ## Loops that may stop early -/

/-- The elements of a list that have no stopping element before them. -/
def Reached (T : α → Prop) (l : List α) (a : α) : Prop :=
  ∃ before after, l = before ++ a :: after ∧ ∀ b ∈ before, ¬ T b

section Loops
variable {ok : ω → Prop} {T : α → Prop} {I : σ → Prop} {e : ε}

/-- In a sorted list, the elements with no stopping element below them are reached. -/
theorem reached_iff {r : α → α → Prop} {l : List α} {a : α} (hl : l.Pairwise r)
    (hasymm : ∀ a b, r a b → ¬ r b a) :
    Reached T l a ↔ a ∈ l ∧ ∀ b ∈ l, r b a → ¬ T b := by
  constructor
  · intro h
    obtain ⟨before, after, rfl, hbefore⟩ := h
    refine ⟨List.mem_append_right _ List.mem_cons_self, fun b hb hba => ?_⟩
    rcases List.mem_append.mp hb with hb | hb
    · exact hbefore b hb
    · rcases List.mem_cons.mp hb with rfl | hb
      · exact absurd hba (hasymm _ _ hba)
      · have hab := (List.pairwise_cons.mp (List.pairwise_append.mp hl).2.1).1 b hb
        exact absurd hba (hasymm _ _ hab)
  · intro h
    obtain ⟨ha, hbelow⟩ := h
    obtain ⟨before, after, rfl⟩ := List.append_of_mem ha
    refine ⟨before, after, rfl, fun b hb => hbelow b (List.mem_append_left _ hb) ?_⟩
    exact (List.pairwise_append.mp hl).2.2 b hb a List.mem_cons_self

theorem forall_reached_cons {P : α → Prop} {a : α} {l : List α} :
    (∀ b, Reached T (a :: l) b → P b) ↔ P a ∧ (¬ T a → ∀ b, Reached T l b → P b) := by
  constructor
  · intro h
    refine ⟨h a ⟨[], l, rfl, by simp⟩, fun ha b hb => ?_⟩
    obtain ⟨before, after, rfl, hbefore⟩ := hb
    exact h b ⟨a :: before, after, rfl, List.forall_mem_cons.mpr ⟨ha, hbefore⟩⟩
  · intro h b hb
    obtain ⟨before, after, hl, hbefore⟩ := hb
    cases before with
    | nil =>
      obtain ⟨rfl, -⟩ := List.cons.inj hl
      exact h.1
    | cons c before =>
      obtain ⟨rfl, rfl⟩ := List.cons.inj hl
      obtain ⟨hc, hrest⟩ := List.forall_mem_cons.mp hbefore
      exact h.2 hc b ⟨before, after, rfl, hrest⟩

/-- The entries of a loop that fails at its first stopping element are those of the
elements it reaches. -/
theorem exec_foldlM {f : β → α → ExceptT ε (StateM (σ × List ω)) β}
    {g : β → α → ExceptT ε (StateM σ) β} {P : α → Prop} (l : List α) (b : β)
    (hlogs : ∀ b, ∀ a ∈ l, Logs (f b a) (g b a) (AllIff ok (P a)))
    (hfails : ∀ b, ∀ a ∈ l, T a → Fails I (g b a) e)
    (hreturns : ∀ b, ∀ a ∈ l, ¬ T a → Returns I (g b a) fun _ => True) {s : σ} (hs : I s)
    (log : List ω) : ∃ k, (exec (l.foldlM f b) (s, log)).2.2 = log ++ k ∧
      AllIff ok (∀ a, Reached T l a → P a) k := by
  induction l generalizing b s log with
  | nil =>
    refine ⟨[], (List.append_nil log).symm, AllIff.nil.congr ?_⟩
    simp [Reached]
  | cons a l ih =>
    obtain ⟨k, hrun, hk⟩ := hlogs b a List.mem_cons_self s log
    rw [List.foldlM_cons]
    by_cases ha : T a
    · obtain ⟨t, ht⟩ := hfails b a List.mem_cons_self ha s hs
      rw [ht] at hrun
      refine ⟨k, by rw [exec_bind_error hrun], hk.congr ?_⟩
      rw [forall_reached_cons]
      simp [ha]
    · obtain ⟨b', t, ht, hIt, -⟩ := hreturns b a List.mem_cons_self ha s hs
      rw [ht] at hrun
      obtain ⟨k', hrun', hk'⟩ := ih b' (fun b a' h => hlogs b a' (List.mem_cons_of_mem a h))
        (fun b a' h => hfails b a' (List.mem_cons_of_mem a h))
        (fun b a' h => hreturns b a' (List.mem_cons_of_mem a h)) hIt (log ++ k)
      refine ⟨k ++ k', ?_, (hk.append hk').congr ?_⟩
      · rw [exec_bind_ok hrun, hrun', List.append_assoc]
      · rw [forall_reached_cons]
        simp [ha]

end Loops

end SwapDetector.Base.Logging
