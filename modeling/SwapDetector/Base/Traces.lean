import SwapDetector.Base.Decisions

/-! # Traced runs

A run of a computation that is made of parts of interest, named by `ι`, and of quiet
parts, which read some of the state and change nothing. The trace lists the parts of
interest with the states in which they start, so what holds of every start is proved by
induction on the run.
-/
namespace SwapDetector.Base.Traces
open SwapDetector.Base.Exec SwapDetector.Base.Decisions

variable {ε σ ρ ι α β γ δ : Type}

/-- The computation reads nothing but a part of the state, and changes nothing. -/
def Quiet (visible : σ → ρ) (x : ExceptT ε (StateM σ) α) : Prop :=
  ∃ e : ρ → Except ε α, ∀ s, Steady x s (e (visible s))

theorem Quiet.pure {visible : σ → ρ} (a : α) :
    Quiet visible (Pure.pure a : ExceptT ε (StateM σ) α) := ⟨fun _ => .ok a, fun _ => rfl⟩

theorem Quiet.throw {visible : σ → ρ} (e : ε) :
    Quiet visible (MonadExcept.throw e : ExceptT ε (StateM σ) α) :=
  ⟨fun _ => .error e, fun _ => rfl⟩

theorem Quiet.ofExcept {visible : σ → ρ} (e : Except ε α) :
    Quiet visible (MonadExcept.ofExcept e : ExceptT ε (StateM σ) α) := by
  cases e with
  | ok a => exact Quiet.pure a
  | error e => exact Quiet.throw e

/-- A run with its trace, its outcome and the state it leaves. -/
inductive Traced (visible : σ → ρ) (part : ∀ α : Type, ι → ExceptT ε (StateM σ) α → Prop) :
    {α : Type} → ExceptT ε (StateM σ) α → σ → List (ι × σ) → Except ε α → σ → Prop
  | quiet {α : Type} {x : ExceptT ε (StateM σ) α} {s : σ} {e : Except ε α} (hx : Quiet visible x)
      (hrun : Steady x s e) : Traced visible part x s [] e s
  | part {α : Type} {i : ι} {x : ExceptT ε (StateM σ) α} {s t : σ} {e : Except ε α}
      (hx : part α i x) (hrun : exec x s = (e, t)) : Traced visible part x s [(i, s)] e t
  | bind_ok {α β : Type} {x : ExceptT ε (StateM σ) α} {f : α → ExceptT ε (StateM σ) β} {s t u : σ}
      {trace trace' : List (ι × σ)} {a : α} {e : Except ε β}
      (hx : Traced visible part x s trace (.ok a) t) (hf : Traced visible part (f a) t trace' e u) :
      Traced visible part (x >>= f) s (trace ++ trace') e u
  | bind_error {α β : Type} {x : ExceptT ε (StateM σ) α} {f : α → ExceptT ε (StateM σ) β} {s t : σ}
      {trace : List (ι × σ)} {a : ε} (hx : Traced visible part x s trace (.error a) t) :
      Traced visible part (x >>= f) s trace (.error a) t

variable {visible : σ → ρ} {part : ∀ α : Type, ι → ExceptT ε (StateM σ) α → Prop}

namespace Traced
variable {x : ExceptT ε (StateM σ) α} {s t : σ} {trace : List (ι × σ)} {e : Except ε α}

/-- A traced run is the run of the computation. -/
theorem run (h : Traced visible part x s trace e t) : exec x s = (e, t) := by
  induction h with
  | quiet hx hrun => exact hrun
  | part hx hrun => exact hrun
  | bind_ok hx hf ihx ihf => exact (exec_bind_ok ihx).trans ihf
  | bind_error hx ihx => exact exec_bind_error ihx

/-- What every part of interest keeps holds at every start, and in the end. -/
theorem invariant {I : σ → Prop} (hpart : ∀ α i x s, part α i x → I s → I (exec x s).2)
    (h : Traced visible part x s trace e t) (hs : I s) : I t ∧ ∀ start ∈ trace, I start.2 := by
  induction h with
  | quiet hx hrun => exact ⟨hs, by simp⟩
  | @part α i x s t e hx hrun =>
    have hnext := hpart α i x s hx hs
    rw [hrun] at hnext
    exact ⟨hnext, by simpa using hs⟩
  | bind_ok hx hf ihx ihf =>
    obtain ⟨hmid, hfirst⟩ := ihx hs
    obtain ⟨hend, hrest⟩ := ihf hmid
    refine ⟨hend, fun start hstart => ?_⟩
    rcases List.mem_append.mp hstart with hold | hnew
    · exact hfirst start hold
    · exact hrest start hnew
  | bind_error hx ihx => exact ihx hs

/-- When every part of interest only fails, and always with `f`, a run that does not end
in `f` has none. -/
theorem no_start {s₀ : σ} {f : ε} (hpart : ∀ α i x, part α i x → Steady x s₀ (.error f))
    (h : Traced visible part x s trace e t) (hs : s = s₀) :
    t = s₀ ∧ (e ≠ .error f → trace = []) := by
  induction h with
  | quiet hx hrun => exact ⟨hs, fun _ => rfl⟩
  | @part α i x s t e hx hrun =>
    cases (hs ▸ hrun).symm.trans (hpart α i x hx)
    exact ⟨rfl, fun hne => absurd rfl hne⟩
  | bind_ok hx hf ihx ihf =>
    obtain ⟨hmid, hfirst⟩ := ihx hs
    obtain ⟨hend, hrest⟩ := ihf hmid
    refine ⟨hend, fun hne => ?_⟩
    rw [hfirst (by simp), hrest hne, List.append_nil]
  | bind_error hx ihx =>
    obtain ⟨hend, hfirst⟩ := ihx hs
    exact ⟨hend, fun hne => hfirst fun heq => hne (by cases heq; rfl)⟩

/-- A run whose parts of interest take decisions of their own takes them all. -/
theorem consumes {state : (Nat → δ) → σ} {r : ρ} (hvisible : ∀ tape, visible (state tape) = r)
    (hpart : ∀ α i (x : ExceptT ε (StateM σ) α), part α i x → ∀ tape, ∃ n e,
      Consumes state x tape n e)
    (h : Traced visible part x s trace e t) :
    ∀ tape, s = state tape → ∃ n, Consumes state x tape n e ∧ t = state (skip n tape) := by
  induction h with
  | quiet hx hrun =>
    intro tape hs
    obtain ⟨out, hout⟩ := hx
    have heq := (hrun.unique (hout _)).symm
    rw [hs, hvisible tape] at heq
    refine ⟨0, Consumes.of_steady fun tape' => ?_, by rw [skip_zero, hs]⟩
    have hsame := hout (state tape')
    rwa [hvisible, heq] at hsame
  | @part α i x s t e hx hrun =>
    intro tape hs
    obtain ⟨n, e', hconsumes⟩ := hpart α i x hx tape
    cases hrun.symm.trans (hs ▸ hconsumes.run)
    exact ⟨n, hconsumes, rfl⟩
  | bind_ok hx hf ihx ihf =>
    intro tape hs
    obtain ⟨n, hfirst, hmid⟩ := ihx tape hs
    obtain ⟨m, hrest, hend⟩ := ihf (skip n tape) hmid
    exact ⟨n + m, hfirst.bind_ok hrest, by rw [hend, skip_skip]⟩
  | bind_error hx ihx =>
    intro tape hs
    obtain ⟨n, hfirst, hend⟩ := ihx tape hs
    exact ⟨n, hfirst.bind_error, hend⟩

end Traced

/-- From every state, the computation has a traced run. -/
def Traceable (visible : σ → ρ) (part : ∀ α : Type, ι → ExceptT ε (StateM σ) α → Prop)
    (x : ExceptT ε (StateM σ) α) : Prop := ∀ s, ∃ trace e t, Traced visible part x s trace e t

namespace Traceable

theorem of_quiet {x : ExceptT ε (StateM σ) α} (hx : Quiet visible x) :
    Traceable visible part x := by
  intro s
  obtain ⟨e, he⟩ := hx
  exact ⟨[], _, s, .quiet ⟨e, he⟩ (he s)⟩

theorem pure (a : α) : Traceable visible part (Pure.pure a : ExceptT ε (StateM σ) α) :=
  of_quiet (Quiet.pure a)

theorem of_part {x : ExceptT ε (StateM σ) α} {i : ι} (hx : part α i x) : Traceable visible part x :=
  fun s => ⟨[(i, s)], _, _, .part hx rfl⟩

theorem bind {x : ExceptT ε (StateM σ) α} {f : α → ExceptT ε (StateM σ) β}
    (hx : Traceable visible part x) (hf : ∀ a, Traceable visible part (f a)) :
    Traceable visible part (x >>= f) := by
  intro s
  obtain ⟨trace, e, t, hfirst⟩ := hx s
  cases e with
  | ok a =>
    obtain ⟨trace', e, u, hrest⟩ := hf a t
    exact ⟨_, e, u, hfirst.bind_ok hrest⟩
  | error a => exact ⟨trace, .error a, t, hfirst.bind_error⟩

theorem ite {c : Prop} [Decidable c] {x y : ExceptT ε (StateM σ) α}
    (hx : Traceable visible part x) (hy : Traceable visible part y) :
    Traceable visible part (if c then x else y) := by
  by_cases hc : c
  · rwa [if_pos hc]
  · rwa [if_neg hc]

/-- A branch on what is read of the state. -/
theorem get_ite {c : ρ → Prop} [DecidablePred c] {x y : ExceptT ε (StateM σ) α}
    (hx : Traceable visible part x) (hy : Traceable visible part y) :
    Traceable visible part (MonadState.get >>= fun s => if c (visible s) then x else y) := by
  have hread : Quiet visible (MonadState.get >>= fun s => Pure.pure (visible s) :
      ExceptT ε (StateM σ) ρ) := ⟨.ok, fun _ => rfl⟩
  have hsplit : (MonadState.get >>= fun s => if c (visible s) then x else y) =
      (MonadState.get >>= fun s => Pure.pure (visible s)) >>= fun r => if c r then x else y := by
    rw [bind_assoc]
    exact bind_congr fun s => (pure_bind _ _).symm
  rw [hsplit]
  exact (of_quiet hread).bind fun r => ite hx hy

theorem foldlM {f : β → α → ExceptT ε (StateM σ) β} (l : List α) (b : β)
    (h : ∀ b, ∀ a ∈ l, Traceable visible part (f b a)) :
    Traceable visible part (l.foldlM f b) := by
  induction l generalizing b with
  | nil => exact pure b
  | cons a l ih =>
    rw [List.foldlM_cons]
    exact (h b a (by simp)).bind fun b' => ih b' fun b a' ha => h b a' (by simp [ha])

theorem findSomeM {f : α → ExceptT ε (StateM σ) (Option β)} (l : List α)
    (h : ∀ a ∈ l, Traceable visible part (f a)) : Traceable visible part (l.findSomeM? f) := by
  induction l with
  | nil => exact pure none
  | cons a l ih =>
    refine (h a (by simp)).bind fun r => ?_
    cases r with
    | none => exact ih fun a' ha => h a' (by simp [ha])
    | some b => exact pure (some b)

end Traceable

end SwapDetector.Base.Traces
