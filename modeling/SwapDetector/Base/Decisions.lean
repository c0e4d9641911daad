import SwapDetector.Base.Exec
import Mathlib.Algebra.GroupWithZero.Nat

/-! # Runs that take decisions from a tape

The state of a computation holds a tape of decisions of its environment. `Takes` says
that a computation takes a fixed number of them, whatever they are, and how its value
depends on them. The rules derive it along the syntax of the program; a loop makes its
rounds one behind the other on the tape, and `readings` are their values. `Consumes` is
for computations that take more or fewer decisions depending on what these are.
-/
namespace SwapDetector.Base.Decisions
open SwapDetector.Base.Exec

variable {δ ε σ α β γ : Type}

/-- The decisions that are left after the first `n`. -/
def skip (n : Nat) (tape : Nat → δ) : Nat → δ := fun k => tape (n + k)

theorem skip_apply (n k : Nat) (tape : Nat → δ) : skip n tape k = tape (n + k) := rfl

theorem skip_zero (tape : Nat → δ) : skip 0 tape = tape := by
  funext k
  rw [skip_apply, Nat.zero_add]

theorem skip_skip (n m : Nat) (tape : Nat → δ) : skip m (skip n tape) = skip (n + m) tape := by
  funext k
  simp only [skip_apply, Nat.add_assoc]

/-- The computation takes `n` decisions and returns the value `out` of the tape. -/
def Takes (state : (Nat → δ) → σ) (x : ExceptT ε (StateM σ) α) (n : Nat)
    (out : (Nat → δ) → α) : Prop :=
  ∀ tape, exec x (state tape) = (.ok (out tape), state (skip n tape))

/-- The values of the rounds of a loop, each of which takes its decisions behind the
rounds before it. -/
def readings (v : α → (Nat → δ) → β) (cost : α → Nat) : List α → (Nat → δ) → List β
  | [], _ => []
  | a :: l, tape => v a tape :: readings v cost l (skip (cost a) tape)

namespace Takes
variable {state : (Nat → δ) → σ} {n m : Nat} {out : (Nat → δ) → α}

theorem pure (a : α) : Takes state (Pure.pure a : ExceptT ε (StateM σ) α) 0 fun _ => a := by
  intro tape
  rw [skip_zero]
  rfl

/-- A computation that takes no part of the tape. -/
theorem of_steady {x : ExceptT ε (StateM σ) α} {a : α} (h : ∀ tape, Steady x (state tape) (.ok a)) :
    Takes state x 0 fun _ => a := by
  intro tape
  rw [skip_zero]
  exact h tape

theorem congr {x : ExceptT ε (StateM σ) α} {out' : (Nat → δ) → α} (hx : Takes state x n out)
    (h : ∀ tape, out tape = out' tape) : Takes state x n out' := by
  intro tape
  rw [← h tape]
  exact hx tape

theorem bind {x : ExceptT ε (StateM σ) α} {f : α → ExceptT ε (StateM σ) β}
    {g : α → (Nat → δ) → β} (hx : Takes state x n out) (hf : ∀ a, Takes state (f a) m (g a)) :
    Takes state (x >>= f) (n + m) fun tape => g (out tape) (skip n tape) := by
  intro tape
  rw [exec_bind_ok (hx tape), hf, skip_skip]

/-- A first part that takes no decisions and always has the same value. -/
theorem bind_const {x : ExceptT ε (StateM σ) α} {f : α → ExceptT ε (StateM σ) β} {a : α}
    {out' : (Nat → δ) → β} (hx : Takes state x 0 fun _ => a) (hf : Takes state (f a) m out') :
    Takes state (x >>= f) m out' := by
  intro tape
  rw [exec_bind_ok (hx tape), skip_zero]
  exact hf tape

/-- A last part that takes no decisions. -/
theorem bind_pure {x : ExceptT ε (StateM σ) α} {f : α → ExceptT ε (StateM σ) β} {g : α → β}
    (hx : Takes state x n out) (hf : ∀ a, f a = Pure.pure (g a)) :
    Takes state (x >>= f) n fun tape => g (out tape) :=
  hx.bind fun a => hf a ▸ Takes.pure (g a)

/-- What is read from the state does not depend on the tape. -/
theorem get_bind {f : σ → ExceptT ε (StateM σ) β} {y : ExceptT ε (StateM σ) β}
    {out' : (Nat → δ) → β} (hf : ∀ tape, f (state tape) = y) (hy : Takes state y m out') :
    Takes state (MonadState.get >>= f) m out' := by
  intro tape
  have hget : exec (MonadState.get : ExceptT ε (StateM σ) σ) (state tape) =
      (.ok (state tape), state tape) := rfl
  rw [exec_bind_ok hget, hf]
  exact hy tape

/-- A loop whose rounds combine their values into an accumulator. -/
theorem foldlM {f : β → α → ExceptT ε (StateM σ) β} {g : β → γ → β} {v : α → (Nat → δ) → γ}
    {cost : α → Nat} (l : List α) (b : β)
    (h : ∀ b, ∀ a ∈ l, Takes state (f b a) (cost a) fun tape => g b (v a tape)) :
    Takes state (l.foldlM f b) (l.map cost).sum fun tape => (readings v cost l tape).foldl g b := by
  induction l generalizing b with
  | nil => exact Takes.pure b
  | cons a l ih =>
    rw [List.foldlM_cons, List.map_cons, List.sum_cons]
    exact (h b a (by simp)).bind fun b' => ih b' fun b a' ha => h b a' (by simp [ha])

/-- On a tape that stays the same, the computation changes nothing. -/
theorem steady {x : ExceptT ε (StateM σ) α} (hx : Takes state x n out) (tape : Nat → δ)
    (h : skip n tape = tape) : Steady x (state tape) (.ok (out tape)) := by
  rw [Steady, hx tape, h]

end Takes

/-- Started with `tape`, the computation takes exactly the first `n` decisions of it: its
outcome `e` and the state it leaves do not depend on the others. -/
def Consumes (state : (Nat → δ) → σ) (x : ExceptT ε (StateM σ) α) (tape : Nat → δ) (n : Nat)
    (e : Except ε α) : Prop :=
  ∀ tape', (∀ k < n, tape' k = tape k) → exec x (state tape') = (e, state (skip n tape'))

namespace Consumes
variable {state : (Nat → δ) → σ} {tape : Nat → δ} {n m : Nat}

theorem run {x : ExceptT ε (StateM σ) α} {e : Except ε α} (h : Consumes state x tape n e) :
    exec x (state tape) = (e, state (skip n tape)) := h tape fun _ _ => rfl

theorem of_steady {x : ExceptT ε (StateM σ) α} {e : Except ε α}
    (h : ∀ tape, Steady x (state tape) e) : Consumes state x tape 0 e := by
  intro tape' _
  rw [skip_zero]
  exact h tape'

theorem of_takes {x : ExceptT ε (StateM σ) α} {out : (Nat → δ) → α} (hx : Takes state x n out)
    (hout : ∀ tape', (∀ k < n, tape' k = tape k) → out tape' = out tape) :
    Consumes state x tape n (.ok (out tape)) := by
  intro tape' hagree
  rw [hx tape', hout tape' hagree]

theorem bind_ok {x : ExceptT ε (StateM σ) α} {f : α → ExceptT ε (StateM σ) β} {a : α}
    {e : Except ε β} (hx : Consumes state x tape n (.ok a))
    (hf : Consumes state (f a) (skip n tape) m e) : Consumes state (x >>= f) tape (n + m) e := by
  intro tape' hagree
  have hrest : ∀ k < m, skip n tape' k = skip n tape k :=
    fun k hk => hagree (n + k) (Nat.add_lt_add_left hk n)
  rw [exec_bind_ok (hx tape' fun k hk => hagree k (Nat.lt_add_right m hk)),
    hf (skip n tape') hrest, skip_skip]

theorem bind_error {x : ExceptT ε (StateM σ) α} {f : α → ExceptT ε (StateM σ) β} {a : ε}
    (hx : Consumes state x tape n (.error a)) : Consumes state (x >>= f) tape n (.error a) :=
  fun tape' hagree => exec_bind_error (hx tape' hagree)

end Consumes

section Readings
variable {v : α → (Nat → δ) → β} {cost : α → Nat} {tape : Nat → δ}

/-- A reading is the value of a round at its place on the tape. -/
theorem mem_readings {l : List α} {y : β} : y ∈ readings v cost l tape ↔
    ∃ k a, l[k]? = some a ∧ y = v a (skip ((l.take k).map cost).sum tape) := by
  induction l generalizing tape with
  | nil => simp [readings]
  | cons a l ih =>
    rw [readings, List.mem_cons, ih]
    constructor
    · intro h
      rcases h with rfl | ⟨k, a', hk, rfl⟩
      · exact ⟨0, a, rfl, by rw [List.take_zero, List.map_nil, List.sum_nil, skip_zero]⟩
      · refine ⟨k + 1, a', hk, ?_⟩
        rw [List.take_succ_cons, List.map_cons, List.sum_cons, skip_skip]
    · intro h
      obtain ⟨k, a', hk, rfl⟩ := h
      cases k with
      | zero =>
        cases hk
        exact .inl (by rw [List.take_zero, List.map_nil, List.sum_nil, skip_zero])
      | succ k =>
        refine .inr ⟨k, a', hk, ?_⟩
        rw [List.take_succ_cons, List.map_cons, List.sum_cons, skip_skip]

/-- When every round takes the same number of decisions. -/
theorem mem_readings_const {n : Nat} {l : List α} {y : β} :
    y ∈ readings v (fun _ => n) l tape ↔ ∃ k a, l[k]? = some a ∧ y = v a (skip (n * k) tape) := by
  rw [mem_readings]
  have hsum (k : Nat) (hk : k < l.length) : ((l.take k).map fun _ => n).sum = n * k := by
    rw [List.map_const', List.sum_replicate_nat, List.length_take, Nat.min_eq_left (Nat.le_of_lt hk),
      Nat.mul_comm]
  constructor
  · intro h
    obtain ⟨k, a, hk, hy⟩ := h
    exact ⟨k, a, hk, by rwa [hsum k (List.getElem?_eq_some_iff.mp hk).1] at hy⟩
  · intro h
    obtain ⟨k, a, hk, hy⟩ := h
    exact ⟨k, a, hk, by rwa [hsum k (List.getElem?_eq_some_iff.mp hk).1]⟩

/-- When no round is made twice, its place is behind the rounds before it. -/
theorem mem_readings_of_nodup [DecidableEq α] {l : List α} (hl : l.Nodup) {y : β} :
    y ∈ readings v cost l tape ↔
      ∃ a ∈ l, y = v a (skip ((l.takeWhile (· ≠ a)).map cost).sum tape) := by
  have hplace (a : α) (k : Nat) (hk : l[k]? = some a) : l.take k = l.takeWhile (· ≠ a) := by
    obtain ⟨hlt, hget⟩ := List.getElem?_eq_some_iff.mp hk
    have hsplit : l = l.take k ++ a :: l.drop (k + 1) := by rw [← hget]; simp
    have hbefore : a ∉ l.take k := by
      rw [hsplit] at hl
      exact fun h => (List.nodup_append.mp hl).2.2 _ h _ List.mem_cons_self rfl
    have htake : (l.take k ++ a :: l.drop (k + 1)).takeWhile (· ≠ a) = l.take k := by
      rw [List.takeWhile_append_of_pos, List.takeWhile_cons_of_neg (by simp), List.append_nil]
      intro a' ha'
      exact decide_eq_true fun heq => hbefore (heq ▸ ha')
    rw [← hsplit] at htake
    exact htake.symm
  rw [mem_readings]
  constructor
  · intro h
    obtain ⟨k, a, hk, hy⟩ := h
    exact ⟨a, List.mem_of_getElem? hk, by rwa [hplace a k hk] at hy⟩
  · intro h
    obtain ⟨a, ha, hy⟩ := h
    obtain ⟨k, hk⟩ := List.getElem?_of_mem ha
    exact ⟨k, a, hk, by rwa [hplace a k hk]⟩

theorem readings_append (l l' : List α) : readings v cost (l ++ l') tape =
    readings v cost l tape ++ readings v cost l' (skip (l.map cost).sum tape) := by
  induction l generalizing tape with
  | nil => rw [List.nil_append, List.map_nil, List.sum_nil, skip_zero]; rfl
  | cons a l ih =>
    rw [List.cons_append, readings, ih, skip_skip, List.map_cons, List.sum_cons]
    rfl

theorem readings_map (g : γ → α) (l : List γ) :
    readings v cost (l.map g) tape = readings (fun c => v (g c)) (fun c => cost (g c)) l tape := by
  induction l generalizing tape with
  | nil => rfl
  | cons c l ih => rw [List.map_cons, readings, ih, readings]

end Readings

end SwapDetector.Base.Decisions
