import SwapDetector.Proofs.PythonApi

/-! # Programs over wrappers

A function of the extension holds its objects in wrappers: it gets references from the API,
wraps them, copies and assigns the wrappers, releases what they hold and leaves their scopes,
in any order. At any time the count of an object is the number of wrappers that hold it, of
references to it outside of wrappers, of other owners and of objects that hold it.
-/
namespace SwapDetector.Proofs.PythonWrappers
open SwapDetector.Base.Exec SwapDetector.Base.Postconditions SwapDetector.Base.ReferenceCounts
open SwapDetector.Model.PythonObjects SwapDetector.Model.PythonExtension
open SwapDetector.Proofs.PythonApi

/-- The wrappers in scope, and the references that the program owns outside of them: those
that the API has handed to it, and those that wrappers have released. -/
structure Wrappers where
  inScope : List PyOwnedObject
  loose : List Nat

inductive WrapperOp where
  /-- The API makes an object that holds some others. -/
  | make (v : PyValue)
  /-- The API hands out an object that is there. -/
  | acquire (o : Nat)
  /-- A wrapper of a null pointer, or of a loose reference, which it takes over. -/
  | construct (k : Option Nat)
  | copyOf (i : Nat)
  | assign (i j : Nat)
  | release (i : Nat)
  | destroy (i : Nat)

def isLive (h : Heap PyValue) (o : Nat) : Bool := (valueAt h o).isSome

/-- One step of a program. A wrapper that is not in scope cannot be named, nor a loose
reference that it does not have, nor an object that is gone. -/
def step (w : Wrappers) : WrapperOp → PyM Wrappers
  | .make v => do
    if v.refs.all (isLive (← get).heap) then
      if ← outOfMemory then
        setError .memoryError
        return w
      v.refs.forM pyIncRef
      return { w with loose := w.loose ++ [← newObject v] }
    else return w
  | .acquire o => do
    if isLive (← get).heap o then
      pyIncRef o
      return { w with loose := w.loose ++ [o] }
    else return w
  | .construct none => return { w with inScope := w.inScope ++ [none] }
  | .construct (some k) =>
    match w.loose[k]? with
    | some o => return ⟨w.inScope ++ [some o], w.loose.eraseIdx k⟩
    | none => return w
  | .copyOf i =>
    match w.inScope[i]? with
    | some other => do return { w with inScope := w.inScope ++ [← PyOwnedObject.copy other] }
    | none => return w
  | .assign i j =>
    match w.inScope[i]?, w.inScope[j]? with
    | some this, some lhs => do
      -- `&lhs != this`
      if i = j then return w
      return { w with inScope := w.inScope.set i (← PyOwnedObject.assign this lhs) }
    | _, _ => return w
  | .release i =>
    match w.inScope[i]? with
    | some this => return ⟨w.inScope.set i none, w.loose ++ this.toList⟩
    | none => return w
  | .destroy i =>
    match w.inScope[i]? with
    | some this => do
      PyOwnedObject.destroy this
      return { w with inScope := w.inScope.eraseIdx i }
    | none => return w

def run (ops : List WrapperOp) (w : Wrappers) : PyM Wrappers := ops.foldlM step w

/-- Whatever the wrappers hold, and the loose references. -/
def owners (w : Wrappers) : Multiset Nat := ↑(w.inScope.flatMap Option.toList) + ↑w.loose

/-! ## Owners -/

section Owners
variable {w : Wrappers} {i j k r : Nat} {o o' : Option Nat}

theorem owners_append : owners { w with inScope := w.inScope ++ [o] } =
    (o.toList : Multiset Nat) + owners w := by
  simp only [owners, List.flatMap_append, List.flatMap_singleton, ← Multiset.coe_add]
  rw [Multiset.add_comm _ (o.toList : Multiset Nat), Multiset.add_assoc]

theorem owners_at (hi : w.inScope[i]? = some o) :
    owners w = (o.toList : Multiset Nat) + owners { w with inScope := w.inScope.eraseIdx i } := by
  obtain ⟨hlt, hget⟩ := List.getElem?_eq_some_iff.mp hi
  have hperm := (List.getElem_cons_eraseIdx_perm hlt).symm.flatMap_right Option.toList
  rw [hget, List.flatMap_cons] at hperm
  rw [owners, Multiset.coe_eq_coe.mpr hperm, ← Multiset.coe_add, Multiset.add_assoc, owners]

theorem owners_set (hi : i < w.inScope.length) :
    owners { w with inScope := w.inScope.set i o } =
      (o.toList : Multiset Nat) + owners { w with inScope := w.inScope.eraseIdx i } := by
  have hperm := (List.set_perm_cons_eraseIdx hi o).flatMap_right Option.toList
  rw [List.flatMap_cons] at hperm
  rw [owners, Multiset.coe_eq_coe.mpr hperm, ← Multiset.coe_add, Multiset.add_assoc, owners]

theorem owners_loose : owners { w with loose := w.loose ++ [r] } = r ::ₘ owners w := by
  simp only [owners, ← Multiset.coe_add, Multiset.coe_singleton]
  rw [← Multiset.add_assoc, Multiset.add_comm, Multiset.singleton_add]

/-- Wrapping a loose reference changes its place only. -/
theorem owners_wrap (hk : w.loose[k]? = some r) :
    owners ⟨w.inScope ++ [some r], w.loose.eraseIdx k⟩ = owners w := by
  obtain ⟨hlt, hget⟩ := List.getElem?_eq_some_iff.mp hk
  have hperm := (List.getElem_cons_eraseIdx_perm hlt).symm
  rw [hget] at hperm
  have hcons : owners w = r ::ₘ owners { w with loose := w.loose.eraseIdx k } := by
    rw [owners, Multiset.coe_eq_coe.mpr hperm, ← Multiset.cons_coe, Multiset.add_cons, owners]
  rw [hcons]
  exact owners_append (w := { w with loose := w.loose.eraseIdx k }) (o := some r)

theorem mem_owners : r ∈ owners w ↔ some r ∈ w.inScope ∨ r ∈ w.loose := by
  rw [owners, Multiset.mem_add, Multiset.mem_coe, Multiset.mem_coe, List.mem_flatMap]
  refine or_congr_left ⟨fun h => ?_, fun h => ⟨some r, h, List.mem_singleton_self r⟩⟩
  obtain ⟨o, ho, hr⟩ := h
  rwa [← Option.mem_toList.mp hr]

theorem count_owners : (owners w).count r = w.inScope.count (some r) + w.loose.count r := by
  rw [owners, Multiset.count_add, Multiset.coe_count, Multiset.coe_count, List.count_flatMap]
  congr 1
  induction w.inScope with
  | nil => rfl
  | cons o inScope ih =>
    rw [List.map_cons, List.sum_cons, ih, List.count_cons, Nat.add_comm]
    cases o <;> simp [List.count_singleton]

end Owners

/-! ## Steps -/

section Steps
variable {own roots : Multiset Nat} {base h : Heap PyValue} {w : Wrappers} {s : Interp} {o : Nat}
  {v : PyValue} {c : Cell PyValue}

/-- What is owned when the owners besides the former ones are `roots`. Objects hold older
objects only. -/
structure Owned (own roots : Multiset Nat) (base h : Heap PyValue) : Prop where
  counted : Counted PyValue.refs h (roots + own)
  grows : Extends base h
  older : ∀ p v q, base.length ≤ p → valueAt h p = some v → q ∈ v.refs → q < p

theorem exists_of_live (ho : isLive h o = true) : ∃ c, cellAt h o = some c := by
  obtain ⟨v, hv⟩ := Option.isSome_iff_exists.mp ho
  obtain ⟨c, hc, -⟩ := exists_cell hv
  exact ⟨c, hc⟩

namespace Owned

theorem alloc (hs : Owned own ((v.refs : Multiset Nat) + roots) base h)
    (hlive : ∀ q ∈ v.refs, q < h.length) :
    Owned own (h.length ::ₘ roots) base (Base.ReferenceCounts.alloc h v).2 where
  counted := by
    have hcounted := hs.counted
    rw [Multiset.add_assoc] at hcounted
    rw [Multiset.cons_add]
    exact hcounted.alloc
  grows := hs.grows.alloc
  older := by
    intro p x q hp hx hq
    rw [valueAt_alloc] at hx
    split_ifs at hx with hnew
    · cases hx
      exact hnew ▸ hlive q hq
    · exact hs.older p x q hp hx hq

theorem retain (hs : Owned own roots base h) (hcell : cellAt h o = some c) :
    Owned own (o ::ₘ roots) base (h.set o (some { c with count := c.count + 1 })) where
  counted := by
    rw [Multiset.cons_add]
    exact hs.counted.retain hcell
  grows := hs.grows.retain hcell
  older := by
    intro p x q hp hx hq
    rw [valueAt_retain hcell] at hx
    exact hs.older p x q hp hx hq

theorem pyDecRef_spec (hbase : Counted PyValue.refs base own)
    (hs : Owned own (o ::ₘ roots) base s.heap) :
    Gives (pyDecRef o) s fun _ t => Owned own roots base t.heap := by
  have hcounted := hs.counted
  rw [Multiset.cons_add] at hcounted
  obtain ⟨h', hrun, hc, hrel⟩ := release_spec hcounted
  refine Gives.of_exec (pyDecRef_exec hrun) ⟨hc, hs.grows.released hbase
    (fun r hr => Multiset.mem_add.mpr (.inr hr)) hrel, fun p x q hp hx hq => ?_⟩
  exact hs.older p x q hp (hrel.value p x hx) hq

theorem pyIncRef_spec (hs : Owned own roots base s.heap) (ho : isLive s.heap o = true) :
    Gives (pyIncRef o) s fun _ t =>
      Owned own (o ::ₘ roots) base t.heap ∧ ∀ q, isLive t.heap q = isLive s.heap q := by
  obtain ⟨c, hcell⟩ := exists_of_live ho
  refine Gives.of_exec (pyIncRef_exec hcell) ⟨hs.retain hcell, fun q => ?_⟩
  rw [isLive, isLive, valueAt_retain hcell]

/-- Making a copy of what an owner holds. -/
theorem copy_spec (other : PyOwnedObject) (hs : Owned own roots base s.heap)
    (ho : ∀ o ∈ other, o ∈ roots) :
    Gives (PyOwnedObject.copy other) s fun r t =>
      r = other ∧ Owned own ((other.toList : Multiset Nat) + roots) base t.heap := by
  unfold PyOwnedObject.copy
  cases other with
  | none => exact Gives.pure ⟨rfl, by simpa using hs⟩
  | some o =>
    obtain ⟨c, hcell⟩ := hs.counted.cellAt_of_mem (Multiset.mem_add.mpr (.inl (ho o rfl)))
    exact Gives.exec_bind (pyIncRef_exec hcell) (Gives.pure ⟨rfl, hs.retain hcell⟩)

theorem destroy_spec {this : PyOwnedObject} (hbase : Counted PyValue.refs base own)
    (hs : Owned own ((this.toList : Multiset Nat) + roots) base s.heap) :
    Gives (PyOwnedObject.destroy this) s fun _ t => Owned own roots base t.heap := by
  unfold PyOwnedObject.destroy
  cases this with
  | none => exact Gives.pure (by simpa using hs)
  | some o => exact pyDecRef_spec hbase hs

/-- The old object of a wrapper is given up before the new one is taken, which another wrapper
holds all the while. -/
theorem assign_spec {this : PyOwnedObject} (lhs : PyOwnedObject)
    (hbase : Counted PyValue.refs base own)
    (hs : Owned own ((this.toList : Multiset Nat) + roots) base s.heap) (ho : ∀ o ∈ lhs, o ∈ roots) :
    Gives (PyOwnedObject.assign this lhs) s fun r t =>
      r = lhs ∧ Owned own ((lhs.toList : Multiset Nat) + roots) base t.heap := by
  have hparts : PyOwnedObject.assign this lhs = (do
      PyOwnedObject.destroy this
      PyOwnedObject.copy lhs) := by
    cases this <;> rfl
  rw [hparts]
  exact (destroy_spec hbase hs).bind fun _ _ ht => copy_spec lhs ht ho

end Owned

/-- A new object takes a reference to each of the objects that it holds. -/
theorem make_spec (hs : Owned own (owners w) base s.heap) :
    Gives (step w (.make v)) s fun w' t => Owned own (owners w') base t.heap := by
  unfold step
  refine Gives.exec_bind (a := s) rfl (Gives.ite (fun hlive => ?_) fun _ => Gives.pure hs)
  rw [List.all_eq_true] at hlive
  refine Gives.exec_bind outOfMemory_exec (Gives.ite (fun _ => ?_) fun _ => ?_)
  · exact Gives.exec_bind (setError_exec _) (Gives.pure hs)
  · have hretained : Gives (v.refs.forM pyIncRef) { s with fails := fun k => s.fails (k + 1) }
        fun _ t => Owned own ((v.refs : Multiset Nat) + owners w) base t.heap ∧
          ∀ q, isLive t.heap q = isLive s.heap q := by
      refine Gives.forM_prefix (I := fun (done : List Nat) (t : Interp) =>
        Owned own ((done : Multiset Nat) + owners w) base t.heap ∧
          ∀ q, isLive t.heap q = isLive s.heap q) v.refs (fun done q hq t ht => ?_)
        ⟨by simpa using hs, fun _ => rfl⟩
      refine (Owned.pyIncRef_spec ht.1 ((ht.2 q).trans (hlive q hq))).weaken fun _ u hu => ?_
      refine ⟨?_, fun r => (hu.2 r).trans (ht.2 r)⟩
      rw [← Multiset.coe_add, Multiset.coe_singleton, Multiset.add_comm (done : Multiset Nat),
        Multiset.singleton_add, Multiset.cons_add]
      exact hu.1
    refine hretained.bind fun _ t ht => Gives.exec_bind newObject_exec (Gives.pure ?_)
    rw [owners_loose]
    refine ht.1.alloc fun q hq => ?_
    obtain ⟨c, hc⟩ := exists_of_live ((ht.2 q).trans (hlive q hq))
    exact lt_of_cellAt hc

/-- Every step keeps the accounts. -/
theorem step_spec (hbase : Counted PyValue.refs base own) (hs : Owned own (owners w) base s.heap)
    (op : WrapperOp) : Gives (step w op) s fun w' t => Owned own (owners w') base t.heap := by
  cases op with
  | make v => exact make_spec hs
  | acquire o =>
    refine Gives.exec_bind (a := s) rfl (Gives.ite (fun hlive => ?_) fun _ => Gives.pure hs)
    refine (Owned.pyIncRef_spec hs hlive).bind fun _ t ht => Gives.pure ?_
    rw [owners_loose]
    exact ht.1
  | construct k =>
    cases k with
    | none =>
      refine Gives.pure ?_
      rw [owners_append]
      simpa using hs
    | some k =>
      cases hk : w.loose[k]? with
      | none =>
        simp only [step, hk]
        exact Gives.pure hs
      | some o =>
        simp only [step, hk]
        exact Gives.pure (owners_wrap hk ▸ hs)
  | copyOf i =>
    cases hi : w.inScope[i]? with
    | none =>
      simp only [step, hi]
      exact Gives.pure hs
    | some other =>
      simp only [step, hi]
      refine (hs.copy_spec other fun o ho => ?_).bind fun r t ht => Gives.pure ?_
      · obtain rfl : other = some o := ho
        rw [owners_at hi]
        exact Multiset.mem_add.mpr (.inl (Multiset.mem_singleton_self o))
      · rw [owners_append, ht.1]
        exact ht.2
  | assign i j =>
    cases hi : w.inScope[i]? with
    | none =>
      simp only [step, hi]
      exact Gives.pure hs
    | some this =>
      cases hj : w.inScope[j]? with
      | none =>
        simp only [step, hi, hj]
        exact Gives.pure hs
      | some lhs =>
        simp only [step, hi, hj]
        refine Gives.ite (fun _ => Gives.pure hs) fun hne => ?_
        rw [owners_at hi] at hs
        refine (hs.assign_spec lhs hbase fun o ho => ?_).bind fun r t ht => Gives.pure ?_
        · obtain rfl : lhs = some o := ho
          refine Multiset.mem_add.mpr (.inl (Multiset.mem_coe.mpr ?_))
          refine List.mem_flatMap.mpr ⟨some o, ?_, List.mem_singleton_self o⟩
          exact List.mem_eraseIdx_iff_getElem?.mpr ⟨j, Ne.symm hne, hj⟩
        · rw [owners_set (List.getElem?_eq_some_iff.mp hi).1, ht.1]
          exact ht.2
  | release i =>
    cases hi : w.inScope[i]? with
    | none =>
      simp only [step, hi]
      exact Gives.pure hs
    | some this =>
      simp only [step, hi]
      have hsame : owners ⟨w.inScope.set i none, w.loose ++ this.toList⟩ = owners w := by
        rw [owners_at hi, owners, ← Multiset.coe_add, ← Multiset.add_assoc]
        have hset := owners_set (w := w) (o := none) (List.getElem?_eq_some_iff.mp hi).1
        rw [owners] at hset
        rw [hset, Multiset.add_comm]
        simp
      exact Gives.pure (hsame ▸ hs)
  | destroy i =>
    cases hi : w.inScope[i]? with
    | none =>
      simp only [step, hi]
      exact Gives.pure hs
    | some this =>
      simp only [step, hi]
      rw [owners_at hi] at hs
      exact (hs.destroy_spec hbase).bind fun _ t ht => Gives.pure ht

theorem run_spec (hbase : Counted PyValue.refs base own) (ops : List WrapperOp) :
    ∀ {w : Wrappers} {s : Interp}, Owned own (owners w) base s.heap →
    Gives (run ops w) s fun w' t => Owned own (owners w') base t.heap := by
  induction ops with
  | nil => exact fun hs => Gives.pure hs
  | cons op ops ih => exact fun hs => (step_spec hbase hs op).bind fun w' t ht => ih ht

/-- An object is gone when it has no owner, and only then. -/
theorem cellAt_eq_none_iff (hc : Counted PyValue.refs h own) :
    cellAt h o = none ↔ o ∉ own ∧ held PyValue.refs h o = 0 := by
  have heq := hc.count_eq o
  constructor
  · intro hnone
    rw [countAt, hnone, Option.map_none, Option.getD_none] at heq
    exact ⟨Multiset.count_eq_zero.mp (by omega), by omega⟩
  · intro hout
    obtain ⟨hown, hheld⟩ := hout
    cases hcell : cellAt h o with
    | none => rfl
    | some c =>
      have hpos := hc.pos o c hcell
      rw [countAt_of_cellAt hcell, Multiset.count_eq_zero_of_notMem hown, hheld] at heq
      omega

/-- Once the program owns nothing, everything is as it was before. -/
theorem Owned.restored (hbase : Counted PyValue.refs base own) (hs : Owned own 0 base h) :
    (∀ o < base.length, cellAt h o = cellAt base o) ∧
      ∀ o, base.length ≤ o → cellAt h o = none := by
  have hcounted := hs.counted
  rw [Multiset.zero_add] at hcounted
  have hout : ∀ r ∈ own, r < base.length := by
    intro r hr
    obtain ⟨c, hc⟩ := hbase.cellAt_of_mem hr
    exact lt_of_cellAt hc
  have hgone : ∀ o, base.length ≤ o → cellAt h o = none := fun o ho =>
    cellAt_of_older hcounted hout hs.older
      (fun p v q hp hv hq => held_below hbase hs.grows hp hv hq) h.length o (Nat.sub_le _ _) ho
  refine ⟨fun o ho => cellAt_of_extends PyValue.refs hbase hcounted hs.grows ho rfl ?_, hgone⟩
  intro p v hp hv
  rw [valueAt, hgone p hp] at hv
  cases hv

/-- **Wrappers**: whatever a program does with its wrappers, it uses no object that is gone,
and the objects from before are as they were, apart from their counts. The count of an object
is the number of wrappers that hold it, of loose references to it, of its owners from before
and of the objects that hold it; it is gone exactly when there are none. Once the program
owns nothing any more, the objects from before have the counts they had, and all others are
gone. -/
theorem run_counted (ops : List WrapperOp) (s : Interp) (own : Multiset Nat)
    (hc : Counted PyValue.refs s.heap own) :
    ∃ w t, exec (run ops ⟨[], []⟩) s = (.ok w, t) ∧
      (∀ o < s.heap.length, valueAt t.heap o = valueAt s.heap o) ∧
      (∀ o, countAt t.heap o = w.inScope.count (some o) + w.loose.count o + own.count o +
        held PyValue.refs t.heap o) ∧
      (∀ o, cellAt t.heap o = none ↔ some o ∉ w.inScope ∧ o ∉ w.loose ∧ o ∉ own ∧
        held PyValue.refs t.heap o = 0) ∧
      (owners w = 0 → (∀ o < s.heap.length, cellAt t.heap o = cellAt s.heap o) ∧
        ∀ o, s.heap.length ≤ o → cellAt t.heap o = none) := by
  have hstart : Owned own (owners ⟨[], []⟩) s.heap s.heap := by
    refine ⟨by simpa [owners] using hc, Extends.refl, fun p v q hp hv => ?_⟩
    exact absurd (lt_of_valueAt hv) (Nat.not_lt.mpr hp)
  obtain ⟨w, t, hrun, hs⟩ := run_spec hc ops hstart
  refine ⟨w, t, hrun, hs.grows.value, fun o => ?_, fun o => ?_, fun hnone => ?_⟩
  · rw [hs.counted.count_eq, Multiset.count_add, count_owners]
  · rw [cellAt_eq_none_iff hs.counted, Multiset.mem_add, mem_owners]
    tauto
  · rw [hnone] at hs
    exact hs.restored hc

end Steps

/-- An iterator over a list is wrapped, and so is an item of the list; the iterator is dropped
and the item released. -/
theorem wrappedIterator_counted : ∃ w t,
    exec (run [.make (.iterator 1 0), .construct (some 0), .acquire 0, .construct (some 0),
        .copyOf 0, .assign 2 1, .destroy 0, .release 0] ⟨[], []⟩)
      ⟨[some ⟨1, .other⟩, some ⟨1, .list [0]⟩], none, fun _ => false⟩ = (.ok w, t) ∧
    (∀ o < 2, valueAt t.heap o = valueAt [some ⟨1, .other⟩, some ⟨1, .list [0]⟩] o) ∧
    (∀ o, countAt t.heap o = w.inScope.count (some o) + w.loose.count o +
      Multiset.count o {1} + held PyValue.refs t.heap o) ∧
    (∀ o, cellAt t.heap o = none ↔ some o ∉ w.inScope ∧ o ∉ w.loose ∧ o ∉ ({1} : Multiset Nat) ∧
      held PyValue.refs t.heap o = 0) ∧
    (owners w = 0 →
      (∀ o < 2, cellAt t.heap o = cellAt [some ⟨1, .other⟩, some ⟨1, .list [0]⟩] o) ∧
      ∀ o, 2 ≤ o → cellAt t.heap o = none) :=
  run_counted [.make (.iterator 1 0), .construct (some 0), .acquire 0, .construct (some 0),
      .copyOf 0, .assign 2 1, .destroy 0, .release 0]
    ⟨[some ⟨1, .other⟩, some ⟨1, .list [0]⟩], none, fun _ => false⟩ {1}
    (Counted.of_places (by decide) (by decide) (by decide) (by decide))

end SwapDetector.Proofs.PythonWrappers
