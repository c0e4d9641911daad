import SwapDetector.Base.Postconditions
import SwapDetector.Model.PythonExtension

/-! # What the functions of the Python API do to the heap

`Good start own h` is the state of the heap during a call that began when the heap had
`start` places: the owners outside the heap are `own`, and the objects made since then hold
objects of lower rank that were made since then. An iterator holds the object it runs over,
which was there before. Each API function has one lemma about it.
-/
namespace SwapDetector.Proofs.PythonApi
open SwapDetector.Base.Exec SwapDetector.Base.Postconditions SwapDetector.Base.ReferenceCounts
open SwapDetector.Base.Utf8
open SwapDetector.Model.Bytes SwapDetector.Model.PythonObjects SwapDetector.Model.PythonExtension

/-- Objects hold objects of lower rank. -/
def rank : PyValue → Nat
  | .iterator _ _ => 4
  | .list _ => 3
  | .dict _ => 2
  | .set _ => 1
  | _ => 0

/-- What the objects from a place on hold. -/
def Tidy (start : Nat) (h : Heap PyValue) : Prop :=
  ∀ p v, start ≤ p → valueAt h p = some v →
    (∃ target next, v = .iterator target next ∧ target < start) ∨
      ∀ q ∈ v.refs, start ≤ q ∧ ∃ w, valueAt h q = some w ∧ rank w < rank v

structure Good (start : Nat) (own : Multiset Nat) (h : Heap PyValue) : Prop where
  counted : Counted PyValue.refs h own
  tidy : Tidy start h
  start_le : start ≤ h.length

/-- No call runs out of memory. -/
def Calm (s : Interp) : Prop := ∀ k, s.fails k = false

theorem Calm.shift {s : Interp} (h : Calm s) : Calm { s with fails := fun k => s.fails (k + 1) } :=
  fun k => h (k + 1)

/-! ## Single steps -/

section Steps
variable {s : Interp} {start : Nat} {own : Multiset Nat} {o : Nat} {v w : PyValue}

theorem outOfMemory_exec : exec outOfMemory s =
    (.ok (s.fails 0), { s with fails := fun k => s.fails (k + 1) }) := rfl

theorem setError_exec (e : PyError) : exec (setError e) s = (.ok (), { s with error := some e }) :=
  rfl

theorem lookUp_exec (hv : valueAt s.heap o = some v) : exec (lookUp o) s = (.ok v, s) := by
  have hget : exec (get : PyM Interp) s = (.ok s, s) := rfl
  rw [lookUp, exec_bind_ok hget, hv]
  rfl

theorem newObject_exec : exec (newObject v) s =
    (.ok s.heap.length, { s with heap := (alloc s.heap v).2 }) := rfl

theorem write_exec {c : Cell PyValue} (hcell : cellAt s.heap o = some c) :
    exec (write o v) s = (.ok (), { s with heap := s.heap.set o (some { c with value := v }) }) := by
  have hget : exec (get : PyM Interp) s = (.ok s, s) := rfl
  rw [write, exec_bind_ok hget, store, hcell]
  rfl

theorem pyIncRef_exec {c : Cell PyValue} (hcell : cellAt s.heap o = some c) :
    exec (pyIncRef o) s =
      (.ok (), { s with heap := s.heap.set o (some { c with count := c.count + 1 }) }) := by
  have hget : exec (get : PyM Interp) s = (.ok s, s) := rfl
  rw [pyIncRef, exec_bind_ok hget, retain, hcell]
  rfl

theorem pyDecRef_exec {h' : Heap PyValue} (hrel : release PyValue.refs s.heap o = some h') :
    exec (pyDecRef o) s = (.ok (), { s with heap := h' }) := by
  have hget : exec (get : PyM Interp) s = (.ok s, s) := rfl
  rw [pyDecRef, exec_bind_ok hget, hrel]
  rfl

end Steps

/-! ## Heaps during a call -/

section Heaps
variable {start : Nat} {own own' : Multiset Nat} {h h' : Heap PyValue} {o key : Nat}
  {v v' w : PyValue} {c : Cell PyValue}

theorem exists_cell (hv : valueAt h o = some v) : ∃ c, cellAt h o = some c ∧ c.value = v :=
  Option.map_eq_some_iff.mp hv

/-- When values of former objects keep their rank, the objects stay tidy. -/
theorem Tidy.keep (ht : Tidy start h)
    (hsame : ∀ r w, valueAt h r = some w → ∃ w', valueAt h' r = some w' ∧ rank w' = rank w)
    (hnew : ∀ r v, start ≤ r → valueAt h' r = some v → valueAt h r = some v ∨
      ((∃ target next, v = .iterator target next ∧ target < start) ∨
        ∀ q ∈ v.refs, start ≤ q ∧ ∃ w, valueAt h' q = some w ∧ rank w < rank v)) :
    Tidy start h' := by
  intro r v hr hv
  rcases hnew r v hr hv with hold | hnew
  · rcases ht r v hr hold with hit | hheld
    · exact .inl hit
    · refine .inr fun q hq => ?_
      obtain ⟨hstart, w, hw, hlt⟩ := hheld q hq
      obtain ⟨w', hw', hrank⟩ := hsame q w hw
      exact ⟨hstart, w', hw', by omega⟩
  · exact hnew

theorem valueAt_alloc (h : Heap PyValue) (v : PyValue) (r : Nat) :
    valueAt (alloc h v).2 r = if r = h.length then some v else valueAt h r := by
  rw [valueAt, alloc, cellAt_append]
  split_ifs
  · rfl
  · rfl

theorem valueAt_retain (hcell : cellAt h o = some c) (r : Nat) :
    valueAt (h.set o (some { c with count := c.count + 1 })) r = valueAt h r := by
  rw [valueAt, cellAt_set (lt_of_cellAt hcell)]
  split_ifs with hr
  · rw [hr, valueAt_of_cellAt hcell]
    rfl
  · rfl

theorem valueAt_store (hcell : cellAt h o = some c) (r : Nat) :
    valueAt (h.set o (some { c with value := v })) r = if r = o then some v else valueAt h r := by
  rw [valueAt, cellAt_set (lt_of_cellAt hcell)]
  split_ifs
  · rfl
  · rfl

/-- A new object is given another value. -/
theorem extends_of_stored {base : Heap PyValue} (hext : Extends base h) (hle : base.length ≤ o)
    (hlen : h'.length = h.length)
    (hvalue : ∀ r, valueAt h' r = if r = o then some v else valueAt h r) : Extends base h' := by
  refine ⟨hext.length_le.trans_eq hlen.symm, fun r hr => ?_⟩
  rw [hvalue, if_neg (by omega)]
  exact hext.value r hr

namespace Good

theorem alloc (hg : Good start ((v.refs : Multiset Nat) + own) h)
    (htidy : (∃ target next, v = .iterator target next ∧ target < start) ∨ v.refs = []) :
    Good start (h.length ::ₘ own) (Base.ReferenceCounts.alloc h v).2 where
  counted := hg.counted.alloc
  tidy := by
    refine hg.tidy.keep (fun r w hw => ⟨w, ?_, rfl⟩) fun r w hr hw => ?_
    · rw [valueAt_alloc, if_neg (Nat.ne_of_lt (lt_of_valueAt hw)), hw]
    · rw [valueAt_alloc] at hw
      split_ifs at hw
      · cases hw
        refine .inr (htidy.imp_right fun hrefs q hq => ?_)
        rw [hrefs] at hq
        cases hq
      · exact .inl hw
  start_le := hg.start_le.trans (by simp [Base.ReferenceCounts.alloc])

theorem retain (hg : Good start own h) (hcell : cellAt h o = some c) :
    Good start (o ::ₘ own) (h.set o (some { c with count := c.count + 1 })) where
  counted := hg.counted.retain hcell
  tidy := by
    refine hg.tidy.keep (fun r w hw => ⟨w, ?_, rfl⟩) fun r w _ hw => .inl ?_
    · rw [valueAt_retain hcell, hw]
    · rwa [valueAt_retain hcell] at hw
  start_le := hg.start_le.trans_eq List.length_set.symm

/-- References change hands between an object and the owners outside. -/
theorem store (hg : Good start own h) (hcell : cellAt h o = some c) (hrank : rank v' = rank c.value)
    (hown : own + (c.value.refs : Multiset Nat) = own' + (v'.refs : Multiset Nat))
    (htidy : (∃ target next, v' = .iterator target next ∧ target < start) ∨
      ∀ q ∈ v'.refs, start ≤ q ∧ ∃ w, valueAt h q = some w ∧ rank w < rank v') :
    Good start own' (h.set o (some { c with value := v' })) where
  counted := hg.counted.store hcell hown
  tidy := by
    have hsame : ∀ r w, valueAt h r = some w →
        ∃ w', valueAt (h.set o (some { c with value := v' })) r = some w' ∧ rank w' = rank w := by
      intro r w hw
      rw [valueAt_store hcell]
      by_cases hr : r = o
      · subst hr
        rw [valueAt_of_cellAt hcell] at hw
        cases hw
        exact ⟨v', if_pos rfl, hrank⟩
      · exact ⟨w, by rw [if_neg hr, hw], rfl⟩
    refine hg.tidy.keep hsame fun r w hr hw => ?_
    rw [valueAt_store hcell] at hw
    split_ifs at hw
    · cases hw
      refine .inr (htidy.imp_right fun hheld q hq => ?_)
      obtain ⟨hstart, w, hw, hlt⟩ := hheld q hq
      obtain ⟨w', hw', hrank'⟩ := hsame q w hw
      exact ⟨hstart, w', hw', by omega⟩
    · exact .inl hw
  start_le := hg.start_le.trans_eq List.length_set.symm

theorem released (hg : Good start (o ::ₘ own) h) (hc : Counted PyValue.refs h' own)
    (hrel : Released PyValue.refs own h h') : Good start own h' where
  counted := hc
  tidy := by
    intro r v hr hv
    rcases hg.tidy r v hr (hrel.value r v hv) with hit | hheld
    · exact .inl hit
    · refine .inr fun q hq => ?_
      obtain ⟨hstart, w, hw, hlt⟩ := hheld q hq
      obtain ⟨c, hcell, rfl⟩ := exists_cell hv
      obtain ⟨d, hd⟩ := hc.cellAt_of_mem_refs hcell hq
      have hvalue := hrel.value q d.value (valueAt_of_cellAt hd)
      rw [hw] at hvalue
      cases hvalue
      exact ⟨hstart, d.value, valueAt_of_cellAt hd, hlt⟩
  start_le := hg.start_le.trans_eq hrel.length_eq.symm

theorem valueAt_of_mem_refs (hg : Good start own h) (hv : valueAt h o = some v) {q : Nat}
    (hq : q ∈ v.refs) : ∃ w, valueAt h q = some w := by
  obtain ⟨c, hcell, rfl⟩ := exists_cell hv
  obtain ⟨d, hd⟩ := hg.counted.cellAt_of_mem_refs hcell hq
  exact ⟨d.value, valueAt_of_cellAt hd⟩

end Good

end Heaps

/-! ## New objects -/

/-- What a function that makes an object leaves. When it fails there is no object, an error
is set, and either some call has run out of memory or `ok` does not hold. Otherwise the
caller owns the object, of which `P` holds. The objects of `base` are as they were. -/
structure Made (start : Nat) (own : Multiset Nat) (base : Heap PyValue) (s : Interp) (ok : Prop)
    (P : Heap PyValue → Nat → Prop) (r : Option Nat) (t : Interp) : Prop where
  grows : Extends base t.heap
  calm : Calm s → Calm t
  failed : r = none → Good start own t.heap ∧ t.error.isSome = true ∧ ¬ (Calm s ∧ ok)
  made : ∀ o, r = some o →
    Good start (o ::ₘ own) t.heap ∧ t.error = s.error ∧ base.length ≤ o ∧ P t.heap o

/-- An object that is the text of a byte string. -/
def IsText (h : Heap PyValue) (o : Nat) (m : ByteString) : Prop :=
  ∃ text, decode m = some text ∧ valueAt h o = some (.str (text.map codePoint))

/-- A character is recovered from its code point. -/
@[simp] theorem charOf_codePoint (c : Char) : charOf (codePoint c) = some c := by
  have hlt : c.toNat < 1114112 := by
    rcases c.valid with h | h
    · exact Nat.lt_trans h (by decide)
    · exact h.2
  have hval : (codePoint c).val = c.toNat := Nat.mod_eq_of_lt hlt
  have hvalid : (codePoint c).val.isValidChar := hval ▸ c.valid
  rw [charOf, dif_pos hvalid, Option.some.injEq, ← Char.toNat_inj]
  exact hval

theorem codePoint_injective : Function.Injective codePoint := by
  intro c d h
  simpa using congrArg charOf h

section New
variable {start : Nat} {own : Multiset Nat} {s : Interp} {v : PyValue} {ok : Prop}
  {P Q : Heap PyValue → Nat → Prop} {r : Option Nat} {t : Interp}

theorem Made.weaken {base : Heap PyValue} (hm : Made start own base s ok P r t) (h : ∀ h o, P h o → Q h o) :
    Made start own base s ok Q r t where
  grows := hm.grows
  calm := hm.calm
  failed := hm.failed
  made := fun o ho => by
    obtain ⟨hg, herr, hle, hP⟩ := hm.made o ho
    exact ⟨hg, herr, hle, h _ _ hP⟩

theorem tryNew_spec (ok : Prop) (hg : Good start own s.heap) (hrefs : v.refs = []) :
    Gives (tryNew v) s (Made start own s.heap s ok fun h o => valueAt h o = some v) := by
  unfold tryNew
  refine Gives.exec_bind outOfMemory_exec (Gives.ite (fun hfail => ?_) fun hfail => ?_)
  · refine Gives.exec_bind (setError_exec _) (Gives.pure ?_)
    refine ⟨Extends.refl, Calm.shift, fun _ => ⟨hg, rfl, fun hc => ?_⟩, fun _ ho => by cases ho⟩
    rw [hc.1 0] at hfail
    cases hfail
  · refine Gives.exec_bind newObject_exec (Gives.pure ?_)
    refine ⟨Extends.refl.alloc, Calm.shift, fun ho => (by cases ho), fun o ho => ?_⟩
    cases ho
    refine ⟨Good.alloc ?_ (.inr hrefs), rfl, le_rfl, ?_⟩
    · rw [hrefs]
      simpa using hg
    · rw [valueAt_alloc, if_pos rfl]

theorem pyUnicodeFromStringAndSize_spec (hg : Good start own s.heap) (m : ByteString) :
    Gives (pyUnicodeFromStringAndSize m) s
      (Made start own s.heap s ((decode m).isSome = true) fun h o => IsText h o m) := by
  unfold pyUnicodeFromStringAndSize
  cases hm : decode m with
  | some text =>
    refine (tryNew_spec _ hg rfl).weaken fun r t h => h.weaken fun h o hv => ⟨text, hm, hv⟩
  | none =>
    refine Gives.exec_bind (setError_exec _) (Gives.pure ?_)
    exact ⟨Extends.refl, id, fun _ => ⟨hg, rfl, by simp⟩, fun _ ho => by cases ho⟩

end New

/-! ## Destructors -/

section Destructors
variable {start : Nat} {own baseOwn : Multiset Nat} {s : Interp} {base : Heap PyValue} {o : Nat}

/-- Giving up a reference changes the heap only. -/
theorem pyDecRef_spec (hg : Good start (o ::ₘ own) s.heap) :
    Gives (pyDecRef o) s fun _ t => Good start own t.heap ∧ t.error = s.error ∧ t.fails = s.fails ∧
      Released PyValue.refs own s.heap t.heap := by
  obtain ⟨h', hrun, hc, hrel⟩ := release_spec hg.counted
  exact Gives.of_exec (pyDecRef_exec hrun) ⟨hg.released hc hrel, rfl, rfl, hrel⟩

/-- The scope of a wrapper: its body, and then its destructor. -/
theorem withOwned_spec {α : Type} {body : PyM α} {Q : α → Interp → Prop}
    (hbody : Gives body s fun r t => Good start (o ::ₘ own) t.heap ∧ Q r t) :
    Gives (withOwned (some o) body) s fun r u => ∃ t, Q r t ∧ Good start (o ::ₘ own) t.heap ∧
      Good start own u.heap ∧ u.error = t.error ∧ u.fails = t.fails ∧
      Released PyValue.refs own t.heap u.heap := by
  unfold withOwned PyOwnedObject.destroy
  refine hbody.bind ?_
  rintro r t ⟨hg, hQ⟩
  refine (pyDecRef_spec hg).bind ?_
  rintro _ u ⟨hgu, herr, hfails, hrel⟩
  exact Gives.pure ⟨t, hQ, hg, hgu, herr, hfails, hrel⟩

/-- An empty wrapper does nothing. -/
theorem withOwned_none {α : Type} {body : PyM α} {Q : α → Interp → Prop} (hbody : Gives body s Q) :
    Gives (withOwned none body) s Q := by
  unfold withOwned PyOwnedObject.destroy
  exact hbody.bind fun r t hQ => Gives.bind (Gives.pure (Q := fun _ u => u = t) rfl)
    fun _ u hu => Gives.pure (hu ▸ hQ)

theorem Calm.of_fails {s t : Interp} (h : Calm s) (heq : t.fails = s.fails) : Calm t := by
  intro k
  rw [heq, h k]

end Destructors

/-! ## Containers -/

section Containers
variable {start : Nat} {own : Multiset Nat} {s : Interp} {o key : Nat} {v v' w : PyValue}

/-- A container takes a reference of its own to an object of the call. -/
theorem hold_exec (v' : PyValue) (hg : Good start own s.heap) (ho : valueAt s.heap o = some v)
    (hkey : valueAt s.heap key = some w) (hostart : start ≤ o) (hstart : start ≤ key)
    (hrefs : v'.refs = v.refs ++ [key]) (hrank : rank v' = rank v) (hlt : rank w < rank v)
    (hcontainer : rank v < 4) :
    ∃ s₁ h', exec (pyIncRef key) s = (.ok (), s₁) ∧
      exec (write o v') s₁ = (.ok (), { s with heap := h' }) ∧ Good start own h' ∧
      h'.length = s.heap.length ∧
      ∀ r, valueAt h' r = if r = o then some v' else valueAt s.heap r := by
  obtain ⟨d, hd, rfl⟩ := exists_cell hkey
  have hg₁ := hg.retain hd
  have hvalue := valueAt_retain hd
  have ho₁ := (hvalue o).trans ho
  obtain ⟨c, hc, hcv⟩ := exists_cell ho₁
  refine ⟨_, _, pyIncRef_exec hd, write_exec (s := { s with heap := _ }) hc, ?_, ?_, fun r => ?_⟩
  · refine hg₁.store hc (by rw [hcv, hrank]) ?_ (.inr fun q hq => ?_)
    · rw [hcv, hrefs, ← Multiset.coe_add, Multiset.coe_singleton, Multiset.cons_add,
        ← Multiset.add_assoc, Multiset.add_comm (own + _), Multiset.singleton_add]
    · rw [hrefs, List.mem_append, List.mem_singleton] at hq
      rcases hq with hq | rfl
      · rcases hg.tidy o v hostart ho with ⟨target, next, rfl, -⟩ | hheld
        · exact absurd hcontainer (by simp [rank])
        · obtain ⟨hqstart, x, hx, hxlt⟩ := hheld q hq
          exact ⟨hqstart, x, (hvalue q).trans hx, by omega⟩
      · exact ⟨hstart, d.value, (hvalue q).trans hkey, by omega⟩
  · rw [List.length_set, List.length_set]
  · rw [valueAt_store hc, hvalue]

/-- What a call leaves that puts an object into a container: the container unchanged, with an
error, when some call has run out of memory, and with its new value otherwise. -/
structure Stored (start : Nat) (own : Multiset Nat) (s : Interp) (o : Nat) (v' : PyValue) (rc : Int)
    (t : Interp) : Prop where
  calm : Calm s → Calm t
  failed : rc < 0 → ¬ Calm s ∧ t.heap = s.heap ∧ t.error.isSome = true
  stored : ¬ rc < 0 → t.error = s.error ∧ Good start own t.heap ∧ t.heap.length = s.heap.length ∧
    ∀ r, valueAt t.heap r = if r = o then some v' else valueAt s.heap r

theorem Stored.of_full {e : PyError} (hfail : s.fails 0 = true) :
    Stored start own s o v' (-1)
      { s with fails := fun k => s.fails (k + 1), error := some e } where
  calm := Calm.shift
  failed := fun _ => ⟨fun hc => (by rw [hc 0] at hfail; cases hfail), rfl, rfl⟩
  stored := fun h => absurd (by decide) h

theorem Stored.of_held {h' : Heap PyValue} (hg : Good start own h')
    (hlen : h'.length = s.heap.length)
    (hvalue : ∀ r, valueAt h' r = if r = o then some v' else valueAt s.heap r) :
    Stored start own s o v' 0 { s with fails := fun k => s.fails (k + 1), heap := h' } where
  calm := Calm.shift
  failed := fun h => absurd h (by decide)
  stored := fun _ => ⟨rfl, hg, hlen, hvalue⟩

theorem pySetAdd_spec {items : List Nat} {text : List CodePoint} (hg : Good start own s.heap)
    (ho : valueAt s.heap o = some (.set items)) (hkey : valueAt s.heap key = some (.str text))
    (hostart : start ≤ o) (hstart : start ≤ key)
    (hnew : ∀ i ∈ items, valueAt s.heap i ≠ some (.str text)) :
    Gives (pySetAdd o key) s (Stored start own s o (.set (items ++ [key]))) := by
  have hany : (items.any fun item => decide (valueAt s.heap item = some (.str text))) = false := by
    simpa using hnew
  unfold pySetAdd
  refine Gives.exec_bind (lookUp_exec ho) (Gives.exec_bind (lookUp_exec hkey) ?_)
  refine Gives.exec_bind (a := s) rfl ?_
  simp only [hany]
  refine Gives.exec_bind outOfMemory_exec (Gives.ite (fun hfail => ?_) fun _ => ?_)
  · exact Gives.exec_bind (setError_exec _) (Gives.pure (Stored.of_full hfail))
  · obtain ⟨s₁, h', hinc, hwrite, hg', hlen, hvalue⟩ := hold_exec
      (s := { s with fails := fun k => s.fails (k + 1) }) (.set (items ++ [key])) hg ho hkey
      hostart hstart rfl rfl (by simp [rank]) (by simp [rank])
    exact Gives.exec_bind hinc (Gives.exec_bind hwrite (Gives.pure (Stored.of_held hg' hlen hvalue)))

theorem pyDictSetItemString_spec {entries : List (List CodePoint × Nat)} {name : ByteString}
    {text : List Char} (hname : decode name = some text)
    (hg : Good start own s.heap) (ho : valueAt s.heap o = some (.dict entries))
    (hkey : valueAt s.heap key = some w) (hostart : start ≤ o) (hstart : start ≤ key)
    (hrank : rank w < 2) (hnew : ∀ e ∈ entries, e.1 ≠ text.map codePoint) :
    Gives (pyDictSetItemString o name key) s
      (Stored start own s o (.dict (entries ++ [(text.map codePoint, key)]))) := by
  have hlookup : entries.lookup (text.map codePoint) = none := by
    rw [List.lookup_eq_none_iff]
    intro e he
    simpa using (hnew e he).symm
  unfold pyDictSetItemString
  simp only [hname]
  refine Gives.exec_bind (lookUp_exec ho) (Gives.exec_bind (lookUp_exec hkey) ?_)
  refine Gives.exec_bind outOfMemory_exec (Gives.ite (fun hfail => ?_) fun _ => ?_)
  · exact Gives.exec_bind (setError_exec _) (Gives.pure (Stored.of_full hfail))
  · obtain ⟨s₁, h', hinc, hwrite, hg', hlen, hvalue⟩ := hold_exec
      (s := { s with fails := fun k => s.fails (k + 1) })
      (.dict (entries ++ [(text.map codePoint, key)])) hg ho hkey hostart hstart
      (by simp [PyValue.refs]) rfl (by simpa [rank] using hrank) (by simp [rank])
    refine Gives.exec_bind hinc ?_
    simp only [hlookup]
    exact Gives.exec_bind hwrite (Gives.pure (Stored.of_held hg' hlen hvalue))

theorem pyListAppend_spec {items : List Nat} (hg : Good start own s.heap)
    (ho : valueAt s.heap o = some (.list items)) (hkey : valueAt s.heap key = some w)
    (hostart : start ≤ o) (hstart : start ≤ key) (hrank : rank w < 3) :
    Gives (pyListAppend o (some key)) s (Stored start own s o (.list (items ++ [key]))) := by
  unfold pyListAppend
  refine Gives.exec_bind (lookUp_exec ho) (Gives.exec_bind (lookUp_exec hkey) ?_)
  refine Gives.exec_bind outOfMemory_exec (Gives.ite (fun hfail => ?_) fun _ => ?_)
  · exact Gives.exec_bind (setError_exec _) (Gives.pure (Stored.of_full hfail))
  · obtain ⟨s₁, h', hinc, hwrite, hg', hlen, hvalue⟩ := hold_exec
      (s := { s with fails := fun k => s.fails (k + 1) }) (.list (items ++ [key])) hg ho hkey
      hostart hstart rfl rfl (by simpa [rank] using hrank) (by simp [rank])
    exact Gives.exec_bind hinc (Gives.exec_bind hwrite (Gives.pure (Stored.of_held hg' hlen hvalue)))

/-- Appending nothing is an error. -/
theorem pyListAppend_none (ho : valueAt s.heap o = some v) :
    Gives (pyListAppend o none) s fun rc t =>
      rc < 0 ∧ t.heap = s.heap ∧ t.error.isSome = true ∧ t.fails = s.fails := by
  unfold pyListAppend
  refine Gives.exec_bind (lookUp_exec ho) ?_
  have herror : Gives (do setError .badInternalCall; return (-1 : Int)) s fun rc t =>
      rc < 0 ∧ t.heap = s.heap ∧ t.error.isSome = true ∧ t.fails = s.fails :=
    Gives.exec_bind (setError_exec _) (Gives.pure ⟨by decide, rfl, rfl, rfl⟩)
  cases v <;> exact herror

end Containers

/-! ## Iteration -/

section Iteration
variable {start : Nat} {own : Multiset Nat} {s : Interp} {o target next : Nat} {v : PyValue}
  {yields : List Yield} {ending : Option PyError}

theorem heldByYield_mem_refs {i item : Nat} (hscript : v.script = some (yields, ending))
    (hy : yields[i]? = some (.existing item)) : item ∈ v.refs := by
  have hmem := List.mem_of_getElem? hy
  cases v <;> simp only [PyValue.script, reduceCtorEq, Option.some.injEq, Prod.mk.injEq] at hscript
  all_goals obtain ⟨rfl, -⟩ := hscript
  · simp at hmem
  · simpa [PyValue.refs] using hmem
  · simp at hmem
  · simpa [PyValue.refs] using hmem
  · exact List.mem_flatMap.mpr ⟨_, hmem, List.mem_singleton_self item⟩

theorem pyObjectGetIter_none (ho : valueAt s.heap o = some v) (hiterator : v.isIterator = false)
    (hscript : v.script = none) :
    exec (pyObjectGetIter o) s = (.ok none, { s with error := some .apiTypeError }) := by
  unfold pyObjectGetIter
  rw [exec_bind_ok (lookUp_exec ho), hiterator, hscript]
  rfl

theorem pyObjectGetIter_spec (hg : Good start own s.heap) (hostart : o < start)
    (ho : valueAt s.heap o = some v) (hiterator : v.isIterator = false)
    (hscript : v.script = some (yields, ending)) :
    Gives (pyObjectGetIter o) s
      (Made start own s.heap s True fun h it => valueAt h it = some (.iterator o 0)) := by
  unfold pyObjectGetIter
  refine Gives.exec_bind (lookUp_exec ho) ?_
  simp only [hiterator, hscript]
  refine Gives.exec_bind outOfMemory_exec (Gives.ite (fun hfail => ?_) fun _ => ?_)
  · refine Gives.exec_bind (setError_exec _) (Gives.pure ?_)
    refine ⟨Extends.refl, Calm.shift, fun _ => ⟨hg, rfl, fun hc => ?_⟩, fun _ h => by cases h⟩
    rw [hc.1 0] at hfail
    cases hfail
  · obtain ⟨c, hc, -⟩ := exists_cell ho
    have hg₁ := hg.retain hc
    refine Gives.exec_bind (pyIncRef_exec (s := { s with fails := _ }) hc)
      (Gives.exec_bind newObject_exec (Gives.pure ?_))
    refine ⟨(Extends.refl.retain hc).alloc, Calm.shift, fun h => (by cases h), fun it h => ?_⟩
    cases h
    refine ⟨Good.alloc ?_ (.inl ⟨o, 0, rfl, hostart⟩), rfl, by simp, ?_⟩
    · simpa [PyValue.refs] using hg₁
    · rw [valueAt_alloc, if_pos rfl]

/-- The iterator is moved on by one item. -/
theorem moveOn_exec {it : Nat} (hg : Good start own s.heap) (htarget : target < start)
    (hit : valueAt s.heap it = some (.iterator target next)) :
    ∃ h', exec (write it (.iterator target (next + 1))) s = (.ok (), { s with heap := h' }) ∧
      Good start own h' ∧ h'.length = s.heap.length ∧
      ∀ r, valueAt h' r = if r = it then some (.iterator target (next + 1)) else valueAt s.heap r := by
  obtain ⟨c, hc, hcv⟩ := exists_cell hit
  refine ⟨_, write_exec hc, hg.store hc ?_ ?_ (.inl ⟨target, next + 1, rfl, htarget⟩), ?_, ?_⟩
  · rw [hcv]
    rfl
  · rw [hcv]
    rfl
  · exact List.length_set
  · exact valueAt_store hc

end Iteration

/-! ## What is left behind -/

section Traces
variable {own₀ roots : Multiset Nat} {base h : Heap PyValue}

/-- Before a call the heap is in order. -/
theorem good_of_counted (hc : Counted PyValue.refs base own₀) : Good base.length own₀ base where
  counted := hc
  tidy := by
    intro p v hp hv
    exact absurd (lt_of_valueAt hv) (Nat.not_lt.mpr hp)
  start_le := le_rfl

/-- The objects of the caller hold objects of the caller. -/
theorem held_below (hc : Counted PyValue.refs base own₀) (hext : Extends base h) {p q : Nat}
    {v : PyValue} (hp : p < base.length) (hv : valueAt h p = some v) (hq : q ∈ v.refs) :
    q < base.length := by
  rw [hext.value p hp] at hv
  obtain ⟨c, hcell, rfl⟩ := exists_cell hv
  obtain ⟨d, hd⟩ := hc.cellAt_of_mem_refs hcell hq
  exact lt_of_cellAt hd

/-- What is owned from outside in the end: what was before, and what is handed to the caller. -/
structure Settled (own₀ roots : Multiset Nat) (base h : Heap PyValue) : Prop where
  counted : Counted PyValue.refs base own₀
  good : Good base.length (roots + own₀) h
  grows : Extends base h
  returned : ∀ r ∈ roots, base.length ≤ r ∧ ∃ v, valueAt h r = some v ∧ rank v < 4

namespace Settled

end Settled

end Traces

end SwapDetector.Proofs.PythonApi
