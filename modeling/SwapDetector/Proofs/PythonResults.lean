import SwapDetector.Proofs.PythonApi

/-! # Results as Python objects

Every result becomes a dict of two numbers and two sets of strings. Whatever runs out of
memory on the way, each object that was made is either part of what is returned or freed.
-/
namespace SwapDetector.Proofs.PythonResults
open SwapDetector.Base.Exec SwapDetector.Base.Postconditions SwapDetector.Base.ReferenceCounts
open SwapDetector.Base.Utf8 SwapDetector.Base.OrderedSet SwapDetector.Base.ExactFloat
open SwapDetector.Model.Bytes SwapDetector.Model.Types
open SwapDetector.Model.PythonObjects SwapDetector.Model.PythonExtension
open SwapDetector.Proofs.PythonApi

/-! ## What objects say -/

/-- An object that is a set of texts. -/
def IsTextSet (h : Heap PyValue) (o : Nat) (ms : List ByteString) : Prop :=
  ∃ items, valueAt h o = some (.set items) ∧ List.Forall₂ (IsText h) items ms

/-- An entry of a dict: the bytes of its key, and what its value says. -/
abbrev Field := ByteString × (Heap PyValue → Nat → Prop)

def IsField (h : Heap PyValue) (e : List CodePoint × Nat) (f : Field) : Prop :=
  (∃ text, decode f.1 = some text ∧ e.1 = text.map codePoint) ∧ f.2 h e.2

/-- The entries of the dict of a result. -/
def fields {F : Type} (r : Result F) : List Field :=
  [(bytes "arg1", fun h o => valueAt h o = some (.int r.arg1)),
    (bytes "arg2", fun h o => valueAt h o = some (.int r.arg2)),
    (bytes "morphemes1", fun h o => IsTextSet h o (inOrder r.morphemes1)),
    (bytes "morphemes2", fun h o => IsTextSet h o (inOrder r.morphemes2))]

/-- An object that is the dict of a result. -/
def IsResult {F : Type} (h : Heap PyValue) (o : Nat) (r : Result F) : Prop :=
  ∃ entries, valueAt h o = some (.dict entries) ∧ List.Forall₂ (IsField h) entries (fields r)

/-- An object that is the list of some results. -/
def IsResultList {F : Type} (h : Heap PyValue) (o : Nat) (rs : List (Result F)) : Prop :=
  ∃ items, valueAt h o = some (.list items) ∧ List.Forall₂ (IsResult h) items rs

/-- Every morpheme is the encoding of a text. -/
def Decodes {F : Type} (r : Result F) : Prop :=
  ∀ m, m ∈ r.morphemes1 ∨ m ∈ r.morphemes2 → (decode m).isSome = true

/-! ## What stays true of them -/

/-- The objects of a rank below a bound are as they were. -/
def Keeps (n : Nat) (h h' : Heap PyValue) : Prop :=
  ∀ r v, rank v < n → valueAt h r = some v → valueAt h' r = some v

/-- A property that only objects of a rank below a bound matter to. -/
def Steady (n : Nat) (P : Heap PyValue → Nat → Prop) : Prop :=
  ∀ h h' o, Keeps n h h' → P h o → P h' o

section Steadiness
variable {n m : Nat} {h h' h'' : Heap PyValue} {P : Heap PyValue → Nat → Prop} {o : Nat}

theorem Keeps.trans (h1 : Keeps n h h') (h2 : Keeps n h' h'') : Keeps n h h'' :=
  fun r v hr hv => h2 r v hr (h1 r v hr hv)

theorem Keeps.mono (hle : n ≤ m) (hk : Keeps m h h') : Keeps n h h' :=
  fun r v hr hv => hk r v (hr.trans_le hle) hv

theorem Keeps.of_extends (he : Extends h h') : Keeps n h h' := fun _ _ _ hv => he.valueAt_some hv

theorem Keeps.of_eq (he : ∀ r, valueAt h' r = valueAt h r) : Keeps n h h' :=
  fun r _ _ hv => (he r).trans hv

/-- A container that gets a new value is of no lower rank than the bound. -/
theorem Keeps.of_stored {v v' : PyValue} (ho : valueAt h o = some v) (hrank : n ≤ rank v)
    (hvalue : ∀ r, valueAt h' r = if r = o then some v' else valueAt h r) : Keeps n h h' := by
  intro r w hw hr
  rw [hvalue, if_neg ?_, hr]
  rintro rfl
  rw [ho] at hr
  cases hr
  omega

theorem Steady.mono (hle : n ≤ m) (hs : Steady n P) : Steady m P :=
  fun h h' o hk => hs h h' o (hk.mono hle)

theorem steady_value {v : PyValue} (hrank : rank v < n) :
    Steady n fun h o => valueAt h o = some v :=
  fun _ _ o hk hv => hk o v hrank hv

theorem steady_text (m : ByteString) : Steady 1 fun h o => IsText h o m := by
  rintro h h' o hk ⟨text, hm, hv⟩
  exact ⟨text, hm, hk o _ (by simp [rank]) hv⟩

/-- What the items of a container say stays true of them. -/
theorem forall₂_keep {α : Type} {V : Heap PyValue → Nat → α → Prop} {items : List Nat} {as : List α}
    (hsteady : ∀ a, Steady n fun h o => V h o a) (hk : Keeps n h h')
    (hall : List.Forall₂ (V h) items as) : List.Forall₂ (V h') items as :=
  hall.imp fun i a hi => hsteady a h h' i hk hi

/-- It stays true when one more item is appended. -/
theorem forall₂_snoc {α : Type} {V : Heap PyValue → Nat → α → Prop} {items : List Nat} {as : List α}
    {item : Nat} {a : α} (hsteady : ∀ a, Steady n fun h o => V h o a) (hk : Keeps n h h')
    (hall : List.Forall₂ (V h) items as) (hitem : V h' item a) :
    List.Forall₂ (V h') (items ++ [item]) (as ++ [a]) :=
  List.rel_append (forall₂_keep hsteady hk hall) (.cons hitem .nil)

theorem steady_textSet (ms : List ByteString) : Steady 2 fun h o => IsTextSet h o ms := by
  rintro h h' o hk ⟨items, hv, hall⟩
  exact ⟨items, hk o _ (by simp [rank]) hv, forall₂_keep steady_text (hk.mono (by decide)) hall⟩

theorem steady_fields {F : Type} (r : Result F) : ∀ f ∈ fields r, Steady 2 f.2 := by
  intro f hf
  simp only [fields, List.mem_cons, List.not_mem_nil, or_false] at hf
  rcases hf with rfl | rfl | rfl | rfl
  · exact steady_value (by simp [rank])
  · exact steady_value (by simp [rank])
  · exact steady_textSet _
  · exact steady_textSet _

theorem keep_fields {entries : List (List CodePoint × Nat)} {fs : List Field}
    (hsteady : ∀ f ∈ fs, Steady 2 f.2) (hk : Keeps 2 h h')
    (hall : List.Forall₂ (IsField h) entries fs) : List.Forall₂ (IsField h') entries fs := by
  induction hall with
  | nil => exact .nil
  | cons he _ ih =>
    refine .cons ⟨he.1, hsteady _ (List.mem_cons_self ..) h h' _ hk he.2⟩ (ih fun f hf => ?_)
    exact hsteady f (List.mem_cons_of_mem _ hf)

theorem steady_result {F : Type} (r : Result F) : Steady 3 fun h o => IsResult h o r := by
  rintro h h' o hk ⟨entries, hv, hall⟩
  exact ⟨entries, hk o _ (by simp [rank]) hv, keep_fields (steady_fields r) (hk.mono (by decide)) hall⟩

end Steadiness

/-! ## Wrappers of what is made -/

section Wrappers
variable {start : Nat} {own own₀ : Multiset Nat} {base : Heap PyValue} {s t : Interp} {ok : Prop}
  {P : Heap PyValue → Nat → Prop} {o : Nat}

/-- The copy that a function returns outlives the wrapper. -/
theorem withOwned_made {body : PyM PyOwnedObject} (hc : Counted PyValue.refs base own₀)
    (hown : ∀ r ∈ own₀, r ∈ own) (hsteady : Steady 5 P) (hsame : ∀ h i, P h i → i = o)
    (hbody : Gives body t (Made start (o ::ₘ own) base s ok P)) :
    Gives (withOwned (some o) body) t (Made start own base s ok P) := by
  have hgood (r : Option Nat) (u : Interp) (h : Made start (o ::ₘ own) base s ok P r u) :
      ∃ own', (∀ q ∈ own, q ∈ own') ∧ Good start (o ::ₘ own') u.heap ∧
        (own' = match r with
          | none => own
          | some i => i ::ₘ own) := by
    cases r with
    | none => exact ⟨own, fun _ hq => hq, (h.failed rfl).1, rfl⟩
    | some i =>
      refine ⟨i ::ₘ own, fun _ hq => Multiset.mem_cons_of_mem hq, ?_, rfl⟩
      rw [Multiset.cons_swap]
      exact (h.made i rfl).1
  unfold withOwned
  refine hbody.bind fun r u h => ?_
  obtain ⟨own', hsub, hgu, rfl⟩ := hgood r u h
  refine (pyDecRef_spec hgu).bind ?_
  rintro _ w ⟨hgw, herr, hfails, hrel⟩
  refine Gives.pure ⟨h.grows.released hc (fun q hq => hsub q (hown q hq)) hrel,
    fun hcalm => (h.calm hcalm).of_fails hfails, fun hr => ?_, fun i hi => ?_⟩
  · subst hr
    obtain ⟨-, hset, hwhy⟩ := h.failed rfl
    exact ⟨hgw, by rw [herr, hset], hwhy⟩
  · subst hi
    obtain ⟨-, hsame', hfresh, hP⟩ := h.made i rfl
    refine ⟨hgw, herr.trans hsame', hfresh, hsteady _ _ i (Keeps.of_eq ?_) hP⟩
    obtain rfl := hsame _ i hP
    exact Released.shared hgu.counted (.inl (Multiset.mem_cons_self i own)) hrel

end Wrappers

/-! ## Sets of morphemes -/

section Sets
variable {start : Nat} {own own₀ : Multiset Nat} {base : Heap PyValue} {s : Interp}
  {o key : Nat} {v v' : PyValue}

/-- What is left when a new object has been put into a container, or has not. -/
structure Taken (start : Nat) (own : Multiset Nat) (base : Heap PyValue) (s : Interp) (o : Nat)
    (v' : PyValue) (added : Bool) (t : Interp) : Prop where
  good : Good start own t.heap
  grows : Extends base t.heap
  calm : Calm s → Calm t
  failed : added = false → ¬ Calm s ∧ t.error.isSome = true
  taken : added = true → t.error = s.error ∧
    ∀ r, valueAt t.heap r = if r = o then some v' else valueAt s.heap r

/-- A new object is put into a container of the call, and its wrapper goes. -/
theorem withOwned_stored {add : PyM Int} (hc : Counted PyValue.refs base own₀)
    (hown : ∀ r ∈ own₀, r ∈ own) (hext : Extends base s.heap) (hle : base.length ≤ o)
    (hg : Good start (key ::ₘ own) s.heap) (hkey : key ∈ v'.refs)
    (hadd : Gives add s (Stored start (key ::ₘ own) s o v')) :
    Gives (withOwned (some key) do return decide (¬ (← add) < 0)) s
      (Taken start own base s o v') := by
  have hbody : Gives (do return decide (¬ (← add) < 0)) s fun added t =>
      Good start (key ::ₘ own) t.heap ∧ (Calm s → Calm t) ∧
        (added = false → ¬ Calm s ∧ t.heap = s.heap ∧ t.error.isSome = true) ∧
        (added = true → t.error = s.error ∧ t.heap.length = s.heap.length ∧
          ∀ r, valueAt t.heap r = if r = o then some v' else valueAt s.heap r) := by
    refine hadd.bind fun rc t h => Gives.pure ?_
    by_cases hrc : rc < 0
    · obtain ⟨hcalm, hheap, hset⟩ := h.failed hrc
      exact ⟨hheap ▸ hg, h.calm, fun _ => ⟨hcalm, hheap, hset⟩, fun hadded => by simp [hrc] at hadded⟩
    · obtain ⟨herr, hgt, hlen, hvalue⟩ := h.stored hrc
      exact ⟨hgt, h.calm, fun hadded => by simp [hrc] at hadded, fun _ => ⟨herr, hlen, hvalue⟩⟩
  refine (withOwned_spec hbody).weaken ?_
  rintro added u ⟨t, ⟨hcalm, hfailed, hadded⟩, hgt, hgu, herr, hfails, hrel⟩
  cases added with
  | false =>
    obtain ⟨hnot, hheap, hset⟩ := hfailed rfl
    exact ⟨hgu, (hheap ▸ hext).released hc hown hrel, fun hc => (hcalm hc).of_fails hfails,
      fun _ => ⟨hnot, by rw [herr, hset]⟩, fun h => by cases h⟩
  | true =>
    obtain ⟨hsame, hlen, hvalue⟩ := hadded rfl
    have hheld : 0 < held PyValue.refs t.heap key :=
      (held_pos_iff _).mpr ⟨o, v', by rw [hvalue, if_pos rfl], hkey⟩
    have hext' : Extends base t.heap := extends_of_stored hext hle hlen hvalue
    exact ⟨hgu, hext'.released hc hown hrel, fun hc => (hcalm hc).of_fails hfails,
      fun h => (by cases h), fun _ => ⟨herr.trans hsame, fun r =>
        (Released.shared hgt.counted (.inr hheld) hrel r).trans (hvalue r)⟩⟩

/-- Different byte strings are different texts. -/
theorem ne_of_isText {h : Heap PyValue} {i : Nat} {m m' : ByteString} {text : List Char}
    (hi : IsText h i m) (hm' : decode m' = some text) (hne : m ≠ m') :
    valueAt h i ≠ some (.str (text.map codePoint)) := by
  obtain ⟨text', hm, hv⟩ := hi
  intro heq
  rw [hv, Option.some.injEq, PyValue.str.injEq] at heq
  obtain rfl := List.map_injective_iff.mpr codePoint_injective heq
  exact hne ((decode_eq_some_iff.mp hm).trans (decode_eq_some_iff.mp hm').symm)

theorem addMorphemes_spec (hc : Counted PyValue.refs base own₀) (hown : ∀ r ∈ own₀, r ∈ own)
    (hle : base.length ≤ o) (hstart : start ≤ base.length) (ms : List ByteString) :
    ∀ (done : List ByteString) (items : List Nat) (s : Interp), Good start own s.heap →
    Extends base s.heap → valueAt s.heap o = some (.set items) →
    List.Forall₂ (IsText s.heap) items done → (done ++ ms).Nodup →
    Gives (addMorphemes o ms) s fun r t => Good start own t.heap ∧ Extends base t.heap ∧
      (Calm s → Calm t) ∧
      (r = false → t.error.isSome = true ∧ ¬ (Calm s ∧ ∀ m ∈ ms, (decode m).isSome = true)) ∧
      (r = true → t.error = s.error ∧ IsTextSet t.heap o (done ++ ms)) := by
  induction ms with
  | nil =>
    intro done items s hg hext ho hitems hnodup
    exact Gives.pure ⟨hg, hext, id, fun h => (by cases h),
      fun _ => ⟨rfl, items, ho, by rwa [List.append_nil]⟩⟩
  | cons m ms ih =>
    intro done items s hg hext ho hitems hnodup
    unfold addMorphemes
    refine (pyUnicodeFromStringAndSize_spec hg m).bind fun mPy t hm => ?_
    cases mPy with
    | none =>
      obtain ⟨hgt, hset, hwhy⟩ := hm.failed rfl
      refine (withOwned_none (Gives.pure (Q := fun b u => b = false ∧ u = t) ⟨rfl, rfl⟩)).bind ?_
      rintro _ _ ⟨rfl, rfl⟩
      exact Gives.pure ⟨hgt, hext.trans hm.grows, hm.calm,
        fun _ => ⟨hset, fun hok => hwhy ⟨hok.1, hok.2 m (List.mem_cons_self ..)⟩⟩, fun h => by cases h⟩
    | some item =>
      obtain ⟨hgt, herr, hfresh, text, htext, hitem⟩ := hm.made item rfl
      have hnew : ∀ i ∈ items, valueAt t.heap i ≠ some (.str (text.map codePoint)) := by
        intro i hi
        obtain ⟨k, hk, rfl⟩ := List.getElem_of_mem hi
        have hk' : k < done.length := hitems.length_eq ▸ hk
        have hne : done[k] ≠ m := by
          rintro rfl
          exact (List.disjoint_of_nodup_append hnodup) (List.getElem_mem hk') (List.mem_cons_self ..)
        exact ne_of_isText (steady_text _ _ _ _ (Keeps.of_extends hm.grows) (hitems.get hk hk'))
          htext hne
      have hadd := pySetAdd_spec hgt (hm.grows.valueAt_some ho) hitem (hstart.trans hle)
        (hg.start_le.trans hfresh) hnew
      refine (withOwned_stored hc hown (hext.trans hm.grows) hle hgt (by simp [PyValue.refs])
        hadd).bind fun added u h => ?_
      cases added with
      | false =>
        obtain ⟨hnot, hset⟩ := h.failed rfl
        exact Gives.pure ⟨h.good, h.grows, fun hcalm => h.calm (hm.calm hcalm),
          fun _ => ⟨hset, fun hok => hnot (hm.calm hok.1)⟩, fun h => by cases h⟩
      | true =>
        obtain ⟨hsame, hvalue⟩ := h.taken rfl
        have hkeeps : Keeps 1 t.heap u.heap :=
          Keeps.of_stored (hm.grows.valueAt_some ho) (by simp [rank]) hvalue
        have hall := forall₂_snoc steady_text ((Keeps.of_extends hm.grows).trans hkeeps) hitems
          (steady_text m _ _ item hkeeps ⟨text, htext, hitem⟩)
        refine (ih (done ++ [m]) (items ++ [item]) u h.good h.grows (by rw [hvalue, if_pos rfl])
          hall (by simpa using hnodup)).weaken ?_
        rintro r w ⟨hgw, hextw, hcalm, hfailed, hadded⟩
        have hcalm' : Calm s → Calm u := fun hcalm => h.calm (hm.calm hcalm)
        refine ⟨hgw, hextw, fun hc => hcalm (hcalm' hc), fun hr => ?_, fun hr => ?_⟩
        · obtain ⟨hset, hwhy⟩ := hfailed hr
          exact ⟨hset, fun hok => hwhy ⟨hcalm' hok.1,
            fun m' hm' => hok.2 m' (List.mem_cons_of_mem m hm')⟩⟩
        · obtain ⟨herr', hset⟩ := hadded hr
          exact ⟨herr'.trans (hsame.trans herr), by simpa using hset⟩

theorem copy_exec {c : Cell PyValue} (hcell : cellAt s.heap o = some c) :
    exec (PyOwnedObject.copy (some o)) s = (.ok (some o),
      { s with heap := s.heap.set o (some { c with count := c.count + 1 }) }) := by
  unfold PyOwnedObject.copy
  exact exec_bind_ok (pyIncRef_exec hcell)

/-- The copy of a wrapper is what the function returns. -/
theorem copy_made {ok : Prop} {P : Heap PyValue → Nat → Prop} {s₀ : Interp} (hg : Good start own s.heap)
    (hext : Extends base s.heap) (hle : base.length ≤ o) (ho : o ∈ own) (herr : s.error = s₀.error)
    (hcalm : Calm s₀ → Calm s) (hsteady : Steady 5 P) (hP : P s.heap o) :
    Gives (PyOwnedObject.copy (some o)) s (Made start own base s₀ ok fun h i => i = o ∧ P h i) := by
  obtain ⟨c, hcell⟩ := hg.counted.cellAt_of_mem ho
  refine Gives.of_exec (copy_exec hcell) ⟨hext.retain hcell, hcalm, fun h => (by cases h), ?_⟩
  rintro i hi
  cases hi
  exact ⟨hg.retain hcell, herr, hle, rfl, hsteady _ _ o (Keeps.of_eq (valueAt_retain hcell)) hP⟩

theorem morphemeSetToPy_spec (hg : Good start own s.heap) (ms : Finset ByteString) :
    Gives (morphemeSetToPy ms) s (Made start own s.heap s (∀ m ∈ ms, (decode m).isSome = true)
      fun h o => IsTextSet h o (inOrder ms)) := by
  unfold morphemeSetToPy
  refine (tryNew_spec (∀ m ∈ ms, (decode m).isSome = true) hg rfl).bind fun result t hm => ?_
  cases result with
  | none => exact withOwned_none (Gives.pure ⟨hm.grows, hm.calm, hm.failed, fun _ h => by cases h⟩)
  | some set =>
    obtain ⟨hgt, herr, hfresh, hset⟩ := hm.made set rfl
    have hsub : ∀ r ∈ own, r ∈ set ::ₘ own := fun r hr => Multiset.mem_cons_of_mem hr
    have hloop := addMorphemes_spec hg.counted hsub hfresh hg.start_le (inOrder ms) [] [] t hgt
      hm.grows hset .nil (inOrder_nodup ms)
    refine (withOwned_made (P := fun h i => i = set ∧ IsTextSet h i (inOrder ms)) hg.counted
      (fun _ hr => hr) ?_ (fun _ _ h => h.1) ?_).weaken fun r u h => h.weaken fun _ _ h => h.2
    · rintro h h' i hk ⟨rfl, hi⟩
      exact ⟨rfl, steady_textSet _ h h' i (hk.mono (by decide)) hi⟩
    · refine hloop.bind ?_
      rintro added u ⟨hgu, hextu, hcalm, hfailed, hadded⟩
      have hcalm' : Calm s → Calm u := fun hc => hcalm (hm.calm hc)
      cases added with
      | false =>
        obtain ⟨hset', hwhy⟩ := hfailed rfl
        refine Gives.pure ⟨hextu, hcalm', fun _ => ⟨hgu, hset', fun hok => ?_⟩, fun _ h => by cases h⟩
        exact hwhy ⟨hm.calm hok.1, fun m hmem => hok.2 m (mem_inOrder.mp hmem)⟩
      | true =>
        obtain ⟨herr', hset'⟩ := hadded rfl
        exact copy_made hgu hextu hfresh (Multiset.mem_cons_self set own) (herr'.trans herr) hcalm'
          ((steady_textSet _).mono (by decide)) hset'

end Sets

/-! ## Dicts of results -/

section Dicts
variable {start : Nat} {own own₀ : Multiset Nat} {base : Heap PyValue} {s t : Interp} {dict : Nat}
  {entries : List (List CodePoint × Nat)} {todo : List Field} {ok okv : Prop} {name : ByteString}
  {text : List Char} {P : Heap PyValue → Nat → Prop}

/-- What is left when the rest of the entries have been put into a dict, or have not. -/
structure Filled (start : Nat) (own : Multiset Nat) (base : Heap PyValue) (s : Interp) (ok : Prop)
    (dict : Nat) (entries : List (List CodePoint × Nat)) (todo : List Field) (r : Option Nat)
    (t : Interp) : Prop where
  grows : Extends base t.heap
  calm : Calm s → Calm t
  failed : r = none → Good start own t.heap ∧ t.error.isSome = true ∧ ¬ (Calm s ∧ ok)
  filled : ∀ o, r = some o → o = dict ∧ Good start (dict ::ₘ own) t.heap ∧ t.error = s.error ∧
    Keeps 2 s.heap t.heap ∧ ∃ more, valueAt t.heap dict = some (.dict (entries ++ more)) ∧
      List.Forall₂ (IsField t.heap) more todo

/-- The text of an ASCII literal. -/
theorem decode_bytes (name : String) (h : ∀ c ∈ name.toList, c.toNat < 128) :
    decode (bytes name) = some name.toList := by
  rw [decode_eq_some_iff, bytes]
  revert h
  generalize name.toList = cs
  intro h
  induction cs with
  | nil => rfl
  | cons c cs ih =>
    rw [encode_cons, encodeChar_ascii (h c (List.mem_cons_self ..)), List.map_cons,
      ih fun d hd => h d (List.mem_cons_of_mem c hd)]
    rfl

/-- A value is put into the dict, and the rest of the entries after it. While its wrapper is
there the value has two owners. -/
theorem setItem_spec {val : Nat} {rest : PyM PyOwnedObject} (hname : decode name = some text)
    (hle : base.length ≤ dict) (hstart : start ≤ base.length) (hgt : Good start (val ::ₘ own) t.heap)
    (hext : Extends base t.heap) (hval : start ≤ val)
    (hdict : valueAt t.heap dict = some (.dict entries))
    (hnew : text.map codePoint ∉ entries.map Prod.fst)
    (hP : P t.heap val) (hsteady : Steady 2 P) (hrank : ∃ w, valueAt t.heap val = some w ∧ rank w < 2)
    (hrest : ∀ u, Good start (val ::ₘ own) u.heap → Extends base u.heap →
      valueAt u.heap dict = some (.dict (entries ++ [(text.map codePoint, val)])) →
      Gives rest u (Filled start (val ::ₘ own) base u ok dict
        (entries ++ [(text.map codePoint, val)]) todo)) :
    Gives (do if (← pyDictSetItemString dict name val) < 0 then return none else rest) t fun r u =>
      Filled start (val ::ₘ own) base t ok dict entries ((name, P) :: todo) r u ∧
        (r.isSome = true → 0 < held PyValue.refs u.heap val) := by
  obtain ⟨w, hw, hlt⟩ := hrank
  have hstore := pyDictSetItemString_spec hname hgt hdict hw (hstart.trans hle) hval hlt
    fun e he heq => hnew (List.mem_map.mpr ⟨e, he, heq⟩)
  refine hstore.bind fun rc u h => Gives.ite (fun hrc => ?_) fun hrc => ?_
  · obtain ⟨hnot, hheap, hset⟩ := h.failed hrc
    exact Gives.pure ⟨⟨hheap ▸ hext, h.calm, fun _ => ⟨hheap ▸ hgt, hset, fun hok => hnot hok.1⟩,
      fun _ h => by cases h⟩, fun h => by cases h⟩
  · obtain ⟨herr, hgu, hlen, hvalue⟩ := h.stored hrc
    have hextu := extends_of_stored hext hle hlen hvalue
    have hkeeps : Keeps 2 t.heap u.heap := Keeps.of_stored hdict (by simp [rank]) hvalue
    refine (hrest u hgu hextu (by rw [hvalue, if_pos rfl])).weaken fun r x hf => ?_
    have hentries : ∀ o, r = some o → ∃ more, Keeps 2 u.heap x.heap ∧
        valueAt x.heap dict = some (.dict (entries ++ (text.map codePoint, val) :: more)) ∧
        List.Forall₂ (IsField x.heap) more todo := by
      intro o ho
      obtain ⟨-, -, -, hkeeps', more, hmore, hall⟩ := hf.filled o ho
      exact ⟨more, hkeeps', by rw [hmore, List.append_assoc]; rfl, hall⟩
    refine ⟨⟨hf.grows, fun hc => hf.calm (h.calm hc), fun hr => ?_, fun o ho => ?_⟩, fun hr => ?_⟩
    · obtain ⟨hgx, hset, hwhy⟩ := hf.failed hr
      exact ⟨hgx, hset, fun hok => hwhy ⟨h.calm hok.1, hok.2⟩⟩
    · obtain ⟨hodict, hgx, herrx, -⟩ := hf.filled o ho
      obtain ⟨more, hkeeps', hmore, hall⟩ := hentries o ho
      have hfield : IsField x.heap (text.map codePoint, val) (name, P) :=
        ⟨⟨text, hname, rfl⟩, hsteady _ _ val (hkeeps.trans hkeeps') hP⟩
      exact ⟨hodict, hgx, herrx.trans herr, hkeeps.trans hkeeps', (text.map codePoint, val) :: more,
        hmore, .cons hfield hall⟩
    · obtain ⟨o, ho⟩ := Option.isSome_iff_exists.mp hr
      obtain ⟨more, -, hmore, -⟩ := hentries o ho
      exact (held_pos_iff _).mpr ⟨dict, _, hmore, by simp [PyValue.refs]⟩

/-- One more entry, the value of which has a wrapper until the rest are done. -/
theorem withItem_spec {value : PyM PyOwnedObject} {rest : PyM PyOwnedObject}
    (hname : decode name = some text)
    (hc : Counted PyValue.refs base own₀) (hown : ∀ r ∈ own₀, r ∈ own) (hle : base.length ≤ dict)
    (hstart : start ≤ base.length) (hext : Extends base s.heap)
    (hdict : valueAt s.heap dict = some (.dict entries))
    (hnew : text.map codePoint ∉ entries.map Prod.fst)
    (hvalue : Gives value s (Made start own s.heap s okv P))
    (hsteadies : ∀ f ∈ (name, P) :: todo, Steady 2 f.2)
    (hrank : ∀ h o, P h o → ∃ w, valueAt h o = some w ∧ rank w < 2)
    (hrest : ∀ val t, Good start (val ::ₘ own) t.heap → Extends base t.heap →
      valueAt t.heap dict = some (.dict (entries ++ [(text.map codePoint, val)])) →
      Gives rest t (Filled start (val ::ₘ own) base t ok dict
        (entries ++ [(text.map codePoint, val)]) todo)) :
    Gives (value >>= fun v => withItem dict name v rest) s
      (Filled start own base s (okv ∧ ok) dict entries ((name, P) :: todo)) := by
  refine hvalue.bind fun v t hm => ?_
  unfold withItem
  cases v with
  | none =>
    obtain ⟨hgt, hset, hwhy⟩ := hm.failed rfl
    exact withOwned_none (Gives.pure ⟨hext.trans hm.grows, hm.calm,
      fun _ => ⟨hgt, hset, fun hok => hwhy ⟨hok.1, hok.2.1⟩⟩, fun _ h => by cases h⟩)
  | some val =>
    obtain ⟨hgt, herr, hfresh, hP⟩ := hm.made val rfl
    refine Gives.bind (setItem_spec hname hle hstart hgt (hext.trans hm.grows)
      (hstart.trans (hext.length_le.trans hfresh)) (hm.grows.valueAt_some hdict) hnew hP
      (hsteadies _ (List.mem_cons_self ..)) (hrank _ _ hP) (hrest val)) ?_
    rintro r u ⟨hf, hheld⟩
    have hcalm (hc : Calm s) : Calm u := hf.calm (hm.calm hc)
    cases r with
    | none =>
      obtain ⟨hgu, hset, hwhy⟩ := hf.failed rfl
      refine (pyDecRef_spec hgu).bind ?_
      rintro _ x ⟨hgx, herrx, hfails, hrel⟩
      exact Gives.pure ⟨hf.grows.released hc hown hrel, fun hc => (hcalm hc).of_fails hfails,
        fun _ => ⟨hgx, by rw [herrx, hset], fun hok => hwhy ⟨hm.calm hok.1, hok.2.2⟩⟩,
        fun _ h => by cases h⟩
    | some o =>
      obtain ⟨rfl, hgu, herru, hkeeps, more, hmore, hall⟩ := hf.filled o rfl
      rw [Multiset.cons_swap] at hgu
      refine (pyDecRef_spec hgu).bind ?_
      rintro _ x ⟨hgx, herrx, hfails, hrel⟩
      -- the dict holds the value, too
      have hsame := Released.shared hgu.counted (.inr (hheld rfl)) hrel
      refine Gives.pure ⟨hf.grows.released hc (fun r hr => Multiset.mem_cons_of_mem (hown r hr)) hrel,
        fun hc => (hcalm hc).of_fails hfails, fun h => (by cases h), fun i hi => ?_⟩
      cases hi
      exact ⟨rfl, hgx, herrx.trans (herru.trans herr),
        (Keeps.of_extends hm.grows).trans (hkeeps.trans (Keeps.of_eq hsame)), more,
        (hsame o).trans hmore, keep_fields hsteadies (Keeps.of_eq hsame) hall⟩

/-- With no entries left, the dict is returned. -/
theorem copy_filled (hg : Good start own s.heap) (hext : Extends base s.heap) (ho : dict ∈ own)
    (hdict : valueAt s.heap dict = some (.dict entries)) :
    Gives (PyOwnedObject.copy (some dict)) s (Filled start own base s True dict entries []) := by
  obtain ⟨c, hcell⟩ := hg.counted.cellAt_of_mem ho
  refine Gives.of_exec (copy_exec hcell) ⟨hext.retain hcell, id, fun h => (by cases h), ?_⟩
  rintro i hi
  cases hi
  exact ⟨rfl, hg.retain hcell, rfl, Keeps.of_eq (valueAt_retain hcell), [],
    by rw [valueAt_retain hcell, hdict, List.append_nil], .nil⟩

/-- The text of a key. -/
def keyText (name : String) : List CodePoint :=
  name.toList.map codePoint

@[simp] theorem keyText_inj {a b : String} : keyText a = keyText b ↔ a = b :=
  (List.map_injective_iff.mpr codePoint_injective).eq_iff.trans String.toList_inj

theorem resultToPy_spec {F : Type} [FloatArith F] (hg : Good start own s.heap) (r : Result F) :
    Gives (resultToPy r) s (Made start own s.heap s (Decodes r) fun h o => IsResult h o r) := by
  unfold resultToPy
  refine (tryNew_spec (Decodes r) hg rfl).bind fun result t hm => ?_
  cases result with
  | none => exact withOwned_none (Gives.pure ⟨hm.grows, hm.calm, hm.failed, fun _ h => by cases h⟩)
  | some dict =>
    obtain ⟨hgt, herr, hfresh, hdict⟩ := hm.made dict rfl
    have hstart := hg.start_le
    have hin : dict ∈ dict ::ₘ own := Multiset.mem_cons_self dict own
    have hsub : ∀ q ∈ own, q ∈ dict ::ₘ own := fun q hq => Multiset.mem_cons_of_mem hq
    have hsteadies := steady_fields r
    have hnumber (n : Nat) (h : Heap PyValue) (o : Nat) (hv : valueAt h o = some (.int n)) :
        ∃ w, valueAt h o = some w ∧ rank w < 2 := ⟨_, hv, by simp [rank]⟩
    have htexts (ms : List ByteString) (h : Heap PyValue) (o : Nat) (hv : IsTextSet h o ms) :
        ∃ w, valueAt h o = some w ∧ rank w < 2 := by
      obtain ⟨items, hv, -⟩ := hv
      exact ⟨_, hv, by simp [rank]⟩
    have hitems : Gives (do
        withItem dict (bytes "arg1") (← pyLongFromSizeT r.arg1) do
        withItem dict (bytes "arg2") (← pyLongFromSizeT r.arg2) do
        withItem dict (bytes "morphemes1") (← morphemeSetToPy r.morphemes1) do
        withItem dict (bytes "morphemes2") (← morphemeSetToPy r.morphemes2) do
        PyOwnedObject.copy (some dict)) t
        (Filled start (dict ::ₘ own) s.heap t
          (True ∧ True ∧ (∀ m ∈ r.morphemes1, (decode m).isSome = true) ∧
            (∀ m ∈ r.morphemes2, (decode m).isSome = true) ∧ True) dict [] (fields r)) := by
      refine withItem_spec (decode_bytes "arg1" (by simp)) hg.counted hsub hfresh hstart hm.grows
        hdict (by simp) (tryNew_spec _ hgt rfl) hsteadies (hnumber r.arg1)
        fun a t₁ hg₁ hext₁ hd₁ => ?_
      have hsub₁ : ∀ q ∈ own, q ∈ a ::ₘ dict ::ₘ own := fun q hq => Multiset.mem_cons_of_mem (hsub q hq)
      refine withItem_spec (decode_bytes "arg2" (by simp)) hg.counted hsub₁ hfresh hstart hext₁ hd₁
        (show keyText "arg2" ∉ [keyText "arg1"] by simp) (tryNew_spec _ hg₁ rfl)
        (fun f hf => hsteadies f (List.mem_cons_of_mem _ hf)) (hnumber r.arg2)
        fun b t₂ hg₂ hext₂ hd₂ => ?_
      have hsub₂ : ∀ q ∈ own, q ∈ b ::ₘ a ::ₘ dict ::ₘ own :=
        fun q hq => Multiset.mem_cons_of_mem (hsub₁ q hq)
      refine withItem_spec (decode_bytes "morphemes1" (by simp)) hg.counted hsub₂ hfresh hstart
        hext₂ hd₂ (show keyText "morphemes1" ∉ [keyText "arg1", keyText "arg2"] by simp)
        (morphemeSetToPy_spec hg₂ r.morphemes1)
        (fun f hf => hsteadies f (List.mem_cons_of_mem _ (List.mem_cons_of_mem _ hf)))
        (htexts _) fun c t₃ hg₃ hext₃ hd₃ => ?_
      have hsub₃ : ∀ q ∈ own, q ∈ c ::ₘ b ::ₘ a ::ₘ dict ::ₘ own :=
        fun q hq => Multiset.mem_cons_of_mem (hsub₂ q hq)
      refine withItem_spec (decode_bytes "morphemes2" (by simp)) hg.counted hsub₃ hfresh hstart
        hext₃ hd₃
        (show keyText "morphemes2" ∉ [keyText "arg1", keyText "arg2", keyText "morphemes1"] by simp)
        (morphemeSetToPy_spec hg₃ r.morphemes2)
        (fun f hf => hsteadies f (List.mem_cons_of_mem _ (List.mem_cons_of_mem _
          (List.mem_cons_of_mem _ hf))))
        (htexts _) fun d t₄ hg₄ hext₄ hd₄ => ?_
      exact copy_filled hg₄ hext₄ (by simp) hd₄
    refine (withOwned_made (P := fun h i => i = dict ∧ IsResult h i r) hg.counted (fun _ hq => hq)
      ?_ (fun _ _ h => h.1) (hitems.weaken fun o u hf => ?_)).weaken
      fun o u h => h.weaken fun _ _ h => h.2
    · rintro h h' i hk ⟨rfl, hi⟩
      exact ⟨rfl, steady_result r h h' i (hk.mono (by decide)) hi⟩
    · refine ⟨hf.grows, fun hc => hf.calm (hm.calm hc), fun ho => ?_, fun i hi => ?_⟩
      · obtain ⟨hgu, hset, hwhy⟩ := hf.failed ho
        refine ⟨hgu, hset, fun hok => hwhy ⟨hm.calm hok.1, trivial, trivial, ?_, ?_, trivial⟩⟩
        · exact fun m hmem => hok.2 m (.inl hmem)
        · exact fun m hmem => hok.2 m (.inr hmem)
      · obtain ⟨rfl, hgu, herr', -, more, hmore, hall⟩ := hf.filled i hi
        exact ⟨hgu, herr'.trans herr, hfresh, rfl, more, hmore, hall⟩

end Dicts

/-! ## The list of results -/

section Lists
variable {start : Nat} {own own₀ : Multiset Nat} {base : Heap PyValue} {list : Nat}
  {F : Type} [FloatArith F]

theorem appendResults_spec (own : Multiset Nat) (hc : Counted PyValue.refs base own₀)
    (hown : ∀ r ∈ own₀, r ∈ own) (hle : base.length ≤ list) (hstart : start ≤ base.length)
    (rs : List (Result F)) :
    ∀ (done : List (Result F)) (items : List Nat) (s : Interp), Good start own s.heap →
    Extends base s.heap → valueAt s.heap list = some (.list items) →
    List.Forall₂ (IsResult s.heap) items done →
    Gives (appendResults list rs) s fun r t => Good start own t.heap ∧ Extends base t.heap ∧
      (Calm s → Calm t) ∧
      (r = false → t.error.isSome = true ∧ ¬ (Calm s ∧ ∀ r ∈ rs, Decodes r)) ∧
      (r = true → t.error = s.error ∧ IsResultList t.heap list (done ++ rs)) := by
  induction rs with
  | nil =>
    intro done items s hg hext ho hitems
    exact Gives.pure ⟨hg, hext, id, fun h => (by cases h),
      fun _ => ⟨rfl, items, ho, by rwa [List.append_nil]⟩⟩
  | cons r rs ih =>
    intro done items s hg hext ho hitems
    unfold appendResults
    refine (resultToPy_spec hg r).bind fun resultDict t hm => ?_
    have ho' := hm.grows.valueAt_some ho
    cases resultDict with
    | none =>
      obtain ⟨hgt, -, hwhy⟩ := hm.failed rfl
      have happend : Gives (do return decide (¬ (← pyListAppend list none) < 0)) t fun b u =>
          b = false ∧ u.heap = t.heap ∧ u.error.isSome = true ∧ u.fails = t.fails := by
        refine (pyListAppend_none ho').bind ?_
        rintro rc u ⟨hrc, h⟩
        exact Gives.pure ⟨by simpa using hrc, h⟩
      refine (withOwned_none happend).bind ?_
      rintro _ u ⟨rfl, hheap, hset, hfails⟩
      exact Gives.pure ⟨hheap ▸ hgt, hheap ▸ hext.trans hm.grows,
        fun hcalm => (hm.calm hcalm).of_fails hfails,
        fun _ => ⟨hset, fun hok => hwhy ⟨hok.1, hok.2 r (List.mem_cons_self ..)⟩⟩, fun h => by cases h⟩
    | some item =>
      obtain ⟨hgt, herr, hfresh, hitem⟩ := hm.made item rfl
      have ⟨entries, hentries, _⟩ := hitem
      have happend := pyListAppend_spec hgt ho' hentries (hstart.trans hle)
        (hg.start_le.trans hfresh) (by simp [rank])
      refine (withOwned_stored hc hown (hext.trans hm.grows) hle hgt (by simp [PyValue.refs])
        happend).bind fun appended u h => ?_
      cases appended with
      | false =>
        obtain ⟨hnot, hset⟩ := h.failed rfl
        exact Gives.pure ⟨h.good, h.grows, fun hcalm => h.calm (hm.calm hcalm),
          fun _ => ⟨hset, fun hok => hnot (hm.calm hok.1)⟩, fun h => by cases h⟩
      | true =>
        obtain ⟨hsame, hvalue⟩ := h.taken rfl
        have hkeeps : Keeps 3 t.heap u.heap := Keeps.of_stored ho' (by simp [rank]) hvalue
        have hall := forall₂_snoc steady_result ((Keeps.of_extends hm.grows).trans hkeeps) hitems
          (steady_result r _ _ item hkeeps hitem)
        refine (ih (done ++ [r]) (items ++ [item]) u h.good h.grows (by rw [hvalue, if_pos rfl])
          hall).weaken ?_
        rintro b w ⟨hgw, hextw, hcalm, hfailed, hadded⟩
        have hcalm' : Calm s → Calm u := fun hcalm => h.calm (hm.calm hcalm)
        refine ⟨hgw, hextw, fun hc => hcalm (hcalm' hc), fun hb => ?_, fun hb => ?_⟩
        · obtain ⟨hset, hwhy⟩ := hfailed hb
          exact ⟨hset, fun hok => hwhy ⟨hcalm' hok.1,
            fun r' hr' => hok.2 r' (List.mem_cons_of_mem r hr')⟩⟩
        · obtain ⟨herr', hlist⟩ := hadded hb
          exact ⟨herr'.trans (hsame.trans herr), by simpa using hlist⟩

end Lists

end SwapDetector.Proofs.PythonResults
