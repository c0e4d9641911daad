import SwapDetector.Proofs.PythonApi
import SwapDetector.Spec.PythonCalls

/-! # Reading the arguments of a call from Python

Reading an iterable of names gives the names it stands for, or fails with the exception it
stands for, unless some call runs out of memory. Either way every object has the owners it
had before.
-/
namespace SwapDetector.Proofs.PythonNames
open SwapDetector.Base.Exec SwapDetector.Base.Postconditions SwapDetector.Base.ReferenceCounts
open SwapDetector.Base.Utf8
open SwapDetector.Model.Bytes SwapDetector.Model.PythonObjects SwapDetector.Model.PythonExtension
open SwapDetector.Spec.PythonCalls SwapDetector.Proofs.PythonApi

variable {start : Nat} {own own₀ : Multiset Nat} {base : Heap PyValue} {s : Interp}

/-- What reading something leaves: `expected`, unless some call runs out of memory. -/
structure Read {α : Type} (start : Nat) (own : Multiset Nat) (base : Heap PyValue) (s : Interp)
    (expected : Except PyError α) (r : Option α) (t : Interp) : Prop where
  good : Good start own t.heap
  grows : Extends base t.heap
  calm : Calm s → Calm t
  failed : r = none → t.error.isSome = true ∧ (Calm s → ∃ e, expected = .error e ∧ t.error = some e)
  read : ∀ a, r = some a → t.error = s.error ∧ expected = .ok a

namespace Read
variable {α : Type} {expected : Except PyError α} {t : Interp} {e : PyError}

/-- Reading fails as expected. -/
theorem of_error (hg : Good start own s.heap) (hext : Extends base s.heap)
    (he : expected = .error e) :
    Read start own base s expected none { s with error := some e } :=
  ⟨hg, hext, id, fun _ => ⟨rfl, fun _ => ⟨e, he, rfl⟩⟩, fun _ h => by cases h⟩

theorem of_ok {a : α} (hg : Good start own s.heap) (hext : Extends base s.heap)
    (he : expected = .ok a) : Read start own base s expected (some a) s :=
  ⟨hg, hext, id, fun h => (by cases h), fun _ h => by cases h; exact ⟨rfl, he⟩⟩

theorem of_failure (hg : Good start own t.heap) (hext : Extends base t.heap)
    (hset : t.error.isSome = true) (hcalm : ¬ Calm s) : Read start own base s expected none t :=
  ⟨hg, hext, fun hc => absurd hc hcalm, fun _ => ⟨hset, fun hc => absurd hc hcalm⟩,
    fun _ h => by cases h⟩

/-- Reading within the scope of a wrapper. -/
theorem scope {o : Nat} {body : PyM (Option α)} (hc : Counted PyValue.refs base own₀)
    (hown : ∀ r ∈ own₀, r ∈ own) (hbody : Gives body t (Read start (o ::ₘ own) base s expected)) :
    Gives (withOwned (some o) body) t (Read start own base s expected) := by
  refine (withOwned_spec (hbody.weaken fun r u h => And.intro h.good h)).weaken ?_
  rintro r u' ⟨u, h, -, hg, herr, hfails, hrel⟩
  refine ⟨hg, h.grows.released hc hown hrel, fun hcalm => (h.calm hcalm).of_fails hfails, ?_, ?_⟩
  · rw [herr]
    exact h.failed
  · rw [herr]
    exact h.read

/-- Nothing more is read after a failure. -/
theorem bind {β : Type} {x : PyM (Option α)} {f : Option α → PyM (Option β)}
    {rest : α → Except PyError β} (hx : Gives x s (Read start own base s expected))
    (hnone : f none = pure none)
    (hf : ∀ a t, Read start own base s expected (some a) t →
      Gives (f (some a)) t (Read start own base t (rest a))) :
    Gives (x >>= f) s (Read start own base s (expected >>= rest)) := by
  refine Gives.bind hx fun r t hr => ?_
  cases r with
  | none =>
    rw [hnone]
    refine Gives.pure ⟨hr.good, hr.grows, hr.calm, fun _ => ?_, fun _ h => by cases h⟩
    obtain ⟨hset, hwhy⟩ := hr.failed rfl
    refine ⟨hset, fun hc => ?_⟩
    obtain ⟨e, he, hte⟩ := hwhy hc
    exact ⟨e, by rw [he]; rfl, hte⟩
  | some a =>
    obtain ⟨hsame, ha⟩ := hr.read a rfl
    rw [ha]
    refine (hf a t hr).weaken fun b u h => ?_
    exact ⟨h.good, h.grows, fun hc => h.calm (hr.calm hc),
      fun hb => ⟨(h.failed hb).1, fun hc => (h.failed hb).2 (hr.calm hc)⟩,
      fun b' hb => ⟨(h.read b' hb).1.trans hsame, (h.read b' hb).2⟩⟩

end Read

/-! ## Strings -/

section Strings
variable {o : Nat} {v : PyValue} {text : List CodePoint} {message : ByteString}

theorem pyUnicodeAsUTF8AndSize_spec (hg : Good start own s.heap) (hext : Extends base s.heap)
    (ho : valueAt s.heap o = some (.str text)) :
    Gives (pyUnicodeAsUTF8AndSize o) s (Read start own base s (utf8Of text)) := by
  unfold pyUnicodeAsUTF8AndSize utf8Of
  refine Gives.exec_bind (lookUp_exec ho) ?_
  cases htext : text.mapM charOf with
  | none =>
    simp only [htext]
    exact Gives.exec_bind (setError_exec _) (Gives.pure (Read.of_error hg hext rfl))
  | some chars =>
    simp only [htext]
    refine Gives.exec_bind outOfMemory_exec (Gives.ite (fun hfail => ?_) fun _ => ?_)
    · refine Gives.exec_bind (setError_exec _) (Gives.pure ?_)
      refine ⟨hg, hext, Calm.shift, fun _ => ⟨rfl, fun hc => ?_⟩, fun _ h => by cases h⟩
      rw [hc 0] at hfail
      cases hfail
    · refine Gives.pure ⟨hg, hext, Calm.shift, fun h => (by cases h), fun a h => ?_⟩
      cases h
      exact ⟨rfl, rfl⟩

theorem readItem_spec (message : ByteString) (hg : Good start own s.heap) (hext : Extends base s.heap)
    (ho : valueAt s.heap o = some v) :
    Gives (readItem message o) s (Read start own base s (nameOf message (some v))) := by
  unfold readItem pyUnicodeCheck
  have hother (h : nameOf message (some v) = .error (.typeError message)) :
      Gives (do setError (.typeError message); return none) s
        (Read start own base s (nameOf message (some v))) :=
    Gives.exec_bind (setError_exec _) (Gives.pure (Read.of_error hg hext h))
  cases v with
  | str text =>
    refine (Gives.exec_bind (lookUp_exec ho) (Gives.pure (Q := fun b t => b = true ∧ t = s)
      ⟨rfl, rfl⟩)).bind ?_
    rintro _ _ ⟨rfl, rfl⟩
    exact pyUnicodeAsUTF8AndSize_spec hg hext ho
  | _ =>
    refine (Gives.exec_bind (lookUp_exec ho) (Gives.pure (Q := fun b t => b = false ∧ t = s)
      ⟨rfl, rfl⟩)).bind ?_
    rintro _ _ ⟨rfl, rfl⟩
    exact hother rfl

end Strings

/-! ## Iterables -/

section Iterables
variable {it target next : Nat} {v : PyValue} {yields : List Yield} {ending : Option PyError}
  {y : Yield} {message : ByteString}

/-- At the end the iterator raises its exception, if it has one. -/
theorem pyIterNext_end (hit : valueAt s.heap it = some (.iterator target next))
    (htarget : valueAt s.heap target = some v) (hscript : v.script = some (yields, ending))
    (hy : yields[next]? = none) :
    exec (pyIterNext it) s = (.ok none, { s with error := ending.or s.error }) := by
  unfold pyIterNext
  rw [exec_bind_ok (lookUp_exec hit)]
  simp only
  rw [exec_bind_ok (lookUp_exec htarget)]
  simp only [hscript, hy]
  cases ending <;> rfl

/-- What handing out an item leaves. -/
structure Handed (start : Nat) (own : Multiset Nat) (base : Heap PyValue) (s : Interp)
    (it target next : Nat) (y : Yield) (r : Option Nat) (t : Interp) : Prop where
  grows : Extends base t.heap
  calm : Calm s → Calm t
  failed : r = none → Good start own t.heap ∧ t.error.isSome = true ∧ ¬ Calm s
  handed : ∀ i, r = some i → Good start (i ::ₘ own) t.heap ∧ t.error = s.error ∧
    valueAt t.heap it = some (.iterator target (next + 1)) ∧
    ∃ v, itemOf base y = some v ∧ valueAt t.heap i = some v

/-- A new item. -/
theorem tryNew_handed {h' : Heap PyValue} (hg : Good start own h') (hext : Extends base h')
    (hit : valueAt h' it = some (.iterator target (next + 1))) (hrefs : v.refs = [])
    (hitem : itemOf base y = some v) :
    Gives (tryNew v) { s with heap := h' } (Handed start own base s it target next y) := by
  refine (tryNew_spec True hg hrefs).weaken fun r t hm => ?_
  refine ⟨hext.trans hm.grows, hm.calm, fun hr => ?_, fun i hi => ?_⟩
  · obtain ⟨hgt, herr, hcalm⟩ := hm.failed hr
    exact ⟨hgt, herr, fun hc => hcalm ⟨hc, trivial⟩⟩
  · obtain ⟨hgt, herr, -, hv⟩ := hm.made i hi
    exact ⟨hgt, herr, hm.grows.valueAt_some hit, v, hitem, hv⟩

theorem pyIterNext_item (hbase : Good start own₀ base) (hg : Good start own s.heap)
    (hext : Extends base s.heap) (hle : base.length ≤ it) (hstart : target < start)
    (hit : valueAt s.heap it = some (.iterator target next)) (htarget : valueAt base target = some v)
    (hscript : v.script = some (yields, ending)) (hy : yields[next]? = some y) :
    Gives (pyIterNext it) s (Handed start own base s it target next y) := by
  obtain ⟨h', hmove, hg', hlen, hvalue⟩ := moveOn_exec hg hstart hit
  have hext' : Extends base h' := extends_of_stored hext hle hlen hvalue
  have hit' : valueAt h' it = some (.iterator target (next + 1)) := by
    rw [hvalue, if_pos rfl]
  unfold pyIterNext
  refine Gives.exec_bind (lookUp_exec hit) ?_
  refine Gives.exec_bind (lookUp_exec (hext.valueAt_some htarget)) ?_
  simp only [hscript, hy]
  cases y with
  | existing item =>
    obtain ⟨w, hw⟩ := hbase.valueAt_of_mem_refs htarget (heldByYield_mem_refs hscript hy)
    obtain ⟨c, hc, -⟩ := exists_cell (hext'.valueAt_some hw)
    refine Gives.exec_bind hmove
      (Gives.exec_bind (pyIncRef_exec (s := { s with heap := h' }) hc) (Gives.pure ?_))
    refine ⟨hext'.retain hc, id, fun h => (by cases h), fun i hi => ?_⟩
    cases hi
    refine ⟨hg'.retain hc, rfl, (valueAt_retain hc it).trans hit', w, hw, ?_⟩
    rw [valueAt_retain hc]
    exact hext'.valueAt_some hw
  | key text =>
    refine Gives.exec_bind hmove (Gives.exec_bind newObject_exec (Gives.pure ?_))
    refine ⟨hext'.alloc, id, fun h => (by cases h), fun i hi => ?_⟩
    cases hi
    refine ⟨Good.alloc (by simpa [PyValue.refs] using hg') (.inr rfl), rfl, ?_, _, rfl, ?_⟩
    · rw [valueAt_alloc, if_neg (Nat.ne_of_lt (lt_of_valueAt hit')), hit']
    · rw [valueAt_alloc, if_pos rfl]
  | newStr text =>
    exact Gives.exec_bind hmove (tryNew_handed hg' hext' hit' rfl rfl)
  | newOther =>
    exact Gives.exec_bind hmove (tryNew_handed hg' hext' hit' rfl rfl)

/-- What the loop over the items leaves: the names read, or the exception that the iterator
ends with. -/
structure ReadAll (start : Nat) (own : Multiset Nat) (base : Heap PyValue) (s : Interp)
    (expected : Except PyError (List ByteString)) (names : List ByteString)
    (r : Option (List ByteString)) (t : Interp) : Prop where
  good : Good start own t.heap
  grows : Extends base t.heap
  calm : Calm s → Calm t
  failed : r = none → t.error.isSome = true ∧ (Calm s → ∃ e, expected = .error e ∧ t.error = some e)
  read : ∀ a, r = some a → t.error = none → ∃ tail, a = names ++ tail ∧ expected = .ok tail
  raised : r.isSome = true → Calm s → ∀ e, t.error = some e → expected = .error e

/-- A name that is read comes before those of the rest. -/
theorem ReadAll.cons {u x : Interp} {first : Except PyError ByteString}
    {rest : Except PyError (List ByteString)} {name : ByteString} {names : List ByteString}
    {r : Option (List ByteString)} (hcalm : Calm s → Calm u) (hfirst : first = .ok name)
    (h : ReadAll start own base u rest (names ++ [name]) r x) :
    ReadAll start own base s (do let name ← first; let names ← rest; return name :: names)
      names r x := by
  subst hfirst
  refine ⟨h.good, h.grows, fun hc => h.calm (hcalm hc), fun hr => ?_, fun a ha hok => ?_,
    fun hr hc e he => ?_⟩
  · obtain ⟨hset, hwhy⟩ := h.failed hr
    refine ⟨hset, fun hc => ?_⟩
    obtain ⟨e, he, hte⟩ := hwhy (hcalm hc)
    exact ⟨e, by rw [he]; rfl, hte⟩
  · obtain ⟨tail, rfl, htail⟩ := h.read a ha hok
    exact ⟨name :: tail, by rw [List.append_assoc]; rfl, by rw [htail]; rfl⟩
  · rw [h.raised hr (hcalm hc) e he]
    rfl

/-- Reading an item in the scope of its wrapper leaves the iterator where it is. -/
theorem handedName_spec {i : Nat} {w x : PyValue} {t : Interp} (message : ByteString)
    (hc : Counted PyValue.refs base own₀) (hown : ∀ r ∈ own₀, r ∈ own) (hitown : it ∈ own)
    (hg : Good start (i ::ₘ own) t.heap) (hext : Extends base t.heap)
    (hi : valueAt t.heap i = some w) (hit : valueAt t.heap it = some x) :
    Gives (withOwned (some i) (readItem message i)) t fun name u =>
      Read start own base t (nameOf message (some w)) name u ∧ valueAt u.heap it = some x := by
  refine (Read.scope hc hown (readItem_spec message hg hext hi)).both ?_
  have hkept := (readItem_spec message hg Extends.refl hi).weaken
    fun r u h => And.intro h.good h.grows
  refine (withOwned_spec hkept).weaken ?_
  rintro name u' ⟨u, hgrows, -, -, -, -, hrel⟩
  rw [hrel.owned hitown]
  exact hgrows.valueAt_some hit

theorem readItems_spec (own : Multiset Nat) (message : ByteString)
    (hbase : Good start own₀ base) (hown : ∀ r ∈ own₀, r ∈ own) (hle : base.length ≤ it)
    (hitown : it ∈ own) (hstart : target < start)
    (htarget : valueAt base target = some v) (hscript : v.script = some (yields, ending))
    (bound : Nat) : ∀ (next : Nat) (names : List ByteString) (s : Interp),
    Good start own s.heap → Extends base s.heap → s.error = none →
    valueAt s.heap it = some (.iterator target next) → next ≤ yields.length →
    yields.length < bound + next →
    Gives (readItems message it bound names) s
      (ReadAll start own base s (scriptNames base message (yields.drop next) ending) names) := by
  induction bound with
  | zero =>
    intro next names s hg hext herr hit hnext hbound
    omega
  | succ bound ih =>
    intro next names s hg hext herr hit hnext hbound
    unfold readItems
    cases hy : yields[next]? with
    | none =>
      refine Gives.exec_bind (pyIterNext_end hit (hext.valueAt_some htarget) hscript hy)
        (Gives.pure ?_)
      have hend : yields.drop next = [] := List.drop_eq_nil_of_le (List.getElem?_eq_none_iff.mp hy)
      rw [hend]
      refine ⟨hg, hext, id, fun h => (by cases h), fun a ha hok => ?_, fun _ _ e he => ?_⟩
      · cases ha
        cases ending with
        | none => exact ⟨[], (List.append_nil _).symm, rfl⟩
        | some e => cases hok
      · cases ending with
        | none => cases he.symm.trans herr
        | some e' => exact congrArg Except.error (Option.some.inj he)
    | some y =>
      have hlt : next < yields.length := (List.getElem?_eq_some_iff.mp hy).1
      have hdrop : yields.drop next = y :: yields.drop (next + 1) := by
        rw [List.drop_eq_getElem_cons hlt, (List.getElem?_eq_some_iff.mp hy).2]
      refine (pyIterNext_item hbase hg hext hle hstart hit htarget hscript hy).bind ?_
      intro item t hh
      cases item with
      | none =>
        -- the loop ends here, and the caller finds the error
        obtain ⟨hgt, hset, hcalm⟩ := hh.failed rfl
        refine Gives.pure ⟨hgt, hh.grows, hh.calm, fun h => (by cases h), fun a _ hok => ?_,
          fun _ hc => absurd hc hcalm⟩
        rw [hok] at hset
        cases hset
      | some i =>
        obtain ⟨hgt, herrt, hitt, w, hw, hi⟩ := hh.handed i rfl
        have hnames : scriptNames base message (yields.drop next) ending = (do
            let name ← nameOf message (some w)
            let names ← scriptNames base message (yields.drop (next + 1)) ending
            return name :: names) := by
          rw [hdrop, scriptNames, hw]
        rw [hnames]
        refine (handedName_spec message hbase.counted hown hitown hgt hh.grows hi hitt).bind ?_
        rintro name u ⟨hr, hitu⟩
        have hcalm : Calm s → Calm u := fun hc => hr.calm (hh.calm hc)
        cases name with
        | none =>
          obtain ⟨hset, hwhy⟩ := hr.failed rfl
          refine Gives.pure ⟨hr.good, hr.grows, hcalm, fun _ => ⟨hset, fun hc => ?_⟩,
            fun _ h => (by cases h), fun h => by cases h⟩
          obtain ⟨e, he, hte⟩ := hwhy (hh.calm hc)
          exact ⟨e, by rw [he]; rfl, hte⟩
        | some name =>
          obtain ⟨hsame, hname⟩ := hr.read name rfl
          refine (ih (next + 1) (names ++ [name]) u hr.good hr.grows (by rw [hsame, herrt, herr])
            hitu hlt (by omega)).weaken fun r x h => ?_
          exact h.cons hcalm hname

theorem itemsBound_exec {o : Nat} (ho : valueAt s.heap o = some v) (hiterator : v.isIterator = false) :
    exec (itemsBound o) s =
      (.ok ((v.script.map fun script => script.1.length + 1).getD 0), s) := by
  unfold itemsBound
  rw [exec_bind_ok (lookUp_exec ho)]
  cases v with
  | iterator target next => cases hiterator
  | _ => rfl

/-- Reading gives the names an iterable stands for. -/
theorem readNames_spec {o : Nat} (message : ByteString) (hbase : Good start own₀ base)
    (hown : ∀ r ∈ own₀, r ∈ own) (hlen : base.length = start) (hg : Good start own s.heap)
    (hext : Extends base s.heap) (herr : s.error = none) (ho : valueAt base o = some v)
    (hiterator : v.isIterator = false) :
    Gives (readNames message o) s (Read start own base s (namesOf base message o)) := by
  have hos := hext.valueAt_some ho
  have hstart : o < start := hlen ▸ lt_of_valueAt ho
  unfold readNames
  refine Gives.exec_bind (itemsBound_exec hos hiterator) ?_
  cases hscript : v.script with
  | none =>
    have hnames : namesOf base message o = .error (.typeError message) := by
      rw [namesOf, ho, Option.bind_some, hscript]
    refine Gives.exec_bind (pyObjectGetIter_none hos hiterator hscript) (withOwned_none ?_)
    exact Gives.exec_bind (setError_exec _) (Gives.pure ⟨hg, hext, id,
      fun _ => ⟨rfl, fun _ => ⟨_, hnames, rfl⟩⟩, fun _ h => by cases h⟩)
  | some script =>
    obtain ⟨yields, ending⟩ := script
    have hnames : namesOf base message o = scriptNames base message yields ending := by
      rw [namesOf, ho, Option.bind_some, hscript]
    refine (pyObjectGetIter_spec hg hstart hos hiterator hscript).bind fun iterator t hm => ?_
    have hextt := hext.trans hm.grows
    cases iterator with
    | none =>
      obtain ⟨hgt, hset, hcalm⟩ := hm.failed rfl
      exact withOwned_none (Gives.exec_bind (setError_exec _)
        (Gives.pure (Read.of_failure hgt hextt rfl fun hc => hcalm ⟨hc, trivial⟩)))
    | some it =>
      obtain ⟨hgt, herrt, hfresh, hit⟩ := hm.made it rfl
      have hloop := readItems_spec (it ::ₘ own) message hbase
        (fun r hr => Multiset.mem_cons_of_mem (hown r hr)) (hext.length_le.trans hfresh)
        (Multiset.mem_cons_self it own) hstart ho hscript (yields.length + 1) 0 [] t hgt hextt
        (herrt.trans herr) hit (Nat.zero_le _) (by omega)
      refine Read.scope hbase.counted hown ?_
      simp only [Option.map_some, Option.getD_some]
      refine hloop.bind fun names u hr => ?_
      have hcalm : Calm s → Calm u := fun hc => hr.calm (hm.calm hc)
      rw [hnames]
      cases names with
      | none =>
        obtain ⟨hset, hwhy⟩ := hr.failed rfl
        exact Gives.pure ⟨hr.good, hr.grows, hcalm, fun _ => ⟨hset, fun hc => hwhy (hm.calm hc)⟩,
          fun _ h => by cases h⟩
      | some names =>
        refine Gives.exec_bind (a := u) rfl (Gives.ite (fun hset => ?_) fun hset => ?_)
        · obtain ⟨e, he⟩ := Option.isSome_iff_exists.mp hset
          exact Gives.pure ⟨hr.good, hr.grows, hcalm,
            fun _ => ⟨hset, fun hc => ⟨e, hr.raised rfl (hm.calm hc) e he, he⟩⟩,
            fun _ h => by cases h⟩
        · have hok : u.error = none := by simpa using hset
          obtain ⟨tail, rfl, htail⟩ := hr.read names rfl hok
          refine Gives.pure ⟨hr.good, hr.grows, hcalm, fun h => (by cases h), fun a ha => ?_⟩
          cases ha
          exact ⟨hok.trans herr.symm, htail⟩

end Iterables

/-! ## Arguments -/

section Arguments
variable {v : PyValue} {o : Nat} {args : CallArgs}

/-- The objects that are passed are there. None of them is an iterator, which the call would
move on. -/
def Live (h : Heap PyValue) (args : CallArgs) : Prop :=
  ∀ o ∈ args.positional ++ args.keywords.map Prod.snd,
    ∃ v, valueAt h o = some v ∧ v.isIterator = false

theorem Live.get {i : Nat} (hlive : Live base args) (ho : args.get i = some o) :
    ∃ v, valueAt base o = some v ∧ v.isIterator = false := by
  refine hlive o (List.mem_append.mpr ?_)
  unfold CallArgs.get at ho
  split_ifs at ho
  · exact .inl (List.mem_of_getElem? ho)
  · obtain ⟨name, -, hlookup⟩ := Option.bind_eq_some_iff.mp ho
    obtain ⟨l₁, l₂, hkeywords, -⟩ := List.lookup_eq_some_iff.mp hlookup
    exact .inr (List.mem_map.mpr ⟨(name, o), by rw [hkeywords]; simp, rfl⟩)

theorem convertZ_spec (hg : Good start own s.heap) (hext : Extends base s.heap)
    (ho : valueAt base o = some v) :
    Gives (convertZ o) s (Read start own base s (calleeOf base (some o))) := by
  have hos := hext.valueAt_some ho
  unfold convertZ calleeOf
  refine Gives.exec_bind (lookUp_exec hos) ?_
  simp only [ho]
  cases v with
  | none => exact Gives.pure (Read.of_ok hg hext rfl)
  | str text =>
    refine Read.bind (pyUnicodeAsUTF8AndSize_spec hg hext hos) rfl fun a t hr => ?_
    refine Gives.ite (fun hnul => ?_) fun hnul => ?_
    · rw [if_pos hnul]
      exact Gives.exec_bind (setError_exec _) (Gives.pure (Read.of_error hr.good hr.grows rfl))
    · rw [if_neg hnul]
      exact Gives.pure (Read.of_ok hr.good hr.grows rfl)
  | _ => exact Gives.exec_bind (setError_exec _) (Gives.pure (Read.of_error hg hext rfl))

theorem parseArgs_spec (hg : Good start own s.heap) (hext : Extends base s.heap)
    (hlive : Live base args) :
    Gives (parseArgs args) s (Read start own base s (parsedOf base args)) := by
  unfold parseArgs parsedOf
  have herror : Gives (do setError .apiTypeError; return none) s
      (Read start own base s (.error .apiTypeError : Except PyError Parsed)) :=
    Gives.exec_bind (setError_exec _) (Gives.pure (Read.of_error hg hext rfl))
  refine Gives.ite (fun hcount => ?_) fun hcount => ?_
  · rw [if_pos hcount]
    exact herror
  · rw [if_neg hcount]
    cases hfirst : args.get 0 with
    | none => exact herror
    | some arguments =>
      refine Read.bind ?_ rfl fun callee t hr => ?_
      · cases hsecond : args.get 1 with
        | none => exact Gives.pure (Read.of_ok hg hext rfl)
        | some callee =>
          obtain ⟨v, hv, -⟩ := hlive.get hsecond
          exact convertZ_spec hg hext hv
      · refine Gives.ite (fun hleft => ?_) fun hleft => ?_
        · rw [if_pos hleft]
          exact Gives.exec_bind (setError_exec _) (Gives.pure (Read.of_error hr.good hr.grows rfl))
        · rw [if_neg hleft]
          exact Gives.pure (Read.of_ok hr.good hr.grows rfl)

theorem readParamNames_spec {paramNames : Option Nat} (hbase : Good start own₀ base)
    (hown : ∀ r ∈ own₀, r ∈ own) (hlen : base.length = start) (hg : Good start own s.heap)
    (hext : Extends base s.heap) (herr : s.error = none)
    (hlive : ∀ o, paramNames = some o → ∃ v, valueAt base o = some v ∧ v.isIterator = false) :
    Gives (readParamNames paramNames) s (Read start own base s (paramNamesOf base paramNames)) := by
  unfold readParamNames paramNamesOf
  cases paramNames with
  | none => exact Gives.pure (Read.of_ok hg hext rfl)
  | some o =>
    obtain ⟨v, ho, hiterator⟩ := hlive o rfl
    refine Gives.exec_bind (lookUp_exec (hext.valueAt_some ho)) ?_
    simp only [ho, Option.some.injEq]
    refine Gives.ite (fun hnone => ?_) fun hnone => ?_
    · rw [if_pos hnone]
      exact Gives.pure (Read.of_ok hg hext rfl)
    · rw [if_neg hnone]
      refine (readNames_spec parametersMessage hbase hown hlen hg hext herr ho
        hiterator).bind ?_
      intro names t hr
      refine Gives.pure ⟨hr.good, hr.grows, hr.calm, fun hnone' => ?_, fun a ha => ?_⟩
      · obtain ⟨hset, hwhy⟩ := hr.failed (Option.map_eq_none_iff.mp hnone')
        refine ⟨hset, fun hc => ?_⟩
        obtain ⟨e, he, hte⟩ := hwhy hc
        exact ⟨e, by rw [he]; rfl, hte⟩
      · obtain ⟨a', ha', rfl⟩ := Option.map_eq_some_iff.mp ha
        obtain ⟨hsame, hnames⟩ := hr.read a' ha'
        exact ⟨hsame, by rw [hnames]; rfl⟩

end Arguments

end SwapDetector.Proofs.PythonNames
