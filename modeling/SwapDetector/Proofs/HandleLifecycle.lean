import Mathlib.Algebra.BigOperators.Group.List.Basic
import Mathlib.Algebra.Order.Group.Multiset
import SwapDetector.Model.StatisticsHandles
import SwapDetector.Model.SwappedArgChecker

/-! # The handles of checkers are closed in the end

Whatever connections fail to open and whatever queries are not prepared, a program uses open
handles only, and what is open at any time belongs to the checkers there are.
-/
namespace SwapDetector.Proofs.HandleLifecycle
open SwapDetector.Base.Exec SwapDetector.Base.Postconditions SwapDetector.Base.DatabaseHandles
open SwapDetector.Model SwapDetector.Model.Bytes SwapDetector.Model.StatisticsHandles

/-! ## What statistics hold -/

def connections (st : Statistics) : Multiset Nat := ↑st.db.toList

def statementsOver (db : Nat) (query : Option Nat) : Multiset (Nat × Nat) :=
  ↑(query.toList.map fun stmt => (stmt, db))

def statements (st : Statistics) : Multiset (Nat × Nat) :=
  match st.db with
  | some db => statementsOver db st.morphValueQuery + statementsOver db st.valueQuery
  | none => 0

/-- Statements are over the connection there is. -/
def Connected (st : Statistics) : Prop :=
  st.db = none → st.morphValueQuery = none ∧ st.valueQuery = none

theorem connected_of_valid {st : Statistics} (h : st.valid = true) : Connected st := by
  intro hdb
  simp [Statistics.valid, hdb] at h

theorem snd_mem_of_mem_statements {st : Statistics} {x : Nat × Nat} (hx : x ∈ statements st) :
    x.2 ∈ connections st := by
  obtain ⟨db, morphValueQuery, valueQuery⟩ := st
  cases db with
  | none => exact absurd hx (Multiset.notMem_zero x)
  | some db =>
    have hdb : x.2 = db := by
      rcases Multiset.mem_add.mp hx with hx | hx <;>
      · obtain ⟨stmt, -, rfl⟩ := List.mem_map.mp hx
        rfl
    rw [hdb]
    exact List.mem_singleton_self db

section Statistics
variable {dbs : Multiset Nat} {stmts : Multiset (Nat × Nat)} {s : Handles}

theorem statistics_new_spec (path : ByteString) (hs : Open dbs stmts s) :
    Gives (Statistics.new path) s fun st t =>
      Connected st ∧ Open (connections st + dbs) (statements st + stmts) t := by
  have hnone : Connected ⟨none, none, none⟩ := fun _ => ⟨rfl, rfl⟩
  unfold Statistics.new
  refine Gives.ite (fun _ => ?_) fun _ => ?_
  · exact Gives.pure ⟨hnone, by simpa [connections, statements] using hs⟩
  · refine (openConnection_spec hs).bind ?_
    rintro ⟨ok, handle⟩ t hopened
    rcases hopened with ⟨hr, ht⟩ | ⟨db, hdb, ht⟩
    · cases hr
      exact Gives.pure ⟨hnone, by simpa [connections, statements] using ht⟩
    · obtain rfl : handle = some db := hdb
      cases ok with
      | false =>
        refine Gives.pure ⟨fun h => (by cases h), ?_⟩
        simpa [connections, statements, statementsOver] using ht
      | true =>
        have hprepare {query : Option Nat} {u : Handles} {others : Multiset (Nat × Nat)}
            (h : query = none ∧ Open (db ::ₘ dbs) others u ∨
              ∃ stmt, query = some stmt ∧ Open (db ::ₘ dbs) ((stmt, db) ::ₘ others) u) :
            Open (db ::ₘ dbs) (statementsOver db query + others) u := by
          rcases h with ⟨rfl, hu⟩ | ⟨stmt, rfl, hu⟩
          · simpa [statementsOver] using hu
          · simpa [statementsOver] using hu
        refine (prepare_spec ht (Multiset.mem_cons_self db dbs)).bind fun m u hm => ?_
        refine (prepare_spec (hprepare hm) (Multiset.mem_cons_self db dbs)).bind fun v w hv => ?_
        refine Gives.pure ⟨fun h => (by cases h), ?_⟩
        have hboth := hprepare hv
        rwa [← add_assoc, add_comm (statementsOver db v)] at hboth

theorem release_finalize_spec (query : Option Nat) {db : Nat}
    (hs : Open dbs (statementsOver db query + stmts) s) :
    Gives (release finalize query) s fun _ t => Open dbs stmts t := by
  cases query with
  | none => exact Gives.pure (by simpa [statementsOver] using hs)
  | some stmt => exact finalize_spec hs

theorem statistics_delete_spec {st : Statistics} (hconnected : Connected st)
    (hs : Open (connections st + dbs) (statements st + stmts) s)
    (hstmts : ∀ x ∈ stmts, x.2 ∈ dbs) : Gives st.delete s fun _ t => Open dbs stmts t := by
  obtain ⟨db, morphValueQuery, valueQuery⟩ := st
  unfold Statistics.delete
  cases db with
  | none =>
    obtain ⟨rfl, rfl⟩ := hconnected rfl
    have hs' : Open dbs stmts s := by simpa [connections, statements] using hs
    exact Gives.exec_bind (a := PUnit.unit) rfl (Gives.exec_bind (a := PUnit.unit) rfl (Gives.pure hs'))
  | some db =>
    have hs' : Open (db ::ₘ dbs) (statementsOver db morphValueQuery +
        (statementsOver db valueQuery + stmts)) s := by
      rw [← add_assoc]
      exact hs
    refine (release_finalize_spec morphValueQuery hs').bind fun _ t ht => ?_
    refine (release_finalize_spec valueQuery ht).bind fun _ u hu => ?_
    refine close_spec hu fun hdb => ?_
    -- another statement over the connection would belong to another checker
    obtain ⟨x, hx, rfl⟩ := Multiset.mem_map.mp hdb
    exact (Multiset.nodup_cons.mp hu.nodup_connections).1 (hstmts x hx)

/-! ## Lookups -/

theorem withBinder_spec {stmt db : Nat} (hs : Open dbs stmts s) (hstmt : (stmt, db) ∈ stmts)
    (parameters : Nat) {body : HandlesM Unit}
    (hbody : ∀ t, Open dbs stmts t → Gives body t fun _ u => Open dbs stmts u) :
    Gives (withBinder stmt parameters body) s fun _ t => Open dbs stmts t := by
  unfold withBinder
  refine (Gives.forM _ (fun _ _ _ ht => useStatement_spec ht hstmt) hs).bind fun _ t ht => ?_
  refine (hbody t ht).bind fun _ u hu => ?_
  exact (useStatement_spec hu hstmt).bind fun _ v hv => useStatement_spec hv hstmt

theorem stepRow_spec {stmt db : Nat} (hs : Open dbs stmts s) (hstmt : (stmt, db) ∈ stmts)
    (columns : Nat) (row : Bool) :
    Gives (stepRow stmt columns row) s fun _ t => Open dbs stmts t := by
  unfold stepRow
  refine (useStatement_spec hs hstmt).bind fun _ t ht => Gives.ite (fun _ => ?_) fun _ => Gives.pure ht
  exact Gives.forM _ (fun _ _ _ hu => useStatement_spec hu hstmt) ht

theorem lookUp_spec {st : Statistics} (hvalid : st.valid = true) (hs : Open dbs stmts s)
    (hstmts : ∀ x ∈ statements st, x ∈ stmts) (lookup : Lookup) :
    Gives (st.lookUp lookup) s fun _ t => Open dbs stmts t := by
  obtain ⟨_ | db, _ | m, _ | v⟩ := st <;> try cases hvalid
  have hm : (m, db) ∈ stmts := hstmts _ (by simp [statements, statementsOver])
  have hv : (v, db) ∈ stmts := hstmts _ (by simp [statements, statementsOver])
  cases lookup with
  | weightForMorphemeAtPos row =>
    exact Gives.exec_bind (a := v) rfl
      (withBinder_spec hs hv 3 fun _ ht => stepRow_spec ht hv 1 row)
  | morphemesAndWeightsAtPos rows =>
    refine Gives.exec_bind (a := m) rfl (withBinder_spec hs hm 2 fun t ht => ?_)
    refine (Gives.forM _ (fun _ _ _ hu => stepRow_spec hu hm 2 true) ht).bind fun _ u hu => ?_
    exact stepRow_spec hu hm 2 false

end Statistics

/-! ## Programs -/

def heldConnections (c : Checker) : Multiset Nat := (c.stats.map connections).getD 0

def heldStatements (c : Checker) : Multiset (Nat × Nat) := (c.stats.map statements).getD 0

/-- Exactly what the checkers hold is open, and the statistics they hold are valid. -/
structure Holds (cs : List Checker) (s : Handles) : Prop where
  valid : ∀ c ∈ cs, ∀ st, c.stats = some st → st.valid = true
  exactly : Open (cs.map heldConnections).sum (cs.map heldStatements).sum s

section Programs
variable {cs : List Checker} {c : Checker} {s : Handles}

theorem snd_mem_held {cs : List Checker} {x : Nat × Nat} (hx : x ∈ (cs.map heldStatements).sum) :
    x.2 ∈ (cs.map heldConnections).sum := by
  induction cs with
  | nil => exact absurd hx (Multiset.notMem_zero x)
  | cons c cs ih =>
    rw [List.map_cons, List.sum_cons, Multiset.mem_add] at hx ⊢
    refine hx.imp (fun hx => ?_) ih
    obtain ⟨_ | st⟩ := c
    · exact absurd hx (Multiset.notMem_zero x)
    · exact snd_mem_of_mem_statements hx

theorem mem_held (hc : c ∈ cs) {x : Nat × Nat} (hx : x ∈ heldStatements c) :
    x ∈ (cs.map heldStatements).sum := by
  obtain ⟨before, after, rfl⟩ := List.append_of_mem hc
  simp [hx]

theorem new_spec (hs : Holds cs s) (modelPath : ByteString) :
    Gives (Checker.new modelPath) s fun c t => Holds (cs ++ [c]) t := by
  have hempty {t : Handles} (ht : Open (cs.map heldConnections).sum (cs.map heldStatements).sum t) :
      Holds (cs ++ [⟨none⟩]) t := by
    refine ⟨fun c hc st hst => ?_, by simpa [heldConnections, heldStatements] using ht⟩
    rcases List.mem_append.mp hc with hc | hc
    · exact hs.valid c hc st hst
    · cases List.mem_singleton.mp hc
      cases hst
  unfold Checker.new
  refine Gives.ite (fun _ => Gives.pure (hempty hs.exactly)) fun _ => ?_
  refine (statistics_new_spec modelPath hs.exactly).bind fun st t ⟨hconnected, ht⟩ => ?_
  refine Gives.ite (fun hvalid => ?_) fun _ => ?_
  · refine Gives.pure ⟨fun c hc st' hst => ?_, ?_⟩
    · rcases List.mem_append.mp hc with hc | hc
      · exact hs.valid c hc st' hst
      · cases List.mem_singleton.mp hc
        cases hst
        exact hvalid
    · simpa [heldConnections, heldStatements, add_comm] using ht
  · refine (statistics_delete_spec hconnected ht fun x hx => snd_mem_held hx).bind fun _ u hu => ?_
    exact Gives.pure (hempty hu)

theorem checkSite_spec (hs : Holds cs s) (hc : c ∈ cs) (lookups : List Lookup) :
    Gives (c.checkSite lookups) s fun _ t => Holds cs t := by
  unfold Checker.checkSite
  cases hstats : c.stats with
  | none => exact Gives.pure hs
  | some st =>
    have hheld (x : Nat × Nat) (hx : x ∈ statements st) : x ∈ (cs.map heldStatements).sum := by
      have hst : heldStatements c = statements st := by
        rw [heldStatements, hstats, Option.map_some, Option.getD_some]
      exact mem_held hc (hst ▸ hx)
    refine Gives.forM (I := fun t => Holds cs t) lookups (fun lookup _ t ht => ?_) hs
    exact (lookUp_spec (hs.valid c hc st hstats) ht.exactly hheld lookup).weaken
      fun _ u hu => ⟨hs.valid, hu⟩

/-- Deleting one of the checkers. -/
theorem delete_spec {before after : List Checker} (hs : Holds (before ++ c :: after) s) :
    Gives c.delete s fun _ t => Holds (before ++ after) t := by
  have hvalid : ∀ c' ∈ before ++ after, ∀ st, c'.stats = some st → st.valid = true := by
    intro c' hc'
    refine hs.valid c' ?_
    rcases List.mem_append.mp hc' with h | h
    · exact List.mem_append_left _ h
    · exact List.mem_append_right _ (List.mem_cons_of_mem c h)
  have hopen : Open (heldConnections c + ((before ++ after).map heldConnections).sum)
      (heldStatements c + ((before ++ after).map heldStatements).sum) s := by
    have hexactly := hs.exactly
    simp only [List.map_append, List.map_cons, List.sum_append, List.sum_cons] at hexactly ⊢
    rwa [add_left_comm, add_left_comm (heldStatements c)]
  obtain ⟨_ | st⟩ := c
  · refine Gives.pure ⟨hvalid, ?_⟩
    simpa [heldConnections, heldStatements] using hopen
  · refine (statistics_delete_spec (connected_of_valid (hs.valid ⟨some st⟩ (by simp) st rfl)) hopen
      fun x hx => snd_mem_held hx).weaken fun _ t ht => ⟨hvalid, ht⟩

theorem perform_spec (hs : Holds cs s) (event : Event) :
    Gives (perform cs event) s fun cs' t => Holds cs' t := by
  cases event with
  | create modelPath => exact (new_spec hs modelPath).bind fun c t ht => Gives.pure ht
  | checkSite k lookups =>
    simp only [perform]
    cases hk : cs[k]? with
    | none => exact Gives.pure hs
    | some c =>
      exact (checkSite_spec hs (List.mem_of_getElem? hk) lookups).bind fun _ t ht => Gives.pure ht
  | delete k =>
    simp only [perform]
    cases hk : cs[k]? with
    | none => exact Gives.pure hs
    | some c =>
      obtain ⟨hlt, hck⟩ := List.getElem?_eq_some_iff.mp hk
      have hsplit : cs = cs.take k ++ c :: cs.drop (k + 1) := by
        rw [← hck, List.getElem_cons_drop, List.take_append_drop]
      have hdelete : Gives c.delete s fun _ t => Holds (cs.take k ++ cs.drop (k + 1)) t := by
        refine delete_spec ?_
        rwa [← hsplit]
      refine hdelete.bind fun _ t ht => Gives.pure ?_
      rwa [List.eraseIdx_eq_take_drop_succ]

/-- **No handle is lost**: whatever fails, a program never uses a handle that is not open, and what
is open in the end is what the checkers that are left hold. When all of them are deleted, every
connection and every statement is closed. -/
theorem program_holds (events : List Event) (openings : Nat → Opening) (prepares : Nat → Bool) :
    ∃ cs t, exec (program events) (noHandles openings prepares) = (.ok cs, t) ∧ Holds cs t ∧
      (cs = [] → t.connections = 0 ∧ t.statements = 0) := by
  have hstart : Holds [] (noHandles openings prepares) :=
    ⟨fun _ hc => absurd hc List.not_mem_nil, rfl, rfl, Multiset.nodup_zero, Multiset.nodup_zero,
      fun _ h => absurd h (Multiset.notMem_zero _), fun _ h => absurd h (Multiset.notMem_zero _)⟩
  obtain ⟨cs, t, hrun, ht⟩ := Gives.foldlM (I := fun cs t => Holds cs t) events
    (fun cs event _ s hs => perform_spec hs event) hstart
  refine ⟨cs, t, hrun, ht, ?_⟩
  rintro rfl
  exact ⟨ht.exactly.connections, ht.exactly.statements⟩

end Programs

/-! ## The checkers that keep their statistics -/

section Files
variable {F : Type}

/-- What the library decides about a file. -/
structure Decides (file : StatsDatabase.ModelFile F) (s : Handles) : Prop where
  opening : s.openings 0 = .opened ↔ file.weights.isSome = true
  prepares_morph_value : s.prepares 0 = file.preparesMorphValue
  prepares_value : s.prepares 1 = file.preparesValue

theorem prepare_decides {s : Handles} {db : Nat} (hdb : db ∈ s.connections) :
    Gives (prepare db) s fun query t => query.isSome = s.prepares 0 ∧
      t.connections = s.connections ∧ t.prepares = fun k => s.prepares (k + 1) := by
  have hrun := exec_prepare hdb
  cases hprepares : s.prepares 0 with
  | false =>
    rw [hprepares] at hrun
    exact Gives.of_exec hrun ⟨rfl, rfl, rfl⟩
  | true =>
    rw [hprepares] at hrun
    exact Gives.of_exec hrun ⟨rfl, rfl, rfl⟩

theorem statistics_new_valid {disk : CString → StatsDatabase.ModelFile F} {path : ByteString}
    {s : Handles} (hs : Decides (disk (cStr path)) s) :
    Gives (Statistics.new path) s fun st _ =>
      st.valid = (StatsDatabase.Statistics.new disk path).valid := by
  have hclosed (h : s.openings 0 ≠ .opened) : (StatsDatabase.Statistics.new disk path).valid = false := by
    rw [StatsDatabase.Statistics.new, if_neg fun hfile => h (hs.opening.mpr hfile.2)]
    rfl
  unfold Statistics.new
  refine Gives.ite (fun hpath => Gives.pure ?_) fun hpath => ?_
  · rw [StatsDatabase.Statistics.new, if_neg fun hfile => hfile.1 hpath]
    rfl
  · by_cases hnone : s.openings 0 = .noHandle
    · refine Gives.exec_bind (exec_openConnection_noHandle hnone) (Gives.pure ?_)
      rw [hclosed (by simp [hnone])]
      rfl
    · refine Gives.exec_bind (exec_openConnection hnone) ?_
      by_cases hopened : s.openings 0 = .opened
      · have hfile : path ≠ [] ∧ (disk (cStr path)).weights.isSome := ⟨hpath, hs.opening.mp hopened⟩
        rw [StatsDatabase.Statistics.new, if_pos hfile, decide_eq_true hopened]
        refine (prepare_decides (Multiset.mem_cons_self _ _)).bind fun m t ⟨hm, hdbs, hrest⟩ => ?_
        refine (prepare_decides (hdbs ▸ Multiset.mem_cons_self _ _)).bind fun v u ⟨hv, _, _⟩ => ?_
        refine Gives.pure ?_
        have hfirst : m.isSome = (disk (cStr path)).preparesMorphValue :=
          hm.trans hs.prepares_morph_value
        have hsecond : v.isSome = (disk (cStr path)).preparesValue := by
          rw [hv, hrest, ← hs.prepares_value]
        obtain ⟨db, hdb⟩ := Option.isSome_iff_exists.mp hfile.2
        simp only [Statistics.valid, StatsDatabase.Statistics.valid, hfirst, hsecond, hdb, Option.isSome_some]
        cases (disk (cStr path)).preparesMorphValue <;> cases (disk (cStr path)).preparesValue <;> rfl
      · rw [hclosed hopened, decide_eq_false hopened]
        exact Gives.pure rfl

/-- A checker keeps its statistics exactly when they can be read. -/
theorem new_keeps [Base.ExactFloat.FloatArith F] (opts : Types.CheckerConfiguration F)
    (disk : CString → StatsDatabase.ModelFile F) {cs : List Checker} {s : Handles}
    (hs : Holds cs s) (hdisk : Decides (disk (cStr opts.modelPath)) s) :
    Gives (Checker.new opts.modelPath) s fun c _ =>
      c.stats.isSome = (SwappedArgChecker.Checker.new opts disk).stats.isSome := by
  unfold Checker.new SwappedArgChecker.Checker.new
  by_cases hpath : opts.modelPath = []
  · rw [if_pos hpath]
    exact Gives.pure (by simp [hpath])
  · rw [if_neg hpath]
    refine ((statistics_new_valid hdisk).both (statistics_new_spec _ hs.exactly)).bind ?_
    rintro st t ⟨hvalid, hconnected, ht⟩
    simp only [ne_eq, hpath, not_false_eq_true, true_and, ← hvalid]
    refine Gives.ite (fun hst => Gives.pure (by simp [hst])) fun hst => ?_
    refine (statistics_delete_spec hconnected ht fun x hx => snd_mem_held hx).bind fun _ u _ => ?_
    exact Gives.pure (by simp [hst])

end Files

end SwapDetector.Proofs.HandleLifecycle
