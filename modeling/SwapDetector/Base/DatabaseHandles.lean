import Mathlib.Data.Multiset.Filter
import SwapDetector.Base.Postconditions

/-! # Connections and statements of an SQL library

A program opens connections, prepares statements on them and gives both back. Using a handle
that is not open is an error of the program. Closing a connection that still has statements
does nothing, and the connection stays open.
-/
namespace SwapDetector.Base.DatabaseHandles
open SwapDetector.Base.Exec SwapDetector.Base.Postconditions

/-! ## The library -/

/-- How an attempt to open a connection ends. -/
inductive Opening where
  | opened
  /-- The attempt fails, and there is a handle to close nevertheless. -/
  | failed
  /-- There is no memory for a handle. -/
  | noHandle
  deriving DecidableEq

structure Handles where
  /-- Handles are never used twice. -/
  next : Nat
  connections : Multiset Nat
  /-- The statements with their connections. -/
  statements : Multiset (Nat × Nat)
  /-- How the coming attempts to open a connection end. -/
  openings : Nat → Opening
  /-- Which of the coming statements are prepared. -/
  prepares : Nat → Bool

inductive Misuse where
  | connection (db : Nat)
  | statement (stmt : Nat)
  /-- An assertion of the program does not hold. -/
  | assertion
  deriving DecidableEq

abbrev HandlesM := ExceptT Misuse (StateM Handles)

/-- Whether the connection is open, and its handle. -/
def openConnection : HandlesM (Bool × Option Nat) := do
  let s ← get
  let rest := { s with openings := fun k => s.openings (k + 1) }
  match s.openings 0 with
  | .noHandle =>
    set rest
    return (false, none)
  | .failed =>
    set { rest with next := s.next + 1, connections := s.next ::ₘ s.connections }
    return (false, some s.next)
  | .opened =>
    set { rest with next := s.next + 1, connections := s.next ::ₘ s.connections }
    return (true, some s.next)

def prepare (db : Nat) : HandlesM (Option Nat) := do
  let s ← get
  let rest := { s with prepares := fun k => s.prepares (k + 1) }
  if db ∉ s.connections then
    throw (.connection db)
  else if s.prepares 0 then
    set { rest with next := s.next + 1, statements := (s.next, db) ::ₘ s.statements }
    return some s.next
  else
    set rest
    return none

/-- What is done with a statement while it is prepared. -/
def useStatement (stmt : Nat) : HandlesM Unit := do
  let s ← get
  if stmt ∈ s.statements.map Prod.fst then return else throw (.statement stmt)

def finalize (stmt : Nat) : HandlesM Unit := do
  let s ← get
  if stmt ∈ s.statements.map Prod.fst then
    set { s with statements := s.statements.filter fun x => x.1 ≠ stmt }
  else throw (.statement stmt)

def close (db : Nat) : HandlesM Unit := do
  let s ← get
  if db ∉ s.connections then
    throw (.connection db)
  else if db ∈ s.statements.map Prod.snd then
    return
  else
    set { s with connections := s.connections.erase db }

section Runs
variable {s : Handles} {db : Nat}

theorem exec_openConnection_noHandle (h : s.openings 0 = .noHandle) : exec openConnection s =
    (.ok (false, none), { s with openings := fun k => s.openings (k + 1) }) := by
  unfold openConnection
  refine (exec_bind_ok (a := s) rfl).trans ?_
  simp only [h]
  rfl

theorem exec_openConnection (h : s.openings 0 ≠ .noHandle) : exec openConnection s =
    (.ok (decide (s.openings 0 = .opened), some s.next), { s with
      next := s.next + 1
      connections := s.next ::ₘ s.connections
      openings := fun k => s.openings (k + 1) }) := by
  unfold openConnection
  refine (exec_bind_ok (a := s) rfl).trans ?_
  cases hopening : s.openings 0 with
  | noHandle => exact absurd hopening h
  | failed => rfl
  | opened => rfl

theorem exec_prepare (hdb : db ∈ s.connections) : exec (prepare db) s =
    if s.prepares 0 then
      (.ok (some s.next), { s with
        next := s.next + 1
        statements := (s.next, db) ::ₘ s.statements
        prepares := fun k => s.prepares (k + 1) })
    else (.ok none, { s with prepares := fun k => s.prepares (k + 1) }) := by
  unfold prepare
  refine (exec_bind_ok (a := s) rfl).trans ?_
  simp only [hdb, not_true_eq_false, if_false]
  cases s.prepares 0 <;> rfl

end Runs

/-! ## What is open -/

/-- Exactly these connections and statements are open. -/
structure Open (dbs : Multiset Nat) (stmts : Multiset (Nat × Nat)) (s : Handles) : Prop where
  connections : s.connections = dbs
  statements : s.statements = stmts
  nodup_connections : dbs.Nodup
  nodup_statements : (stmts.map Prod.fst).Nodup
  old_connections : ∀ db ∈ dbs, db < s.next
  old_statements : ∀ x ∈ stmts, x.1 < s.next

section Rules
variable {dbs : Multiset Nat} {stmts : Multiset (Nat × Nat)} {s : Handles} {db stmt : Nat}

theorem Open.opened (hs : Open dbs stmts s) {t : Handles} (hnext : t.next = s.next + 1)
    (hdbs : t.connections = s.next ::ₘ s.connections) (hstmts : t.statements = s.statements) :
    Open (s.next ::ₘ dbs) stmts t where
  connections := by rw [hdbs, hs.connections]
  statements := hstmts.trans hs.statements
  nodup_connections :=
    Multiset.nodup_cons.mpr ⟨fun h => absurd (hs.old_connections _ h) (Nat.lt_irrefl _),
      hs.nodup_connections⟩
  nodup_statements := hs.nodup_statements
  old_connections := by
    intro db hdb
    rw [hnext]
    rcases Multiset.mem_cons.mp hdb with rfl | hdb
    · exact Nat.lt_succ_self _
    · exact Nat.lt_succ_of_lt (hs.old_connections db hdb)
  old_statements := fun x hx => hnext ▸ Nat.lt_succ_of_lt (hs.old_statements x hx)

theorem Open.prepared (hs : Open dbs stmts s) {t : Handles} (hnext : t.next = s.next + 1)
    (hdbs : t.connections = s.connections) (hstmts : t.statements = (s.next, db) ::ₘ s.statements) :
    Open dbs ((s.next, db) ::ₘ stmts) t where
  connections := hdbs.trans hs.connections
  statements := by rw [hstmts, hs.statements]
  nodup_connections := hs.nodup_connections
  nodup_statements := by
    rw [Multiset.map_cons, Multiset.nodup_cons]
    refine ⟨fun h => ?_, hs.nodup_statements⟩
    obtain ⟨x, hx, hxs⟩ := Multiset.mem_map.mp h
    exact absurd (hxs ▸ hs.old_statements x hx) (Nat.lt_irrefl _)
  old_connections := fun db hdb => hnext ▸ Nat.lt_succ_of_lt (hs.old_connections db hdb)
  old_statements := by
    intro x hx
    rw [hnext]
    rcases Multiset.mem_cons.mp hx with rfl | hx
    · exact Nat.lt_succ_self _
    · exact Nat.lt_succ_of_lt (hs.old_statements x hx)

theorem openConnection_spec (hs : Open dbs stmts s) :
    Gives openConnection s fun r t =>
      (r = (false, none) ∧ Open dbs stmts t) ∨ ∃ db, r.2 = some db ∧ Open (db ::ₘ dbs) stmts t := by
  by_cases hnone : s.openings 0 = .noHandle
  · refine Gives.of_exec (exec_openConnection_noHandle hnone) (.inl ⟨rfl, ?_⟩)
    exact ⟨hs.connections, hs.statements, hs.nodup_connections, hs.nodup_statements,
      hs.old_connections, hs.old_statements⟩
  · exact Gives.of_exec (exec_openConnection hnone) (.inr ⟨_, rfl, hs.opened rfl rfl rfl⟩)

theorem prepare_spec (hs : Open dbs stmts s) (hdb : db ∈ dbs) :
    Gives (prepare db) s fun r t =>
      (r = none ∧ Open dbs stmts t) ∨ ∃ stmt, r = some stmt ∧ Open dbs ((stmt, db) ::ₘ stmts) t := by
  have hrun := exec_prepare (hs.connections ▸ hdb : db ∈ s.connections)
  cases hprepares : s.prepares 0 with
  | false =>
    rw [hprepares] at hrun
    refine Gives.of_exec hrun (.inl ⟨rfl, ?_⟩)
    exact ⟨hs.connections, hs.statements, hs.nodup_connections, hs.nodup_statements,
      hs.old_connections, hs.old_statements⟩
  | true =>
    rw [hprepares] at hrun
    exact Gives.of_exec hrun (.inr ⟨_, rfl, hs.prepared rfl rfl rfl⟩)

theorem useStatement_spec (hs : Open dbs stmts s) (hstmt : (stmt, db) ∈ stmts) :
    Gives (useStatement stmt) s fun _ t => Open dbs stmts t := by
  unfold useStatement
  refine Gives.exec_bind rfl ?_
  rw [if_pos (hs.statements ▸ Multiset.mem_map_of_mem Prod.fst hstmt)]
  exact Gives.pure hs

theorem finalize_spec (hs : Open dbs ((stmt, db) ::ₘ stmts) s) :
    Gives (finalize stmt) s fun _ t => Open dbs stmts t := by
  have hmem : stmt ∈ s.statements.map Prod.fst := by
    rw [hs.statements]
    exact Multiset.mem_map_of_mem Prod.fst (Multiset.mem_cons_self _ _)
  have hnodup := hs.nodup_statements
  rw [Multiset.map_cons, Multiset.nodup_cons] at hnodup
  have hrest : s.statements.filter (fun x => x.1 ≠ stmt) = stmts := by
    rw [hs.statements, Multiset.filter_cons, if_neg (not_not_intro rfl), Multiset.zero_add,
      Multiset.filter_eq_self]
    rintro x hx rfl
    exact hnodup.1 (Multiset.mem_map.mpr ⟨x, hx, rfl⟩)
  unfold finalize
  refine Gives.exec_bind rfl ?_
  rw [if_pos hmem]
  refine Gives.set ⟨hs.connections, hrest, hs.nodup_connections, hnodup.2, hs.old_connections, ?_⟩
  exact fun x hx => hs.old_statements x (Multiset.mem_cons_of_mem hx)

theorem close_spec (hs : Open (db ::ₘ dbs) stmts s) (hunused : db ∉ stmts.map Prod.snd) :
    Gives (close db) s fun _ t => Open dbs stmts t := by
  have hmem : db ∈ s.connections := hs.connections ▸ Multiset.mem_cons_self _ _
  unfold close
  refine Gives.exec_bind rfl ?_
  rw [if_neg (not_not_intro hmem), if_neg (hs.statements ▸ hunused)]
  refine Gives.set ⟨?_, hs.statements, ?_, hs.nodup_statements, ?_, hs.old_statements⟩
  · rw [hs.connections, Multiset.erase_cons_head]
  · exact (Multiset.nodup_cons.mp hs.nodup_connections).2
  · exact fun db' hdb' => hs.old_connections db' (Multiset.mem_cons_of_mem hdb')

end Rules

end SwapDetector.Base.DatabaseHandles
