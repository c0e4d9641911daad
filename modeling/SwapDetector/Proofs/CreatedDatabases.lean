import Mathlib.Data.List.Find
import Mathlib.Data.List.Infix
import SwapDetector.Model.CreateStatsDB
import SwapDetector.Proofs.Lookups
import SwapDetector.Proofs.Refinement

/-! # Created databases

A statement is the insertion of the values it was made of as plain string literals exactly when
there are no quotes in the names. Over such rows the database is created, and a checker finds
in it what the rows say.
-/
namespace SwapDetector.Proofs.CreatedDatabases
open SwapDetector.Base.Decimal SwapDetector.Base.ExactFloat SwapDetector.Base.Exec
open SwapDetector.Base.QuotedText
open SwapDetector.Model.Bytes SwapDetector.Model.Types SwapDetector.Model.StatsDatabase
open SwapDetector.Model.SwappedArgChecker SwapDetector.Model.CreateStatsDB
open SwapDetector.Spec.Judgement SwapDetector.Proofs.Lookups

/-! ## Statements -/

/-- Values between quotes, the first of which has been opened. -/
def valuesText : List ByteString → ByteString
  | [] => []
  | [value] => value ++ quote :: bytes ");"
  | value :: values => value ++ quote :: (bytes ", '" ++ valuesText values)

theorem dropPrefix_append (p text : ByteString) : (p ++ text).dropPrefix? p = some text :=
  List.dropPrefix?_append_of_beq text (beq_self_eq_true p)

/-- Values are read as they were written exactly when they have no quotes. -/
theorem readValues_iff (value : ByteString) (values : List ByteString) :
    readValues values.length (valuesText (value :: values)) = some (value :: values) ↔
      ∀ v ∈ value :: values, quote ∉ v := by
  induction values generalizing value with
  | nil =>
    have hclose : (bytes ");").head? ≠ some quote := by decide
    rw [List.forall_mem_singleton, valuesText, List.length_nil, readValues]
    constructor
    · intro h
      obtain ⟨⟨v, rest⟩, hread, hlast⟩ := Option.bind_eq_some_iff.mp h
      replace hlast : (if rest = bytes ");" then some [v] else none) = some [value] := hlast
      split at hlast
      · cases hlast
        exact not_mem_of_unquote hclose hread
      · cases hlast
    · intro hvalue
      rw [unquote_append hclose hvalue]
      rfl
  | cons next values ih =>
    have hcomma : (bytes ", '" ++ valuesText (next :: values)).head? ≠ some quote := by
      have hhead : bytes ", '" = 44 :: bytes " '" := rfl
      rw [hhead, List.cons_append, List.head?_cons]
      decide
    rw [List.forall_mem_cons, ← ih, valuesText, List.length_cons, readValues]
    · constructor
      · intro h
        obtain ⟨⟨v, rest⟩, hread, h⟩ := Option.bind_eq_some_iff.mp h
        obtain ⟨text, hdrop, h⟩ := Option.bind_eq_some_iff.mp h
        obtain ⟨vs, hvs, hlist⟩ := Option.bind_eq_some_iff.mp h
        cases hlist
        have hvalue := not_mem_of_unquote hcomma hread
        rw [unquote_append hcomma hvalue] at hread
        cases hread
        rw [dropPrefix_append] at hdrop
        cases hdrop
        exact ⟨hvalue, hvs⟩
      · rintro ⟨hvalue, hvalues⟩
        rw [unquote_append hcomma hvalue]
        simp only [Option.bind_eq_bind, Option.bind_some, dropPrefix_append, hvalues]
        rfl
    · exact List.cons_ne_nil next values

/-- The values that are read are made of the text. -/
theorem mem_of_readValues {n : Nat} {text : ByteString} {values : List ByteString}
    (h : readValues n text = some values) {v : ByteString} (hv : v ∈ values) {b : Byte}
    (hb : b ∈ v) : b ∈ text := by
  induction n generalizing text values with
  | zero =>
    obtain ⟨⟨w, rest⟩, hread, hlast⟩ := Option.bind_eq_some_iff.mp h
    replace hlast : (if rest = bytes ");" then some [w] else none) = some values := hlast
    split at hlast
    · cases hlast
      rw [(eq_escape_of_unquote hread).1, ← List.mem_singleton.mp hv]
      exact List.mem_append_left _ (mem_escape hb)
    · cases hlast
  | succ n ih =>
    obtain ⟨⟨w, rest⟩, hread, h⟩ := Option.bind_eq_some_iff.mp h
    obtain ⟨text', hdrop, h⟩ := Option.bind_eq_some_iff.mp h
    obtain ⟨vs, hvs, hlist⟩ := Option.bind_eq_some_iff.mp h
    cases hlist
    obtain ⟨p, hp, -⟩ := List.dropPrefix?_eq_some_iff.mp hdrop
    replace hp : rest = p ++ text' := hp
    rw [(eq_escape_of_unquote hread).1]
    rcases List.mem_cons.mp hv with rfl | hv
    · exact List.mem_append_left _ (mem_escape hb)
    · refine List.mem_append_right _ (List.mem_cons_of_mem quote ?_)
      rw [hp]
      exact List.mem_append_right p (ih hvs hv)

section Statements
variable {F D : Type} {N : Numbers F D}

/-- A byte that is neither a quote nor a NUL. -/
def Plain (s : ByteString) : Prop := quote ∉ s ∧ 0 ∉ s

instance (s : ByteString) : Decidable (Plain s) := inferInstanceAs (Decidable (_ ∧ _))

theorem plain_decimal (n : Nat) : Plain (decimal n) := by
  constructor
  · intro h
    exact absurd (isDigit_of_mem_decimal h).1 (by decide)
  · intro h
    exact absurd (isDigit_of_mem_decimal h).1 (by decide)

def valuesOf (N : Numbers F D) (row : StatsDBRow F) : List ByteString :=
  [row.func, decimal row.argPos, row.morpheme, N.print row.weight]

theorem insertText_eq (row : StatsDBRow F) :
    insertText N row = insertHead ++ valuesText (valuesOf N row) := by
  have hnext : bytes "', '" = quote :: bytes ", '" := rfl
  have hlast : bytes "');" = quote :: bytes ");" := rfl
  rw [insertText, hnext, hlast]
  simp [valuesOf, valuesText]

theorem readLiteralInsert_head (text : ByteString) :
    readLiteralInsert (insertHead ++ text) = readValues 3 text := by
  rw [readLiteralInsert, dropPrefix_append]
  rfl

theorem mem_of_readLiteralInsert {sql : ByteString} {values : List ByteString}
    (h : readLiteralInsert sql = some values) {v : ByteString} (hv : v ∈ values) {b : Byte}
    (hb : b ∈ v) :
    b ∈ sql := by
  obtain ⟨text, hdrop, hvalues⟩ := Option.bind_eq_some_iff.mp h
  obtain ⟨p, rfl, -⟩ := List.dropPrefix?_eq_some_iff.mp hdrop
  exact List.mem_append_right p (mem_of_readValues hvalues hv hb)

theorem cStr_insertText {row : StatsDBRow F} (hprint : Plain (N.print row.weight))
    (hfunc : 0 ∉ row.func) (hmorpheme : 0 ∉ row.morpheme) :
    (cStr (insertText N row)).val = insertText N row := by
  apply cStr_of_nulFree
  have hdecimal := (plain_decimal row.argPos).2
  have hhead : (0 : Byte) ∉ insertHead := by decide
  have hnext : (0 : Byte) ∉ bytes ", '" := by decide
  have hlast : (0 : Byte) ∉ bytes ");" := by decide
  have hquote : (0 : Byte) ≠ quote := by decide
  rw [insertText_eq]
  simp [valuesOf, valuesText, hhead, hnext, hlast, hquote, hfunc, hdecimal, hmorpheme, hprint.2]

/-- **Statements**: the statement of a row has the values of the row for its four string literals
exactly when the names have neither quotes nor NULs. -/
theorem insertText_iff (row : StatsDBRow F) (hprint : Plain (N.print row.weight)) :
    readLiteralInsert (cStr (insertText N row)).val = some (valuesOf N row) ↔
      Plain row.func ∧ Plain row.morpheme := by
  have hread : readLiteralInsert (insertText N row) = some (valuesOf N row) ↔
      quote ∉ row.func ∧ quote ∉ row.morpheme := by
    rw [insertText_eq, readLiteralInsert_head]
    refine (readValues_iff row.func [decimal row.argPos, row.morpheme, N.print row.weight]).trans ?_
    simp [hprint.1, (plain_decimal row.argPos).1]
  constructor
  · intro h
    have hnul {v : ByteString} (hv : v ∈ valuesOf N row) : (0 : Byte) ∉ v :=
      fun hb => (cStr (insertText N row)).property (mem_of_readLiteralInsert h hv hb)
    have hfunc := hnul (v := row.func) (by simp [valuesOf])
    have hmorpheme := hnul (v := row.morpheme) (by simp [valuesOf])
    rw [cStr_insertText hprint hfunc hmorpheme, hread] at h
    exact ⟨⟨h.1, hfunc⟩, ⟨h.2, hmorpheme⟩⟩
  · rintro ⟨hfunc, hmorpheme⟩
    rw [cStr_insertText hprint hfunc.2 hmorpheme.2, hread]
    exact ⟨hfunc.1, hmorpheme.1⟩

/-- The numbers of tests, which are 0.75 and 1. -/
def testNumbers : Numbers XRat XRat where
  print w := if w = .fin 1 then bytes "1" else bytes "0.75"
  real text := if text = bytes "1" then some (.fin 1)
    else if text = bytes "0.75" then some (.fin (3 / 4)) else none
  narrow := id

def quotedRow : StatsDBRow XRat := ⟨bytes "operator'", 0, bytes "cats", .fin 1⟩

theorem quotedRow_statement :
    readLiteralInsert (cStr (insertText testNumbers quotedRow)).val =
        some (valuesOf testNumbers quotedRow) ↔
      Plain quotedRow.func ∧ Plain quotedRow.morpheme :=
  insertText_iff quotedRow (by decide)

theorem rowOf_valuesOf {row : StatsDBRow F} (hpos : row.argPos < 2 ^ 63) :
    rowOf (valuesOf N row) =
      some ⟨cStr row.func, row.argPos, cStr row.morpheme, N.print row.weight⟩ := by
  have hdigits : (decimal row.argPos).all (IsDigit ·) = true :=
    List.all_eq_true.mpr fun b hb => decide_eq_true (isDigit_of_mem_decimal hb)
  have hvalue : numeral (decimal row.argPos) < 2 ^ 63 := by rwa [numeral_decimal]
  rw [valuesOf, rowOf, if_pos ⟨hdigits, decimal_ne_nil _, hvalue⟩, numeral_decimal]

end Statements

/-! ## Databases -/

section Databases
variable {F D : Type} {N : Numbers F D} {row : StatsDBRow F} {rows : List (StatsDBRow F)}

/-- Names and weights that statements can carry, and a position that is an integer of the
database. -/
structure Storable (N : Numbers F D) (row : StatsDBRow F) : Prop where
  func : Plain row.func
  argPos : row.argPos < 2 ^ 63
  morpheme : Plain row.morpheme
  print : Plain (N.print row.weight)

/-- A weight that survives being printed. -/
def ReadsBack (N : Numbers F D) (row : StatsDBRow F) : Prop :=
  (N.real (N.print row.weight)).map N.narrow = some row.weight

/-- A row as a checker reads it. -/
def asRow (row : StatsDBRow F) : Row F :=
  ⟨cStr row.func, row.argPos, cStr row.morpheme, row.weight⟩

section Tables
variable [FloatArith D] (other : List (Row D) → CString → Option (List (Row D)))

/-- The row of the table that a row becomes. -/
structure StoredAs (N : Numbers F D) (row : StatsDBRow F) (stored : Row D) : Prop where
  func : stored.func = cStr row.func
  arg : stored.arg = row.argPos
  morpheme : stored.morpheme = cStr row.morpheme
  value : N.real (N.print row.weight) = some stored.value
  low : FloatArith.ofRat 0 ≤ stored.value
  high : stored.value ≤ FloatArith.ofRat 1

theorem addRow_iff (hrow : Storable N row) (table table' : List (Row D)) :
    addRow N other table row = .ok table' ↔ ∃ stored, StoredAs N row stored ∧
      table' = table ++ [stored] := by
  have hread := (insertText_iff row hrow.print).mpr ⟨hrow.func, hrow.morpheme⟩
  have hexec : sqlite3Exec N other table (cStr (insertText N row)) = insertRow N table
      ⟨cStr row.func, row.argPos, cStr row.morpheme, N.print row.weight⟩ := by
    rw [sqlite3Exec, hread, Option.bind_some, rowOf_valuesOf hrow.argPos]
  rw [addRow, hexec, insertRow]
  cases hvalue : N.real (N.print row.weight) with
  | none =>
    refine iff_of_false (fun h => (by cases h)) ?_
    rintro ⟨stored, hstored, -⟩
    rw [hstored.value] at hvalue
    cases hvalue
  | some value =>
    by_cases hrange : FloatArith.ofRat 0 ≤ value ∧ value ≤ FloatArith.ofRat 1
    · simp only [if_pos hrange]
      constructor
      · intro h
        cases h
        exact ⟨_, ⟨rfl, rfl, rfl, hvalue, hrange.1, hrange.2⟩, rfl⟩
      · rintro ⟨⟨func, arg, morpheme, value'⟩, ⟨rfl, rfl, rfl, hvalue', -, -⟩, rfl⟩
        obtain rfl : value' = value := Option.some.inj (hvalue'.symm.trans hvalue)
        rfl
    · simp only [if_neg hrange]
      refine iff_of_false (fun h => (by cases h)) ?_
      rintro ⟨stored, hstored, -⟩
      obtain rfl : stored.value = value := Option.some.inj (hstored.value.symm.trans hvalue)
      exact hrange ⟨hstored.low, hstored.high⟩

theorem addRows_iff (hrows : ∀ row ∈ rows, Storable N row) (table table' : List (Row D)) :
    rows.foldlM (addRow N other) table = .ok table' ↔ ∃ stored,
      List.Forall₂ (StoredAs N) rows stored ∧ table' = table ++ stored := by
  induction rows generalizing table with
  | nil =>
    constructor
    · intro h
      cases h
      exact ⟨[], .nil, (List.append_nil _).symm⟩
    · rintro ⟨stored, hstored, rfl⟩
      cases hstored
      rw [List.append_nil]
      rfl
  | cons row rows ih =>
    have hrow := hrows row (List.mem_cons_self ..)
    have htail := ih fun r hr => hrows r (List.mem_cons_of_mem row hr)
    rw [List.foldlM_cons]
    constructor
    · intro h
      cases hadd : addRow N other table row with
      | error e =>
        rw [hadd] at h
        cases h
      | ok table₁ =>
        rw [hadd] at h
        obtain ⟨stored, hstored, rfl⟩ := (addRow_iff other hrow table table₁).mp hadd
        obtain ⟨more, hmore, rfl⟩ := (htail _).mp h
        exact ⟨stored :: more, .cons hstored hmore, by simp⟩
    · rintro ⟨stored, hstored, rfl⟩
      obtain ⟨first, more, hfirst, hmore, rfl⟩ := List.forall₂_cons_left_iff.mp hstored
      rw [(addRow_iff other hrow table _).mpr ⟨first, hfirst, rfl⟩]
      exact (htail _).mpr ⟨more, hmore, by simp⟩

theorem createStatsDB_iff (hrows : ∀ row ∈ rows, Storable N row) (fileName : ByteString)
    (table : List (Row D)) :
    createStatsDB N other fileName true true rows = .ok (fileName, table) ↔
      List.Forall₂ (StoredAs N) rows table := by
  have hadd := addRows_iff other hrows [] table
  rw [createStatsDB]
  cases hfold : rows.foldlM (addRow N other) [] with
  | error e =>
    rw [hfold] at hadd
    constructor
    · intro h
      cases h
    · intro h
      cases hadd.mpr ⟨table, h, rfl⟩
  | ok table₁ =>
    rw [hfold] at hadd
    constructor
    · intro h
      cases h
      obtain ⟨stored, hstored, htable⟩ := hadd.mp rfl
      rwa [htable, List.nil_append]
    · intro h
      cases hadd.mpr ⟨table, h, rfl⟩
      rfl

theorem weights_of_storedAs {table : List (Row D)} (h : List.Forall₂ (StoredAs N) rows table)
    (hweights : ∀ row ∈ rows, ReadsBack N row) :
    (modelFile N table).weights = some (rows.map asRow) := by
  rw [modelFile, Option.some_inj]
  induction h with
  | nil => rfl
  | @cons row stored rows table hstored _ ih =>
    have hread : (N.real (N.print row.weight)).map N.narrow = some row.weight :=
      hweights row (List.mem_cons_self ..)
    rw [hstored.value, Option.map_some, Option.some_inj] at hread
    rw [List.map_cons, List.map_cons, ih fun r hr => hweights r (List.mem_cons_of_mem row hr), asRow,
      hread, hstored.func, hstored.arg, hstored.morpheme]

end Tables

/-! ## Lookups -/

/-- A name without NULs is compared to what a C string carries of another one. -/
theorem cStr_eq_iff {a b : ByteString} (ha : 0 ∉ a) : cStr a = cStr b ↔ a = (cStr b).val := by
  rw [← Subtype.val_inj, cStr_of_nulFree ha]

theorem rowsAt_asRow (hrows : ∀ row ∈ rows, Storable N row) (func : ByteString) (pos : Nat) :
    rowsAt (rows.map asRow) func pos =
      (rows.filter fun row => row.func = (cStr func).val ∧ row.argPos = pos).map asRow := by
  rw [rowsAt, List.filter_map]
  congr 1
  refine List.filter_congr fun row hrow => ?_
  have hname := cStr_eq_iff (b := func) (hrows row hrow).func.2
  rw [Function.comp_apply, Bool.eq_iff_iff]
  simp [asRow, hname]

theorem weightIn_asRow (hrows : ∀ row ∈ rows, Storable N row) (morph : ByteString) :
    weightIn (rows.map asRow) morph =
      (rows.find? fun row => row.morpheme = (cStr morph).val).map StatsDBRow.weight := by
  rw [weightIn, List.find?_map, Option.map_map]
  congr 1
  refine List.find?_congr fun row hrow => ?_
  have hname := cStr_eq_iff (b := morph) (hrows row hrow).morpheme.2
  rw [Function.comp_apply, Bool.eq_iff_iff]
  simp [asRow, hname]

/-- What lookups find in a session is what the rows say: the weight of the first row of a morpheme,
and the morphemes and weights of a position in the order of the rows. Names are looked up as C
strings. -/
structure Answers (rows : List (StatsDBRow F)) (s : Session F) : Prop where
  weight : ∀ (func : ByteString) (pos : Nat) (morph : ByteString),
    (exec (weightForMorphemeAtPos func pos morph) s).1 = .ok ((rows.find? fun row =>
      row.func = (cStr func).val ∧ row.argPos = pos ∧ row.morpheme = (cStr morph).val).map
        StatsDBRow.weight)
  morphemesAndWeights : ∀ (func : ByteString) (pos : Nat),
    (exec (morphemesAndWeightsAtPos func pos) s).1 =
      .ok (rows.any fun row => row.func = (cStr func).val ∧ row.argPos = pos,
        (rows.filter fun row => row.func = (cStr func).val ∧ row.argPos = pos).map
          fun row => (row.morpheme, row.weight))

theorem ready_answers (hrows : ∀ row ∈ rows, Storable N row) :
    Answers rows (ready (some (rows.map asRow))) := by
  have hsame (func : ByteString) (pos : Nat) :
      ∀ row ∈ rows.filter fun row => row.func = func ∧ row.argPos = pos, Storable N row :=
    fun row hrow => hrows row (List.mem_of_mem_filter hrow)
  constructor
  · intro func pos morph
    rw [weightForMorphemeAtPos_steady, rowsAt_asRow hrows,
      weightIn_asRow (hsame (cStr func).val pos), List.find?_filter]
    simp only [Bool.decide_and, Bool.decide_eq_true, Bool.and_assoc]
  · intro func pos
    have hany : (!((rows.filter fun row =>
          row.func = (cStr func).val ∧ row.argPos = pos).map asRow).isEmpty) =
        rows.any fun row => row.func = (cStr func).val ∧ row.argPos = pos := by
      rw [Bool.eq_iff_iff]
      simp
    rw [morphemesAndWeightsAtPos_steady, rowsAt_asRow hrows, hany, List.map_map]
    refine congrArg Except.ok (Prod.ext rfl (List.map_congr_left fun row hrow => ?_))
    exact Prod.ext (cStr_of_nulFree (hsame (cStr func).val pos row hrow).morpheme.2) rfl

section Checkers
variable [FloatArith F]

theorem new_weights {opts : CheckerConfiguration F} {disk : CString → ModelFile F}
    {table : List (Row D)} (hpath : opts.modelPath ≠ [])
    (hfile : disk (cStr opts.modelPath) = modelFile N table) :
    (Checker.new opts disk).weights = (modelFile N table).weights := by
  simp [Checker.new, Checker.weights, Statistics.new, Statistics.valid, hpath, hfile, modelFile]

variable [FloatArith D] (other : List (Row D) → CString → Option (List (Row D)))

/-- **Round trip**: a database is created from storable rows exactly when their weights are read as
numbers from 0 to 1, and its table has these rows in their order. Where the weights survive being
printed, a checker that opens the database finds what the rows say. -/
theorem createStatsDB_answers (hrows : ∀ row ∈ rows, Storable N row) {fileName : ByteString}
    (hname : fileName ≠ []) (table : List (Row D)) :
    (createStatsDB N other fileName true true rows = .ok (fileName, table) ↔
      List.Forall₂ (StoredAs N) rows table) ∧
    (createStatsDB N other fileName true true rows = .ok (fileName, table) →
      (∀ row ∈ rows, ReadsBack N row) →
        ∀ (opts : CheckerConfiguration F) (disk : CString → ModelFile F), opts.modelPath = fileName →
          disk (cStr fileName) = modelFile N table →
            Answers rows ⟨(Checker.new opts disk).stats, noFailure⟩) := by
  refine ⟨createStatsDB_iff other hrows fileName table, ?_⟩
  rintro hcreated hweights opts disk rfl hfile
  have htable := (createStatsDB_iff other hrows _ table).mp hcreated
  rw [SwapDetector.Proofs.Refinement.stats_eq, new_weights hname hfile,
    weights_of_storedAs htable hweights]
  exact ready_answers hrows

end Checkers

end Databases

def petRows : List (StatsDBRow XRat) :=
  [⟨bytes "BasicTest", 0, bytes "cats", .fin 1⟩, ⟨bytes "BasicTest", 1, bytes "dogs", .fin (3 / 4)⟩]

def petTable : List (Row XRat) :=
  [⟨cStr (bytes "BasicTest"), 0, cStr (bytes "cats"), .fin 1⟩,
    ⟨cStr (bytes "BasicTest"), 1, cStr (bytes "dogs"), .fin (3 / 4)⟩]

theorem petRows_storable : ∀ row ∈ petRows, Storable testNumbers row := by
  intro row hrow
  rcases List.mem_cons.mp hrow with rfl | hrow
  · exact ⟨by decide, by decide, by decide, by decide⟩
  · rw [List.mem_singleton.mp hrow]
    exact ⟨by decide, by decide, by decide, by decide +kernel⟩

def petOptions : CheckerConfiguration XRat := { modelPath := bytes "/tmp/stats" }

theorem petRows_answers : List.Forall₂ (StoredAs testNumbers) petRows petTable ∧
    Answers petRows ⟨(Checker.new petOptions fun _ => modelFile testNumbers petTable).stats, noFailure⟩ := by
  have hcreated : createStatsDB testNumbers (fun _ _ => none) (bytes "/tmp/stats") true true petRows =
      .ok (bytes "/tmp/stats", petTable) := by decide +kernel
  have hweights : ∀ row ∈ petRows, ReadsBack testNumbers row := by
    unfold ReadsBack
    decide +kernel
  have hname : bytes "/tmp/stats" ≠ [] := by decide
  obtain ⟨htable, hanswers⟩ :=
    createStatsDB_answers (fun _ _ => none) petRows_storable hname petTable
  exact ⟨htable.mp hcreated, hanswers hcreated hweights petOptions _ rfl rfl⟩

end SwapDetector.Proofs.CreatedDatabases
