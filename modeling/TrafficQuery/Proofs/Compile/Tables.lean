import TrafficQuery.Proofs.Compile.Selection
import TrafficQuery.Proofs.Sql.Placeholders

/-!
# The names of the tables

What the tables are called shows in a statement where the statement takes its rows from, and nowhere
else, whatever characters the names are made of.
-/

namespace TrafficQuery
open Sql

/-! ## Tables in pieces -/

namespace Sql

/-- Whether a table can be named behind a word. -/
def introducesTable (word : String) : Bool := word == "FROM" || word == "JOIN"

/-- The tables that pieces take rows from, each with the name it has in them. -/
def tableSources : List Piece → List (String × String)
  | .word w :: .space :: .name table :: .space :: .word "AS" :: .space :: .name label :: ps =>
    if introducesTable w then (table, label) :: tableSources ps
    else tableSources (.space :: .name table :: .space :: .word "AS" :: .space :: .name label :: ps)
  | _ :: ps => tableSources ps
  | [] => []

/-- Pieces without the names of the tables that they take rows from. -/
def eraseTables : List Piece → List Piece
  | .word w :: .space :: .name table :: ps =>
    if introducesTable w then .word w :: .space :: .name "" :: eraseTables ps
    else .word w :: eraseTables (.space :: .name table :: ps)
  | p :: ps => p :: eraseTables ps
  | [] => []

/-- The pieces take rows from these tables, and the others are left when they are erased, whatever is
behind them. -/
structure Takes (ps : List Piece) (sources : List (String × String)) (others : List Piece) : Prop where
  sources : ∀ rest, tableSources (ps ++ rest) = sources ++ tableSources rest
  others : ∀ rest, eraseTables (ps ++ rest) = others ++ eraseTables rest

theorem Takes.append {ps qs others others' : List Piece} {sources sources' : List (String × String)}
    (h : Takes ps sources others) (h' : Takes qs sources' others') :
    Takes (ps ++ qs) (sources ++ sources') (others ++ others') where
  sources rest := by rw [List.append_assoc, h.sources, h'.sources, List.append_assoc]
  others rest := by rw [List.append_assoc, h.others, h'.others, List.append_assoc]

def isTableWord : Piece → Bool
  | .word w => introducesTable w
  | _ => false

theorem tableSources_cons {p : Piece} (h : isTableWord p = false) (ps : List Piece) :
    tableSources (p :: ps) = tableSources ps := by
  rw [tableSources.eq_def]
  split
  case h_1 w table label rest heq =>
    obtain ⟨rfl, rfl⟩ := List.cons.inj heq
    exact if_neg (Bool.eq_false_iff.mp h)
  case h_2 heq =>
    obtain ⟨rfl, rfl⟩ := List.cons.inj heq
    rfl
  case h_3 heq => cases heq

theorem eraseTables_cons {p : Piece} (h : isTableWord p = false) (ps : List Piece) :
    eraseTables (p :: ps) = p :: eraseTables ps := by
  rw [eraseTables.eq_def]
  split
  case h_1 w table rest heq =>
    obtain ⟨rfl, rfl⟩ := List.cons.inj heq
    exact if_neg (Bool.eq_false_iff.mp h)
  case h_2 heq =>
    obtain ⟨rfl, rfl⟩ := List.cons.inj heq
    rfl
  case h_3 heq => cases heq

/-! ## Expressions -/

/-- A statement takes no rows within a test. -/
def TakesNothing (ps : List Piece) : Prop := ps.all (!isTableWord ·) = true

theorem TakesNothing.append {l r : List Piece} (h : TakesNothing l) (h' : TakesNothing r) :
    TakesNothing (l ++ r) := by
  rw [TakesNothing, List.all_append, h, h']
  rfl

/-- Pieces without a word that introduces a table take no rows. -/
theorem TakesNothing.takes {ps : List Piece} (h : TakesNothing ps) : Takes ps [] ps := by
  have hps (p : Piece) (hp : p ∈ ps) : isTableWord p = false := by
    simpa using List.all_eq_true.mp h p hp
  constructor <;> intro rest <;> clear h
  · induction ps with
    | nil => rfl
    | cons p ps ih =>
      rw [List.cons_append, tableSources_cons (hps p List.mem_cons_self)]
      exact ih fun q hq => hps q (List.mem_cons_of_mem p hq)
  · induction ps with
    | nil => rfl
    | cons p ps ih =>
      rw [List.cons_append, eraseTables_cons (hps p List.mem_cons_self), List.cons_append]
      exact congrArg (p :: ·) (ih fun q hq => hps q (List.mem_cons_of_mem p hq))

theorem holdsOfTests_not_isTableWord : HoldsOfTests fun p => !isTableWord p where
  word := by decide
  other p hp := by
    cases p with
    | word s => cases hp
    | _ => rfl

theorem takesNothing_expr (e : Expr) : TakesNothing e.pieces := holdsOfTests_not_isTableWord.all_expr e

/-! ## Selections -/

/-- A table behind its word is taken, and its name is erased. -/
theorem Source.takes {w : String} (h : introducesTable w = true) (s : Source) :
    Takes (.word w :: .space :: s.pieces) [(s.table, s.name.label)]
      (.word w :: .space :: pieces ⟨"", s.name⟩) where
  sources _ := if_pos h
  others _ := if_pos h

def Join.withoutTable (j : Join) : Join := ⟨⟨"", j.source.name⟩, j.on⟩

theorem Join.takes (j : Join) :
    Takes j.pieces [(j.source.table, j.source.name.label)] j.withoutTable.pieces := by
  have hfront : Takes [.space, .word "INNER", .space] [] [.space, .word "INNER", .space] :=
    TakesNothing.takes rfl
  have hon : TakesNothing (between (.word "ON") ++ j.on.pieces) :=
    TakesNothing.append rfl (takesNothing_expr j.on)
  exact (hfront.append (j.source.takes (w := "JOIN") rfl)).append hon.takes

theorem takes_joins (joins : List Join) : Takes (joins.flatMap Join.pieces)
    (joins.map fun j => (j.source.table, j.source.name.label))
    ((joins.map Join.withoutTable).flatMap Join.pieces) := by
  induction joins with
  | nil => exact TakesNothing.takes rfl
  | cons j js ih => exact j.takes.append ih

namespace Select

/-- The tables that a selection takes rows from, each with its name in it. -/
def sources (q : Select) : List (String × String) :=
  (q.source.table, q.source.name.label) :: q.joins.map fun j => (j.source.table, j.source.name.label)

def withoutTables (q : Select) : Select :=
  ⟨q.columns, ⟨"", q.source.name⟩, q.joins.map Join.withoutTable, q.filter⟩

theorem pieces_eq (q : Select) : q.pieces =
    phrase ["SELECT", "DISTINCT"] ++ .space :: q.columnPieces ++ [.space] ++
      .word "FROM" :: .space :: q.source.pieces ++ q.joins.flatMap Join.pieces ++
      (between (.word "WHERE") ++ q.filter.pieces) := by
  simp only [pieces, between, List.append_assoc, List.cons_append, List.nil_append]

theorem takes (q : Select) : Takes q.pieces q.sources q.withoutTables.pieces := by
  have hparts : TakesNothing q.columnPieces := holdsOfTests_not_isTableWord.all_columnPieces q
  have hfront : TakesNothing (phrase ["SELECT", "DISTINCT"] ++ [.space]) := rfl
  have hcolumns : TakesNothing (phrase ["SELECT", "DISTINCT"] ++ .space :: q.columnPieces ++ [.space]) :=
    (hfront.append hparts).append rfl
  have hsource := q.source.takes (w := "FROM") rfl
  have hfilter : TakesNothing (between (.word "WHERE") ++ q.filter.pieces) :=
    TakesNothing.append rfl (takesNothing_expr q.filter)
  have hall := ((hcolumns.takes.append hsource).append (takes_joins q.joins)).append hfilter.takes
  rw [List.append_nil] at hall
  rw [pieces_eq, pieces_eq]
  exact hall

end Select

namespace Retrieval

def withoutTables : Retrieval → Retrieval
  | .latest q time => .latest q.withoutTables time
  | .number q name => .number q.withoutTables name

theorem takes (r : Retrieval) : Takes r.pieces r.results.sources r.withoutTables.pieces := by
  cases r with
  | latest q time =>
    have horder : Takes (orderPieces time) [] (orderPieces time) := TakesNothing.takes rfl
    have hall := q.takes.append horder
    rwa [List.append_nil] at hall
  | number q name =>
    let front : List Piece := .word "SELECT" :: .space :: .word "COUNT" :: parenthesized [.sign "*"] ++
      between (.word "FROM") ++ [.sign "("]
    let back : List Piece := .sign ")" :: between (.word "AS") ++ [.name name]
    -- The parenthesis behind `FROM` is no name.
    have hfront : Takes front [] front := ⟨fun _ => rfl, fun _ => rfl⟩
    have hback : Takes back [] back := TakesNothing.takes rfl
    have hall := (hfront.append q.takes).append hback
    have hpieces (q : Select) : (number q name).pieces = front ++ q.pieces ++ back := by
      simp only [pieces, parenthesized, front, back, List.append_assoc, List.cons_append,
        List.nil_append]
    rw [List.append_nil] at hall
    rw [hpieces, withoutTables, hpieces]
    exact hall

end Retrieval

/-! ## Statements -/

namespace Statement

theorem sources_select (s : Statement) : s.select.sources =
    (s.tables.requests, "req") :: (s.tables.responses, "resp") ::
      s.joins.map fun j => (s.tables.headers, j.table.label) := by
  simp only [Select.sources, select, List.map_cons, List.map_map]
  rfl

/-- Statements that have nothing but their tables apart are the same without them. -/
theorem withoutTables_retrieval (op : Operation) (tables tables' : TableNames)
    (joins : List HeaderJoin) (e : Expr) :
    (retrieval ⟨op, tables, joins, e⟩).withoutTables =
      (retrieval ⟨op, tables', joins, e⟩).withoutTables := by
  have hselect : (select ⟨op, tables, joins, e⟩).withoutTables =
      (select ⟨op, tables', joins, e⟩).withoutTables := by
    simp only [Select.withoutTables, select, List.map_cons, List.map_map]
    rfl
  cases op with
  | rows => exact congrArg (Retrieval.latest · _) hselect
  | count => exact congrArg (Retrieval.number · _) hselect

end Statement
end Sql

/-! ## Compiling -/

namespace Compile
variable {tables tables' : TableNames} {escape : Bool}

theorem test_tables (t : Test) : test ⟨tables, escape⟩ t = test ⟨tables', escape⟩ t := by
  cases t with
  | id op value => cases op <;> rfl
  | _ => rfl

theorem run_tables (c : Condition) : run ⟨tables, escape⟩ c = run ⟨tables', escape⟩ c := by
  induction c with
  | test t => rw [run, run, test_tables]
  | binary op l r ihl ihr => rw [run, run, ihl, ihr]
  | negation c ih => rw [run, run, ih]

/-- The filter of a condition does not depend on the names of the tables. -/
theorem filter_tables (c : Condition) : filter ⟨tables, escape⟩ c = filter ⟨tables', escape⟩ c := by
  rw [filter_eq, filter_eq, run_tables]

end Compile

/-! ## Two sets of tables -/

/-- The text of a statement, with its values, is cut into pieces that take their rows from the tables of
the statement. Without the names of these tables the pieces do not depend on the tables. -/
theorem Sql.Statement.exists_lex_eq (s : Statement) : ∃ ps, lex s.text.toList s.values = some ps ∧
    tableSources ps = s.select.sources ∧ eraseTables ps = s.retrieval.withoutTables.pieces := by
  have hsources := s.retrieval.takes.sources []
  have hothers := s.retrieval.takes.others []
  simp only [tableSources, eraseTables, List.append_nil] at hsources hothers
  rw [s.results_retrieval] at hsources
  exact ⟨s.pieces, lex_textOf s.retrieval.legible_pieces, hsources, hothers⟩

/-- A query compiles for all tables alike, or fails for all of them alike. The texts of two statements,
cut by the quoting rules of SQL, are the same pieces but for the names behind `FROM` and `JOIN`, and
these are in either text the names of its tables: of the requests, of the responses, and once for each
joined header table of the headers. -/
theorem compile_names_tables (tables tables' : TableNames) (escape : Bool) (query : Query) :
    (∃ st st' ps ps', query.compile ⟨tables, escape⟩ = .ok st ∧
      query.compile ⟨tables', escape⟩ = .ok st' ∧ st'.values = st.values ∧ st'.joins = st.joins ∧
      lex st.text.toList st.values = some ps ∧ lex st'.text.toList st'.values = some ps' ∧
      eraseTables ps' = eraseTables ps ∧
      tableSources ps = (tables.requests, "req") :: (tables.responses, "resp") ::
        st.joins.map (fun j => (tables.headers, j.table.label)) ∧
      tableSources ps' = (tables'.requests, "req") :: (tables'.responses, "resp") ::
        st.joins.map (fun j => (tables'.headers, j.table.label))) ∨
    ∃ e, query.compile ⟨tables, escape⟩ = .error e ∧ query.compile ⟨tables', escape⟩ = .error e := by
  have hfilter : Compile.filter ⟨tables, escape⟩ query.root = Compile.filter ⟨tables', escape⟩ query.root :=
    Compile.filter_tables query.root
  rcases he : Compile.filter ⟨tables, escape⟩ query.root with e | e
  · refine .inr ⟨e, ?_, ?_⟩
    · rw [Query.compile, he]
      rfl
    · rw [Query.compile, ← hfilter, he]
      rfl
  · let statement (tables : TableNames) : Statement := ⟨query.operation, tables, query.root.joins, e⟩
    obtain ⟨ps, hlex, hsources, hothers⟩ := (statement tables).exists_lex_eq
    obtain ⟨ps', hlex', hsources', hothers'⟩ := (statement tables').exists_lex_eq
    refine .inl ⟨statement tables, statement tables', ps, ps', Query.compile_eq_ok_iff.mpr ⟨e, he, rfl⟩,
      Query.compile_eq_ok_iff.mpr ⟨e, hfilter ▸ he, rfl⟩, ?_, rfl, hlex, hlex', ?_,
      hsources.trans (statement tables).sources_select,
      hsources'.trans (statement tables').sources_select⟩
    · rw [Statement.values_eq, Statement.values_eq]
    · rw [hothers, hothers', Statement.withoutTables_retrieval]

/-- A name that would end its quotes and the statement, if it could. -/
example : (Piece.name "x\" AS \"req\" --").text = "\"x\"\" AS \"\"req\"\" --\"" := by decide +kernel

end TrafficQuery
