import TrafficQuery.Proofs.Compile.Composition
import TrafficQuery.Proofs.Compile.Selection
import TrafficQuery.Proofs.Query.Fields

/-!
# The tables of a statement

Every table of a statement has a name of its own. Its filter names columns of these tables only, with
some column of every header table among them, and a header table is joined to its own side of the
exchange alone.
-/

namespace TrafficQuery
open Sql

/-! ## Columns in pieces -/

namespace Sql

/-- The columns that pieces name, each with the name of its table. -/
def namedColumns : List Piece → List (String × String)
  | .name table :: .sign "." :: .name column :: ps => (table, column) :: namedColumns ps
  | _ :: ps => namedColumns ps
  | [] => []

/-- The pieces name these columns, whatever is behind them. -/
def NamesColumns (ps : List Piece) (columns : List (String × String)) : Prop :=
  ∀ rest, namedColumns (ps ++ rest) = columns ++ namedColumns rest

theorem NamesColumns.append {ps qs : List Piece} {cs ds : List (String × String)}
    (h : NamesColumns ps cs) (h' : NamesColumns qs ds) : NamesColumns (ps ++ qs) (cs ++ ds) := by
  intro rest
  rw [List.append_assoc, h, h', List.append_assoc]

def isName : Piece → Bool
  | .name _ => true
  | _ => false

/-- Pieces without names name no column. -/
theorem namesColumns_of_all {ps : List Piece} (h : ps.all (!isName ·) = true) :
    NamesColumns ps [] := by
  intro rest
  induction ps with
  | nil => rfl
  | cons p ps ih =>
    simp only [List.all_cons, Bool.and_eq_true] at h
    cases p with
    | name text => cases h.1
    | _ => exact ih h.2

theorem NamesColumns.parenthesized {ps : List Piece} {cs : List (String × String)}
    (h : NamesColumns ps cs) : NamesColumns (parenthesized ps) cs := by
  have hopen : NamesColumns [.sign "("] [] := namesColumns_of_all rfl
  have hclose : NamesColumns [.sign ")"] [] := namesColumns_of_all rfl
  have hall := (hopen.append h).append hclose
  rwa [List.append_nil] at hall

theorem namesColumns_between {p : Piece} (h : isName p = false) : NamesColumns (between p) [] :=
  namesColumns_of_all (by rw [between, List.all_cons, List.all_cons, h]; rfl)

/-! ## Columns of expressions -/

/-- A column with the name of its table. -/
def columnLabel (c : Alias × Column) : String × String := (c.1.label, c.2.label)

def Term.columns : Term → List (Alias × Column)
  | .column table c => [(table, c)]
  | .bound _ => []
  | .lower t => t.columns
  | .ago _ => []

/-- The columns that an expression looks at, from left to right. -/
def Expr.columns : Expr → List (Alias × Column)
  | .compare _ l r => l.columns ++ r.columns
  | .like t _ _ => t.columns
  | .binary _ l r => l.columns ++ r.columns
  | .negation e => e.columns

theorem namesColumns_term (t : Term) : NamesColumns t.pieces (t.columns.map columnLabel) := by
  induction t with
  | column table column => exact fun _ => rfl
  | bound v => exact fun _ => rfl
  | lower t ih =>
    have hword : NamesColumns [.word "LOWER"] [] := namesColumns_of_all rfl
    exact hword.append ih.parenthesized
  | ago seconds => exact namesColumns_of_all rfl

/-- The text of an expression names the columns that the expression looks at. -/
theorem namesColumns_expr (e : Expr) : NamesColumns e.pieces (e.columns.map columnLabel) := by
  have optional {ps : List Piece} {cs : List (String × String)} (h : NamesColumns ps cs)
      (bare : Bool) : NamesColumns (if bare then ps else parenthesized ps) cs := by
    cases bare
    · exact h.parenthesized
    · exact h
  induction e with
  | compare op l r =>
    have hall := ((namesColumns_term l).append (namesColumns_between (p := .sign op.symbol) rfl)).append
      (namesColumns_term r)
    rwa [List.append_nil, ← List.map_append] at hall
  | like t pattern escaped =>
    have hrest : NamesColumns (between (.word "LIKE") ++ .bound (.string pattern) ::
        if escaped then between (.word "ESCAPE") ++ [.literal (String.singleton Like.escapeSign)]
        else []) [] := by
      cases escaped <;> exact namesColumns_of_all rfl
    have hall := (namesColumns_term t).append hrest
    rwa [List.append_nil, ← List.append_assoc] at hall
  | binary op l r ihl ihr =>
    have hword : NamesColumns (between (.word (connectiveWord op))) [] := namesColumns_between rfl
    have hall := ((optional ihl (l.isAtom || l.connective? == some op)).append hword).append
      (optional ihr r.isAtom)
    rwa [List.append_nil, ← List.map_append] at hall
  | negation e ih =>
    have hnot : NamesColumns [.word "NOT", .space] [] := namesColumns_of_all rfl
    exact hnot.append (optional ih e.isAtom)

theorem namedColumns_expr (e : Expr) : namedColumns e.pieces = e.columns.map columnLabel := by
  have h := namesColumns_expr e []
  rwa [List.append_nil, namedColumns, List.append_nil] at h

theorem Expr.Composed.columns_eq {ps : List Expr} {e : Expr} (h : Composed ps e) :
    e.columns = ps.flatMap columns := by
  induction h with
  | part => simp
  | binary _ _ ihl ihr => rw [columns, ihl, ihr, List.flatMap_append]
  | negation _ ih => exact ih

end Sql

/-! ## Columns of tests -/

namespace Compile
variable {s : Settings}

theorem columns_textTest (term : Term) (text : String) (op : TextOp) :
    (textTest s term text op).columns = term.columns := by
  cases op with
  | equals => exact List.append_nil _
  | contains | icontains => rfl

theorem columns_anyContains (first : Term) (others : List Term) (text : String) :
    (anyContains s first others text).columns = (first :: others).flatMap Term.columns := by
  have main (e : Expr) : (others.foldl (fun e term => .binary .or e (contains s term text)) e).columns =
      e.columns ++ others.flatMap Term.columns := by
    induction others generalizing e with
    | nil => exact (List.append_nil _).symm
    | cons term others ih =>
      rw [List.foldl_cons, ih, List.flatMap_cons, ← List.append_assoc]
      rfl
  exact main _

/-- A test looks at the exchange and at its own header table, if it has one, and at this one always. -/
theorem columns_test {t : Test} {e : Expr} (h : test s t = .ok e) :
    (∀ c ∈ e.columns, c.1 = .request ∨ c.1 = .response ∨ ∃ j, t.join? = some j ∧ c.1 = j.table) ∧
      ∀ j, t.join? = some j → ∃ column, (j.table, column) ∈ e.columns := by
  cases t with
  | id op value =>
    cases op <;> cases h
    simp [Expr.columns, Term.columns, Test.join?]
  | header side mark name wanted =>
    cases h
    cases wanted with
    | present => simp [headerTest, headerName, Expr.columns, Term.columns, Test.join?, HeaderJoin.table]
    | value op text =>
      simp [headerTest, headerName, Expr.columns, columns_textTest, Term.columns, Test.join?,
        HeaderJoin.table]
  | body side op text =>
    cases h
    cases side <;> simp [columns_textTest, Term.columns, sideTable, Test.join?]
  | path op text =>
    cases h
    simp [columns_textTest, Term.columns, Test.join?]
  | raw side mark text =>
    cases h
    cases side <;> simp [rawTest, columns_anyContains, Term.columns, Test.join?, HeaderJoin.table]
  | timestamp op ago | method m | status op value =>
    cases h
    simp [Expr.columns, Term.columns, Test.join?]

theorem exists_part_of_mem {ts : List Test} {ps : List Expr} (h : Parts s ts ps) :
    (∀ p ∈ ps, ∃ t ∈ ts, test s t = .ok p) ∧ ∀ t ∈ ts, ∃ p ∈ ps, test s t = .ok p := by
  induction h with
  | nil => simp
  | cons ht _ ih =>
    obtain ⟨hps, hts⟩ := ih
    refine ⟨List.forall_mem_cons.mpr ⟨⟨_, List.mem_cons_self, ht⟩, fun p hp => ?_⟩,
      List.forall_mem_cons.mpr ⟨⟨_, List.mem_cons_self, ht⟩, fun t ht => ?_⟩⟩
    · obtain ⟨t, hmem, htest⟩ := hps p hp
      exact ⟨t, List.mem_cons_of_mem _ hmem, htest⟩
    · obtain ⟨p, hmem, htest⟩ := hts t ht
      exact ⟨p, List.mem_cons_of_mem _ hmem, htest⟩

/-- A filter looks at the exchange and at the header tables of its condition, and at all of these. -/
theorem columns_filter {c : Condition} {e : Expr} (h : filter s c = .ok e) :
    (∀ col ∈ e.columns, col.1 = .request ∨ col.1 = .response ∨ ∃ j ∈ c.joins, col.1 = j.table) ∧
      ∀ j ∈ c.joins, ∃ column, (j.table, column) ∈ e.columns := by
  obtain ⟨ps, hparts, hcomposed⟩ := exists_composed_of_filter h
  obtain ⟨hps, hts⟩ := exists_part_of_mem hparts
  rw [c.joins_eq, hcomposed.columns_eq]
  constructor
  · intro col hcol
    obtain ⟨p, hp, hcol⟩ := List.mem_flatMap.mp hcol
    obtain ⟨t, ht, htest⟩ := hps p hp
    refine ((columns_test htest).1 col hcol).imp_right (Or.imp_right ?_)
    rintro ⟨j, hj, htable⟩
    exact ⟨j, List.mem_filterMap.mpr ⟨t, ht, hj⟩, htable⟩
  · intro j hj
    obtain ⟨t, ht, hj⟩ := List.mem_filterMap.mp hj
    obtain ⟨p, hp, htest⟩ := hts t ht
    obtain ⟨column, hcolumn⟩ := (columns_test htest).2 j hj
    exact ⟨column, List.mem_flatMap.mpr ⟨p, hp, hcolumn⟩⟩

end Compile

/-! ## Statements -/

/-- The tables of a statement have different names, and what it names belongs to them. -/
structure Sql.Statement.Scoped (statement : Statement) : Prop where
  /-- The request, the response and the header tables, in order. -/
  names : statement.names.Nodup
  /-- A column in the filter is one of the request, of the response or of one header table. -/
  columns : ∀ table column, (table, column) ∈ namedColumns statement.filter.pieces →
    table = "req" ∨ table = "resp" ∨ ∃! j, j ∈ statement.joins ∧ table = j.table.label
  /-- Every header table has a column in the filter. -/
  used : ∀ j ∈ statement.joins, ∃ column,
    (j.table.label, column) ∈ namedColumns statement.filter.pieces
  /-- A header table is joined to its side of the exchange by the number of that side. -/
  links : ∀ j ∈ statement.joins, namedColumns j.link.pieces = match j.side with
    | .request => [(j.table.label, "request_id"), ("req", "request_id")]
    | .response => [(j.table.label, "response_id"), ("resp", "response_id")]

theorem Sql.Statement.eq_of_label_eq {statement : Statement} (h : statement.names.Nodup)
    {j k : HeaderJoin} (hj : j ∈ statement.joins) (hk : k ∈ statement.joins)
    (hlabel : j.table.label = k.table.label) : j = k := by
  simp only [names, List.map_cons, List.nodup_cons, List.map_map] at h
  exact List.inj_on_of_nodup_map h.2.2 hj hk hlabel

theorem scoped_of_compile {s : Settings} {query : Query} {statement : Statement}
    (h : query.compile s = .ok statement) (hnodup : query.root.marks.Nodup) : statement.Scoped := by
  have hnames := nodup_names_of_compile h hnodup
  obtain ⟨e, he, rfl⟩ := Query.compile_eq_ok_iff.mp h
  obtain ⟨hcolumns, hused⟩ := Compile.columns_filter he
  refine ⟨hnames, ?_, ?_, ?_⟩
  · intro table column hmem
    rw [namedColumns_expr] at hmem
    obtain ⟨col, hcol, heq⟩ := List.mem_map.mp hmem
    obtain ⟨rfl, rfl⟩ := Prod.mk.inj heq
    rcases hcolumns col hcol with hreq | hresp | ⟨j, hj, htable⟩
    · exact .inl (congrArg Alias.label hreq)
    · exact .inr (.inl (congrArg Alias.label hresp))
    · refine .inr (.inr ⟨j, ⟨hj, congrArg Alias.label htable⟩, ?_⟩)
      rintro k ⟨hk, hlabel⟩
      exact Statement.eq_of_label_eq hnames hk hj (hlabel.symm.trans (congrArg Alias.label htable))
  · intro j hj
    obtain ⟨column, hcolumn⟩ := hused j hj
    refine ⟨column.label, ?_⟩
    rw [namedColumns_expr]
    exact List.mem_map.mpr ⟨_, hcolumn, rfl⟩
  · intro j _
    rw [namedColumns_expr]
    rcases j with ⟨side, mark⟩
    cases side <;> rfl

/-- In a parsed query, header and raw tests are marked from left to right with the bytes where they
start. So every statement of the query has a table of its own name for each of them, in their order, and
names nothing but columns of its tables. -/
theorem compile_scopes_tables {source : String} {query : Query} (h : parse source = .ok query) :
    MarkedByStarts source query.root ∧ ∀ (s : Settings) (op : Operation), ∃ statement,
      Query.compile s ⟨op, query.root⟩ = .ok statement ∧
        statement.joins = query.root.tests.filterMap Test.join? ∧ statement.Scoped := by
  refine ⟨markedByStarts_of_parse h, fun s op => ?_⟩
  have hnodup : query.root.marks.Nodup := marks_nodup_of_parse h
  obtain ⟨e, he⟩ := Compile.exists_filter_eq_ok s (comparesIds_of_parse h)
  have hcompile : Query.compile s ⟨op, query.root⟩ = .ok ⟨op, s.tables, query.root.joins, e⟩ :=
    Query.compile_eq_ok_iff.mpr ⟨e, he, rfl⟩
  exact ⟨_, hcompile, query.root.joins_eq, scoped_of_compile hcompile hnodup⟩

def scopedSource : String :=
  "query requests where RAW contains 'a' or not (Resp.header.b exists and raw contains 'c')"

def scopedQuery : Query :=
  ⟨.rows, .binary .or (.test (.raw .request 21 "a")) (.negation (.binary .and
    (.test (.header .response 46 "b" .present)) (.test (.raw .request 71 "c"))))⟩

theorem compile_scopes_tables_threeTables : parse scopedSource = .ok scopedQuery ∧
    MarkedByStarts scopedSource scopedQuery.root ∧ ∀ (s : Settings) (op : Operation), ∃ statement,
      Query.compile s ⟨op, scopedQuery.root⟩ = .ok statement ∧
        statement.joins = scopedQuery.root.tests.filterMap Test.join? ∧ statement.Scoped := by
  have h : parse scopedSource = .ok scopedQuery := by decide +kernel
  exact ⟨h, compile_scopes_tables h⟩

end TrafficQuery
