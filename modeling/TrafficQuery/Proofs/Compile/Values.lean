import TrafficQuery.Proofs.Compile.Composition
import TrafficQuery.Proofs.Compile.Selection
import TrafficQuery.Proofs.Sql.Placeholders

/-!
# The values of a compiled query

The placeholders of a compiled query stand in its tests, from left to right, and the values that are
bound to them are those of the tests in the same order.
-/

namespace TrafficQuery
open Sql

/-! ## The values of a test -/

namespace Test

/-- What a column is compared with: a text, or the pattern for the texts that contain it. -/
def operand (s : Settings) (text : String) : TextOp → String
  | .equals => text
  | .contains => Like.containing s.escapeWildcards text
  | .icontains => Like.containing s.escapeWildcards (Text.lower text)

/-- The values that a test binds. -/
def values (s : Settings) : Test → List Value
  | .timestamp .. => []
  | .id _ value => [.string value]
  | .method m => [.string m.word]
  | .header _ _ name .present => [.string name]
  | .header _ _ name (.value op text) => [.string name, .string (operand s text op)]
  | .body _ op text => [.string (operand s text op)]
  | .path op text => [.string (operand s text op)]
  | .raw .request _ text => List.replicate 5 (.string (operand s text .contains))
  | .raw .response _ text => List.replicate 3 (.string (operand s text .contains))
  | .status _ value => [.bigInt value]

end Test

/-- The values that the tests of a condition bind, from left to right. -/
def Condition.values (s : Settings) (c : Condition) : List Value := c.tests.flatMap (Test.values s)

/-! ## Values of expressions -/

namespace Sql

def Expr.values (e : Expr) : List Value := valuesOf e.pieces

/-- Whether an operand is in parentheses or not, what is written before it binds no value. -/
theorem exists_parenthesized (c : Prop) [Decidable c] (ps : List Piece) :
    ∃ front back, (if c then ps else parenthesized ps) = front ++ ps ++ back ∧
      valuesOf front = [] ∧ valuesOf back = [] := by
  by_cases h : c
  · exact ⟨[], [], by simp [h], rfl, rfl⟩
  · exact ⟨[.sign "("], [.sign ")"], by simp [h, parenthesized], rfl, rfl⟩

namespace Expr
variable {op : Connective} {l r e p : Expr} {ps qs : List Expr}

theorem exists_pieces_binary (op : Connective) (l r : Expr) : ∃ front middle back,
    (binary op l r).pieces = front ++ l.pieces ++ middle ++ r.pieces ++ back ∧
      valuesOf front = [] ∧ valuesOf middle = [] ∧ valuesOf back = [] := by
  obtain ⟨front, lback, hl, hfront, hlback⟩ :=
    exists_parenthesized (l.isAtom || l.connective? == some op) l.pieces
  obtain ⟨rfront, back, hr, hrfront, hback⟩ := exists_parenthesized r.isAtom r.pieces
  refine ⟨front, lback ++ between (.word (connectiveWord op)) ++ rfront, back, ?_, hfront, ?_, hback⟩
  · rw [pieces, hl, hr]
    simp only [List.append_assoc]
  · simp [hlback, hrfront, between, Piece.value?]

theorem exists_pieces_negation (e : Expr) : ∃ front back,
    (negation e).pieces = front ++ e.pieces ++ back ∧ valuesOf front = [] ∧ valuesOf back = [] := by
  obtain ⟨front, back, h, hfront, hback⟩ := exists_parenthesized e.isAtom e.pieces
  exact ⟨.word "NOT" :: .space :: front, back, by rw [pieces, h]; rfl, hfront, hback⟩

/-- Composed expressions bind the values of their parts in order. -/
theorem Composed.values_eq (h : Composed ps e) : e.values = ps.flatMap values := by
  induction h with
  | part => exact (List.append_nil _).symm
  | @binary op es fs l r _ _ ihl ihr =>
    obtain ⟨front, middle, back, hpieces, hfront, hmiddle, hback⟩ := exists_pieces_binary op l r
    rw [List.flatMap_append, ← ihl, ← ihr, values, hpieces]
    simp [values, hfront, hmiddle, hback]
  | @negation es e _ ih =>
    obtain ⟨front, back, hpieces, hfront, hback⟩ := exists_pieces_negation e
    rw [← ih, values, hpieces]
    simp [values, hfront, hback]

/-- One of the parts of two lists is in the first, or else in the second. -/
theorem mem_append_split {es fs : List Expr} (h : ps ++ p :: qs = es ++ fs) :
    (∃ as, es = ps ++ p :: as) ∨ ∃ bs, ps = es ++ bs ∧ fs = bs ++ p :: qs := by
  rcases List.append_eq_append_iff.mp h with ⟨as, rfl, hright⟩ | ⟨bs, rfl, hright⟩
  · cases as with
    | nil => exact .inr ⟨[], by simp, hright.symm⟩
    | cons a as =>
      obtain ⟨rfl, -⟩ := List.cons.inj hright
      exact .inl ⟨as, rfl⟩
  · exact .inr ⟨bs, rfl, hright⟩

/-- A part of a composed expression is written within it, behind the values of the parts before. -/
theorem Composed.exists_pieces (h : Composed (ps ++ p :: qs) e) : ∃ front back,
    e.pieces = front ++ p.pieces ++ back ∧ valuesOf front = ps.flatMap values := by
  generalize hall : ps ++ p :: qs = all at h
  induction h generalizing ps qs with
  | part =>
    rcases List.append_eq_singleton_iff.mp hall with ⟨rfl, hp⟩ | ⟨-, hp⟩
    · obtain ⟨rfl, -⟩ := List.cons.inj hp
      exact ⟨[], [], by simp, rfl⟩
    · cases hp
  | @binary op es fs l r hl hr ihl ihr =>
    obtain ⟨front, middle, back, hpieces, hfront, hmiddle, hback⟩ := exists_pieces_binary op l r
    rcases mem_append_split hall with ⟨as, rfl⟩ | ⟨bs, rfl, rfl⟩
    · obtain ⟨lfront, lback, hpart, hvalues⟩ := ihl rfl
      refine ⟨front ++ lfront, lback ++ middle ++ r.pieces ++ back, ?_, ?_⟩
      · rw [hpieces, hpart]
        simp only [List.append_assoc]
      · rw [valuesOf_append, hfront, hvalues, List.nil_append]
    · obtain ⟨rfront, rback, hpart, hvalues⟩ := ihr rfl
      refine ⟨front ++ l.pieces ++ middle ++ rfront, rback ++ back, ?_, ?_⟩
      · rw [hpieces, hpart]
        simp only [List.append_assoc]
      · rw [List.flatMap_append, ← hl.values_eq, ← hvalues]
        simp [values, hfront, hmiddle]
  | @negation es e _ ih =>
    obtain ⟨front, back, hpieces, hfront, hback⟩ := exists_pieces_negation e
    obtain ⟨front', back', hpart, hvalues⟩ := ih hall
    refine ⟨front ++ front', back' ++ back, ?_, ?_⟩
    · rw [hpieces, hpart]
      simp only [List.append_assoc]
    · rw [valuesOf_append, hfront, hvalues, List.nil_append]

end Expr
end Sql

/-! ## Values of conditions -/

namespace Compile
variable {s : Settings}

theorem values_like (term : Term) (pattern : String) (escaped : Bool) :
    (Expr.like term pattern escaped).values = valuesOf term.pieces ++ [.string pattern] := by
  cases escaped <;> simp [Expr.values, Expr.pieces, between, Piece.value?]

theorem values_textTest (table : Alias) (column : Column) (text : String) (op : TextOp) :
    (textTest s (.column table column) text op).values = [.string (Test.operand s text op)] := by
  cases op with
  | equals => rfl
  | contains => exact values_like _ _ _
  | icontains => exact values_like _ _ _

theorem composed_anyContains (first : Term) (others : List Term) (text : String) :
    Expr.Composed ((first :: others).map (contains s · text)) (anyContains s first others text) := by
  have main {ps : List Expr} {e : Expr} (h : Expr.Composed ps e) :
      Expr.Composed (ps ++ others.map (contains s · text))
        (others.foldl (fun e term => .binary .or e (contains s term text)) e) := by
    induction others generalizing ps e with
    | nil =>
      rw [List.map_nil, List.append_nil]
      exact h
    | cons term others ih =>
      have hparts : Expr.Composed (ps ++ [contains s term text])
          (.binary .or e (contains s term text)) := .binary h .part
      have hterm := ih hparts
      rwa [List.append_assoc] at hterm
  exact main .part

theorem values_rawTest (mark : Nat) (text : String) (side : Side) :
    (rawTest s mark text side).values = (Test.raw side mark text).values s := by
  have hcolumn (table : Alias) (column : Column) :
      (contains s (.column table column) text).values = [.string (Test.operand s text .contains)] :=
    values_textTest table column text .contains
  cases side <;>
  · rw [rawTest, (composed_anyContains _ _ text).values_eq]
    simp only [List.map_cons, List.map_nil, List.flatMap_cons, List.flatMap_nil, hcolumn]
    rfl

/-- A compiled test binds the values of the test. -/
theorem values_test {t : Test} {e : Expr} (h : test s t = .ok e) : e.values = t.values s := by
  cases t with
  | id op value =>
    cases op <;> cases h
    rfl
  | header side mark name wanted =>
    cases h
    cases wanted with
    | present => rfl
    | value op text =>
      have hvalue := values_textTest (s := s) (.header mark) .value text op
      have hparts : Expr.Composed
          ([headerName mark name] ++ [textTest s (.column (.header mark) .value) text op])
          (.binary .and (headerName mark name) (textTest s (.column (.header mark) .value) text op)) :=
        .binary .part .part
      rw [headerTest, hparts.values_eq]
      simp only [List.cons_append, List.nil_append, List.flatMap_cons, List.flatMap_nil, hvalue]
      rfl
  | body side op text =>
    cases h
    exact values_textTest _ _ text op
  | path op text =>
    cases h
    exact values_textTest _ _ text op
  | raw side mark text =>
    cases h
    exact values_rawTest mark text side
  | _ =>
    cases h
    rfl

theorem Parts.flatMap_values {ts : List Test} {ps : List Expr} (h : Parts s ts ps) :
    ps.flatMap Expr.values = ts.flatMap (Test.values s) := by
  induction h with
  | nil => rfl
  | cons ht _ ih => rw [List.flatMap_cons, List.flatMap_cons, ih, values_test ht]

/-- The part of a test stands behind those of the tests before it. -/
theorem Parts.exists_append {ts us : List Test} {t : Test} {ps : List Expr}
    (h : Parts s (ts ++ t :: us) ps) :
    ∃ qs p rs, ps = qs ++ p :: rs ∧ Parts s ts qs ∧ test s t = .ok p := by
  induction ts generalizing ps with
  | nil =>
    obtain ⟨p, rs, ht, -, rfl⟩ := List.forall₂_cons_left_iff.mp h
    exact ⟨[], p, rs, rfl, .nil, ht⟩
  | cons u ts ih =>
    obtain ⟨q, ps, hu, hrest, rfl⟩ := List.forall₂_cons_left_iff.mp h
    obtain ⟨qs, p, rs, rfl, hqs, hp⟩ := ih hrest
    exact ⟨q :: qs, p, rs, rfl, .cons hu hqs, hp⟩

end Compile

/-! ## The values of a statement -/

namespace Sql.Statement

/-- The text of a filter is a part of the text of its statement, and no value is bound before it. -/
theorem exists_text (s : Statement) : ∃ front back,
    s.pieces = front ++ s.filter.pieces ++ back ∧ valuesOf front = [] := by
  obtain ⟨front, back, hpieces, -⟩ := s.exists_pieces
  have hfilter : s.pieces = front ++ between (.word "WHERE") ++ s.filter.pieces ++ back := by
    rw [hpieces, List.append_assoc _ s.filter.pieces]
  refine ⟨front ++ between (.word "WHERE"), back, hfilter, ?_⟩
  -- All values are those of the filter, so none is left for what stands before it.
  have hvalues := s.values_eq
  rw [values, hpieces] at hvalues
  have hlength := congrArg List.length hvalues
  simp only [valuesOf_append, List.length_append] at hlength
  rw [← List.length_eq_zero_iff, valuesOf_append, List.length_append]
  omega

/-- The text of a statement without the order of its rows. -/
def rowText (s : Statement) : String := textOf s.rowPieces

theorem text_rows (tables : TableNames) (joins : List HeaderJoin) (filter : Expr) :
    text ⟨.rows, tables, joins, filter⟩ =
      rowText ⟨.rows, tables, joins, filter⟩ ++ " ORDER BY \"req\".\"timestamp\" DESC" := by
  rw [text, pieces, retrieval, Retrieval.pieces, textOf_append]
  rfl

theorem text_count (tables : TableNames) (joins : List HeaderJoin) (filter : Expr) :
    text ⟨.count, tables, joins, filter⟩ =
      "SELECT COUNT(*) FROM (" ++ rowText ⟨.rows, tables, joins, filter⟩ ++ ") AS \"matched\"" := by
  let head : List Piece := .word "SELECT" :: .space :: .word "COUNT" :: parenthesized [.sign "*"] ++
    between (.word "FROM") ++ [.sign "("]
  let tail : List Piece := .sign ")" :: between (.word "AS") ++ [.name "matched"]
  have hpieces : pieces ⟨.count, tables, joins, filter⟩ =
      head ++ rowPieces ⟨.rows, tables, joins, filter⟩ ++ tail := by
    simp only [pieces, retrieval, Retrieval.pieces, parenthesized, head, tail, List.append_assoc,
      List.cons_append, List.nil_append]
    rfl
  rw [text, hpieces, textOf_append, textOf_append]
  rfl

end Sql.Statement

/-- A statement binds the values of the tests of its query. -/
theorem Query.values_of_compile {s : Settings} {query : Query} {statement : Statement}
    (h : query.compile s = .ok statement) : statement.values = query.root.values s := by
  obtain ⟨e, he, rfl⟩ := Query.compile_eq_ok_iff.mp h
  obtain ⟨ps, hps, hcomposed⟩ := Compile.exists_composed_of_filter he
  rw [Statement.values_eq, Condition.values, ← hps.flatMap_values]
  exact hcomposed.values_eq

/-- A compiled query has a placeholder for each of its values. The values are those of its tests from
left to right, and the placeholders of a test stand in the text of that test. The query for the number
of rows is the query for the rows, without their order, as a table of another, with the same values. -/
theorem compile_binds_values_in_order (s : Settings) {query : Query} {statement : Statement}
    (h : query.compile s = .ok statement) :
    placeholders statement.text = statement.values.length ∧
    statement.values = query.root.values s ∧
    (∀ earlier t later, query.root.tests = earlier ++ t :: later → ∃ e front back,
      Compile.test s t = .ok e ∧ statement.text = front ++ textOf e.pieces ++ back ∧
      placeholders front = (earlier.flatMap (Test.values s)).length ∧
      placeholders (front ++ textOf e.pieces) = ((earlier ++ [t]).flatMap (Test.values s)).length) ∧
    ∃ rows count text, Query.compile s ⟨.rows, query.root⟩ = .ok rows ∧
      Query.compile s ⟨.count, query.root⟩ = .ok count ∧
      rows.text = text ++ " ORDER BY \"req\".\"timestamp\" DESC" ∧
      count.text = "SELECT COUNT(*) FROM (" ++ text ++ ") AS \"matched\"" ∧
      count.values = rows.values := by
  obtain ⟨e, he, rfl⟩ := Query.compile_eq_ok_iff.mp h
  obtain ⟨ps, hps, hcomposed⟩ := Compile.exists_composed_of_filter he
  let statement : Statement := ⟨query.operation, s.tables, query.root.joins, e⟩
  have hvalues : statement.values = query.root.values s := by
    rw [statement.values_eq, Condition.values, ← hps.flatMap_values]
    exact hcomposed.values_eq
  have hcompile (op : Operation) : Query.compile s ⟨op, query.root⟩ =
      .ok ⟨op, s.tables, query.root.joins, e⟩ := Query.compile_eq_ok_iff.mpr ⟨e, he, rfl⟩
  refine ⟨statement.placeholders_text, hvalues, ?_, ?_⟩
  · intro earlier t later htests
    rw [htests] at hps
    obtain ⟨qs, p, rs, rfl, hqs, hp⟩ := hps.exists_append
    obtain ⟨front, back, hstatement, hfront⟩ := statement.exists_text
    obtain ⟨front', back', hfilter, hfront'⟩ := hcomposed.exists_pieces
    have hpieces : statement.pieces = front ++ front' ++ p.pieces ++ (back' ++ back) := by
      rw [hstatement, hfilter]
      simp only [List.append_assoc]
    have hvalues : valuesOf (front ++ front') = earlier.flatMap (Test.values s) := by
      rw [valuesOf_append, hfront, hfront', List.nil_append, hqs.flatMap_values]
    obtain ⟨-, -, -, hlegible, -⟩ := statement.exists_pieces
    have hproper : ∀ q ∈ front ++ front' ++ p.pieces, q.isProper = true := by
      intro q hq
      apply hlegible.1
      rw [hpieces]
      exact List.mem_append_left _ hq
    have hbefore := placeholders_textOf fun q hq => hproper q (List.mem_append_left _ hq)
    have hown := placeholders_textOf hproper
    refine ⟨p, textOf (front ++ front'), textOf (back' ++ back), hp, ?_, ?_, ?_⟩
    · rw [Statement.text, hpieces, textOf_append, textOf_append]
    · rw [hbefore, hvalues]
    · rw [← textOf_append, hown, valuesOf_append, hvalues, List.flatMap_append,
        List.flatMap_singleton, ← Compile.values_test hp]
      rfl
  · refine ⟨_, _, _, hcompile .rows, hcompile .count, Statement.text_rows _ _ _,
      Statement.text_count _ _ _, ?_⟩
    rw [Statement.values_eq, Statement.values_eq]

/-- Tables whose names hold quotes and question marks. -/
def questionableTables : TableNames := { requests := "who?", responses := "\"?\"", headers := "it's?" }

/-- A query that is regrouped, with tests of no value, of two values and of five. -/
def questionableQuery : Query :=
  ⟨.count, .binary .or (.negation (.test (.header .response 4 "Host?" (.value .icontains "A?"))))
    (.binary .or (.test (.timestamp .gt 60)) (.test (.raw .request 9 "x")))⟩

def questionableStatement : Statement :=
  ⟨.count, questionableTables, [⟨.response, 4⟩, ⟨.request, 9⟩],
    .binary .or
      (.binary .or
        (.negation (.binary .and
          (.compare .eq (.lower (.column (.header 4) .name)) (.lower (.bound (.string "Host?"))))
          (.like (.lower (.column (.header 4) .value)) "%a?%" true)))
        (.compare .gt (.column .request .timestamp) (.ago 60)))
      (.binary .or
        (.binary .or
          (.binary .or
            (.binary .or (.like (.column .request .url) "%x%" true)
              (.like (.column .request .method) "%x%" true))
            (.like (.column .request .body) "%x%" true))
          (.like (.column (.header 9) .value) "%x%" true))
        (.like (.column (.header 9) .name) "%x%" true))⟩

theorem compile_binds_values_in_order_questionable :
    questionableQuery.compile { tables := questionableTables } = .ok questionableStatement ∧
      placeholders questionableStatement.text = 7 ∧
      questionableStatement.values = .string "Host?" :: .string "%a?%" :: List.replicate 5 (.string "%x%") := by
  have h : questionableQuery.compile { tables := questionableTables } = .ok questionableStatement := by
    decide +kernel
  obtain ⟨hcount, hvalues, -⟩ := compile_binds_values_in_order { tables := questionableTables } h
  have hquery : questionableQuery.root.values { tables := questionableTables } =
      .string "Host?" :: .string "%a?%" :: List.replicate 5 (.string "%x%") := by decide +kernel
  rw [hvalues, hquery] at hcount
  exact ⟨h, hcount, hvalues.trans hquery⟩

end TrafficQuery
