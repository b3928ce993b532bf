import TrafficQuery.Proofs.Compile.Mapping
import TrafficQuery.Proofs.Compile.Selection
import TrafficQuery.Proofs.Sql.Placeholders

/-!
# What a user writes stays out of the statement

Two conditions that differ only in the texts, names, methods and numbers that a user writes into them
compile to statements of one text.
-/

namespace TrafficQuery
open Sql

/-! ## Conditions of one form -/

/-- Two tests that differ in nothing but texts, header names, ids, methods and status numbers. -/
inductive Test.Alike : Test → Test → Prop
  | timestamp {op : OrderOp} {seconds : Nat} : Alike (.timestamp op seconds) (.timestamp op seconds)
  | id {op : OrderOp} {v w : String} : Alike (.id op v) (.id op w)
  | method {m n : Method} : Alike (.method m) (.method n)
  | headerPresent {side : Side} {mark : Nat} {name other : String} :
      Alike (.header side mark name .present) (.header side mark other .present)
  | headerValue {side : Side} {mark : Nat} {name other v w : String} {op : TextOp} :
      Alike (.header side mark name (.value op v)) (.header side mark other (.value op w))
  | body {side : Side} {op : TextOp} {v w : String} : Alike (.body side op v) (.body side op w)
  | path {op : TextOp} {v w : String} : Alike (.path op v) (.path op w)
  | raw {side : Side} {mark : Nat} {v w : String} : Alike (.raw side mark v) (.raw side mark w)
  | status {op : OrderOp} {m n : Int} : Alike (.status op m) (.status op n)

/-- Two conditions of one shape, with tests that are alike. -/
inductive Condition.Alike : Condition → Condition → Prop
  | test {t u : Test} : t.Alike u → Alike (.test t) (.test u)
  | binary {op : Connective} {l l' r r' : Condition} :
      Alike l l' → Alike r r' → Alike (.binary op l r) (.binary op l' r')
  | negation {c d : Condition} : Alike c d → Alike (.negation c) (.negation d)

/-! ## Outlines -/

namespace Sql

/-- A term without the value that is bound in it. -/
def Term.outline : Term → Term
  | .bound _ => .bound (.null .string)
  | .lower t => .lower t.outline
  | t => t

namespace Expr

/-- An expression without the values that are bound in it. -/
def outline : Expr → Expr
  | .compare op l r => .compare op l.outline r.outline
  | .like t _ escaped => .like t.outline "" escaped
  | .binary op l r => .binary op l.outline r.outline
  | .negation e => .negation e.outline

theorem isAtom_outline (e : Expr) : e.outline.isAtom = e.isAtom := by cases e <;> rfl

theorem connective?_outline (e : Expr) : e.outline.connective? = e.connective? := by
  cases e <;> rfl

theorem outline_negated (e : Expr) : e.negated.outline = e.outline.negated := by
  cases e <;> rfl

end Expr

theorem textOf_parenthesized (ps : List Piece) :
    textOf (parenthesized ps) = "(" ++ textOf ps ++ ")" := by
  rw [parenthesized, textOf_append, textOf_cons]
  rfl

theorem textOf_outline_term (t : Term) : textOf t.outline.pieces = textOf t.pieces := by
  induction t with
  | bound v => rfl
  | lower t ih =>
    rw [Term.outline, Term.pieces, Term.pieces, textOf_cons, textOf_cons, textOf_parenthesized,
      textOf_parenthesized, ih]
  | _ => rfl

/-- The text of an expression does not show what is bound in it. -/
theorem textOf_outline (e : Expr) : textOf e.outline.pieces = textOf e.pieces := by
  have hoperand (c : Bool) {ps qs : List Piece} (h : textOf ps = textOf qs) :
      textOf (if c then ps else parenthesized ps) = textOf (if c then qs else parenthesized qs) := by
    cases c
    · simp only [Bool.false_eq_true, if_false, textOf_parenthesized, h]
    · exact h
  induction e with
  | compare op l r =>
    simp only [Expr.outline, Expr.pieces, textOf_append, textOf_outline_term]
  | like t pattern escaped =>
    simp only [Expr.outline, Expr.pieces, textOf_append, textOf_cons, textOf_outline_term]
    rfl
  | binary op l r ihl ihr =>
    simp only [Expr.outline, Expr.pieces, textOf_append, Expr.isAtom_outline,
      Expr.connective?_outline, hoperand _ ihl, hoperand _ ihr]
  | negation e ih =>
    simp only [Expr.outline, Expr.pieces, textOf_cons, Expr.isAtom_outline, hoperand _ ih]

end Sql

/-! ## Compiling outlines -/

namespace Compile
variable {s : Settings} {op : Connective}

theorem outline_contains (term : Term) (v w : String) :
    (contains s term v).outline = (contains s term w).outline := by
  simp only [contains, Expr.outline]

theorem outline_textTest (term : Term) (v w : String) (op : TextOp) :
    (textTest s term v op).outline = (textTest s term w op).outline := by
  cases op with
  | equals => rfl
  | contains => exact outline_contains term v w
  | icontains => exact outline_contains (.lower term) (Text.lower v) (Text.lower w)

theorem outline_anyContains (first : Term) (others : List Term) (v w : String) :
    (anyContains s first others v).outline = (anyContains s first others w).outline := by
  have main {e f : Expr} (h : e.outline = f.outline) :
      (others.foldl (fun e term => .binary .or e (contains s term v)) e).outline =
        (others.foldl (fun e term => .binary .or e (contains s term w)) f).outline := by
    induction others generalizing e f with
    | nil => exact h
    | cons term others ih =>
      apply ih
      simp only [Expr.outline, h, outline_contains term v w]
  exact main (outline_contains first v w)

/-- Tests that are alike have one outline, or fail alike. -/
theorem map_outline_test {t u : Test} (h : t.Alike u) :
    (test s t).map Expr.outline = (test s u).map Expr.outline := by
  cases h with
  | @id op => cases op <;> rfl
  | @headerValue side mark name other v w op =>
    have hvalue := outline_textTest (s := s) (.column (.header mark) .value) v w op
    exact congrArg (fun e => Except.ok (Expr.binary .and (headerName mark name).outline e)) hvalue
  | body | path => exact congrArg Except.ok (outline_textTest _ _ _ _)
  | @raw side => cases side <;> exact congrArg Except.ok (outline_anyContains _ _ _ _)
  | _ => rfl

namespace Run

def outline : Run → Run
  | .single e => .single e.outline
  | .chain op first others => .chain op first.outline (others.map Expr.outline)

theorem outline_eq_map : Run.outline = Run.map Expr.outline := by
  funext r
  cases r <;> rfl

end Run

theorem keepsShape_outline : Expr.KeepsShape Expr.outline where
  binary _ _ _ := rfl
  negated := Expr.outline_negated

/-- Conditions that are alike compile to runs of one outline, or fail alike. -/
theorem map_outline_run {c d : Condition} (h : c.Alike d) :
    (run s c).map Run.outline = (run s d).map Run.outline := by
  rw [Run.outline_eq_map]
  induction h with
  | test ht =>
    rw [run, run, map_bind_single, map_bind_single, map_outline_test ht]
  | binary _ _ ihl ihr =>
    rw [run, run, map_bind_link keepsShape_outline, map_bind_link keepsShape_outline, ihl, ihr]
  | negation _ ih =>
    rw [run, run, map_bind_negation keepsShape_outline, map_bind_negation keepsShape_outline, ih]

theorem map_outline_filter {c d : Condition} (h : c.Alike d) :
    (filter s c).map Expr.outline = (filter s d).map Expr.outline := by
  have hrun := map_outline_run (s := s) h
  rw [Run.outline_eq_map] at hrun
  rw [filter_eq, filter_eq, map_map_close keepsShape_outline, map_map_close keepsShape_outline, hrun]

end Compile

/-! ## The text of a statement -/

theorem Condition.Alike.joins_eq {c d : Condition} (h : c.Alike d) : c.joins = d.joins := by
  rw [Condition.joins_eq, Condition.joins_eq]
  induction h with
  | test ht => cases ht <;> rfl
  | binary _ _ ihl ihr => rw [tests, tests, List.filterMap_append, List.filterMap_append, ihl, ihr]
  | negation _ ih => exact ih

theorem Sql.Statement.text_congr (op : Operation) (tables : TableNames) (joins : List HeaderJoin)
    {e f : Expr} (h : textOf e.pieces = textOf f.pieces) :
    text ⟨op, tables, joins, e⟩ = text ⟨op, tables, joins, f⟩ := by
  have hrows : textOf (select ⟨op, tables, joins, e⟩).pieces =
      textOf (select ⟨op, tables, joins, f⟩).pieces := by
    simp only [select, Select.pieces, textOf_append, h]
    rfl
  cases op with
  | rows => simp only [text, pieces, retrieval, Retrieval.pieces, textOf_append, hrows]
  | count =>
    simp only [text, pieces, retrieval, Retrieval.pieces, textOf_append, textOf_parenthesized, hrows]

/-- Conditions that are alike compile to statements of one text, with as many values, or they fail
with one error. -/
theorem compile_text_hides_user_text (s : Settings) (op : Operation) {c d : Condition}
    (h : c.Alike d) :
    (∃ st st', Query.compile s ⟨op, c⟩ = .ok st ∧ Query.compile s ⟨op, d⟩ = .ok st' ∧
      st.text = st'.text ∧ st.values.length = st'.values.length) ∨
    ∃ e, Query.compile s ⟨op, c⟩ = .error e ∧ Query.compile s ⟨op, d⟩ = .error e := by
  have hfilter := Compile.map_outline_filter (s := s) h
  have hjoins := h.joins_eq
  rcases hc : Compile.filter s c with e | e <;> rcases hd : Compile.filter s d with f | f <;>
    rw [hc, hd] at hfilter
  · obtain rfl := Except.error.inj hfilter
    exact .inr ⟨e, by rw [Query.compile, hc]; rfl, by rw [Query.compile, hd]; rfl⟩
  · cases hfilter
  · cases hfilter
  · have houtline : e.outline = f.outline := Except.ok.inj hfilter
    have hpieces : textOf e.pieces = textOf f.pieces := by
      rw [← textOf_outline e, houtline, textOf_outline f]
    have htext := Statement.text_congr op s.tables c.joins hpieces
    refine .inl ⟨_, _, Query.compile_eq_ok_iff.mpr ⟨e, hc, rfl⟩,
      Query.compile_eq_ok_iff.mpr ⟨f, hd, rfl⟩, ?_, ?_⟩
    · rw [← hjoins]
      exact htext
    · rw [← Statement.placeholders_text, ← Statement.placeholders_text, ← hjoins, htext]

/-- What a user may search for. -/
def plainCondition : Condition :=
  .binary .and (.negation (.test (.header .request 4 "Host" (.value .contains "a"))))
    (.binary .or (.test (.id .eq "7")) (.test (.path .icontains "")))

/-- The same search with texts that would mean something else in a statement. -/
def hostileCondition : Condition :=
  .binary .and (.negation (.test (.header .request 4 "x\" = ?" (.value .contains "%' OR '1' = '1"))))
    (.binary .or (.test (.id .eq "'; DROP TABLE \"requests\" --")) (.test (.path .icontains "_!\n")))

theorem compile_text_hides_user_text_hostile : plainCondition.Alike hostileCondition ∧
    ((∃ st st', Query.compile {} ⟨.rows, plainCondition⟩ = .ok st ∧
      Query.compile {} ⟨.rows, hostileCondition⟩ = .ok st' ∧ st.text = st'.text ∧
      st.values.length = st'.values.length) ∨
    ∃ e, Query.compile {} ⟨.rows, plainCondition⟩ = .error e ∧
      Query.compile {} ⟨.rows, hostileCondition⟩ = .error e) := by
  have h : plainCondition.Alike hostileCondition :=
    .binary (.negation (.test .headerValue)) (.binary (.test .id) (.test .path))
  exact ⟨h, compile_text_hides_user_text {} .rows h⟩

end TrafficQuery
