import TrafficQuery.Proofs.Compile.Selection
import TrafficQuery.Proofs.Sql.WhereClause

/-!
# What the text of a compiled query says

The text leaves out most parentheses, and still says the filter and nothing else.
-/

namespace TrafficQuery
open Sql

/-- The text of a compiled query, with its values, is read as the tree of the filter of its condition,
and there is no other test that it could stand for. -/
theorem compile_text_says_filter (s : Settings) {query : Query} {statement : Statement}
    (h : query.compile s = .ok statement) :
    ∃ e, Compile.filter s query.root = .ok e ∧
      (∀ t, ReadsFilter statement.text statement.values t ↔ t = e.tree) ∧
      ∀ f : Expr, ReadsFilter statement.text statement.values f.tree ↔ f = e := by
  obtain ⟨e, he, rfl⟩ := Query.compile_eq_ok_iff.mp h
  have hread (t : Tree) := readsFilter_text_iff ⟨query.operation, s.tables, query.root.joins, e⟩ t
  refine ⟨e, he, hread, ?_⟩
  intro f
  rw [hread]
  exact ⟨fun heq => Expr.tree_injective heq, fun heq => congrArg Expr.tree heq⟩

/-- A query whose filter has both connectives, a negation and a time in it. -/
def nestedQuery : Query :=
  ⟨.count, .binary .and (.test (.header .request 4 "Host" (.value .contains "a")))
    (.negation (.binary .or (.test (.timestamp .gt 60)) (.test (.raw .response 9 "x?"))))⟩

def nestedFilter : Expr :=
  .binary .and
    (.binary .and
      (.compare .eq (.lower (.column (.header 4) .name)) (.lower (.bound (.string "Host"))))
      (.like (.column (.header 4) .value) "%a%" true))
    (.negation (.binary .or (.compare .gt (.column .request .timestamp) (.ago 60))
      (.binary .or
        (.binary .or (.like (.column .response .body) "%x?%" true)
          (.like (.column (.header 9) .value) "%x?%" true))
        (.like (.column (.header 9) .name) "%x?%" true))))

def nestedStatement : Statement :=
  ⟨.count, {}, [⟨.request, 4⟩, ⟨.response, 9⟩], nestedFilter⟩

theorem compile_text_says_filter_nested : nestedQuery.compile {} = .ok nestedStatement ∧
    ∃ e, Compile.filter {} nestedQuery.root = .ok e ∧
      (∀ t, ReadsFilter nestedStatement.text nestedStatement.values t ↔ t = e.tree) ∧
      ∀ f : Expr, ReadsFilter nestedStatement.text nestedStatement.values f.tree ↔ f = e := by
  have h : nestedQuery.compile {} = .ok nestedStatement := by decide +kernel
  exact ⟨h, compile_text_says_filter {} h⟩

end TrafficQuery
