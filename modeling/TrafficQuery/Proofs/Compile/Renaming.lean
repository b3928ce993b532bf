import TrafficQuery.Proofs.Compile.Mapping
import TrafficQuery.Proofs.Compile.Selection
import TrafficQuery.Proofs.Compile.Values
import TrafficQuery.Proofs.Query.Resemblance

/-!
# Names of header tables

The marks of a condition are nothing but the names of its header tables: with other marks it compiles to
the same statement with other names for them.
-/

namespace TrafficQuery
open Sql

/-! ## Renamed statements -/

namespace Sql
variable {ρ : Nat → Nat}

/-- A table with another mark. -/
def Alias.rename (ρ : Nat → Nat) : Alias → Alias
  | .header mark => .header (ρ mark)
  | table => table

def Term.rename (ρ : Nat → Nat) : Term → Term
  | .column table c => .column (table.rename ρ) c
  | .lower t => .lower (t.rename ρ)
  | t => t

def Expr.rename (ρ : Nat → Nat) : Expr → Expr
  | .compare op l r => .compare op (l.rename ρ) (r.rename ρ)
  | .like t pattern escaped => .like (t.rename ρ) pattern escaped
  | .binary op l r => .binary op (l.rename ρ) (r.rename ρ)
  | .negation e => .negation (e.rename ρ)

def HeaderJoin.rename (ρ : Nat → Nat) (j : HeaderJoin) : HeaderJoin := ⟨j.side, ρ j.mark⟩

/-- The same statement with other names for its header tables. -/
def Statement.rename (ρ : Nat → Nat) (s : Statement) : Statement :=
  ⟨s.operation, s.tables, s.joins.map (HeaderJoin.rename ρ), s.filter.rename ρ⟩

theorem Expr.keepsShape_rename (ρ : Nat → Nat) : Expr.KeepsShape (Expr.rename ρ) where
  binary _ _ _ := rfl
  negated e := by cases e <;> rfl

theorem Expr.isAtom_rename (e : Expr) : (e.rename ρ).isAtom = e.isAtom := by cases e <;> rfl

theorem Expr.connective?_rename (e : Expr) : (e.rename ρ).connective? = e.connective? := by
  cases e <;> rfl

/-! ## Renamed pieces -/

/-- A piece of a text, or the name of a header table and its new name. -/
inductive Piece.Renamed (ρ : Nat → Nat) : Piece → Piece → Prop
  | same (p : Piece) : Renamed ρ p p
  | header (mark : Nat) : Renamed ρ (.name (Alias.header mark).label) (.name (Alias.header (ρ mark)).label)

/-- The pieces of a text in which nothing but the names of header tables changes. -/
abbrev RenamedPieces (ρ : Nat → Nat) : List Piece → List Piece → Prop :=
  List.Forall₂ (Piece.Renamed ρ)

namespace RenamedPieces
variable {ps ps' qs qs' : List Piece}

theorem refl (ps : List Piece) : RenamedPieces ρ ps ps := List.forall₂_same.mpr fun p _ => .same p

theorem append (h : RenamedPieces ρ ps ps') (h' : RenamedPieces ρ qs qs') :
    RenamedPieces ρ (ps ++ qs) (ps' ++ qs') := List.rel_append h h'

theorem parenthesized (h : RenamedPieces ρ ps ps') :
    RenamedPieces ρ (Sql.parenthesized ps) (Sql.parenthesized ps') :=
  .cons (.same _) (h.append (RenamedPieces.refl _))

theorem operand (h : RenamedPieces ρ ps ps') (c : Bool) :
    RenamedPieces ρ (if c then ps else Sql.parenthesized ps)
      (if c then ps' else Sql.parenthesized ps') := by
  cases c
  · exact h.parenthesized
  · exact h

/-- The values stay the same. -/
theorem valuesOf_eq (h : RenamedPieces ρ ps ps') : valuesOf ps' = valuesOf ps := by
  induction h with
  | nil => rfl
  | cons hp _ ih =>
    rw [valuesOf_cons, valuesOf_cons, ih]
    cases hp <;> rfl

end RenamedPieces

theorem Alias.renamed (table : Alias) :
    Piece.Renamed ρ (.name table.label) (.name (table.rename ρ).label) := by
  cases table with
  | header mark => exact .header mark
  | _ => exact .same _

theorem Term.renamedPieces (t : Term) : RenamedPieces ρ t.pieces (t.rename ρ).pieces := by
  induction t with
  | column table c => exact .cons table.renamed (RenamedPieces.refl _)
  | lower t ih => exact .cons (.same _) ih.parenthesized
  | _ => exact RenamedPieces.refl _

theorem Expr.renamedPieces (e : Expr) : RenamedPieces ρ e.pieces (e.rename ρ).pieces := by
  induction e with
  | compare op l r => exact (l.renamedPieces.append (RenamedPieces.refl _)).append r.renamedPieces
  | like t pattern escaped => exact (t.renamedPieces.append (RenamedPieces.refl _)).append (RenamedPieces.refl _)
  | binary op l r ihl ihr =>
    simp only [rename, pieces, isAtom_rename, connective?_rename]
    exact ((ihl.operand _).append (RenamedPieces.refl _)).append (ihr.operand _)
  | negation e ih =>
    simp only [rename, pieces, isAtom_rename]
    exact .cons (.same _) (.cons (.same _) (ih.operand _))

def Source.rename (ρ : Nat → Nat) (s : Source) : Source := ⟨s.table, s.name.rename ρ⟩

def Join.rename (ρ : Nat → Nat) (j : Join) : Join := ⟨j.source.rename ρ, j.on.rename ρ⟩

theorem Source.renamedPieces (s : Source) : RenamedPieces ρ s.pieces (s.rename ρ).pieces :=
  .cons (.same _) (RenamedPieces.append (RenamedPieces.refl _) (.cons s.name.renamed .nil))

theorem Join.renamedPieces (j : Join) : RenamedPieces ρ j.pieces (j.rename ρ).pieces := by
  have hfront : RenamedPieces ρ (.space :: phrase ["INNER", "JOIN"]) (.space :: phrase ["INNER", "JOIN"]) :=
    RenamedPieces.refl _
  have htable : RenamedPieces ρ (.space :: j.source.pieces) (.space :: (j.source.rename ρ).pieces) :=
    .cons (.same _) j.source.renamedPieces
  exact ((hfront.append htable).append (RenamedPieces.refl _)).append j.on.renamedPieces

theorem renamedPieces_joins (joins : List Join) : RenamedPieces ρ (joins.flatMap Join.pieces)
    ((joins.map (Join.rename ρ)).flatMap Join.pieces) := by
  induction joins with
  | nil => exact .nil
  | cons j joins ih => exact j.renamedPieces.append ih

namespace Statement

theorem join_rename (table : String) (j : HeaderJoin) :
    (j.rename ρ).join table = (j.join table).rename ρ := by
  rcases j with ⟨side, mark⟩
  cases side <;> rfl

theorem joins_rename (s : Statement) :
    (s.rename ρ).select.joins = s.select.joins.map (Join.rename ρ) := by
  have hjoins : (s.joins.map (HeaderJoin.rename ρ)).map (HeaderJoin.join s.tables.headers) =
      (s.joins.map (HeaderJoin.join s.tables.headers)).map (Join.rename ρ) := by
    rw [List.map_map, List.map_map]
    exact List.map_congr_left fun j _ => join_rename s.tables.headers j
  exact congrArg (_ :: ·) hjoins

theorem renamedPieces_rows (s : Statement) : RenamedPieces ρ s.rowPieces (s.rename ρ).rowPieces := by
  have hjoins := renamedPieces_joins (ρ := ρ) s.select.joins
  rw [← s.joins_rename] at hjoins
  exact (((RenamedPieces.refl _).append hjoins).append (RenamedPieces.refl _)).append s.filter.renamedPieces

/-- A renamed statement is written with the same pieces, but for the names of its header tables. -/
theorem renamedPieces (s : Statement) : RenamedPieces ρ s.pieces (s.rename ρ).pieces := by
  have hrows := s.renamedPieces_rows (ρ := ρ)
  rcases s with ⟨op, tables, joins, filter⟩
  cases op with
  | rows => exact hrows.append (RenamedPieces.refl _)
  | count =>
    have hfront := RenamedPieces.refl (ρ := ρ)
      (.word "SELECT" :: .space :: .word "COUNT" :: parenthesized [.sign "*"] ++ between (.word "FROM"))
    exact ((hfront.append hrows.parenthesized).append (RenamedPieces.refl _)).append (RenamedPieces.refl _)

end Statement
end Sql

/-! ## Compiling with other marks -/

namespace Compile
variable {s : Settings} (ρ : Nat → Nat)

theorem test_remark (t : Test) : test s (t.remark ρ) = (test s t).map (Expr.rename ρ) := by
  cases t with
  | id op value => cases op <;> rfl
  | header side mark name wanted =>
    cases wanted with
    | present => rfl
    | value op text => cases op <;> rfl
  | body side op text => cases side <;> cases op <;> rfl
  | path op text => cases op <;> rfl
  | raw side mark text => cases side <;> rfl
  | _ => rfl

theorem run_remark (c : Condition) : run s (c.remark ρ) = (run s c).map (Run.map (Expr.rename ρ)) := by
  have hshape := Expr.keepsShape_rename ρ
  induction c with
  | test t => rw [Condition.remark, run, run, map_bind_single, test_remark]
  | binary op l r ihl ihr => rw [Condition.remark, run, run, map_bind_link hshape, ihl, ihr]
  | negation c ih => rw [Condition.remark, run, run, map_bind_negation hshape, ih]

/-- The filter of a condition with other marks is its filter with other names. -/
theorem filter_remark (c : Condition) : filter s (c.remark ρ) = (filter s c).map (Expr.rename ρ) := by
  rw [filter_eq, filter_eq, map_map_close (Expr.keepsShape_rename ρ), run_remark]

end Compile

theorem Condition.tests_remark (ρ : Nat → Nat) (c : Condition) :
    (c.remark ρ).tests = c.tests.map (Test.remark ρ) := by
  induction c with
  | test t => rfl
  | binary op l r ihl ihr => rw [remark, tests, tests, ihl, ihr, List.map_append]
  | negation c ih => exact ih

theorem Condition.joins_remark (ρ : Nat → Nat) (c : Condition) :
    (c.remark ρ).joins = c.joins.map (HeaderJoin.rename ρ) := by
  have hjoin (t : Test) : (t.remark ρ).join? = t.join?.map (HeaderJoin.rename ρ) := by cases t <;> rfl
  rw [joins_eq, joins_eq, tests_remark, List.filterMap_map, List.map_filterMap]
  exact List.filterMap_congr fun t _ => hjoin t

/-- With other marks a query compiles to its statement with other names. -/
theorem Query.compile_remark (ρ : Nat → Nat) (s : Settings) (op : Operation) {c : Condition}
    {st : Statement} (h : Query.compile s ⟨op, c⟩ = .ok st) :
    Query.compile s ⟨op, c.remark ρ⟩ = .ok (st.rename ρ) := by
  obtain ⟨e, he, rfl⟩ := Query.compile_eq_ok_iff.mp h
  refine Query.compile_eq_ok_iff.mpr ⟨e.rename ρ, ?_, ?_⟩
  · rw [Compile.filter_remark, he]
    rfl
  · rw [Condition.joins_remark]
    rfl

end TrafficQuery
