import TrafficQuery.Proofs.Compile.Runs

/-!
# Changes within a filter

A change that leaves connectives and negations of expressions as they are can be made to the compiled
tests of a condition or to its whole filter, however the condition is regrouped in between.
-/

namespace TrafficQuery
open Sql

/-- A map that changes nothing but what connectives and negations put together. -/
structure Sql.Expr.KeepsShape (g : Expr → Expr) : Prop where
  binary : ∀ op l r, g (.binary op l r) = .binary op (g l) (g r)
  negated : ∀ e, g e.negated = (g e).negated

namespace Compile
variable {g : Expr → Expr} {op : Connective}

theorem map_pairUp (hg : Expr.KeepsShape g) (op : Connective) (es : List Expr) :
    (pairUp op es).map g = pairUp op (es.map g) := by
  fun_induction pairUp op es with
  | case1 e f es ih =>
    rw [List.map_cons, ih, hg.binary]
    rfl
  | case2 es hshort =>
    rcases es with _ | ⟨e, _ | ⟨f, es⟩⟩
    · rfl
    · rfl
    · exact absurd rfl (hshort e f es)

theorem map_balance (hg : Expr.KeepsShape g) (op : Connective) (first : Expr) (es : List Expr) :
    g (balance op first es) = balance op (g first) (es.map g) := by
  fun_induction balance op first es with
  | case1 first => rw [List.map_nil, balance]
  | case2 first second others ih => rw [ih, map_pairUp hg, hg.binary, List.map_cons, balance]

namespace Run

/-- A run with every operand changed. -/
def map (g : Expr → Expr) : Run → Run
  | .single e => .single (g e)
  | .chain op first others => .chain op (g first) (others.map g)

theorem map_close (hg : Expr.KeepsShape g) (r : Run) : (r.map g).close = g r.close := by
  cases r with
  | single e => rfl
  | chain op first others => exact (map_balance hg op first others).symm

theorem map_operands (hg : Expr.KeepsShape g) (r : Run) (op : Connective) :
    (r.map g).operands op = (g (r.operands op).1, (r.operands op).2.map g) := by
  cases r with
  | single e => rfl
  | chain own first others =>
    by_cases h : own = op
    · simp only [map, operands, if_pos h]
    · simp only [map, operands, if_neg h, map_balance hg, List.map_nil]

theorem map_link (hg : Expr.KeepsShape g) (op : Connective) (l r : Run) :
    (link op l r).map g = link op (l.map g) (r.map g) := by
  simp only [link, map_operands hg]
  simp only [map, List.map_append, List.map_cons]

end Run

/-! ## Computations of runs -/

theorem map_bind_single (g : Expr → Expr) (x : Except CompileError Expr) :
    (do return .single (← x) : Except CompileError Run).map (Run.map g) =
      do return .single (← x.map g) := by
  rcases x with e | f <;> rfl

theorem map_bind_link (hg : Expr.KeepsShape g) (op : Connective) (x y : Except CompileError Run) :
    (do return .link op (← x) (← y) : Except CompileError Run).map (Run.map g) =
      do return .link op (← x.map (Run.map g)) (← y.map (Run.map g)) := by
  rcases x with e | l
  · rfl
  · rcases y with e | r
    · rfl
    · exact congrArg Except.ok (Run.map_link hg op l r)

theorem map_bind_negation (hg : Expr.KeepsShape g) (x : Except CompileError Run) :
    (do return .single (← x).close.negated : Except CompileError Run).map (Run.map g) =
      do return .single (← x.map (Run.map g)).close.negated := by
  rcases x with e | r
  · rfl
  · have hclose : g r.close.negated = (r.map g).close.negated := by
      rw [hg.negated, Run.map_close hg]
    exact congrArg (fun e => Except.ok (Run.single e)) hclose

theorem map_map_close (hg : Expr.KeepsShape g) (x : Except CompileError Run) :
    (x.map Run.close).map g = (x.map (Run.map g)).map Run.close := by
  rcases x with e | r
  · rfl
  · exact congrArg Except.ok (Run.map_close hg r).symm

end Compile
end TrafficQuery
