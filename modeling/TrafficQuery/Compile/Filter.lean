import TrafficQuery.Compile.Test

namespace TrafficQuery.Compile
open Sql

/-- Joins neighbours, two and two. -/
def pairUp (op : Connective) : List Expr → List Expr
  | a :: b :: es => .binary op a b :: pairUp op es
  | es => es

theorem length_pairUp_le (op : Connective) (es : List Expr) : (pairUp op es).length ≤ es.length := by
  fun_induction pairUp op es with
  | case1 a b es ih => simp only [List.length_cons]; omega
  | case2 es => exact Nat.le_refl _

/-- Joins a run of operands as a balanced tree, so that a long run is not deep. -/
def balance (op : Connective) (first : Expr) : List Expr → Expr
  | [] => first
  | second :: others => balance op (.binary op first second) (pairUp op others)
termination_by es => es.length
decreasing_by exact Nat.lt_succ_of_le (length_pairUp_le op others)

mutual

/-- The test on rows that a condition stands for. A run of negations is gone through with one call for
what they negate. -/
def filter (s : Settings) : Condition → Except CompileError Expr
  | .test t => test s t
  | .binary op l r => do
    let (first, others) ← chain s op l [r]
    return balance op first others
  | .negation c => do
    let e ← filter s c.core
    return if c.isInverted then e else .negation e
termination_by c => 2 * c.size
decreasing_by
  · simp only [List.foldr_cons, List.foldr_nil, Condition.size]; omega
  · have := c.size_core_le
    simp only [Condition.size]; omega

/-- The filters of the operands of a chain, from left to right. What belongs to the chain itself gives
way to its sides, so however long the chain is, there is no call but those for its operands. -/
def chain (s : Settings) (op : Connective) (c : Condition)
    (pending : List Condition) : Except CompileError (Expr × List Expr) :=
  match _ : c.sides? op with
  | some (l, r) => chain s op l (r :: pending)
  | none => do
    let e ← filter s c
    match pending with
    | [] => return (e, [])
    | d :: pending =>
      let (first, others) ← chain s op d pending
      return (e, first :: others)
termination_by 2 * (c :: pending).foldr (fun d n => d.size + n) 0 + 1
decreasing_by
  · rename_i h
    obtain rfl := Condition.sides?_eq_some_iff.mp h
    simp only [List.foldr_cons, Condition.size]; omega
  · simp only [List.foldr_cons]; omega
  · have := c.size_pos
    simp only [List.foldr_cons]; omega

end

end TrafficQuery.Compile
