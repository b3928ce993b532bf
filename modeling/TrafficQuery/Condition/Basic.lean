import TrafficQuery.Token.Basic
import TrafficQuery.Condition.Field
import TrafficQuery.Condition.Method

namespace TrafficQuery

/-- How a text is compared. -/
inductive TextOp
  | equals | contains | icontains
  deriving DecidableEq, Repr, Inhabited

/-- What is asked of a header of the right name. -/
inductive HeaderMatch
  | present
  | value (op : TextOp) (text : String)
  deriving DecidableEq, Repr, Inhabited

/-- A test of one exchange. The mark of a header or raw test tells its copy of the header table from
that of the others. -/
inductive Test
  | timestamp (op : OrderOp) (ago : Nat)
  | id (op : OrderOp) (value : String)
  | method (method : Method)
  | header (side : Side) (mark : Nat) (name : String) (wanted : HeaderMatch)
  | body (side : Side) (op : TextOp) (text : String)
  | path (op : TextOp) (text : String)
  | raw (side : Side) (mark : Nat) (text : String)
  | status (op : OrderOp) (value : Int)
  deriving DecidableEq, Repr, Inhabited

/-- A tree of tests. -/
inductive Condition
  | test (test : Test)
  | binary (op : Connective) (left right : Condition)
  | negation (inner : Condition)
  deriving DecidableEq, Repr, Inhabited

namespace Condition

/-- The tests from left to right. -/
def tests : Condition → List Test
  | .test t => [t]
  | .binary _ l r => l.tests ++ r.tests
  | .negation c => c.tests

def size : Condition → Nat
  | .test _ => 1
  | .binary _ l r => l.size + r.size + 1
  | .negation c => c.size + 1

theorem size_pos (c : Condition) : 0 < c.size := by
  cases c <;> exact Nat.succ_pos _

/-- Combines the tests of some conditions, those of the first condition first. A condition gives way to
its parts, so however tall it is, no call is open while they are looked at. -/
@[semireducible] def foldPending {α : Type} (f : α → Test → α) (a : α) : List Condition → α
  | [] => a
  | .test t :: pending => foldPending f (f a t) pending
  | .binary _ l r :: pending => foldPending f a (l :: r :: pending)
  | .negation c :: pending => foldPending f a (c :: pending)
termination_by pending => pending.foldr (fun c n => c.size + n) 0
decreasing_by all_goals simp only [List.foldr_cons, size]; omega

theorem foldPending_eq {α : Type} (f : α → Test → α) (a : α) (pending : List Condition) :
    foldPending f a pending = (pending.flatMap tests).foldl f a := by
  fun_induction foldPending f a pending with
  | case1 a => rfl
  | case2 a t pending ih => simpa [tests] using ih
  | case3 a op l r pending ih => simpa [tests] using ih
  | case4 a c pending ih => simpa [tests] using ih

/-- Combines the tests from left to right. -/
def foldTests {α : Type} (f : α → Test → α) (a : α) (c : Condition) : α := foldPending f a [c]

theorem foldTests_eq {α : Type} (f : α → Test → α) (a : α) (c : Condition) :
    c.foldTests f a = c.tests.foldl f a := by
  simp [foldTests, foldPending_eq]

/-- The sides of a condition that joins them with a connective. -/
def sides? (op : Connective) : Condition → Option (Condition × Condition)
  | .binary own l r => if own = op then some (l, r) else none
  | _ => none

theorem sides?_eq_some_iff {op : Connective} {c l r : Condition} :
    c.sides? op = some (l, r) ↔ c = .binary op l r := by
  cases c with
  | binary own l' r' =>
    by_cases h : own = op <;> simp [sides?, h]
  | _ => simp [sides?]

/-- The condition below a run of negations. -/
def core : Condition → Condition
  | .negation c => c.core
  | c => c

/-- Whether the run of negations above the core has an odd number of them. -/
def isInverted : Condition → Bool
  | .negation c => !c.isInverted
  | _ => false

theorem size_core_le (c : Condition) : c.core.size ≤ c.size := by
  induction c with
  | negation c ih => exact Nat.le_succ_of_le ih
  | _ => exact Nat.le_refl _

/-- The negation of a condition, repeated. -/
def negations : Nat → Condition → Condition
  | 0, c => c
  | n + 1, c => .negation (negations n c)

end Condition

/-- What a query returns: the rows that match, latest first, or their number. -/
inductive Operation
  | rows | count
  deriving DecidableEq, Repr, Inhabited

structure Query where
  operation : Operation
  root : Condition
  deriving DecidableEq, Repr, Inhabited

end TrafficQuery
