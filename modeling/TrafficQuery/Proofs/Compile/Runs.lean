import TrafficQuery.Compile.Filter
import TrafficQuery.Proofs.Outcome

/-!
# How a condition compiles

What a condition is compiled to, in terms of what its parts are compiled to. A part leaves its outermost
chain open for a chain of the same connective around it, which takes up its operands. The stack of
conditions that a chain is compiled with comes to the same operands. What holds of compiled conditions is
proved from this by induction on the condition.
-/

namespace TrafficQuery

/-- Two negations cancel each other. -/
def Sql.Expr.negated : Expr → Expr
  | .negation e => e
  | e => .negation e

def Sql.Expr.isNegation : Expr → Bool
  | .negation _ => true
  | _ => false

namespace Compile
open Sql

variable {s : Settings} {c l r : Condition} {t : Test} {op : Connective} {e : Expr}

/-! ## Open chains -/

/-- A compiled condition whose outermost run of one connective is still open, so that a run around it
can take it up. -/
inductive Run
  | single (expr : Expr)
  | chain (op : Connective) (first : Expr) (others : List Expr)
  deriving DecidableEq, Repr

def Run.close : Run → Expr
  | .single e => e
  | .chain op first others => balance op first others

/-- The operands that a condition gives to a run around it. -/
def Run.operands (r : Run) (op : Connective) : Expr × List Expr :=
  match r with
  | .single e => (e, [])
  | .chain own first others =>
    if own = op then (first, others) else (balance own first others, [])

def Run.link (op : Connective) (left right : Run) : Run :=
  let l := left.operands op
  let r := right.operands op
  .chain op l.1 (l.2 ++ r.1 :: r.2)

/-- A chain gives all its operands to a chain of the same connective around it. -/
theorem operands_link (op : Connective) (a b : Run) : (Run.link op a b).operands op =
    ((a.operands op).1, (a.operands op).2 ++ (b.operands op).1 :: (b.operands op).2) := by
  rw [Run.link, Run.operands, if_pos rfl]

theorem operands_link_of_ne {own : Connective} (h : own ≠ op) (a b : Run) :
    (Run.link own a b).operands op = ((Run.link own a b).close, []) := by
  rw [Run.link, Run.operands, if_neg h]
  rfl

def run (s : Settings) : Condition → Except CompileError Run
  | .test t => return .single (← test s t)
  | .binary op left right => return .link op (← run s left) (← run s right)
  | .negation c => return .single (← run s c).close.negated

variable {x : Run}

theorem run_test_eq_ok_iff : run s (.test t) = .ok x ↔ ∃ e, test s t = .ok e ∧ x = .single e := by
  rw [run, bind_eq_ok_iff]
  constructor
  · rintro ⟨e, he, h⟩
    exact ⟨e, he, (Except.ok.inj h).symm⟩
  · rintro ⟨e, he, rfl⟩
    exact ⟨e, he, rfl⟩

theorem run_binary_eq_ok_iff : run s (.binary op l r) = .ok x ↔
    ∃ a b, run s l = .ok a ∧ run s r = .ok b ∧ x = .link op a b := by
  simp only [run, bind_eq_ok_iff]
  constructor
  · rintro ⟨a, ha, b, hb, h⟩
    exact ⟨a, b, ha, hb, (Except.ok.inj h).symm⟩
  · rintro ⟨a, b, ha, hb, rfl⟩
    exact ⟨a, ha, b, hb, rfl⟩

theorem run_negation_eq_ok_iff : run s (.negation c) = .ok x ↔
    ∃ a, run s c = .ok a ∧ x = .single a.close.negated := by
  rw [run, bind_eq_ok_iff]
  constructor
  · rintro ⟨a, ha, h⟩
    exact ⟨a, ha, (Except.ok.inj h).symm⟩
  · rintro ⟨a, ha, rfl⟩
    exact ⟨a, ha, rfl⟩

/-! ## Negations -/

theorem isNegation_of_test (h : test s t = .ok e) : e.isNegation = false := by
  cases t with
  | id op value =>
    cases op <;> cases h
    rfl
  | header side mark name wanted =>
    cases h
    cases wanted <;> rfl
  | body side op text | path op text =>
    cases h
    cases op <;> rfl
  | raw side mark text =>
    cases h
    cases side <;> rfl
  | _ =>
    cases h
    rfl

theorem isNegation_balance (op : Connective) {first : Expr} (h : first.isNegation = false)
    (es : List Expr) : (balance op first es).isNegation = false := by
  fun_induction balance op first es with
  | case1 first => exact h
  | case2 first second others ih => exact ih rfl

theorem isNegation_link (op : Connective) (l r : Run) :
    (Run.link op l r).close.isNegation = false := by
  change (balance op (l.operands op).1
    ((l.operands op).2 ++ (r.operands op).1 :: (r.operands op).2)).isNegation = false
  -- A chain has a second operand, so it is joined at least once.
  obtain ⟨second, others, h⟩ := List.exists_cons_of_ne_nil
    (List.append_ne_nil_of_right_ne_nil (l.operands op).2
      (List.cons_ne_nil (r.operands op).1 (r.operands op).2))
  rw [h, balance]
  exact isNegation_balance op rfl _

/-- No condition but a negation is compiled to one. -/
theorem isNegation_of_run_core (h : run s c.core = .ok x) : x.close.isNegation = false := by
  induction c with
  | test t =>
    obtain ⟨e, he, rfl⟩ := run_test_eq_ok_iff.mp h
    exact isNegation_of_test he
  | binary op left right =>
    obtain ⟨l, r, -, -, rfl⟩ := run_binary_eq_ok_iff.mp h
    exact isNegation_link op l r
  | negation c ih => exact ih h

theorem negated_of_isNegation (h : e.isNegation = false) : e.negated = .negation e := by
  cases e with
  | negation e => cases h
  | _ => rfl

/-- A run of negations is compiled to what it negates, or to the negation of that. -/
theorem close_run_core (s : Settings) (c : Condition) : (run s c).map Run.close =
    (run s c.core).map fun x => if c.isInverted then .negation x.close else x.close := by
  induction c with
  | negation c ih =>
    have hnegation : (run s (.negation c)).map Run.close =
        ((run s c).map Run.close).map Expr.negated := by
      rw [run]
      cases run s c <;> rfl
    rw [hnegation, ih, Condition.core]
    rcases hcore : run s c.core with e | x
    · rfl
    · refine congrArg Except.ok ?_
      rw [Condition.isInverted]
      cases c.isInverted with
      | true => rfl
      | false => exact negated_of_isNegation (isNegation_of_run_core hcore)
  | _ => rfl

/-! ## Filters -/

/-- The operands that pending conditions have for a chain. -/
def pendingOperands (s : Settings) (op : Connective) : List Condition → Except CompileError (List Expr)
  | [] => return []
  | c :: pending => do
    let x ← run s c
    return (x.operands op).1 :: (x.operands op).2 ++ (← pendingOperands s op pending)

/-- The operands of a condition and of those behind it. -/
def allOperands (s : Settings) (op : Connective) (c : Condition) (pending : List Condition) :
    Except CompileError (Expr × List Expr) := do
  let x ← run s c
  return ((x.operands op).1, (x.operands op).2 ++ (← pendingOperands s op pending))

/-- A chain on top of the others has the operands of its sides. -/
theorem allOperands_binary (s : Settings) (op : Connective) (l r : Condition)
    (pending : List Condition) :
    allOperands s op (.binary op l r) pending = allOperands s op l (r :: pending) := by
  simp only [allOperands, pendingOperands, run]
  rcases run s l with e | a
  · rfl
  · rcases run s r with e | b
    · rfl
    · rcases pendingOperands s op pending with e | es
      · rfl
      · change Except.ok _ = Except.ok _
        rw [operands_link, List.append_assoc, List.cons_append]

/-- Anything else is an operand as a whole. -/
theorem operands_of_run_of_sides (h : c.sides? op = none) (hx : run s c = .ok x) :
    x.operands op = (x.close, []) := by
  cases c with
  | test t =>
    obtain ⟨e, -, rfl⟩ := run_test_eq_ok_iff.mp hx
    rfl
  | negation c =>
    obtain ⟨a, -, rfl⟩ := run_negation_eq_ok_iff.mp hx
    rfl
  | binary own l r =>
    obtain ⟨a, b, -, -, rfl⟩ := run_binary_eq_ok_iff.mp hx
    refine operands_link_of_ne (fun hop => ?_) a b
    rw [Condition.sides?, if_pos hop] at h
    cases h

theorem chain_of_sides {pending : List Condition} (h : c.sides? op = some (l, r)) :
    chain s op c pending = chain s op l (r :: pending) := by
  rw [chain]
  split <;> simp_all

theorem chain_of_sides_eq_none {pending : List Condition} (h : c.sides? op = none) :
    chain s op c pending = do
      let e ← filter s c
      match pending with
      | [] => return (e, [])
      | d :: pending =>
        let (first, others) ← chain s op d pending
        return (e, first :: others) := by
  rw [chain]
  split
  case h_1 h' => cases h.symm.trans h'
  case h_2 => rfl

/-- The filter of a condition is its run when nothing around it takes it up, and the stack of a chain
gives the operands of the runs on it. -/
theorem filter_eq_and_chain_eq (s : Settings) :
    (∀ c, filter s c = (run s c).map Run.close) ∧
    ∀ op c pending, chain s op c pending = allOperands s op c pending := by
  apply filter.mutual_induct
  case case1 =>
    intro t
    rw [filter, run]
    cases test s t <;> rfl
  case case2 =>
    intro op l r ih
    rw [filter, ih, ← allOperands_binary, allOperands]
    rcases hx : run s (.binary op l r) with e | x
    · rfl
    · obtain ⟨a, b, -, -, rfl⟩ := run_binary_eq_ok_iff.mp hx
      change Except.ok (balance op _ (_ ++ [])) = _
      rw [List.append_nil, operands_link]
      rfl
  case case3 =>
    intro c ih
    rw [filter, ih, close_run_core s (.negation c), Condition.core, Condition.isInverted]
    rcases run s c.core with e | x
    · rfl
    · cases c.isInverted <;> rfl
  case case4 =>
    intro op c pending l r h ih
    obtain rfl := Condition.sides?_eq_some_iff.mp h
    rw [chain_of_sides h, ih, allOperands_binary]
  case case5 =>
    intro op c pending h ih ihpending
    rw [chain_of_sides_eq_none h, ih, allOperands]
    rcases hx : run s c with e | x
    · rfl
    · have hoperands := operands_of_run_of_sides h hx
      cases pending with
      | nil =>
        change Except.ok (x.close, []) = Except.ok ((x.operands op).1, (x.operands op).2 ++ [])
        rw [hoperands]
        rfl
      | cons d pending =>
        simp only [ihpending, allOperands, pendingOperands]
        rcases run s d with e | y
        · rfl
        · rcases pendingOperands s op pending with e | es
          · rfl
          · change Except.ok (x.close, _) = Except.ok ((x.operands op).1, (x.operands op).2 ++ _)
            rw [hoperands]
            rfl

/-- The filter of a condition is its run when nothing around it takes it up. -/
theorem filter_eq (s : Settings) (c : Condition) : filter s c = (run s c).map Run.close :=
  (filter_eq_and_chain_eq s).1 c

theorem filter_eq_ok_iff : filter s c = .ok e ↔ ∃ a, run s c = .ok a ∧ e = a.close := by
  rw [filter_eq]
  rcases run s c with f | a
  · simp [Except.map]
  · simp [Except.map, eq_comm]

end Compile
end TrafficQuery
