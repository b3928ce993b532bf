import Mathlib.Logic.Relation
import TrafficQuery.Proofs.Compile.Composition
import TrafficQuery.Proofs.Compile.Runs
import TrafficQuery.Proofs.Compile.Selection

/-!
# What the brackets of a condition do not change

The statement of a condition depends on its chains and on whether what they join is negated. How a chain
is bracketed, and by how many pairs of negations something is negated, is lost on the way.
-/

namespace TrafficQuery
open Sql

/-- One change of brackets in a chain, or of the number of negations in a run, somewhere in a
condition. -/
inductive Condition.Regrouping : Condition → Condition → Prop
  | chain {op : Connective} {a b c : Condition} :
      Regrouping (.binary op (.binary op a b) c) (.binary op a (.binary op b c))
  | negations {m n : Nat} {c : Condition} : 0 < m → 0 < n → m % 2 = n % 2 →
      Regrouping (.negations m c) (.negations n c)
  | left {op : Connective} {c d r : Condition} :
      Regrouping c d → Regrouping (.binary op c r) (.binary op d r)
  | right {op : Connective} {l c d : Condition} :
      Regrouping c d → Regrouping (.binary op l c) (.binary op l d)
  | inside {c d : Condition} : Regrouping c d → Regrouping (.negation c) (.negation d)

theorem Condition.tests_negations (n : Nat) (c : Condition) : (negations n c).tests = c.tests := by
  induction n with
  | zero => rfl
  | succ n ih => exact ih

theorem Condition.Regrouping.tests_eq {c d : Condition} (h : c.Regrouping d) : c.tests = d.tests := by
  induction h with
  | chain => simp only [tests, List.append_assoc]
  | negations => rw [tests_negations, tests_negations]
  | left _ ih => rw [tests, tests, ih]
  | right _ ih => rw [tests, tests, ih]
  | inside _ ih => exact ih

namespace Compile
variable {s : Settings} {op : Connective} {c d : Condition}

/-! ## Chains -/

theorem link_assoc (op : Connective) (a b c : Run) :
    Run.link op (Run.link op a b) c = Run.link op a (Run.link op b c) := by
  change Run.chain op ((Run.link op a b).operands op).1
      (((Run.link op a b).operands op).2 ++ (c.operands op).1 :: (c.operands op).2) =
    Run.chain op (a.operands op).1 ((a.operands op).2 ++
      ((Run.link op b c).operands op).1 :: ((Run.link op b c).operands op).2)
  rw [operands_link, operands_link, List.append_assoc, List.cons_append]

theorem run_chain (s : Settings) (op : Connective) (a b c : Condition) :
    run s (.binary op (.binary op a b) c) = run s (.binary op a (.binary op b c)) := by
  simp only [run]
  rcases run s a with e | ra
  · rfl
  · rcases run s b with e | rb
    · rfl
    · rcases run s c with e | rc
      · rfl
      · exact congrArg Except.ok (link_assoc op ra rb rc)

/-! ## Negations -/

theorem negated_negated_of_isNegation {e : Expr} (h : e.isNegation = false) :
    e.negated.negated = e := by
  cases e with
  | negation e => cases h
  | _ => rfl

/-- No condition is compiled to two negations in a row, so two more of them are lost. -/
theorem negated_negated_close {r : Run} (h : run s c = .ok r) :
    r.close.negated.negated = r.close := by
  induction c generalizing r with
  | test t =>
    obtain ⟨e, he, rfl⟩ := run_test_eq_ok_iff.mp h
    exact negated_negated_of_isNegation (isNegation_of_test he)
  | binary op left right =>
    obtain ⟨l, r', -, -, rfl⟩ := run_binary_eq_ok_iff.mp h
    exact negated_negated_of_isNegation (isNegation_link op l r')
  | negation c ih =>
    obtain ⟨r', hr', rfl⟩ := run_negation_eq_ok_iff.mp h
    exact congrArg Expr.negated (ih hr')

/-- Below another negation, two negations change nothing. -/
theorem run_negation_negation_negation (s : Settings) (c : Condition) :
    run s (.negation (.negation (.negation c))) = run s (.negation c) := by
  simp only [run]
  rcases hr : run s c with e | r
  · rfl
  · exact congrArg (fun e => Except.ok (Run.single e.negated)) (negated_negated_close hr)

/-- At the root, they do not either. -/
theorem filter_negation_negation (s : Settings) (c : Condition) :
    filter s (.negation (.negation c)) = filter s c := by
  simp only [filter_eq, run]
  rcases hr : run s c with e | r
  · rfl
  · exact congrArg Except.ok (negated_negated_close hr)

theorem run_negations_add (s : Settings) (n k : Nat) (c : Condition) :
    run s (.negations (n + 1 + 2 * k) c) = run s (.negations (n + 1) c) := by
  induction k with
  | zero => rfl
  | succ k ih =>
    have hmore : n + 1 + 2 * (k + 1) = n + 2 * k + 3 := by omega
    have hless : n + 1 + 2 * k = n + 2 * k + 1 := by omega
    rw [hless] at ih
    rw [hmore, ← ih]
    exact run_negation_negation_negation s (.negations (n + 2 * k) c)

/-- What a run of negations is compiled to depends on whether they are even or odd in number. -/
theorem run_negations_eq (s : Settings) {m n : Nat} (c : Condition) (hm : 0 < m) (hn : 0 < n)
    (h : m % 2 = n % 2) : run s (.negations m c) = run s (.negations n c) := by
  rcases Nat.le_total m n with hle | hle
  · obtain ⟨k, hk⟩ : ∃ k, n = m - 1 + 1 + 2 * k := ⟨(n - m) / 2, by omega⟩
    rw [hk, run_negations_add, Nat.sub_add_cancel hm]
  · obtain ⟨k, hk⟩ : ∃ k, m = n - 1 + 1 + 2 * k := ⟨(m - n) / 2, by omega⟩
    rw [hk, run_negations_add, Nat.sub_add_cancel hn]

theorem filter_negations_of_even (s : Settings) {n : Nat} (c : Condition) (h : n % 2 = 0) :
    filter s (.negations n c) = filter s c := by
  obtain rfl | hn := Nat.eq_zero_or_pos n
  · rfl
  · have hrun := run_negations_eq s c hn Nat.two_pos h
    rw [filter_eq, hrun, ← filter_eq]
    exact filter_negation_negation s c

/-! ## Conditions -/

theorem run_eq_of_regrouping (s : Settings) (h : c.Regrouping d) : run s c = run s d := by
  induction h with
  | chain => exact run_chain s _ _ _ _
  | negations hm hn hparity => exact run_negations_eq s _ hm hn hparity
  | left _ ih => rw [run, run, ih]
  | right _ ih => rw [run, run, ih]
  | inside _ ih => rw [run, run, ih]

end Compile

/-- A statement is made of the filter of its condition and of the tests in it. -/
theorem Query.compile_congr {s : Settings} {c d : Condition} (op : Operation)
    (hfilter : Compile.filter s c = Compile.filter s d) (htests : c.tests = d.tests) :
    Query.compile s ⟨op, c⟩ = Query.compile s ⟨op, d⟩ := by
  have hjoins : c.joins = d.joins := by rw [c.joins_eq, d.joins_eq, htests]
  rw [compile, compile, hfilter, hjoins]

theorem Query.compile_eq_of_regrouping (s : Settings) (op : Operation) {c d : Condition}
    (h : c.Regrouping d) : Query.compile s ⟨op, c⟩ = Query.compile s ⟨op, d⟩ := by
  have hrun := Compile.run_eq_of_regrouping s h
  have hfilter : Compile.filter s c = Compile.filter s d := by
    rw [Compile.filter_eq, Compile.filter_eq, hrun]
  exact compile_congr op hfilter h.tests_eq

/-- Conditions whose chains are bracketed in different ways, and whose runs of negations differ by pairs,
compile to one statement or fail with one error. An even run of negations at the root can be left out as
a whole. -/
theorem compile_forgets_brackets (s : Settings) (op : Operation) :
    (∀ c d : Condition, Relation.EqvGen Condition.Regrouping c d →
      Query.compile s ⟨op, c⟩ = Query.compile s ⟨op, d⟩) ∧
    ∀ (c : Condition) (n : Nat), n % 2 = 0 →
      Query.compile s ⟨op, .negations n c⟩ = Query.compile s ⟨op, c⟩ := by
  refine ⟨fun c d h => ?_, fun c n h => ?_⟩
  · induction h with
    | rel _ _ h => exact Query.compile_eq_of_regrouping s op h
    | refl => rfl
    | symm _ _ _ ih => exact ih.symm
    | trans _ _ _ _ _ ih ih' => exact ih.trans ih'
  · exact Query.compile_congr op (Compile.filter_negations_of_even s c h) (c.tests_negations n)

/-- A chain below a negation, next to a run of negations. -/
def bracketedLeft : Condition :=
  .binary .or (.negation (.binary .and (.binary .and (.test (.raw .request 4 "a"))
    (.test (.id .gt "7"))) (.test (.status .ge 400)))) (.negations 5 (.test (.id .lt "8")))

def bracketedRight : Condition :=
  .binary .or (.negation (.binary .and (.test (.raw .request 4 "a"))
    (.binary .and (.test (.id .gt "7")) (.test (.status .ge 400))))) (.negations 1 (.test (.id .lt "8")))

theorem compile_forgets_brackets_sample :
    Relation.EqvGen Condition.Regrouping bracketedRight bracketedLeft ∧
    Query.compile {} ⟨.rows, bracketedRight⟩ = Query.compile {} ⟨.rows, bracketedLeft⟩ ∧
    Query.compile {} ⟨.count, .negations 4 bracketedLeft⟩ = Query.compile {} ⟨.count, bracketedLeft⟩ := by
  have hchain : bracketedLeft.Regrouping (.binary .or _ (.negations 5 (.test (.id .lt "8")))) :=
    .left (.inside .chain)
  have hrun : Condition.Regrouping (.binary .or _ (.negations 5 (.test (.id .lt "8")))) bracketedRight :=
    .right (.negations (by decide) (by decide) (by decide))
  have h : Relation.EqvGen Condition.Regrouping bracketedRight bracketedLeft :=
    .symm _ _ (.trans _ _ _ (.rel _ _ hchain) (.rel _ _ hrun))
  exact ⟨h, (compile_forgets_brackets {} .rows).1 _ _ h,
    (compile_forgets_brackets {} .count).2 _ 4 rfl⟩

end TrafficQuery
