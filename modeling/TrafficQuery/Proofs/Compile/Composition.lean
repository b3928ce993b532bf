import Mathlib.Data.List.Forall2
import TrafficQuery.Proofs.Compile.Runs

/-!
# What a filter is composed of

However a condition is regrouped, its filter is composed of what its tests compile to, each of them
once and from left to right.
-/

namespace TrafficQuery
open Sql

/-! ## Composed expressions -/

namespace Sql

/-- An expression is composed, with connectives and negations, of parts from left to right. -/
inductive Expr.Composed : List Expr → Expr → Prop
  | part {e : Expr} : Composed [e] e
  | binary {op : Connective} {es fs : List Expr} {l r : Expr} :
      Composed es l → Composed fs r → Composed (es ++ fs) (.binary op l r)
  | negation {es : List Expr} {e : Expr} : Composed es e → Composed es (.negation e)

/-- Several expressions are composed, one after the other, of the parts. -/
inductive Expr.ComposedAll : List Expr → List Expr → Prop
  | nil : ComposedAll [] []
  | cons {es ps qs : List Expr} {e : Expr} :
      Composed ps e → ComposedAll qs es → ComposedAll (ps ++ qs) (e :: es)

namespace Expr

/-- To drop a negation takes no part away, unless it is a part itself. -/
theorem Composed.negated {ps : List Expr} {e : Expr} (h : Composed ps e)
    (hps : ∀ p ∈ ps, p.isNegation = false) : Composed ps e.negated := by
  cases h with
  | part =>
    cases e with
    | negation e => exact absurd (hps _ List.mem_cons_self) Bool.noConfusion
    | _ => exact .negation .part
  | binary hl hr => exact .negation (.binary hl hr)
  | negation h => exact h

theorem composedAll_cons_iff {ps es : List Expr} {e : Expr} : ComposedAll ps (e :: es) ↔
    ∃ qs rs, ps = qs ++ rs ∧ Composed qs e ∧ ComposedAll rs es := by
  constructor
  · rintro (_ | ⟨he, hes⟩)
    exact ⟨_, _, rfl, he, hes⟩
  · rintro ⟨qs, rs, rfl, he, hes⟩
    exact .cons he hes

theorem ComposedAll.append {ps qs es fs : List Expr} (h : ComposedAll ps es)
    (h' : ComposedAll qs fs) : ComposedAll (ps ++ qs) (es ++ fs) := by
  induction h with
  | nil => exact h'
  | cons he _ ih =>
    rw [List.append_assoc, List.cons_append]
    exact .cons he ih

end Expr
end Sql

namespace Compile
open Expr
variable {op : Connective} {ps qs es : List Expr} {s : Settings}

/-! ## Runs -/

theorem composedAll_pairUp (h : ComposedAll ps es) : ComposedAll ps (pairUp op es) := by
  fun_induction pairUp op es generalizing ps with
  | case1 e f es ih =>
    obtain ⟨as, _, rfl, he, h⟩ := composedAll_cons_iff.mp h
    obtain ⟨bs, cs, rfl, hf, h⟩ := composedAll_cons_iff.mp h
    rw [← List.append_assoc]
    exact .cons (.binary he hf) (ih h)
  | case2 es => exact h

theorem composed_balance {first : Expr} (h : ComposedAll ps (first :: es)) :
    Composed ps (balance op first es) := by
  fun_induction balance op first es generalizing ps with
  | case1 first =>
    obtain ⟨as, _, rfl, he, ⟨⟩⟩ := composedAll_cons_iff.mp h
    rw [List.append_nil]
    exact he
  | case2 first second others ih =>
    obtain ⟨as, _, rfl, he, h⟩ := composedAll_cons_iff.mp h
    obtain ⟨bs, cs, rfl, hf, h⟩ := composedAll_cons_iff.mp h
    apply ih
    rw [← List.append_assoc]
    exact .cons (.binary he hf) (composedAll_pairUp h)

/-- The parts of a compiled condition whose outermost run is open. -/
def Run.Composed (ps : List Expr) : Run → Prop
  | .single e => Expr.Composed ps e
  | .chain _ first others => ComposedAll ps (first :: others)

theorem Run.Composed.close {r : Run} (h : r.Composed ps) : Expr.Composed ps r.close := by
  cases r with
  | single e => exact h
  | chain op first others => exact composed_balance h

theorem composedAll_operands {r : Run} (h : r.Composed ps) :
    ComposedAll ps ((r.operands op).1 :: (r.operands op).2) := by
  have hclosed : ComposedAll (ps ++ []) [r.close] := .cons h.close .nil
  rw [List.append_nil] at hclosed
  cases r with
  | single e => exact hclosed
  | chain own first others =>
    by_cases hop : own = op
    · rw [Run.operands, if_pos hop]
      exact h
    · rw [Run.operands, if_neg hop]
      exact hclosed

theorem composed_link {l r : Run} (hl : l.Composed ps) (hr : r.Composed qs) :
    (Run.link op l r).Composed (ps ++ qs) :=
  (composedAll_operands hl).append (composedAll_operands hr)

/-! ## Conditions -/

/-- What the tests compile to. -/
abbrev Parts (s : Settings) : List Test → List Expr → Prop :=
  List.Forall₂ fun t e => test s t = .ok e

theorem Parts.isNegation {ts : List Test} (h : Parts s ts ps) : ∀ p ∈ ps, p.isNegation = false := by
  induction h with
  | nil => exact fun p hp => absurd hp List.not_mem_nil
  | cons ht _ ih => exact List.forall_mem_cons.mpr ⟨isNegation_of_test ht, ih⟩

theorem exists_composed_of_run {c : Condition} {r : Run} (h : run s c = .ok r) :
    ∃ ps, Parts s c.tests ps ∧ r.Composed ps := by
  induction c generalizing r with
  | test t =>
    obtain ⟨e, he, rfl⟩ := run_test_eq_ok_iff.mp h
    exact ⟨[e], List.Forall₂.cons he .nil, Expr.Composed.part⟩
  | binary op left right ihl ihr =>
    obtain ⟨l, r', hl, hr', rfl⟩ := run_binary_eq_ok_iff.mp h
    obtain ⟨ps, hps, hl⟩ := ihl hl
    obtain ⟨qs, hqs, hr⟩ := ihr hr'
    exact ⟨ps ++ qs, List.rel_append hps hqs, composed_link hl hr⟩
  | negation c ih =>
    obtain ⟨r', hr', rfl⟩ := run_negation_eq_ok_iff.mp h
    obtain ⟨ps, hps, hr⟩ := ih hr'
    exact ⟨ps, hps, hr.close.negated hps.isNegation⟩

/-- The filter of a condition is composed of what its tests compile to. -/
theorem exists_composed_of_filter {c : Condition} {e : Expr} (h : filter s c = .ok e) :
    ∃ ps, Parts s c.tests ps ∧ Expr.Composed ps e := by
  obtain ⟨r, hr, rfl⟩ := filter_eq_ok_iff.mp h
  obtain ⟨ps, hps, hr⟩ := exists_composed_of_run hr
  exact ⟨ps, hps, hr.close⟩

end Compile
end TrafficQuery
