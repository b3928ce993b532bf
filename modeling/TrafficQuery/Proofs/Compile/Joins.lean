import Mathlib.Data.List.Forall2
import TrafficQuery.Proofs.Query.Marks

/-!
# The header tables of a condition

A condition is taken apart with a list of the parts that are still to be looked at. Its header tables
come out as its tests stand in it: from left to right, one for each test of a header or of a raw text.
-/

namespace TrafficQuery
open Sql

/-- Whether a test is one of headers. -/
def Test.usesHeaders : Test → Bool
  | .header .. => true
  | .raw .. => true
  | _ => false

/-- A test of headers looks in the header table of its side that has its mark. -/
inductive Test.LooksIn : Test → HeaderJoin → Prop
  | header {side : Side} {mark : Nat} {name : String} {wanted : HeaderMatch} :
      LooksIn (.header side mark name wanted) ⟨side, mark⟩
  | raw {side : Side} {mark : Nat} {text : String} : LooksIn (.raw side mark text) ⟨side, mark⟩

theorem Test.join?_cases (t : Test) :
    (t.usesHeaders = true ∧ ∃ j, t.join? = some j ∧ t.LooksIn j) ∨
      (t.usesHeaders = false ∧ t.join? = none) := by
  cases t with
  | header => exact .inl ⟨rfl, _, rfl, .header⟩
  | raw => exact .inl ⟨rfl, _, rfl, .raw⟩
  | _ => exact .inr ⟨rfl, rfl⟩

/-- The tests of headers look in the tables of their list one by one. -/
theorem forall₂_looksIn (ts : List Test) :
    List.Forall₂ Test.LooksIn (ts.filter Test.usesHeaders) (ts.filterMap Test.join?) := by
  induction ts with
  | nil => exact .nil
  | cons t ts ih =>
    rcases t.join?_cases with ⟨huses, j, hj, hlooks⟩ | ⟨huses, hj⟩
    · rw [List.filter_cons_of_pos huses, List.filterMap_cons_some hj]
      exact .cons hlooks ih
    · rw [List.filter_cons_of_neg (by simp [huses]), List.filterMap_cons_none hj]
      exact ih

namespace Condition

theorem addJoins_eq_append (c : Condition) (js : Array HeaderJoin) :
    c.addJoins js = js ++ c.joins.toArray := by
  apply Array.toList_inj.mp
  rw [toList_addJoins, Array.toList_append, joins_eq]

theorem joins_binary (op : Connective) (l r : Condition) :
    (binary op l r).joins = l.joins ++ r.joins := by
  simp only [joins_eq, tests, List.filterMap_append]

theorem joins_negation (c : Condition) : (negation c).joins = c.joins := by
  simp only [joins_eq, tests]

/-- The header tables of a condition are put behind those that are there: one for each test of headers,
in the order of the tests. So those of the right part come behind those of the left one, and a negation
adds none. -/
theorem addJoins_follows_tests (c : Condition) (js : Array HeaderJoin) :
    (c.addJoins js).toList = js.toList ++ c.joins ∧
    List.Forall₂ Test.LooksIn (c.tests.filter Test.usesHeaders) c.joins ∧
    (∀ op d, (binary op c d).joins = c.joins ++ d.joins ∧
      (binary op c d).addJoins js = d.addJoins (c.addJoins js)) ∧
    (negation c).joins = c.joins ∧ (negation c).addJoins js = c.addJoins js := by
  refine ⟨?_, ?_, fun op d => ⟨joins_binary op c d, ?_⟩, joins_negation c, ?_⟩
  · rw [addJoins_eq_append, Array.toList_append]
  · rw [joins_eq]
    exact forall₂_looksIn c.tests
  · simp only [addJoins_eq_append, joins_binary, List.append_toArray, Array.append_assoc]
  · rw [addJoins_eq_append, addJoins_eq_append, joins_negation]

/-- A table that two tests look in is there twice, and the tests of a part come before what is beside
it. -/
example : (binary .or (binary .and (.test (.raw .response 7 "a")) (.test (.path .equals "b")))
    (negation (binary .and (.test (.header .request 9 "c" .present))
      (.test (.raw .response 7 "d"))))).joins =
      [⟨.response, 7⟩, ⟨.request, 9⟩, ⟨.response, 7⟩] := by decide +kernel

end Condition
end TrafficQuery
