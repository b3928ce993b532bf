import TrafficQuery.Proofs.Compile.Selection

/-!
# Why a condition has no statement

The one test that has no statement is that of an id for anything but equality. A condition with such
tests fails at the first of them, and no query that can be read has one.
-/

namespace TrafficQuery
open Sql

/-! ## Tests without a statement -/

/-- The operator of a test that has no statement. -/
def Test.stray? : Test → Option OrderOp
  | .id op _ => if op = .eq then none else some op
  | _ => none

theorem Test.stray?_eq_some_iff {t : Test} {op : OrderOp} :
    t.stray? = some op ↔ ∃ value, t = .id op value ∧ op ≠ .eq := by
  cases t with
  | id own value =>
    rw [stray?]
    constructor
    · intro h
      split at h
      case isTrue => cases h
      case isFalse hne =>
        obtain rfl := Option.some.inj h
        exact ⟨value, rfl, hne⟩
    · rintro ⟨_, ⟨⟩, hne⟩
      exact if_neg hne
  | _ => simp [stray?]

theorem Test.stray?_eq_none_iff {t : Test} :
    t.stray? = none ↔ ∀ op value, t = .id op value → op = .eq := by
  cases t with
  | id own value => simp [stray?]
  | _ => simp [stray?]

namespace Condition

/-- The operator of the first of the tests that have no statement. -/
def firstStray? (c : Condition) : Option OrderOp := c.tests.findSome? Test.stray?

theorem firstStray?_binary (op : Connective) (l r : Condition) :
    (binary op l r).firstStray? = l.firstStray?.or r.firstStray? :=
  List.findSome?_append

theorem firstStray?_eq_none_iff {c : Condition} : c.firstStray? = none ↔ c.ComparesIds := by
  simp only [firstStray?, List.findSome?_eq_none_iff, Test.stray?_eq_none_iff]
  constructor
  · intro h op value hmem
    exact h _ hmem op value rfl
  · rintro h t hmem op value rfl
    exact h op value hmem

theorem firstStray?_eq_some_iff {c : Condition} {op : OrderOp} : c.firstStray? = some op ↔
    ∃ before value after, c.tests = before ++ .id op value :: after ∧ op ≠ .eq ∧
      ∀ own other, Test.id own other ∈ before → own = .eq := by
  rw [firstStray?, List.findSome?_eq_some_iff]
  constructor
  · rintro ⟨before, t, after, htests, ht, hbefore⟩
    obtain ⟨value, rfl, hne⟩ := Test.stray?_eq_some_iff.mp ht
    refine ⟨before, value, after, htests, hne, fun own other hmem => ?_⟩
    exact Test.stray?_eq_none_iff.mp (hbefore _ hmem) own other rfl
  · rintro ⟨before, value, after, htests, hne, hbefore⟩
    refine ⟨before, _, after, htests, Test.stray?_eq_some_iff.mpr ⟨value, rfl, hne⟩, fun t hmem => ?_⟩
    rw [Test.stray?_eq_none_iff]
    rintro own other rfl
    exact hbefore own other hmem

end Condition

/-! ## Failures -/

namespace Compile
variable {s : Settings}

/-- The operands of a connective are compiled from left to right, so a condition fails at the first of
its tests that have no statement. -/
theorem run_of_firstStray? {c : Condition} {op : OrderOp} (h : c.firstStray? = some op) :
    run s c = .error (.unknownOperator .id op) := by
  induction c with
  | test t =>
    rw [Condition.firstStray?, Condition.tests, List.findSome?_singleton] at h
    obtain ⟨value, rfl, hne⟩ := Test.stray?_eq_some_iff.mp h
    cases op with
    | eq => exact absurd rfl hne
    | _ => rfl
  | binary connective l r ihl ihr =>
    rw [Condition.firstStray?_binary] at h
    cases hl : l.firstStray? with
    | some own =>
      rw [hl, Option.some_or] at h
      rw [run, ihl (hl.trans h)]
      rfl
    | none =>
      rw [hl, Option.none_or] at h
      obtain ⟨rl, hrl⟩ := exists_run_eq_ok s (Condition.firstStray?_eq_none_iff.mp hl)
      rw [run, hrl, ihr h]
      rfl
  | negation c ih =>
    rw [run, ih h]
    rfl

end Compile

namespace Query
variable {s : Settings} {query : Query}

theorem compile_of_firstStray? {op : OrderOp} (h : query.root.firstStray? = some op) :
    query.compile s = .error (.unknownOperator .id op) := by
  rw [compile, Compile.filter_eq, Compile.run_of_firstStray? h]
  rfl

theorem exists_compile_eq_ok (h : query.root.firstStray? = none) :
    ∃ statement, query.compile s = .ok statement := by
  obtain ⟨e, he⟩ := Compile.exists_filter_eq_ok s (Condition.firstStray?_eq_none_iff.mp h)
  exact ⟨_, compile_eq_ok_iff.mpr ⟨e, he, rfl⟩⟩

theorem compile_eq_error_iff {e : CompileError} : query.compile s = .error e ↔
    ∃ op, query.root.firstStray? = some op ∧ e = .unknownOperator .id op := by
  constructor
  · intro h
    cases hstray : query.root.firstStray? with
    | none =>
      obtain ⟨statement, hok⟩ := exists_compile_eq_ok (s := s) hstray
      cases hok.symm.trans h
    | some op => exact ⟨op, rfl, Except.error.inj (h.symm.trans (compile_of_firstStray? hstray))⟩
  · rintro ⟨op, hstray, rfl⟩
    exact compile_of_firstStray? hstray

theorem compile_fails_iff : (∃ e, query.compile s = .error e) ↔
    ∃ op value, Test.id op value ∈ query.root.tests ∧ op ≠ .eq := by
  constructor
  · rintro ⟨e, h⟩
    obtain ⟨op, hstray, -⟩ := compile_eq_error_iff.mp h
    obtain ⟨before, value, after, htests, hne, -⟩ := Condition.firstStray?_eq_some_iff.mp hstray
    exact ⟨op, value, by rw [htests]; exact List.mem_append_right _ List.mem_cons_self, hne⟩
  · rintro ⟨op, value, hmem, hne⟩
    have hstray : query.root.firstStray? ≠ none := fun h =>
      hne (Condition.firstStray?_eq_none_iff.mp h op value hmem)
    obtain ⟨first, hfirst⟩ := Option.ne_none_iff_exists'.mp hstray
    exact ⟨_, compile_of_firstStray? hfirst⟩

theorem exists_compile_eq_ok_of_parse {source : String} (h : parse source = .ok query)
    (op : Operation) : ∃ statement, compile s ⟨op, query.root⟩ = .ok statement := by
  have hstray := Condition.firstStray?_eq_none_iff.mpr (comparesIds_of_parse h)
  exact exists_compile_eq_ok hstray

end Query

theorem compileText_ne_compileError (s : Settings) (source : String) (e : CompileError) :
    compileText s source ≠ .error (.compile e) := by
  intro h
  rw [compileText] at h
  cases hq : parse source with
  | error e' =>
    rw [hq] at h
    cases h
  | ok query =>
    obtain ⟨statement, hstatement⟩ := Query.exists_compile_eq_ok_of_parse (s := s) hq query.operation
    simp only [hq, hstatement, reduceCtorEq] at h

/-- A query fails to compile when an id in it is compared for anything but equality, and then the error
names the field and the operator of the first such test from the left, however it is nested. So a query
that can be read has a statement for its rows and one for their number with all settings, and no text
fails to compile once it is read. -/
theorem compile_fails_at_first_stray (s : Settings) :
    (∀ query : Query, (∃ e, query.compile s = .error e) ↔
      ∃ op value, Test.id op value ∈ query.root.tests ∧ op ≠ .eq) ∧
    (∀ (query : Query) (e : CompileError), query.compile s = .error e ↔
      ∃ op, (∃ before value after, query.root.tests = before ++ .id op value :: after ∧ op ≠ .eq ∧
        ∀ own other, Test.id own other ∈ before → own = .eq) ∧ e = .unknownOperator .id op) ∧
    (∀ op : OrderOp, (CompileError.unknownOperator .id op).message =
      "unknown id operator: '" ++ op.symbol ++ "'") ∧
    (∀ (source : String) (query : Query), parse source = .ok query → ∀ op : Operation,
      ∃ statement, Query.compile s ⟨op, query.root⟩ = .ok statement) ∧
    ∀ (source : String) (e : CompileError), compileText s source ≠ .error (.compile e) := by
  refine ⟨fun query => Query.compile_fails_iff, fun query e => ?_, fun op => ?_, ?_,
    compileText_ne_compileError s⟩
  · rw [Query.compile_eq_error_iff]
    simp only [Condition.firstStray?_eq_some_iff]
  · cases op <;> rfl
  · intro source query h op
    exact Query.exists_compile_eq_ok_of_parse h op

/-- Two ids without a statement, the first of them below a negation. -/
def strayCondition : Condition :=
  .binary .or (.test (.id .eq "1")) (.binary .and (.negation (.binary .or (.test (.method .get))
    (.test (.id .le "2")))) (.test (.id .gt "3")))

def readableSource : String := "query requests where not (id = 1 or id = 'a') and id = 2"

def readableQuery : Query :=
  ⟨.rows, .binary .and (.negation (.binary .or (.test (.id .eq "1")) (.test (.id .eq "a"))))
    (.test (.id .eq "2"))⟩

theorem compile_fails_at_first_stray_sample :
    Query.compile {} ⟨.count, strayCondition⟩ = .error (.unknownOperator .id .le) ∧
    parse readableSource = .ok readableQuery ∧
    ∃ statement, Query.compile {} ⟨.count, readableQuery.root⟩ = .ok statement := by
  obtain ⟨-, herror, -, hread, -⟩ := compile_fails_at_first_stray {}
  have hparse : parse readableSource = .ok readableQuery := by decide +kernel
  refine ⟨(herror _ _).mpr ⟨.le, ⟨[.id .eq "1", .method .get], "2", [.id .gt "3"], rfl, by decide, ?_⟩,
    rfl⟩, hparse, hread _ _ hparse .count⟩
  intro own other hmem
  simp only [List.mem_cons, Test.id.injEq, reduceCtorEq, List.not_mem_nil, or_false] at hmem
  exact hmem.1

end TrafficQuery
