import TrafficQuery.Proofs.Compile.Runs
import TrafficQuery.Proofs.Sql.Truth

/-!
# Compilation keeps the truth of a condition

A condition is worth what its tests are worth, joined as its tree joins them. Its filter regroups the
operands of a run and drops pairs of negations, which changes nothing of that.
-/

namespace TrafficQuery
open Sql

/-! ## The truth of a condition -/

namespace Test

/-- The truth of a text test on one column. -/
def textTruth (s : Settings) (a : Assignment) (column : Term) (text : String) : TextOp → Truth
  | .equals => a.compare .eq column (.bound (.string text))
  | .contains => a.like column (Like.containing s.escapeWildcards text) s.escapeWildcards
  | .icontains =>
    a.like (.lower column) (Like.containing s.escapeWildcards (Text.lower text)) s.escapeWildcards

/-- The truth of the test for the name of a header. -/
def nameTruth (a : Assignment) (mark : Nat) (name : String) : Truth :=
  a.compare .eq (.lower (.column (.header mark) .name)) (.lower (.bound (.string name)))

/-- The columns in which a raw test looks for its text. -/
def rawColumns (mark : Nat) : Side → List Term
  | .request => [.column .request .url, .column .request .method, .column .request .body,
      .column (.header mark) .value, .column (.header mark) .name]
  | .response => [.column .response .body, .column (.header mark) .value,
      .column (.header mark) .name]

/-- The truth of a test in terms of comparisons and pattern tests on columns. -/
def truth (s : Settings) (a : Assignment) : Test → Truth
  | .timestamp op ago => a.compare op (.column .request .timestamp) (.ago ago)
  | .id op value => a.compare op (.column .request .requestId) (.bound (.string value))
  | .method m => a.compare .eq (.column .request .method) (.bound (.string m.word))
  | .header _ mark name .present => nameTruth a mark name
  | .header _ mark name (.value op text) =>
    (nameTruth a mark name).and (textTruth s a (.column (.header mark) .value) text op)
  | .body .request op text => textTruth s a (.column .request .body) text op
  | .body .response op text => textTruth s a (.column .response .body) text op
  | .path op text => textTruth s a (.column .request .url) text op
  | .raw side mark text => .any ((rawColumns mark side).map (textTruth s a · text .contains))
  | .status op value => a.compare op (.column .response .statusCode) (.bound (.bigInt value))

end Test

namespace Condition

/-- The truth of a condition, node by node. -/
def truth (s : Settings) (a : Assignment) : Condition → Truth
  | .test t => t.truth s a
  | .binary op l r => .join op (l.truth s a) (r.truth s a)
  | .negation c => (c.truth s a).not

/-- Every id is asked to be equal to something. -/
def ComparesIds (c : Condition) : Prop := ∀ op value, Test.id op value ∈ c.tests → op = .eq

theorem comparesIds_binary_iff {op : Connective} {l r : Condition} :
    (Condition.binary op l r).ComparesIds ↔ l.ComparesIds ∧ r.ComparesIds := by
  simp only [ComparesIds, tests, List.mem_append]
  constructor
  · intro h
    exact ⟨fun op value hl => h op value (.inl hl), fun op value hr => h op value (.inr hr)⟩
  · rintro ⟨hl, hr⟩ op value (h | h)
    · exact hl op value h
    · exact hr op value h

end Condition

/-! ## Tests -/

namespace Compile
variable (s : Settings) (a : Assignment)

theorem truth_textTest (column : Term) (text : String) (op : TextOp) :
    (textTest s column text op).truth a = Test.textTruth s a column text op := by
  cases op <;> rfl

theorem truth_anyContains (first : Term) (others : List Term) (text : String) :
    (anyContains s first others text).truth a =
      .any ((first :: others).map (Test.textTruth s a · text .contains)) := by
  -- The tests are joined from the left, and the truth of several is taken from the right.
  have main (e : Expr) : (others.foldl (fun e term => .binary .or e (contains s term text)) e).truth a =
      (e.truth a).or (.any (others.map (Test.textTruth s a · text .contains))) := by
    induction others generalizing e with
    | nil => exact (Truth.or_no _).symm
    | cons term others ih =>
      rw [List.foldl_cons, ih]
      exact Truth.or_assoc _ _ _
  exact main _

theorem truth_test {t : Test} {e : Expr} (h : test s t = .ok e) : e.truth a = t.truth s a := by
  cases t with
  | id op value =>
    cases op <;> cases h
    rfl
  | header side mark name wanted =>
    cases h
    cases wanted with
    | present => rfl
    | value op text => exact congrArg _ (truth_textTest s a _ text op)
  | body side op text =>
    cases h
    cases side <;> exact truth_textTest s a _ text op
  | path op text =>
    cases h
    exact truth_textTest s a _ text op
  | raw side mark text =>
    cases h
    cases side <;> exact truth_anyContains s a _ _ text
  | _ =>
    cases h
    rfl

theorem exists_test_eq_ok {t : Test} (h : ∀ op value, t = .id op value → op = .eq) :
    ∃ e, test s t = .ok e := by
  cases t with
  | id op value =>
    obtain rfl := h op value rfl
    exact ⟨_, rfl⟩
  | _ => exact ⟨_, rfl⟩

/-! ## Runs -/

theorem runTruth_pairUp (op : Connective) (v : Truth) (es : List Expr) :
    Expr.runTruth a op v (pairUp op es) = Expr.runTruth a op v es := by
  fun_induction pairUp op es generalizing v with
  | case1 e f es ih =>
    change Expr.runTruth a op (.join op v (.join op (e.truth a) (f.truth a))) (pairUp op es) = _
    rw [ih, ← Truth.join_assoc]
    rfl
  | case2 es => rfl

theorem truth_balance (op : Connective) (first : Expr) (es : List Expr) :
    (balance op first es).truth a = Expr.runTruth a op (first.truth a) es := by
  fun_induction balance op first es with
  | case1 first => rfl
  | case2 first second others ih =>
    rw [ih, runTruth_pairUp]
    rfl

theorem runTruth_operands (r : Run) (op : Connective) :
    Expr.runTruth a op ((r.operands op).1.truth a) (r.operands op).2 = r.close.truth a := by
  cases r with
  | single e => rfl
  | chain own first others =>
    by_cases h : own = op
    · subst h
      rw [Run.operands, if_pos rfl]
      exact (truth_balance a own first others).symm
    · rw [Run.operands, if_neg h]
      rfl

theorem truth_link (op : Connective) (l r : Run) :
    (Run.link op l r).close.truth a = .join op (l.close.truth a) (r.close.truth a) := by
  have hl := runTruth_operands a l op
  have hr := runTruth_operands a r op
  calc (Run.link op l r).close.truth a
      = Expr.runTruth a op ((l.operands op).1.truth a)
          ((l.operands op).2 ++ (r.operands op).1 :: (r.operands op).2) := truth_balance a op _ _
    _ = Expr.runTruth a op (.join op (l.close.truth a) ((r.operands op).1.truth a))
          (r.operands op).2 := by rw [Expr.runTruth_append, hl]; rfl
    _ = .join op (l.close.truth a) (r.close.truth a) := by rw [Expr.runTruth_join, hr]

/-! ## Conditions -/

theorem exists_run_eq_ok {c : Condition} (h : c.ComparesIds) : ∃ r, run s c = .ok r := by
  induction c with
  | test t =>
    obtain ⟨e, he⟩ := exists_test_eq_ok s (t := t) fun op value ht =>
      h op value (by simp [Condition.tests, ht])
    exact ⟨.single e, by rw [run, he]; rfl⟩
  | binary op l r ihl ihr =>
    obtain ⟨hl, hr⟩ := Condition.comparesIds_binary_iff.mp h
    obtain ⟨rl, hrl⟩ := ihl hl
    obtain ⟨rr, hrr⟩ := ihr hr
    exact ⟨.link op rl rr, by rw [run, hrl, hrr]; rfl⟩
  | negation c ih =>
    obtain ⟨r, hr⟩ := ih h
    exact ⟨.single r.close.negated, by rw [run, hr]; rfl⟩

theorem truth_negated (e : Expr) : e.negated.truth a = (e.truth a).not := by
  cases e with
  | negation e => exact (Truth.not_not _).symm
  | _ => rfl

theorem truth_run {c : Condition} {r : Run} (h : run s c = .ok r) :
    r.close.truth a = c.truth s a := by
  induction c generalizing r with
  | test t =>
    obtain ⟨e, he, rfl⟩ := run_test_eq_ok_iff.mp h
    exact truth_test s a he
  | binary op left right ihl ihr =>
    obtain ⟨l, r', hl, hr', rfl⟩ := run_binary_eq_ok_iff.mp h
    rw [truth_link, ihl hl, ihr hr']
    rfl
  | negation c ih =>
    obtain ⟨r', hr', rfl⟩ := run_negation_eq_ok_iff.mp h
    exact (truth_negated a r'.close).trans (congrArg Truth.not (ih hr'))

theorem truth_of_filter_eq_ok {c : Condition} {e : Expr} (h : filter s c = .ok e) :
    e.truth a = c.truth s a := by
  obtain ⟨r, hr, rfl⟩ := filter_eq_ok_iff.mp h
  exact truth_run s a hr

theorem exists_filter_eq_ok {c : Condition} (h : c.ComparesIds) : ∃ e, filter s c = .ok e := by
  obtain ⟨r, hr⟩ := exists_run_eq_ok s h
  exact ⟨r.close, filter_eq_ok_iff.mpr ⟨r, hr, rfl⟩⟩

/-- A condition whose ids are all compared for equality has a filter, and whatever the atoms are
worth, the filter is worth the same as the condition. -/
theorem filter_keeps_truth (s : Settings) (c : Condition) (h : c.ComparesIds) :
    ∃ e, filter s c = .ok e ∧ ∀ a : Assignment, e.truth a = c.truth s a := by
  obtain ⟨e, he⟩ := exists_filter_eq_ok s h
  exact ⟨e, he, fun a => truth_of_filter_eq_ok s a he⟩

/-- A run that is cut by two negations, with an id in it. -/
def crossedCondition : Condition :=
  .binary .and (.test (.id .eq "7")) (.negation (.negation
    (.binary .and (.test (.raw .response 4 "x%")) (.binary .or (.test (.status .ge 400))
      (.test (.header .request 9 "Host" (.value .icontains "A")))))))

theorem filter_keeps_truth_crossed :
    crossedCondition.ComparesIds ∧ ∃ e, filter {} crossedCondition = .ok e ∧
      ∀ a : Assignment, e.truth a = crossedCondition.truth {} a := by
  have h : crossedCondition.ComparesIds := by
    intro op value hmem
    simp only [crossedCondition, Condition.tests, List.cons_append, List.nil_append, List.mem_cons,
      Test.id.injEq, reduceCtorEq, List.not_mem_nil, or_false] at hmem
    exact hmem.1
  exact ⟨h, filter_keeps_truth {} crossedCondition h⟩

end Compile
end TrafficQuery
