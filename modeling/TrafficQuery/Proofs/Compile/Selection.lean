import TrafficQuery.Proofs.Query.Marks
import TrafficQuery.Proofs.Sql.Database

/-!
# The exchanges that a query selects

An exchange is selected when some choice of a header for each header and raw test makes the condition
true. The statement of a parsed query gives the results of the selected exchanges.
-/

namespace TrafficQuery
open Sql

variable {α : Type}

/-! ## Exchanges and the choice of headers -/

/-- The side of the exchange whose headers a test looks at. -/
def Test.headerSide? : Test → Option Side
  | .header side .. => some side
  | .raw side .. => some side
  | _ => none

/-- The rows that one test can look at. -/
def exchange (r q h : Row α) : Rows α
  | .request => r
  | .response => q
  | .header _ => h

/-- A header row belongs to the request, or to the response. -/
def Belongs (r q h : Row α) : Side → Prop
  | .request => Linked (h .requestId) (r .requestId)
  | .response => Linked (h .responseId) (q .responseId)

/-- A truth that a condition has on a request and a response with one header row chosen for each of its
header and raw tests. -/
inductive Attains [DecidableEq α] (s : Settings) (E : Engine α) (db : Database α) (r q : Row α) :
    Condition → Truth → Prop
  | plain {t : Test} : t.headerSide? = none →
      Attains s E db r q (.test t) (t.truth s (E.assignment (exchange r q fun _ => none)))
  | chosen {t : Test} {side : Side} {h : Row α} : t.headerSide? = some side →
      h ∈ db s.tables.headers → Belongs r q h side →
      Attains s E db r q (.test t) (t.truth s (E.assignment (exchange r q h)))
  | binary {op : Connective} {left right : Condition} {u v : Truth} :
      Attains s E db r q left u → Attains s E db r q right v →
      Attains s E db r q (.binary op left right) (.join op u v)
  | negation {c : Condition} {v : Truth} :
      Attains s E db r q c v → Attains s E db r q (.negation c) v.not

/-- The result rows of the exchanges that a condition selects. -/
def Selected [DecidableEq α] (s : Settings) (E : Engine α) (db : Database α) (c : Condition)
    (tuple : List (Option α)) : Prop :=
  ∃ r ∈ db s.tables.requests, ∃ q ∈ db s.tables.responses, Linked (r .requestId) (q .responseId) ∧
    Attains s E db r q c .yes ∧
    tuple = [r .timestamp, r .requestId, r .method, q .statusCode, r .url]

/-! ## What a condition looks at -/

variable {s : Settings} {db : Database α} {p p' : Rows α} {r q : Row α}

/-- Rows with the same exchange. -/
def SameExchange (p p' : Rows α) : Prop := p .request = p' .request ∧ p .response = p' .response

/-- The rows of the header tables of a condition belong to an exchange. -/
def HeadersBelong (s : Settings) (db : Database α) (r q : Row α) (c : Condition) (p : Rows α) : Prop :=
  ∀ j ∈ c.tests.filterMap Test.join?, p j.table ∈ db s.tables.headers ∧
    Belongs r q (p j.table) j.side

theorem headersBelong_binary_iff {op : Connective} {left right : Condition} :
    HeadersBelong s db r q (.binary op left right) p ↔
      HeadersBelong s db r q left p ∧ HeadersBelong s db r q right p := by
  simp only [HeadersBelong, Condition.tests, List.filterMap_append, List.mem_append]
  constructor
  · intro h
    exact ⟨fun j hj => h j (.inl hj), fun j hj => h j (.inr hj)⟩
  · rintro ⟨hl, hr⟩ j (hj | hj)
    · exact hl j hj
    · exact hr j hj

theorem Test.headerSide?_eq (t : Test) : t.headerSide? = t.join?.map HeaderJoin.side := by
  cases t <;> rfl

theorem HeadersBelong.congr {c : Condition} (h : HeadersBelong s db r q c p)
    (hmarks : ∀ mark ∈ c.marks, p' (.header mark) = p (.header mark)) :
    HeadersBelong s db r q c p' := by
  intro j hj
  have htable : p' j.table = p j.table := hmarks j.mark (List.mem_map_of_mem hj)
  rw [htable]
  exact h j hj

theorem belongs_iff_linkedAt {j : HeaderJoin} :
    Belongs (p .request) (p .response) (p j.table) j.side ↔ j.LinkedAt p := by
  rcases j with ⟨side, mark⟩
  cases side <;> exact Iff.rfl

/-- The rows of some header tables, and for the other tables those of other rows. -/
def withHeaders (p : Rows α) (marks : List Nat) (others : Rows α) : Rows α
  | .header mark => if mark ∈ marks then p (.header mark) else others (.header mark)
  | table => others table

variable [DecidableEq α] {E : Engine α}

theorem Test.textTruth_congr {column : Term} (h : E.cell p column = E.cell p' column)
    (text : String) (op : TextOp) :
    textTruth s (E.assignment p) column text op = textTruth s (E.assignment p') column text op := by
  cases op <;> simp only [textTruth, Engine.assignment, Engine.cell, h]

theorem Test.nameTruth_congr {mark : Nat} (h : p (.header mark) = p' (.header mark))
    (name : String) : nameTruth (E.assignment p) mark name = nameTruth (E.assignment p') mark name := by
  simp only [nameTruth, Engine.assignment, Engine.cell, h]

/-- A test looks at its exchange and at the header table of its mark. -/
theorem Test.truth_congr {t : Test} (hp : SameExchange p p')
    (h : ∀ j, t.join? = some j → p j.table = p' j.table) :
    t.truth s (E.assignment p) = t.truth s (E.assignment p') := by
  obtain ⟨hr, hq⟩ := hp
  have hcell {table : Alias} (ht : p table = p' table) (column : Column) :
      E.cell p (.column table column) = E.cell p' (.column table column) := congrFun ht column
  cases t with
  | header side mark name wanted =>
    have hmark : p (.header mark) = p' (.header mark) := h _ rfl
    have hname := nameTruth_congr (E := E) hmark name
    cases wanted with
    | present => exact hname
    | value op text => exact congrArg₂ Truth.and hname (textTruth_congr (hcell hmark .value) text op)
  | body side op text =>
    cases side with
    | request => exact textTruth_congr (hcell hr .body) text op
    | response => exact textTruth_congr (hcell hq .body) text op
  | path op text => exact textTruth_congr (hcell hr .url) text op
  | raw side mark text =>
    have hmark : p (.header mark) = p' (.header mark) := h _ rfl
    have hall : ∀ column ∈ rawColumns mark side, textTruth s (E.assignment p) column text .contains =
        textTruth s (E.assignment p') column text .contains := by
      intro column hcolumn
      apply textTruth_congr
      cases side <;> simp only [rawColumns, List.mem_cons, List.not_mem_nil, or_false] at hcolumn
      · rcases hcolumn with rfl | rfl | rfl | rfl | rfl
        · exact hcell hr .url
        · exact hcell hr .method
        · exact hcell hr .body
        · exact hcell hmark .value
        · exact hcell hmark .name
      · rcases hcolumn with rfl | rfl | rfl
        · exact hcell hq .body
        · exact hcell hmark .value
        · exact hcell hmark .name
    exact congrArg Truth.any (List.map_congr_left hall)
  | timestamp | id | method | status =>
    simp only [truth, Engine.assignment, Engine.cell, hr, hq]

/-- A condition looks at its exchange and at the header tables of its marks. -/
theorem Condition.truth_congr {c : Condition} (hp : SameExchange p p')
    (h : ∀ mark ∈ c.marks, p (.header mark) = p' (.header mark)) :
    c.truth s (E.assignment p) = c.truth s (E.assignment p') := by
  induction c with
  | test t =>
    apply Test.truth_congr hp
    intro j hj
    exact h j.mark (by simp [marks, tests, hj])
  | binary op l r ihl ihr =>
    rw [marks_binary] at h
    have hl := ihl fun mark hmark => h mark (List.mem_append_left _ hmark)
    have hr := ihr fun mark hmark => h mark (List.mem_append_right _ hmark)
    exact congrArg₂ (Truth.join op) hl hr
  | negation c ih => exact congrArg Truth.not (ih h)

/-! ## Choices and joined rows -/

theorem attains_of_headersBelong {c : Condition} (hr : p .request = r) (hq : p .response = q)
    (h : HeadersBelong s db r q c p) : Attains s E db r q c (c.truth s (E.assignment p)) := by
  induction c with
  | test t =>
    cases hj : t.join? with
    | none =>
      have hsame : t.truth s (E.assignment p) =
          t.truth s (E.assignment (exchange r q fun _ => none)) :=
        Test.truth_congr ⟨hr, hq⟩ fun j h => by rw [hj] at h; cases h
      rw [Condition.truth, hsame]
      exact .plain (by rw [Test.headerSide?_eq, hj]; rfl)
    | some j =>
      obtain ⟨hmem, hbelongs⟩ := h j (by simp [Condition.tests, hj])
      have hsame : t.truth s (E.assignment p) =
          t.truth s (E.assignment (exchange r q (p j.table))) :=
        Test.truth_congr ⟨hr, hq⟩ fun k h => by rw [hj] at h; cases h; rfl
      rw [Condition.truth, hsame]
      exact .chosen (by rw [Test.headerSide?_eq, hj]; rfl) hmem hbelongs
  | binary op left right ihl ihr =>
    obtain ⟨hleft, hright⟩ := headersBelong_binary_iff.mp h
    exact .binary (ihl hleft) (ihr hright)
  | negation c ih => exact .negation (ih h)

/-- Choices for the tests of a condition are rows of its header tables, as these are all different. -/
theorem exists_headersBelong_of_attains {c : Condition} {v : Truth} (h : Attains s E db r q c v)
    (hnodup : c.marks.Nodup) : ∃ p : Rows α, p .request = r ∧ p .response = q ∧
      HeadersBelong s db r q c p ∧ c.truth s (E.assignment p) = v := by
  induction h with
  | @plain t hside =>
    refine ⟨exchange r q fun _ => none, rfl, rfl, ?_, rfl⟩
    intro j hj
    have hjoin : t.join? = some j := by simpa [Condition.tests] using hj
    rw [Test.headerSide?_eq, hjoin] at hside
    cases hside
  | @chosen t side h hside hmem hbelongs =>
    refine ⟨exchange r q h, rfl, rfl, ?_, rfl⟩
    intro j hj
    have hjoin : t.join? = some j := by simpa [Condition.tests] using hj
    rw [Test.headerSide?_eq, hjoin] at hside
    obtain rfl : j.side = side := Option.some.inj hside
    exact ⟨hmem, hbelongs⟩
  | @binary op left right u v _ _ ihl ihr =>
    rw [Condition.marks_binary] at hnodup
    obtain ⟨hl, hr, hdisjoint⟩ := List.nodup_append.mp hnodup
    obtain ⟨pl, hlr, hlq, hlbelong, hlv⟩ := ihl hl
    obtain ⟨pr, hrr, hrq, hrbelong, hrv⟩ := ihr hr
    -- The header tables of one operand are none of the other's.
    let p := withHeaders pl left.marks pr
    have hleft : ∀ mark ∈ left.marks, p (.header mark) = pl (.header mark) := fun _ hmark =>
      if_pos hmark
    have hright : ∀ mark ∈ right.marks, p (.header mark) = pr (.header mark) := fun mark hmark =>
      if_neg fun h => hdisjoint mark h mark hmark rfl
    have hbelong := And.intro (hlbelong.congr hleft) (hrbelong.congr hright)
    have hpl : SameExchange p pl := ⟨hrr.trans hlr.symm, hrq.trans hlq.symm⟩
    have hpr : SameExchange p pr := ⟨rfl, rfl⟩
    have hu : left.truth s (E.assignment p) = u := (Condition.truth_congr hpl hleft).trans hlv
    have hv : right.truth s (E.assignment p) = v := (Condition.truth_congr hpr hright).trans hrv
    exact ⟨p, hrr, hrq, headersBelong_binary_iff.mpr hbelong, congrArg₂ (Truth.join op) hu hv⟩
  | negation _ ih =>
    obtain ⟨p, hr, hq, hbelong, hv⟩ := ih hnodup
    exact ⟨p, hr, hq, hbelong, congrArg Truth.not hv⟩

/-! ## Statements -/

theorem Query.compile_eq_ok_iff {query : Query} {statement : Statement} :
    query.compile s = .ok statement ↔ ∃ e, Compile.filter s query.root = .ok e ∧
      statement = ⟨query.operation, s.tables, query.root.joins, e⟩ := by
  rw [Query.compile, bind_eq_ok_iff]
  constructor
  · rintro ⟨e, he, h⟩
    exact ⟨e, he, (Except.ok.inj h).symm⟩
  · rintro ⟨e, he, rfl⟩
    exact ⟨e, he, rfl⟩

/-- The tables of a condition with different marks have names of their own. -/
theorem nodup_names_of_compile {query : Query} {statement : Statement}
    (h : query.compile s = .ok statement) (hnodup : query.root.marks.Nodup) :
    statement.names.Nodup := by
  obtain ⟨e, -, rfl⟩ := Query.compile_eq_ok_iff.mp h
  apply Statement.nodup_names
  rw [query.root.joins_eq]
  exact hnodup

/-- The rows of the joined tables of a condition, with the headers that belong to their exchange. -/
theorem mem_joined_iff_headersBelong {op : Operation} {c : Condition} {e : Expr}
    (hnodup : c.marks.Nodup) : p ∈ Statement.joined E db ⟨op, s.tables, c.joins, e⟩ ↔
      p .request ∈ db s.tables.requests ∧ p .response ∈ db s.tables.responses ∧
      Linked (p .request .requestId) (p .response .responseId) ∧
      HeadersBelong s db (p .request) (p .response) c p ∧
      ∀ mark, mark ∉ c.marks → p (.header mark) = fun _ => none := by
  rw [c.joins_eq]
  let s' : Statement := ⟨op, s.tables, c.tests.filterMap Test.join?, e⟩
  have hjoined : p ∈ s'.joined E db ↔ _ := Statement.mem_joined_iff E hnodup
  rw [hjoined]
  simp only [HeadersBelong, belongs_iff_linkedAt]
  exact Iff.rfl

/-- The statement of a condition with different marks finds what the condition selects. -/
theorem mem_selected_iff_selected {query : Query} {statement : Statement}
    (h : query.compile s = .ok statement) (hnodup : query.root.marks.Nodup)
    {tuple : List (Option α)} :
    tuple ∈ statement.selected E db ↔ Selected s E db query.root tuple := by
  obtain ⟨e, he, rfl⟩ := Query.compile_eq_ok_iff.mp h
  have htruth (p : Rows α) : e.truth (E.assignment p) = query.root.truth s (E.assignment p) :=
    Compile.truth_of_filter_eq_ok s _ he
  simp only [Statement.mem_selected_iff, mem_joined_iff_headersBelong hnodup, htruth]
  constructor
  · rintro ⟨p, ⟨hr, hq, hlink, hbelong, -⟩, hyes, rfl⟩
    have hattains := attains_of_headersBelong (E := E) rfl rfl hbelong
    rw [hyes] at hattains
    exact ⟨_, hr, _, hq, hlink, hattains, rfl⟩
  · rintro ⟨r, hr, q, hq, hlink, hattains, rfl⟩
    obtain ⟨p, hpr, hpq, hbelong, hyes⟩ := exists_headersBelong_of_attains hattains hnodup
    -- A mark without a header table has no row there.
    let chosen := withHeaders p query.root.marks (exchange r q fun _ => none)
    have hmarks : ∀ mark ∈ query.root.marks, chosen (.header mark) = p (.header mark) :=
      fun _ hmark => if_pos hmark
    have hrest : ∀ mark, mark ∉ query.root.marks → chosen (.header mark) = fun _ => none :=
      fun _ hmark => if_neg hmark
    have hsame : SameExchange chosen p := ⟨hpr.symm, hpq.symm⟩
    refine ⟨chosen, ⟨hr, hq, hlink, hbelong.congr hmarks, hrest⟩, ?_, rfl⟩
    rw [Condition.truth_congr hsame hmarks]
    exact hyes

/-- A parsed query has a statement for its rows and one for their number. On every database, the first
gives each result of the exchanges that the condition selects once, and the second their number. -/
theorem compile_finds_selected (s : Settings) {source : String} {query : Query}
    (h : parse source = .ok query) :
    ∃ rows count, Query.compile s ⟨.rows, query.root⟩ = .ok rows ∧
      Query.compile s ⟨.count, query.root⟩ = .ok count ∧
      ∀ (α : Type) [DecidableEq α] (E : Engine α) (db : Database α), ∃ tuples,
        rows.answer? E db = some (.rows tuples) ∧
        count.answer? E db = some (.count tuples.length) ∧ tuples.Nodup ∧
        ∀ tuple, tuple ∈ tuples ↔ Selected s E db query.root tuple := by
  obtain ⟨e, he⟩ := Compile.exists_filter_eq_ok s (comparesIds_of_parse h)
  have hnodup := marks_nodup_of_parse h
  have hcompile (op : Operation) : Query.compile s ⟨op, query.root⟩ =
      .ok ⟨op, s.tables, query.root.joins, e⟩ := Query.compile_eq_ok_iff.mpr ⟨e, he, rfl⟩
  refine ⟨_, _, hcompile .rows, hcompile .count, ?_⟩
  intro α _ E db
  have hnames (op : Operation) : (Statement.names ⟨op, s.tables, query.root.joins, e⟩).Nodup := by
    apply Statement.nodup_names
    rw [query.root.joins_eq]
    exact hnodup
  obtain ⟨tuples, hrows, hperm⟩ := Statement.exists_answer?_eq_rows E db (hnames .rows) rfl
  refine ⟨tuples, hrows, ?_, ?_, ?_⟩
  · rw [hperm.length_eq]
    exact Statement.answer?_eq_count E db (hnames .count) rfl
  · exact hperm.nodup_iff.mpr (Statement.nodup_selected E)
  · intro tuple
    rw [hperm.mem_iff]
    exact mem_selected_iff_selected (hcompile .rows) hnodup

/-- A query with a header table on either side, one of them under a negation. -/
def twoSidedSource : String :=
  "query requests where header.Host contains \"a\" and not resp.raw contains \"b\""

def twoSidedQuery : Query :=
  ⟨.rows, .binary .and (.test (.header .request 21 "Host" (.value .contains "a")))
    (.negation (.test (.raw .response 54 "b")))⟩

theorem compile_finds_selected_twoSided : parse twoSidedSource = .ok twoSidedQuery ∧
    ∃ rows count, Query.compile {} ⟨.rows, twoSidedQuery.root⟩ = .ok rows ∧
      Query.compile {} ⟨.count, twoSidedQuery.root⟩ = .ok count ∧
      ∀ (α : Type) [DecidableEq α] (E : Engine α) (db : Database α), ∃ tuples,
        rows.answer? E db = some (.rows tuples) ∧
        count.answer? E db = some (.count tuples.length) ∧ tuples.Nodup ∧
        ∀ tuple, tuple ∈ tuples ↔ Selected {} E db twoSidedQuery.root tuple := by
  have h : parse twoSidedSource = .ok twoSidedQuery := by decide +kernel
  exact ⟨h, compile_finds_selected {} h⟩

end TrafficQuery
