import Mathlib.Data.List.Dedup
import Mathlib.Logic.Function.Basic
import TrafficQuery.Proofs.Sql.Names
import TrafficQuery.Proofs.Sql.Truth
import TrafficQuery.Sql.Statement

/-!
# What a statement finds in a database

The tables of a statement are joined one after the other, the rows for which its filter is true are
kept, and each of their results is given once.
-/

namespace TrafficQuery.Sql

/-- A row of a table. A column that holds nothing is NULL. -/
abbrev Row (α : Type) := Column → Option α

/-- The rows of the tables, which go by name. -/
abbrev Database (α : Type) := String → List (Row α)

/-- One row of each table of a statement. -/
abbrev Rows (α : Type) := Alias → Row α

/-- How values that are not NULL are written, compared and searched. -/
structure Engine (α : Type) where
  text : String → α
  integer : Int → α
  lower : α → α
  /-- The time some seconds back, unless it is out of range. -/
  ago : Nat → Option α
  less : α → α → Bool
  /-- Whether a value matches a pattern, with an escape sign in it or without. -/
  like : α → String → Bool → Bool

def Truth.ofBool : Bool → Truth
  | true => .yes
  | false => .no

@[simp] theorem Truth.ofBool_eq_yes_iff {b : Bool} : Truth.ofBool b = .yes ↔ b = true := by
  cases b <;> simp [ofBool]

namespace Engine
variable {α : Type} [DecidableEq α] (E : Engine α)

def bound : Value → Option α
  | .string s => some (E.text s)
  | .bigInt n => some (E.integer n)
  | .int n => some (E.integer n)
  | .bool b => some (E.integer (if b then 1 else 0))
  | .null _ => none

/-- What a term is worth on given rows. -/
def cell (rows : Rows α) : Term → Option α
  | .column table column => rows table column
  | .bound v => E.bound v
  | .lower t => (cell rows t).map E.lower
  | .ago seconds => E.ago seconds

def holds : OrderOp → α → α → Bool
  | .eq, x, y => x = y
  | .gt, x, y => E.less y x
  | .ge, x, y => E.less y x || x = y
  | .lt, x, y => E.less x y
  | .le, x, y => E.less x y || x = y

/-- A comparison with NULL is unknown. -/
def compare (op : OrderOp) : Option α → Option α → Truth
  | some x, some y => .ofBool (E.holds op x y)
  | _, _ => .unknown

def matches? (pattern : String) (escaped : Bool) : Option α → Truth
  | some x => .ofBool (E.like x pattern escaped)
  | none => .unknown

/-- What the atoms are worth on given rows. -/
def assignment (rows : Rows α) : Assignment where
  compare op l r := E.compare op (E.cell rows l) (E.cell rows r)
  like t pattern escaped := E.matches? pattern escaped (E.cell rows t)

/-- Puts the rows of one more table next to those of the others, where a test is true. -/
def innerJoin (table : List (Row α)) (name : Alias) (on : Expr) (others : List (Rows α)) :
    List (Rows α) :=
  others.flatMap fun rows => (table.map (Function.update rows name)).filter fun p =>
    on.truth (E.assignment p) = .yes

/-- The order of times from the latest to the earliest, with NULL behind them. -/
def laterFirst : Option α → Option α → Bool
  | _, none => true
  | none, some _ => false
  | some x, some y => !E.less x y

end Engine

/-- What a statement gives: rows of results, or their number. -/
inductive Answer (α : Type)
  | rows (tuples : List (List (Option α)))
  | count (number : Nat)

namespace Select
variable {α : Type} [DecidableEq α] (E : Engine α) (db : Database α) (q : Select)

/-- The names of the joined tables. -/
def names : List String := (q.source.name :: q.joins.map fun j => j.source.name).map Alias.label

/-- The rows of the joined tables. -/
def joined : List (Rows α) :=
  q.joins.foldl (fun ps j => E.innerJoin (db j.source.table) j.source.name j.on ps)
    ((db q.source.table).map (Function.update (fun _ _ => none) q.source.name))

/-- The result on given rows. -/
def project (rows : Rows α) : List (Option α) := q.columns.map fun c => rows c.1 c.2

/-- The results on the rows for which the test is true, each of them once. -/
def selected : List (List (Option α)) :=
  (((q.joined E db).filter fun p => q.filter.truth (E.assignment p) = .yes).map q.project).dedup

/-- What a result has in one of its columns. -/
def cell (column : Alias × Column) (tuple : List (Option α)) : Option α :=
  ((q.columns.zip tuple).lookup column).join

end Select

/-- What a retrieval gives, if its tables have names of their own. -/
def Retrieval.answer? {α : Type} [DecidableEq α] (E : Engine α) (db : Database α) (r : Retrieval) :
    Option (Answer α) :=
  if r.results.names.Nodup then
    match r with
    | .latest q time => some (.rows ((q.selected E db).mergeSort fun t u =>
        E.laterFirst (q.cell time t) (q.cell time u)))
    | .number q _ => some (.count (q.selected E db).length)
  else none

namespace Statement
variable {α : Type} [DecidableEq α] (E : Engine α) (db : Database α) (s : Statement)

/-- The names of the joined tables. -/
def names : List String :=
  (Alias.request :: .response :: s.joins.map HeaderJoin.table).map Alias.label

def joined : List (Rows α) := s.select.joined E db

def selected : List (List (Option α)) := s.select.selected E db

def answer? : Option (Answer α) := s.retrieval.answer? E db

end Statement

/-! ## The joined tables -/

/-- Two columns that are equal and not NULL. -/
def Linked {α : Type} (x y : Option α) : Prop := ∃ v, x = some v ∧ y = some v

/-- The row of a header table belongs to its side of the exchange. -/
def HeaderJoin.LinkedAt {α : Type} (p : Rows α) (j : HeaderJoin) : Prop :=
  Linked (p j.table (sideNumber j.side)) (p (sideTable j.side) (sideNumber j.side))

theorem HeaderJoin.LinkedAt.congr {α : Type} {p p' : Rows α} {j : HeaderJoin} (h : j.LinkedAt p)
    (htable : p' j.table = p j.table) (hside : p' (sideTable j.side) = p (sideTable j.side)) :
    j.LinkedAt p' := by
  rw [LinkedAt, htable, hside]
  exact h

theorem sideTable_notMem (side : Side) (joins : List HeaderJoin) :
    sideTable side ∉ joins.map HeaderJoin.table := by
  intro h
  obtain ⟨j, -, hj⟩ := List.mem_map.mp h
  cases side <;> cases hj

theorem mem_table_iff {j : HeaderJoin} {joins : List HeaderJoin} :
    j.table ∈ joins.map HeaderJoin.table ↔ j.mark ∈ joins.map HeaderJoin.mark := by
  simp [HeaderJoin.table]

variable {α : Type} [DecidableEq α] (E : Engine α)

theorem Engine.compare_eq_yes_iff {x y : Option α} : E.compare .eq x y = .yes ↔ Linked x y := by
  cases x with
  | none => simp [compare, Linked]
  | some v =>
    cases y with
    | none => simp [compare, Linked]
    | some w =>
      have hyes : E.compare .eq (some v) (some w) = .yes ↔ v = w := by simp [compare, holds]
      rw [hyes]
      simp [Linked, eq_comm]

theorem Engine.mem_innerJoin {table : List (Row α)} {name : Alias} {on : Expr}
    {others : List (Rows α)} {p : Rows α} : p ∈ E.innerJoin table name on others ↔
      (∃ rows ∈ others, ∃ row ∈ table, p = Function.update rows name row) ∧
        on.truth (E.assignment p) = .yes := by
  simp only [innerJoin, List.mem_flatMap, List.mem_filter, List.mem_map, decide_eq_true_eq]
  constructor
  · rintro ⟨rows, hrows, ⟨row, hrow, rfl⟩, hon⟩
    exact ⟨⟨rows, hrows, row, hrow, rfl⟩, hon⟩
  · rintro ⟨⟨rows, hrows, row, hrow, rfl⟩, hon⟩
    exact ⟨rows, hrows, ⟨row, hrow, rfl⟩, hon⟩

theorem HeaderJoin.link_eq_yes_iff {p : Rows α} {j : HeaderJoin} :
    j.link.truth (E.assignment p) = .yes ↔ j.LinkedAt p :=
  E.compare_eq_yes_iff

/-- Joining header tables of different marks keeps the rows of the other tables, and puts rows next
to them that belong to the exchange. -/
theorem Engine.mem_foldl_innerJoin {table : List (Row α)} {joins : List HeaderJoin}
    {others : List (Rows α)} {p : Rows α} (hnodup : (joins.map HeaderJoin.mark).Nodup) :
    p ∈ joins.foldl (fun ps j => E.innerJoin table j.table j.link ps) others ↔
      (∃ rows ∈ others, ∀ t, t ∉ joins.map HeaderJoin.table → p t = rows t) ∧
        ∀ j ∈ joins, p j.table ∈ table ∧ j.LinkedAt p := by
  induction joins generalizing others with
  | nil =>
    simp only [List.foldl_nil, List.map_nil, List.not_mem_nil, not_false_eq_true, forall_const,
      false_imp_iff, and_true]
    constructor
    · intro h
      exact ⟨p, h, fun _ => rfl⟩
    · rintro ⟨rows, hrows, h⟩
      rw [show p = rows from funext h]
      exact hrows
  | cons j js ih =>
    obtain ⟨hnew, hjs⟩ := List.nodup_cons.mp hnodup
    rw [← mem_table_iff] at hnew
    rw [List.foldl_cons, ih hjs]
    constructor
    · rintro ⟨⟨base, hbase, hoff⟩, hall⟩
      obtain ⟨⟨rows, hrows, row, hrow, rfl⟩, hlink⟩ := E.mem_innerJoin.mp hbase
      have htable : p j.table = row := by rw [hoff _ hnew, Function.update_self]
      have hlinked := ((j.link_eq_yes_iff E).mp hlink).congr (hoff _ hnew)
        (hoff _ (sideTable_notMem j.side js))
      refine ⟨⟨rows, hrows, ?_⟩, ?_⟩
      · intro t ht
        rw [hoff t (List.not_mem_of_not_mem_cons ht),
          Function.update_of_ne (List.ne_of_not_mem_cons ht)]
      · intro k hk
        rcases List.mem_cons.mp hk with rfl | hk
        · exact ⟨htable ▸ hrow, hlinked⟩
        · exact hall k hk
    · rintro ⟨⟨rows, hrows, hoff⟩, hall⟩
      obtain ⟨hrow, hlinked⟩ := hall j List.mem_cons_self
      -- Before the later tables are joined, the row of this one is there already.
      have hbase : ∀ t, t ∉ js.map HeaderJoin.table →
          p t = Function.update rows j.table (p j.table) t := by
        intro t ht
        by_cases h : t = j.table
        · rw [h, Function.update_self]
        · rw [Function.update_of_ne h]
          exact hoff t (List.not_mem_cons_of_ne_of_not_mem h ht)
      have hlink := hlinked.congr (hbase _ hnew).symm (hbase _ (sideTable_notMem j.side js)).symm
      refine ⟨⟨_, E.mem_innerJoin.mpr ⟨⟨rows, hrows, _, hrow, rfl⟩, ?_⟩, hbase⟩, ?_⟩
      · exact (j.link_eq_yes_iff E).mpr hlink
      · intro k hk
        exact hall k (List.mem_cons_of_mem j hk)

namespace Statement
variable {db : Database α} {s : Statement}

theorem names_select (s : Statement) : s.select.names = s.names := by
  simp only [names, Select.names, select, List.map_cons, List.map_map]
  rfl

/-- The header tables are joined to the requests and their responses. -/
theorem joined_eq (db : Database α) (s : Statement) : s.joined E db =
    s.joins.foldl (fun ps j => E.innerJoin (db s.tables.headers) j.table j.link ps)
      (E.innerJoin (db s.tables.responses) .response exchangeLink
        ((db s.tables.requests).map (Function.update (fun _ _ => none) .request))) := by
  rw [joined, Select.joined, select, List.foldl_cons, List.foldl_map]
  rfl

/-- The rows of the joined tables are those where the response belongs to the request, and every header
to its side of the exchange. -/
theorem mem_joined_iff {p : Rows α} (hnodup : (s.joins.map HeaderJoin.mark).Nodup) :
    p ∈ s.joined E db ↔ p .request ∈ db s.tables.requests ∧ p .response ∈ db s.tables.responses ∧
      Linked (p .request .requestId) (p .response .responseId) ∧
      (∀ j ∈ s.joins, p j.table ∈ db s.tables.headers ∧ j.LinkedAt p) ∧
      ∀ mark, mark ∉ s.joins.map HeaderJoin.mark → p (.header mark) = fun _ => none := by
  rw [joined_eq, E.mem_foldl_innerJoin hnodup]
  have hrequest := sideTable_notMem .request s.joins
  have hresponse := sideTable_notMem .response s.joins
  constructor
  · rintro ⟨⟨base, hbase, hoff⟩, hall⟩
    obtain ⟨⟨first, hfirst, q, hq, rfl⟩, hlink⟩ := E.mem_innerJoin.mp hbase
    obtain ⟨r, hr, rfl⟩ := List.mem_map.mp hfirst
    have hpr : p .request = r := hoff _ hrequest
    have hpq : p .response = q := hoff _ hresponse
    refine ⟨hpr ▸ hr, hpq ▸ hq, ?_, hall, ?_⟩
    · rw [hpr, hpq]
      exact E.compare_eq_yes_iff.mp hlink
    · intro mark hmark
      exact hoff _ (mem_table_iff (j := ⟨.request, mark⟩).not.mpr hmark)
  · rintro ⟨hr, hq, hlink, hall, hrest⟩
    refine ⟨⟨_, E.mem_innerJoin.mpr ⟨⟨_, List.mem_map.mpr ⟨_, hr, rfl⟩, _, hq, rfl⟩, ?_⟩, ?_⟩, hall⟩
    · exact E.compare_eq_yes_iff.mpr hlink
    · intro t ht
      cases t with
      | header mark => exact hrest mark (mem_table_iff (j := ⟨.request, mark⟩).not.mp ht)
      | _ => rfl

theorem nodup_names (hnodup : (s.joins.map HeaderJoin.mark).Nodup) : s.names.Nodup := by
  have htables : (s.joins.map HeaderJoin.table).Nodup := by
    have h := hnodup.map fun m n (h : Alias.header m = Alias.header n) => Alias.header.inj h
    rwa [List.map_map] at h
  have hresponse : (Alias.response :: s.joins.map HeaderJoin.table).Nodup :=
    List.nodup_cons.mpr ⟨sideTable_notMem .response s.joins, htables⟩
  have hrequest : Alias.request ∉ Alias.response :: s.joins.map HeaderJoin.table :=
    List.not_mem_cons_of_ne_of_not_mem (by decide) (sideTable_notMem .request s.joins)
  exact (List.nodup_cons.mpr ⟨hrequest, hresponse⟩).map fun _ _ h => Alias.label_injective h

theorem nodup_selected : (s.selected E db).Nodup := List.nodup_dedup _

/-- A statement for rows gives the results that it selects, if its tables have names of their own. -/
theorem exists_answer?_eq_rows (db : Database α) (hnames : s.names.Nodup) (hop : s.operation = .rows) :
    ∃ tuples, s.answer? E db = some (.rows tuples) ∧ tuples.Perm (s.selected E db) := by
  have hretrieval : s.retrieval = .latest s.select (.request, .timestamp) := by rw [retrieval, hop]
  refine ⟨_, ?_, List.mergeSort_perm _ fun t u =>
    E.laterFirst (s.select.cell (.request, .timestamp) t) (s.select.cell (.request, .timestamp) u)⟩
  rw [answer?, hretrieval]
  exact if_pos (s.names_select ▸ hnames)

/-- A statement for their number gives the number of the results. -/
theorem answer?_eq_count (db : Database α) (hnames : s.names.Nodup) (hop : s.operation = .count) :
    s.answer? E db = some (.count (s.selected E db).length) := by
  have hretrieval : s.retrieval = .number s.select "matched" := by rw [retrieval, hop]
  rw [answer?, hretrieval]
  exact if_pos (s.names_select ▸ hnames)

theorem mem_selected_iff {tuple : List (Option α)} : tuple ∈ s.selected E db ↔
    ∃ p ∈ s.joined E db, s.filter.truth (E.assignment p) = .yes ∧ s.select.project p = tuple := by
  simp only [selected, Select.selected, List.mem_dedup, List.mem_map, List.mem_filter,
    decide_eq_true_eq, and_assoc]
  rfl

end Statement
end TrafficQuery.Sql
