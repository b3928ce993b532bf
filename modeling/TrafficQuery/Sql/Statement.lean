import TrafficQuery.Sql.Select
import TrafficQuery.Settings.Basic

namespace TrafficQuery.Sql

/-- A copy of the header table for one test. -/
structure HeaderJoin where
  side : Side
  mark : Nat
  deriving DecidableEq, Repr, Inhabited

def HeaderJoin.table (j : HeaderJoin) : Alias := .header j.mark

/-- The table of a side of the exchange. -/
def sideTable : Side → Alias
  | .request => .request
  | .response => .response

/-- The column that holds the number of a side of the exchange. -/
def sideNumber : Side → Column
  | .request => .requestId
  | .response => .responseId

/-- The headers of an exchange have the number of their side. -/
def HeaderJoin.link (j : HeaderJoin) : Expr :=
  .compare .eq (.column j.table (sideNumber j.side)) (.column (sideTable j.side) (sideNumber j.side))

/-- A header table is joined where its headers belong to the exchange. -/
def HeaderJoin.join (table : String) (j : HeaderJoin) : Join := ⟨⟨table, j.table⟩, j.link⟩

/-- The columns of a row, in order. -/
def resultColumns : List (Alias × Column) :=
  [(.request, .timestamp), (.request, .requestId), (.request, .method), (.response, .statusCode),
    (.request, .url)]

/-- A query over the joined tables. -/
structure Statement where
  operation : Operation
  tables : TableNames
  joins : List HeaderJoin
  filter : Expr
  deriving DecidableEq, Repr

namespace Statement

/-- A response belongs to the request of its number. -/
def exchangeLink : Expr :=
  .compare .eq (.column .request .requestId) (.column .response .responseId)

/-- The rows that match, in no order. -/
def select (s : Statement) : Select where
  columns := resultColumns
  source := ⟨s.tables.requests, .request⟩
  joins := ⟨⟨s.tables.responses, .response⟩, exchangeLink⟩ ::
    s.joins.map (HeaderJoin.join s.tables.headers)
  filter := s.filter

def retrieval (s : Statement) : Retrieval :=
  match s.operation with
  | .rows => .latest s.select (.request, .timestamp)
  | .count => .number s.select "matched"

def rowPieces (s : Statement) : List Piece := s.select.pieces

def pieces (s : Statement) : List Piece := s.retrieval.pieces

def text (s : Statement) : String := textOf s.pieces

/-- The bound values in the order of their placeholders. -/
def values (s : Statement) : List Value := valuesOf s.pieces

end Statement
end TrafficQuery.Sql
