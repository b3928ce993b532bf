import TrafficQuery.Sql.Layout

namespace TrafficQuery.Sql

/-- A table of the database, with its name in a statement. -/
structure Source where
  table : String
  name : Alias
  deriving DecidableEq, Repr

/-- A table that is joined to those before it, where a test is true. -/
structure Join where
  source : Source
  on : Expr
  deriving DecidableEq, Repr

/-- The different values of some columns on the joined rows for which a test is true. -/
structure Select where
  columns : List (Alias × Column)
  source : Source
  joins : List Join
  filter : Expr
  deriving DecidableEq, Repr

/-- What is asked for: the results, from the latest to the earliest by one of their columns, or their
number. -/
inductive Retrieval
  | latest (results : Select) (time : Alias × Column)
  | number (results : Select) (name : String)
  deriving DecidableEq, Repr

def Source.pieces (s : Source) : List Piece :=
  .name s.table :: between (.word "AS") ++ [.name s.name.label]

def Join.pieces (j : Join) : List Piece :=
  .space :: phrase ["INNER", "JOIN"] ++ .space :: j.source.pieces ++ between (.word "ON") ++ j.on.pieces

namespace Select

def columnPieces (q : Select) : List Piece :=
  separated [.sign ",", .space] (q.columns.map fun c => (Term.column c.1 c.2).pieces)

def pieces (q : Select) : List Piece :=
  phrase ["SELECT", "DISTINCT"] ++ .space :: q.columnPieces ++ between (.word "FROM") ++
    q.source.pieces ++ q.joins.flatMap Join.pieces ++ between (.word "WHERE") ++ q.filter.pieces

end Select

namespace Retrieval

def results : Retrieval → Select
  | .latest q _ => q
  | .number q _ => q

def orderPieces (time : Alias × Column) : List Piece :=
  .space :: phrase ["ORDER", "BY"] ++ .space :: (Term.column time.1 time.2).pieces ++
    [.space, .word "DESC"]

def pieces : Retrieval → List Piece
  | .latest q time => q.pieces ++ orderPieces time
  | .number q name =>
    .word "SELECT" :: .space :: .word "COUNT" :: parenthesized [.sign "*"] ++
      between (.word "FROM") ++ parenthesized q.pieces ++ between (.word "AS") ++ [.name name]

end Retrieval
end TrafficQuery.Sql
