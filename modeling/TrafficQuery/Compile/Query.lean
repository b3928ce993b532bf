import TrafficQuery.Compile.Filter
import TrafficQuery.Query.Reading

namespace TrafficQuery
open Sql

/-- The header table that a test needs. -/
def Test.join? : Test → Option HeaderJoin
  | .header side mark _ _ => some ⟨side, mark⟩
  | .raw side mark _ => some ⟨side, mark⟩
  | _ => none

/-- Adds the header tables of a condition to a list, from left to right. -/
def Condition.addJoins (joins : Array HeaderJoin) (c : Condition) : Array HeaderJoin :=
  c.foldTests (fun js t => match t.join? with
    | some j => js.push j
    | none => js) joins

def Condition.joins (c : Condition) : List HeaderJoin := (c.addJoins #[]).toList

/-- The statement that answers a query. -/
def Query.compile (s : Settings) (q : Query) : Except CompileError Statement :=
  return ⟨q.operation, s.tables, q.root.joins, ← Compile.filter s q.root⟩

/-- Why a text has no statement. -/
inductive QueryError
  | parse (error : ParseError)
  | compile (error : CompileError)
  deriving DecidableEq, Repr, Inhabited

def QueryError.message : QueryError → String
  | .parse e => "parse error: " ++ e.message
  | .compile e => "compile error: " ++ e.message

/-- Reads a query and compiles it. -/
def compileText (s : Settings) (source : String) : Except QueryError Statement :=
  match parse source with
  | .error e => .error (.parse e)
  | .ok q =>
    match q.compile s with
    | .error e => .error (.compile e)
    | .ok statement => .ok statement

end TrafficQuery
