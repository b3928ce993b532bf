import TrafficQuery.Sql.Value
import TrafficQuery.Condition.Basic

namespace TrafficQuery.Sql

inductive Column
  | timestamp | requestId | responseId | method | url | body | statusCode | name | value
  deriving DecidableEq, Repr, Inhabited

def Column.label : Column → String
  | .timestamp => "timestamp"
  | .requestId => "request_id"
  | .responseId => "response_id"
  | .method => "method"
  | .url => "url"
  | .body => "body"
  | .statusCode => "status_code"
  | .name => "name"
  | .value => "value"

/-- A table of a statement. Each header or raw test has a header table of its own. -/
inductive Alias
  | request | response
  | header (mark : Nat)
  deriving DecidableEq, Repr, Inhabited

def Alias.label : Alias → String
  | .request => "req"
  | .response => "resp"
  | .header mark => "h" ++ toString mark

/-- What a comparison compares. -/
inductive Term
  | column (table : Alias) (column : Column)
  | bound (value : Value)
  | lower (term : Term)
  /-- The time that lies some seconds back. -/
  | ago (seconds : Nat)
  deriving DecidableEq, Repr, Inhabited

/-- A test on the rows of a statement. -/
inductive Expr
  | compare (op : OrderOp) (left right : Term)
  | like (term : Term) (pattern : String) (escaped : Bool)
  | binary (op : Connective) (left right : Expr)
  | negation (inner : Expr)
  deriving DecidableEq, Repr, Inhabited

end TrafficQuery.Sql
