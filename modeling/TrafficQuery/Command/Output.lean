import TrafficQuery.Compile.Query
import TrafficQuery.Json.Text

namespace TrafficQuery
open Sql

namespace Sql.Value

/-- A value that is neither a text nor a number is named with its type. -/
def named (type : ValueType) (value : String) : String := type.name ++ "(" ++ value ++ ")"

/-- A value as it is listed below a statement. -/
def shown : Value → String
  | .string s => inQuotes s
  | .bigInt n => toString n
  | .int n => toString n
  | .bool b => named .bool ("Some(" ++ toString b ++ ")")
  | .null t => named t "None"

/-- A value in a document. -/
def toDocument : Value → String
  | .string s => Json.quote s
  | .bigInt n => toString n
  | .int n => toString n
  | v => Json.quote v.shown

end Sql.Value

namespace Command

/-- How statements are printed. -/
inductive Mode
  | text | document
  deriving DecidableEq, Repr

def line (s : String) : String := s ++ "\n"

/-- The values with their places, counted from a first one. -/
def valueLines (place : Nat) : List Value → String
  | [] => ""
  | v :: vs => line ("  ?" ++ toString place ++ " = " ++ v.shown) ++ valueLines (place + 1) vs

/-- A list in a document, with one item on a line. -/
def documentList (indent : String) : List String → String
  | [] => "[]"
  | items =>
    "[\n" ++ ",\n".intercalate (items.map fun i => indent ++ "  " ++ i) ++ "\n" ++ indent ++ "]"

/-- What is printed for a statement. -/
def output (s : Statement) : Mode → String
  | .text => line s.text ++ valueLines 1 s.values
  | .document =>
    line ("\x7b\n  \"sql\": " ++ Json.quote s.text ++ ",\n  \"params\": " ++
      documentList "  " (s.values.map Value.toDocument) ++ "\n\x7d")

end Command
end TrafficQuery
