import TrafficQuery.Token.Basic
import TrafficQuery.Condition.Field
import TrafficQuery.Text.Letter

namespace TrafficQuery

/-- Why no token can be read. -/
inductive LexFault
  | invalidToken (text : String)
  | unterminatedString
  | invalidDuration (text : String)
  | invalidNumber (text : String)
  deriving DecidableEq, Repr, Inhabited

def LexFault.message : LexFault → String
  | .invalidToken s => "invalid token found: " ++ inQuotes s
  | .unterminatedString => "unterminated string literal"
  | .invalidDuration s => "invalid duration: " ++ inQuotes s
  | .invalidNumber s => "invalid number: " ++ inQuotes s

/-- A fault and the byte at which no token can be read. -/
structure LexError where
  fault : LexFault
  position : Nat
  deriving DecidableEq, Repr, Inhabited

/-- What could have stood where something else was found. -/
inductive Expected
  | token (kind : Kind)
  | endOfInput
  | condition
  | operator (field : Field)
  | orderOperator
  | method
  | headerName
  | responseField
  | string
  | number
  | uuid
  | duration
  | described (text : String)
  deriving DecidableEq, Repr, Inhabited

def Expected.description : Expected → String
  | .token k => k.description
  | .endOfInput => describe none
  | .condition => "a request condition"
  | .operator f => "a " ++ f.label ++ " operator"
  | .orderOperator => "an order operator"
  | .method => "a request method"
  | .headerName => "a header name"
  | .responseField => "a response field"
  | .string => "a string"
  | .number => "a number"
  | .uuid => "a uuid"
  | .duration => "a duration"
  | .described s => s

/-- The most parentheses and changes between `and` and `or` that may be open at once. -/
def maxNesting : Nat := 128

/-- Why a query cannot be read. -/
inductive Fault
  | lex (fault : LexFault)
  | unexpectedToken (expected : Expected) (found : Kind)
  | unexpectedEnd (expected : Expected)
  | noAlternatives
  | unknownOperator (field : Field) (operator : String)
  | invalidValue (field : Field) (found : Kind)
  | unknownMethod (text : String)
  | unknownField (name : String)
  | nestingTooDeep
  deriving DecidableEq, Repr, Inhabited

def Fault.message : Fault → String
  | .lex f => f.message
  | .unexpectedToken e k => "expected " ++ e.description ++ ", found " ++ k.description
  | .unexpectedEnd e => "expected " ++ e.description ++ ", found " ++ describe none
  | .noAlternatives => "expected one of no alternatives, found any token"
  | .unknownOperator f op => "unknown " ++ f.label ++ " operator: " ++ inQuotes op
  | .invalidValue f k => "invalid " ++ f.label ++ " value: " ++ k.description
  | .unknownMethod s => "invalid " ++ Field.method.label ++ " value: " ++ inQuotes (Text.upper s)
  | .unknownField s => "unknown field " ++ inQuotes s
  | .nestingTooDeep => "conditions nested more than " ++ toString maxNesting ++ " deep"

/-- A fault and the byte of the source it points at. -/
structure ParseError where
  fault : Fault
  position : Nat
  deriving DecidableEq, Repr, Inhabited

def ParseError.message (e : ParseError) : String :=
  e.fault.message ++ " at position " ++ toString e.position

def LexError.toParseError (e : LexError) : ParseError := ⟨.lex e.fault, e.position⟩

/-- The error for something that is not what was needed. -/
def unexpected (expected : Expected) : Item → ParseError
  | .token t => ⟨.unexpectedToken expected t.kind, t.start⟩
  | .endOfInput n => ⟨.unexpectedEnd expected, n⟩

end TrafficQuery
