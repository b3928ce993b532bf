import TrafficQuery.Text.Cursor

namespace TrafficQuery

inductive OrderOp
  | eq | gt | ge | lt | le
  deriving DecidableEq, Repr, Inhabited

def OrderOp.symbol : OrderOp → String
  | .eq => "="
  | .gt => ">"
  | .ge => ">="
  | .lt => "<"
  | .le => "<="

inductive Connective
  | and | or
  deriving DecidableEq, Repr, Inhabited

def Connective.word : Connective → String
  | .and => "and"
  | .or => "or"

inductive Keyword
  | query | requests | whereClause | ago
  deriving DecidableEq, Repr, Inhabited

def Keyword.word : Keyword → String
  | .query => "query"
  | .requests => "requests"
  | .whereClause => "where"
  | .ago => "ago"

inductive Paren
  | opening | closing
  deriving DecidableEq, Repr, Inhabited

def Paren.symbol : Paren → String
  | .opening => "("
  | .closing => ")"

/-- What a token is. A string is held without its quotes, a duration in whole seconds; every other
text keeps its own case. -/
inductive Kind
  | keyword (word : Keyword)
  | order (op : OrderOp)
  | connective (op : Connective)
  | not
  | paren (side : Paren)
  | dot
  | present
  | contains
  | icontains
  | identifier (text : String)
  | headerName (text : String)
  | uuid (text : String)
  | duration (seconds : Nat)
  | string (text : String)
  | number (value : Int)
  deriving DecidableEq, Repr, Inhabited

def inQuotes (s : String) : String := "'" ++ s ++ "'"

/-- How messages name a token. -/
def Kind.description : Kind → String
  | .keyword k => inQuotes k.word
  | .order op => inQuotes op.symbol
  | .connective op => inQuotes op.word
  | .not => inQuotes "not"
  | .paren p => inQuotes p.symbol
  | .dot => inQuotes "."
  | .present => inQuotes "exists"
  | .contains => inQuotes "contains"
  | .icontains => inQuotes "icontains"
  | .identifier s => "identifier " ++ inQuotes s
  | .headerName s => "header name " ++ inQuotes s
  | .uuid s => "uuid " ++ inQuotes s
  | .duration n => "duration " ++ toString n ++ "s"
  | .string s => "string " ++ inQuotes s
  | .number n => "number " ++ toString n

/-- A token together with the source text it was read from and the byte where that text starts. -/
structure Token where
  kind : Kind
  start : Nat
  lexeme : String
  deriving DecidableEq, Repr, Inhabited

/-- The byte behind the token. -/
def Token.stop (t : Token) : Nat := t.start + Text.byteLength t.lexeme.toList

/-- What stands at a place of the source: a token, or its end. -/
inductive Item
  | token (t : Token)
  | endOfInput (position : Nat)
  deriving DecidableEq, Repr, Inhabited

namespace Item

def start : Item → Nat
  | .token t => t.start
  | .endOfInput n => n

def stop : Item → Nat
  | .token t => t.stop
  | .endOfInput n => n

def lexeme : Item → String
  | .token t => t.lexeme
  | .endOfInput _ => ""

/-- The end of the input is of no token kind. -/
def kind? : Item → Option Kind
  | .token t => some t.kind
  | .endOfInput _ => none

end Item

/-- How messages name what stands at a place, where `none` is the end of the input. -/
def describe : Option Kind → String
  | some k => k.description
  | none => "end of input"

end TrafficQuery
