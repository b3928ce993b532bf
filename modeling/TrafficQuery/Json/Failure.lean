import TrafficQuery.Text.Cursor

namespace TrafficQuery.Json
open Text

/-- A value of a type that was not asked for. A text, and a number with a fraction or an exponent,
are held as messages write them. -/
inductive Found
  | null
  | bool (value : Bool)
  | integer (value : Int)
  | decimal (text : String)
  | string (text : String)
  | list
  | object
  deriving DecidableEq, Repr

def Found.description : Found → String
  | .null => "null"
  | .bool b => "boolean `" ++ toString b ++ "`"
  | .integer n => "integer `" ++ toString n ++ "`"
  | .decimal s => "floating point `" ++ s ++ "`"
  | .string s => "string " ++ s
  | .list => "sequence"
  | .object => "map"

/-- Why a document cannot be read. -/
inductive Fault
  | endInList | endInObject | endInString | endInValue
  | expectedColon | expectedListComma | expectedObjectComma | expectedWord | expectedValue
  | invalidEscape | invalidNumber | numberOutOfRange
  | loneSurrogate | endInSurrogatePair | controlCharacter
  | keyIsNoString | trailingComma | trailingCharacters
  | wrongType (found : Found) (expected : String)
  | duplicateField (name : String)
  deriving DecidableEq, Repr

def Fault.message : Fault → String
  | .endInList => "EOF while parsing a list"
  | .endInObject => "EOF while parsing an object"
  | .endInString => "EOF while parsing a string"
  | .endInValue => "EOF while parsing a value"
  | .expectedColon => "expected `:`"
  | .expectedListComma => "expected `,` or `]`"
  | .expectedObjectComma => "expected `,` or `\x7d`"
  | .expectedWord => "expected ident"
  | .expectedValue => "expected value"
  | .invalidEscape => "invalid escape"
  | .invalidNumber => "invalid number"
  | .numberOutOfRange => "number out of range"
  | .loneSurrogate => "lone leading surrogate in hex escape"
  | .endInSurrogatePair => "unexpected end of hex escape"
  | .controlCharacter =>
    "control character (\\u0000-\\u001F) found while parsing a string"
  | .keyIsNoString => "key must be a string"
  | .trailingComma => "trailing comma"
  | .trailingCharacters => "trailing characters"
  | .wrongType found expected =>
    "invalid type: " ++ found.description ++ ", expected " ++ expected
  | .duplicateField name => "duplicate field `" ++ name ++ "`"

/-- A fault and the byte of the document behind which it shows. -/
structure Failure where
  fault : Fault
  offset : Nat
  deriving DecidableEq, Repr

/-- The failure at a place, before the next byte is taken. -/
def failHere (c : Cursor) (fault : Fault) : Failure := ⟨fault, c.offset⟩

/-- The failure at the next byte, if there is one. -/
def failNext (c : Cursor) (fault : Fault) : Failure :=
  ⟨fault, if c.rest.isEmpty then c.offset else c.offset + 1⟩

/-- The line of a byte, counted from a first one, and the bytes before it in its line. -/
def lineAndColumn (line column : Nat) : List Char → Nat → Nat × Nat
  | [], n => (line, column + n)
  | _, 0 => (line, column)
  | c :: cs, n + 1 =>
    if c = '\n' then lineAndColumn (line + 1) 0 cs n
    else if c.utf8Size ≤ n + 1 then
      lineAndColumn line (column + c.utf8Size) cs (n + 1 - c.utf8Size)
    else (line, column + (n + 1))

def Failure.message (f : Failure) (document : String) : String :=
  let (line, column) := lineAndColumn 1 0 document.toList f.offset
  f.fault.message ++ " at line " ++ toString line ++ " column " ++ toString column

end TrafficQuery.Json
