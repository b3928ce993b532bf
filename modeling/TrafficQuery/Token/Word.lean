import TrafficQuery.ParseError

namespace TrafficQuery
open Text

/-- The words with a meaning of their own, in lower case. -/
def reservedKind? : String → Option Kind
  | "query" => some (.keyword .query)
  | "requests" => some (.keyword .requests)
  | "where" => some (.keyword .whereClause)
  | "ago" => some (.keyword .ago)
  | "exists" => some .present
  | "contains" => some .contains
  | "icontains" => some .icontains
  | "and" => some (.connective .and)
  | "or" => some (.connective .or)
  | "not" => some .not
  | _ => none

def isHexDigit (c : Char) : Bool := c.isDigit || ('a' ≤ c && c ≤ 'f')

/-- Digits without a zero in front. -/
def isPositiveNumeral : List Char → Bool
  | [] => false
  | c :: cs => c.isDigit && c != '0' && cs.all Char.isDigit

def isNumeral (cs : List Char) : Bool := cs == ['0'] || isPositiveNumeral cs

def isIdentifier (cs : List Char) : Bool :=
  !cs.isEmpty && cs.all fun c => c.isLower || c == '_'

def isHeaderName : List Char → Bool
  | [] => false
  | c :: cs => c.isLower && cs.all fun c => c.isLower || c.isDigit || c == '-'

/-- Runs of hexadecimal digits of the given lengths, with a dash between two runs. -/
def isHexGroups : List Nat → List Char → Bool
  | [], cs => cs.isEmpty
  | n :: ns, cs =>
    let digits := cs.take n
    digits.length == n && digits.all isHexDigit &&
      match ns, cs.drop n with
      | [], cs => cs.isEmpty
      | ns, '-' :: cs => isHexGroups ns cs
      | _, _ => false

def isUuid (cs : List Char) : Bool := isHexGroups [8, 4, 4, 4, 12] cs

/-- The seconds in the unit a letter stands for. -/
def unitSeconds? : Char → Option Nat
  | 's' => some 1
  | 'm' => some 60
  | 'h' => some (60 * 60)
  | 'd' => some (24 * 60 * 60)
  | _ => none

/-- The digits and the unit of a duration such as `10m`. -/
def durationParts? (cs : List Char) : Option (List Char × Nat) :=
  match cs.getLast?.bind unitSeconds? with
  | some unit => if isPositiveNumeral cs.dropLast then some (cs.dropLast, unit) else none
  | none => none

/-- The number that decimal digits write. -/
def decimalValue (cs : List Char) : Nat :=
  cs.foldl (fun n c => 10 * n + (c.toNat - '0'.toNat)) 0

/-- The number of seconds that fits a duration. -/
def durationLimit : Nat := .pow 2 64

/-- The value that fits a number. -/
def numberLimit : Nat := .pow 2 63

/-- The classes of words. -/
inductive WordClass
  | reserved | identifier | duration | uuid | headerName | number
  deriving DecidableEq, Repr

namespace WordClass

/-- Whether a word in lower case is of the class. -/
def accepts (word : List Char) : WordClass → Bool
  | .reserved => (reservedKind? (String.ofList word)).isSome
  | .identifier => isIdentifier word
  | .duration => (durationParts? word).isSome
  | .uuid => isUuid word
  | .headerName => isHeaderName word
  | .number => isNumeral word

/-- The token that a word of the class stands for. -/
def read (text : List Char) : WordClass → Except LexFault Kind
  | .reserved =>
    match reservedKind? (String.ofList (text.map foldCase)) with
    | some k => .ok k
    | none => .error (.invalidToken (String.ofList text))
  | .identifier => .ok (.identifier (String.ofList text))
  | .duration =>
    let word := text.map foldCase
    match durationParts? word with
    | some (digits, unit) =>
      let seconds := decimalValue digits * unit
      if seconds < durationLimit then .ok (.duration seconds)
      else .error (.invalidDuration (String.ofList word))
    | none => .error (.invalidToken (String.ofList text))
  | .uuid => .ok (.uuid (String.ofList text))
  | .headerName => .ok (.headerName (String.ofList text))
  | .number =>
    let value := decimalValue text
    if value < numberLimit then .ok (.number value)
    else .error (.invalidNumber (String.ofList text))

/-- The order in which the classes are tried. -/
def priority : List WordClass :=
  [.reserved, .identifier, .duration, .uuid, .headerName, .number]

end WordClass

/-- Reads a word as the first of the classes that accepts it. -/
def classifyIn (classes : List WordClass) (text : List Char) : Except LexFault Kind :=
  match classes.find? (·.accepts (text.map foldCase)) with
  | some c => c.read text
  | none => .error (.invalidToken (String.ofList text))

def classify (text : List Char) : Except LexFault Kind := classifyIn WordClass.priority text

end TrafficQuery
