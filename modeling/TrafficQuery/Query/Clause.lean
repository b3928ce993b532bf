import TrafficQuery.Query.Reader
import TrafficQuery.Condition.Basic

namespace TrafficQuery

/-- The operators that can follow a field. -/
inductive FieldOp
  | order (op : OrderOp)
  | present
  | contains
  | icontains
  deriving DecidableEq, Repr

def FieldOp.ofKind? : Kind → Option FieldOp
  | .order op => some (.order op)
  | .present => some .present
  | .contains => some .contains
  | .icontains => some .icontains
  | _ => none

namespace FieldOp

def order? : FieldOp → Option OrderOp
  | .order op => some op
  | _ => none

def equality? : FieldOp → Option Unit
  | .order .eq => some ()
  | _ => none

def containment? : FieldOp → Option Unit
  | .contains => some ()
  | _ => none

def bodyOp? : FieldOp → Option TextOp
  | .contains => some .contains
  | .icontains => some .icontains
  | _ => none

def textOp? : FieldOp → Option TextOp
  | .order .eq => some .equals
  | .contains => some .contains
  | .icontains => some .icontains
  | _ => none

/-- A header can be asked to be there, which is `none`, or to have a value. -/
def headerOp? : FieldOp → Option (Option TextOp)
  | .present => some none
  | op => op.textOp?.map some

end FieldOp

namespace Reader

/-- The operator behind a field. One that the field does not have is unknown to it. -/
def operator {α : Type} (field : Field) (meaning : FieldOp → Option α) : Reader α :=
  .next (.operator field) fun t =>
    match FieldOp.ofKind? t.kind with
    | none => .fail (unexpected (.operator field) (.token t))
    | some op =>
      match meaning op with
      | some a => .done a
      | none => .fail ⟨.unknownOperator field t.lexeme, t.start⟩

def timestamp : Reader Test := do
  let op ← operator .timestamp FieldOp.order?
  let ago ← duration
  expect (.keyword .ago)
  return .timestamp op ago

/-- The value of an id: a uuid, a number or a string. -/
def idValue : Reader String :=
  .next .string fun t =>
    match t.kind with
    | .uuid s => .done s
    | .number n => .done (toString n)
    | .string s => .done s
    | k => .fail ⟨.invalidValue .id k, t.start⟩

def id : Reader Test := do
  operator .id FieldOp.equality?
  return .id .eq (← idValue)

def methodValue : Reader Method :=
  let ofText (t : Token) (s : String) : Reader Method :=
    match Method.ofText? s with
    | some m => .done m
    | none => .fail ⟨.unknownMethod s, t.start⟩
  .next .method fun t =>
    match t.kind with
    | .identifier s => ofText t s
    | .string s => ofText t s
    | k => .fail ⟨.invalidValue .method k, t.start⟩

def method : Reader Test := do
  operator .method FieldOp.equality?
  return .method (← methodValue)

def headerName : Reader String :=
  want .headerName fun
    | .headerName s => some s
    | .identifier s => some s
    | _ => none

def headerMatch (side : Side) : Reader HeaderMatch := do
  match ← operator (.header side) FieldOp.headerOp? with
  | none => return .present
  | some op => return .value op (← string)

def header (side : Side) (mark : Nat) : Reader Test := do
  expect .dot
  let name ← headerName
  return .header side mark name (← headerMatch side)

def body (side : Side) : Reader Test := do
  let op ← operator (.body side) FieldOp.bodyOp?
  return .body side op (← string)

def path : Reader Test := do
  let op ← operator .path FieldOp.textOp?
  return .path op (← string)

def raw (side : Side) (mark : Nat) : Reader Test := do
  operator (.raw side) FieldOp.containment?
  return .raw side mark (← string)

def status : Reader Test := do
  let op ← operator .status FieldOp.order?
  return .status op (← number)

/-- The rest of a response field, whose mark is that of the word before the dot. -/
def responseField (mark : Nat) : Reader Test :=
  .next .responseField fun t =>
    match t.kind with
    | .identifier name =>
      match Text.lower name with
      | "status" => status
      | "header" => header .response mark
      | "body" => body .response
      | "raw" => raw .response mark
      | _ => .fail ⟨.unknownField (Side.response.qualified name), t.start⟩
    | _ => .fail (unexpected .responseField (.token t))

def response (mark : Nat) : Reader Test := do
  expect .dot
  responseField mark

/-- What follows a field name that starts at a byte. -/
def field (name : String) (start : Nat) : Reader Test :=
  match Text.lower name with
  | "timestamp" => timestamp
  | "id" => id
  | "method" => method
  | "header" => header .request start
  | "body" => body .request
  | "path" => path
  | "raw" => raw .request start
  | "resp" => response start
  | "response" => response start
  | _ => .fail ⟨.unknownField name, start⟩

end Reader
end TrafficQuery
