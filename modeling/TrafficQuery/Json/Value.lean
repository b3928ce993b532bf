import TrafficQuery.Json.Skip
import TrafficQuery.Text.Visible

namespace TrafficQuery.Json
open Text

/-- The failure for a value that is not of the expected type. Scalars are read to their end. -/
def wrongType (expected : String) (c : Cursor) : Failure :=
  let word (rest : String) (found : Found) (d : c.After) : Failure :=
    match readWord d rest.toList with
    | .ok e => failHere e.cursor (.wrongType found expected)
    | .error f => f
  let number (negative : Bool) (d : Cursor) : Failure :=
    match readNumber negative d with
    | .ok (found, e) => failHere e (.wrongType found expected)
    | .error f => f
  match c.next? with
  | some ('n', d) => word "ull" .null d
  | some ('t', d) => word "rue" (.bool true) d
  | some ('f', d) => word "alse" (.bool false) d
  | some ('-', d) => number true d.cursor
  | some ('"', d) =>
    match readText d.cursor with
    | .ok (text, e) => failHere e.cursor (.wrongType (.string (shown text)) expected)
    | .error f => f
  | some ('[', _) => failHere c (.wrongType .list expected)
  | some ('\x7b', _) => failHere c (.wrongType .object expected)
  | some (x, _) => if x.isDigit then number false c else failNext c .expectedValue
  | none => failNext c .endInValue

/-- A way to read a value of a type, from its first character on. -/
abbrev ValueReader (α : Type) := (c : Cursor) → Except Failure (α × c.After)

/-- Reads a value behind blanks. -/
def readBehindBlanks {α : Type} (read : ValueReader α) : ValueReader α := fun c =>
  (read (skipBlanks c)).map fun (a, d) => (a, behindBlanks d)

def readString : ValueReader String :=
  readBehindBlanks fun c =>
    match c.next? with
    | some ('"', d) =>
      (readText d.cursor).map fun (text, e) => (String.ofList text, d.andThen e)
    | _ => .error (wrongType "a string" c)

def readBool : ValueReader Bool :=
  readBehindBlanks fun c =>
    match c.next? with
    | some ('t', d) => (readWord d "rue".toList).map fun e => (true, e)
    | some ('f', d) => (readWord d "alse".toList).map fun e => (false, e)
    | _ => .error (wrongType "a boolean" c)

/-- A field of a record that is being read: its name, whether it has been read, and how it is. -/
structure RecordField (σ : Type) where
  name : String
  isRead : σ → Bool
  read : σ → ValueReader σ

/-- A record is written as an object of its fields in any order, or as a list of them in theirs. -/
structure RecordType (σ : Type) where
  name : String
  fields : List (RecordField σ)

namespace RecordType
variable {σ : Type}

/-- A key that is repeated is reported once the place behind the key has been looked at. -/
def duplicate (name : String) (c : Cursor) : Failure :=
  let b := skipBlanks c
  match b.next? with
  | some ('\x7d', d) => failHere d.cursor (.duplicateField name)
  | _ => failHere b (.duplicateField name)

/-- The member behind the opening quote of its key. A key of no field is passed over. -/
def readMember (r : RecordType σ) (s : σ) (c : Cursor) : Except Failure (σ × c.After) := do
  let (key, d) ← readText c
  let key := String.ofList key
  match r.fields.find? (·.name == key) with
  | some f =>
    if f.isRead s then .error (duplicate key d.cursor)
    else do
      let e ← readColon d.cursor
      let (s, f) ← f.read s e.cursor
      return (s, d.andThen (e.andThen f))
  | none => do
    let e ← readColon d.cursor
    let f ← skipValue [] e.cursor (Nat.le_refl _)
    return (s, d.andThen (e.andThen f))

/-- The members up to the end of the object. -/
def readMembers (r : RecordType σ) (first : Bool) (s : σ) (c : Cursor) :
    Except Failure (σ × c.After) :=
  let b := skipBlanks c
  match b.next? with
  | none => .error (failNext b .endInObject)
  | some ('\x7d', d) => .ok (s, behindBlanks d)
  | some (x, d) =>
    if first then
      if x = '"' then
        match r.readMember s d.cursor with
        | .error f => .error f
        | .ok (s, e) =>
          (r.readMembers false s e.cursor).map fun (s, f) =>
            (s, behindBlanks (d.andThen (e.andThen f)))
      else .error (failNext b .keyIsNoString)
    else if x = ',' then
      let e := skipBlanks d.cursor
      match e.next? with
      | none => .error (failNext e .endInValue)
      | some ('"', f) =>
        match r.readMember s f.cursor with
        | .error g => .error g
        | .ok (s, g) =>
          (r.readMembers false s g.cursor).map fun (s, h) =>
            (s, behindBlanks (d.andThen (behindBlanks (f.andThen (g.andThen h)))))
      | some ('\x7d', _) => .error (failNext e .trailingComma)
      | some _ => .error (failNext e .keyIsNoString)
    else .error (failNext b .expectedObjectComma)
termination_by c.rest.length
decreasing_by
  · exact (behindBlanks (d.andThen e)).shorter
  · exact (behindBlanks (d.andThen (behindBlanks (f.andThen g)))).shorter

/-- The end of a list whose fields have all been read. -/
def readListEnd (c : Cursor) : Except Failure c.After :=
  let b := skipBlanks c
  match b.next? with
  | none => .error (failNext b .endInList)
  | some (']', d) => .ok (behindBlanks d)
  | some (',', d) =>
    let e := skipBlanks d.cursor
    match e.next? with
    | some (']', _) => .error (failNext e .trailingComma)
    | _ => .error (failNext e .trailingCharacters)
  | some _ => .error (failNext b .trailingCharacters)

/-- The items up to the end of the list. -/
def readItems (first : Bool) (fields : List (RecordField σ)) (s : σ) (c : Cursor) :
    Except Failure (σ × c.After) :=
  match fields with
  | [] => (readListEnd c).map fun d => (s, d)
  | f :: fields =>
    let b := skipBlanks c
    match b.next? with
    | none => .error (failNext b .endInList)
    | some (']', d) => .ok (s, behindBlanks d)
    | some (x, d) =>
      if first then do
        let (s, e) ← f.read s b
        let (s, g) ← readItems false fields s e.cursor
        return (s, behindBlanks (e.andThen g))
      else if x = ',' then
        let e := skipBlanks d.cursor
        match e.next? with
        | none => .error (failNext e .endInValue)
        | some (']', _) => .error (failNext e .trailingComma)
        | some _ => do
          let (s, g) ← f.read s e
          let (s, h) ← readItems false fields s g.cursor
          return (s, behindBlanks (d.andThen (behindBlanks (g.andThen h))))
      else .error (failNext b .expectedListComma)

/-- Adds what a document says of the record to a state. -/
def read (r : RecordType σ) (s : σ) : ValueReader σ :=
  readBehindBlanks fun c =>
    match c.next? with
    | some ('\x7b', d) => (r.readMembers true s d.cursor).map fun (s, e) => (s, d.andThen e)
    | some ('[', d) => (readItems true r.fields s d.cursor).map fun (s, e) => (s, d.andThen e)
    | _ => .error (wrongType r.name c)

end RecordType

/-- Reads a value that is all of a document. -/
def readDocument {α : Type} (read : ValueReader α) (document : String) : Except Failure α := do
  let (a, d) ← read (.start document)
  let b := skipBlanks d.cursor
  if b.rest.isEmpty then return a else .error (failNext b .trailingCharacters)

end TrafficQuery.Json
