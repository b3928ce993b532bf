import TrafficQuery.Json.Text
import TrafficQuery.Json.Number

namespace TrafficQuery.Json
open Text

def isBlank (c : Char) : Bool := c == ' ' || c == '\n' || c == '\t' || c == '\r'

/-- The place behind the blanks of a document. -/
def skipBlanks (c : Cursor) : Cursor := c.skipWhile isBlank

theorem length_skipBlanks_le (c : Cursor) : (skipBlanks c).rest.length ≤ c.rest.length :=
  Cursor.length_skipWhile_le isBlank c

/-- A place behind the blanks and something more. -/
def behindBlanks {c : Cursor} (d : (skipBlanks c).After) : c.After :=
  d.within (length_skipBlanks_le c)

/-- A place behind a later one and more characters of a class. -/
def andWhile {c : Cursor} (p : Char → Bool) (d : c.After) : c.After :=
  ⟨d.cursor.skipWhile p, Nat.lt_of_le_of_lt (Cursor.length_skipWhile_le p d.cursor) d.shorter⟩

/-- The rest of a word whose first character is known. -/
def readWord {c : Cursor} (d : c.After) : List Char → Except Failure c.After
  | [] => .ok d
  | x :: xs =>
    match d.cursor.next? with
    | none => .error (failHere d.cursor .endInValue)
    | some (y, e) =>
      if y = x then readWord (d.andThen e) xs else .error (failNext d.cursor .expectedWord)

/-- Passes over a text that is not needed, behind its opening quote. -/
def skipText (c : Cursor) : Except Failure c.After :=
  match c.next? with
  | none => .error (failHere c .endInString)
  | some (x, d) =>
    if x = '"' then .ok d
    else if x.toNat < 0x20 then .error (failHere c .controlCharacter)
    else if x = '\\' then
      match d.cursor.next? with
      | none => .error (failHere d.cursor .endInString)
      | some (y, e) =>
        if y = 'u' then
          match readUnit e.cursor with
          | .error f => .error f
          | .ok (_, f) =>
            match skipText f.cursor with
            | .error g => .error g
            | .ok g => .ok (d.andThen (e.andThen (f.andThen g)))
        else if (escapedChar? y).isSome then
          match skipText e.cursor with
          | .error f => .error f
          | .ok f => .ok (d.andThen (e.andThen f))
        else .error (failNext d.cursor .invalidEscape)
    else
      match skipText d.cursor with
      | .error e => .error e
      | .ok e => .ok (d.andThen e)
termination_by c.rest.length
decreasing_by
  · exact (d.andThen (e.andThen f)).shorter
  · exact (d.andThen e).shorter
  · exact d.shorter

/-- Passes over the digits of an exponent. -/
def skipExponent {c : Cursor} (d : c.After) : Except Failure c.After :=
  let e : c.After :=
    match d.cursor.next? with
    | some (x, e) => if x = '+' || x = '-' then d.andThen e else d
    | none => d
  match e.cursor.next? with
  | some (x, f) =>
    if x.isDigit then .ok (andWhile Char.isDigit (e.andThen f))
    else .error (failNext e.cursor .invalidNumber)
  | none => .error (failNext e.cursor .invalidNumber)

/-- Passes over an exponent if there is one. -/
def skipOptionalExponent {c : Cursor} (d : c.After) : Except Failure c.After :=
  match d.cursor.next? with
  | some (x, e) => if isExponentSign x then skipExponent (d.andThen e) else .ok d
  | none => .ok d

/-- Passes over what follows the digits in front of a decimal point. -/
def skipRemainder {c : Cursor} (d : c.After) : Except Failure c.After :=
  match d.cursor.next? with
  | some ('.', e) =>
    match e.cursor.next? with
    | some (x, f) =>
      if x.isDigit then skipOptionalExponent (andWhile Char.isDigit (d.andThen (e.andThen f)))
      else .error (failNext e.cursor .invalidNumber)
    | none => .error (failNext e.cursor .invalidNumber)
  | _ => skipOptionalExponent d

/-- Passes over a number behind its sign. -/
def skipNumber (c : Cursor) : Except Failure c.After :=
  match c.next? with
  | none => .error (failNext c .invalidNumber)
  | some ('0', d) =>
    match d.cursor.next? with
    | some (x, _) =>
      if x.isDigit then .error (failNext d.cursor .invalidNumber) else skipRemainder d
    | none => skipRemainder d
  | some (x, d) =>
    if x.isDigit then skipRemainder (andWhile Char.isDigit d)
    else .error (failNext c .invalidNumber)

/-- Passes over a value that is no list and no object, where `d` is behind its first character. -/
def skipScalar (c : Cursor) (first : Char) (d : c.After) : Except Failure c.After :=
  match first with
  | 'n' => readWord d "ull".toList
  | 't' => readWord d "rue".toList
  | 'f' => readWord d "alse".toList
  | '"' => (skipText d.cursor).map d.andThen
  | '-' => (skipNumber d.cursor).map d.andThen
  | x => if x.isDigit then skipNumber c else .error (failNext c .expectedValue)

/-- What encloses a value. -/
inductive Enclosure
  | list | object
  deriving DecidableEq, Repr

/-- The colon behind a key. -/
def readColon (c : Cursor) : Except Failure c.After :=
  let b := skipBlanks c
  match b.next? with
  | some (':', d) => .ok (behindBlanks d)
  | some _ => .error (failNext b .expectedColon)
  | none => .error (failNext b .endInObject)

/-- Passes over a key and its colon. -/
def skipKey (c : Cursor) : Except Failure c.After :=
  let b := skipBlanks c
  match b.next? with
  | some ('"', d) => do
    let e ← skipText d.cursor
    let f ← readColon e.cursor
    return behindBlanks (d.andThen (e.andThen f))
  | some _ => .error (failNext b .keyIsNoString)
  | none => .error (failNext b .endInObject)

mutual

/-- Passes over a value and what remains of the enclosures around it, innermost first. -/
def skipValue {o : Cursor} (around : List Enclosure) (c : Cursor)
    (h : c.rest.length ≤ o.rest.length) : Except Failure o.After :=
  let b := skipBlanks c
  match b.next? with
  | none => .error (failNext b .endInValue)
  | some ('[', d) =>
    let e := skipBlanks d.cursor
    match e.next? with
    | none => .error (failNext e .endInList)
    | some (']', f) => skipEnd around ((behindBlanks (d.andThen (behindBlanks f))).within h)
    | some _ =>
      skipValue (.list :: around) d.cursor (((behindBlanks d).within h).le)
  | some ('\x7b', d) =>
    let e := skipBlanks d.cursor
    match e.next? with
    | none => .error (failNext e .endInObject)
    | some ('\x7d', f) => skipEnd around ((behindBlanks (d.andThen (behindBlanks f))).within h)
    | some _ =>
      match skipKey d.cursor with
      | .error f => .error f
      | .ok f =>
        skipValue (.object :: around) f.cursor
          (((behindBlanks (d.andThen f)).within h).le)
  | some (x, d) =>
    match skipScalar b x d with
    | .error e => .error e
    | .ok e => skipEnd around ((behindBlanks e).within h)
termination_by c.rest.length
decreasing_by
  · exact (behindBlanks (d.andThen (behindBlanks f))).shorter
  · exact (behindBlanks d).shorter
  · exact (behindBlanks (d.andThen (behindBlanks f))).shorter
  · exact (behindBlanks (d.andThen f)).shorter
  · exact (behindBlanks e).shorter

/-- Passes over what remains of the enclosures around a value that has ended. -/
def skipEnd {o : Cursor} (around : List Enclosure) (c : o.After) : Except Failure o.After :=
  match around with
  | [] => .ok c
  | .list :: outer =>
    let b := skipBlanks c.cursor
    match b.next? with
    | some (',', d) =>
      skipValue (.list :: outer) d.cursor ((c.andThen (behindBlanks d)).le)
    | some (']', d) => skipEnd outer (c.andThen (behindBlanks d))
    | some _ => .error (failNext b .expectedListComma)
    | none => .error (failNext b .endInList)
  | .object :: outer =>
    let b := skipBlanks c.cursor
    match b.next? with
    | some (',', d) =>
      match skipKey d.cursor with
      | .error e => .error e
      | .ok e =>
        skipValue (.object :: outer) e.cursor
          ((c.andThen (behindBlanks (d.andThen e))).le)
    | some ('\x7d', d) => skipEnd outer (c.andThen (behindBlanks d))
    | some _ => .error (failNext b .expectedObjectComma)
    | none => .error (failNext b .endInObject)
termination_by c.cursor.rest.length
decreasing_by
  · exact (behindBlanks d).shorter
  · exact (behindBlanks d).shorter
  · exact (behindBlanks (d.andThen e)).shorter
  · exact (behindBlanks d).shorter

end

end TrafficQuery.Json
