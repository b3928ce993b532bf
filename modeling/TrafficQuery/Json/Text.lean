import TrafficQuery.Json.Failure

namespace TrafficQuery.Json
open Text

/-- The two digits of a number below 256 in base sixteen. -/
def hexPair (n : Nat) : List Char :=
  [Nat.digitChar (n / 16), Nat.digitChar (n % 16)]

/-- The letter behind a backslash that stands for a character. -/
def escapeLetter? : Char → Option Char
  | '"' => some '"'
  | '\\' => some '\\'
  | '\x08' => some 'b'
  | '\x0c' => some 'f'
  | '\n' => some 'n'
  | '\r' => some 'r'
  | '\t' => some 't'
  | _ => none

/-- A character within a written text. Only quotes, backslashes and control characters are
escaped. -/
def writeChar (c : Char) : List Char :=
  match escapeLetter? c with
  | some letter => ['\\', letter]
  | none => if c.toNat < 0x20 then '\\' :: 'u' :: '0' :: '0' :: hexPair c.toNat else [c]

def quote (s : String) : String :=
  String.ofList ('"' :: s.toList.flatMap writeChar ++ ['"'])

/-- The character that a letter behind a backslash stands for. -/
def escapedChar? : Char → Option Char
  | '"' => some '"'
  | '\\' => some '\\'
  | '/' => some '/'
  | 'b' => some '\x08'
  | 'f' => some '\x0c'
  | 'n' => some '\n'
  | 'r' => some '\r'
  | 't' => some '\t'
  | _ => none

def hexValue? (c : Char) : Option Nat :=
  if c.isDigit then some (c.toNat - '0'.toNat)
  else if 'a' ≤ c && c ≤ 'f' then some (c.toNat - 'a'.toNat + 10)
  else if 'A' ≤ c && c ≤ 'F' then some (c.toNat - 'A'.toNat + 10)
  else none

def hexValue (cs : List Char) : Option Nat :=
  cs.foldlM (fun n c => (hexValue? c).map (16 * n + ·)) 0

/-- Four bytes that are digits in base sixteen. -/
def readUnit (c : Cursor) : Except Failure (Nat × c.After) :=
  let digits := c.rest.take 4
  match h : digits.length == 4, hexValue digits with
  | true, some n =>
    .ok (n, ⟨c.past digits (c.rest.drop 4), by
      have : digits.length = 4 := by simpa using h
      simp only [digits, List.length_take] at this
      simp only [Cursor.past, List.length_drop]
      omega⟩)
  | _, _ =>
    if byteLength c.rest < 4 then .error ⟨.endInString, c.offset + byteLength c.rest⟩
    else .error ⟨.invalidEscape, c.offset + 4⟩

def isLeadingSurrogate (n : Nat) : Bool := 0xD800 ≤ n && n ≤ 0xDBFF

def isTrailingSurrogate (n : Nat) : Bool := 0xDC00 ≤ n && n ≤ 0xDFFF

/-- A sign of the second half of a surrogate pair. -/
def readPairSign (sign : Char) (c : Cursor) : Except Failure c.After :=
  match c.next? with
  | none => .error (failHere c .endInString)
  | some (x, d) => if x = sign then .ok d else .error (failNext c .endInSurrogatePair)

/-- The digits behind `\u`, with a second escape where the first is half of a pair. -/
def readUnits (c : Cursor) : Except Failure (Char × c.After) := do
  let (n, d) ← readUnit c
  if isTrailingSurrogate n then .error (failHere d.cursor .loneSurrogate)
  else if isLeadingSurrogate n then do
    let e ← readPairSign '\\' d.cursor
    let f ← readPairSign 'u' e.cursor
    let (m, g) ← readUnit f.cursor
    if isTrailingSurrogate m then
      .ok (Char.ofNat (0x10000 + (n - 0xD800) * 0x400 + (m - 0xDC00)),
        d.andThen (e.andThen (f.andThen g)))
    else .error (failHere g.cursor .loneSurrogate)
  else .ok (Char.ofNat n, d)

/-- The escape behind a backslash. -/
def readEscape (c : Cursor) : Except Failure (Char × c.After) :=
  match c.next? with
  | none => .error (failHere c .endInString)
  | some (x, d) =>
    match escapedChar? x with
    | some y => .ok (y, d)
    | none =>
      if x = 'u' then
        (readUnits d.cursor).map fun (y, e) => (y, d.andThen e)
      else .error (failNext c .invalidEscape)

/-- The text behind an opening quote. -/
def readText (c : Cursor) : Except Failure (List Char × c.After) :=
  match c.next? with
  | none => .error (failHere c .endInString)
  | some (x, d) =>
    if x = '"' then .ok ([], d)
    else if x = '\\' then
      match readEscape d.cursor with
      | .error e => .error e
      | .ok (y, e) =>
        match readText e.cursor with
        | .error e => .error e
        | .ok (ys, f) => .ok (y :: ys, d.andThen (e.andThen f))
    else if x.toNat < 0x20 then .error (failNext c .controlCharacter)
    else
      match readText d.cursor with
      | .error e => .error e
      | .ok (ys, f) => .ok (x :: ys, d.andThen f)
termination_by c.rest.length
decreasing_by
  · exact (d.andThen e).shorter
  · exact d.shorter

end TrafficQuery.Json
