import TrafficQuery.Token.Scan

namespace TrafficQuery
open Text

/-- A source that is read call by call. -/
structure Session where
  cursor : Cursor
  /-- Whether the walk over the tokens has come to its end. -/
  finished : Bool
  saved : List (String × Cursor)

def Expected.ofKind : Option Kind → Expected
  | some k => .token k
  | none => .endOfInput

/-- A value that a token can carry. -/
inductive Literal
  | string | uuid | number | duration | orderOp
  deriving DecidableEq, Repr

/-- What a call gives. -/
inductive Answer
  | item (item : Item)
  | finished
  | text (text : String)
  | number (value : Int)
  | nothing
  deriving DecidableEq, Repr

def Literal.expected : Literal → Expected
  | .string => .string
  | .uuid => .uuid
  | .number => .number
  | .duration => .duration
  | .orderOp => .orderOperator

def Literal.value? : Literal → Kind → Option Answer
  | .string, .string s => some (.text s)
  | .uuid, .uuid s => some (.text s)
  | .number, .number n => some (.number n)
  | .duration, .duration n => some (.number n)
  | .orderOp, .order op => some (.text op.symbol)
  | _, _ => none

/-- A call on a session. A kind is optional so that the end of the input can be named. -/
inductive Call
  | peek
  | next
  | walk
  | expect (kind : Option Kind)
  | expectOneOf (kinds : List (Option Kind))
  | take (literal : Literal)
  | takeMatching (expected : String) (accept : Option Kind → Bool)
  | save (name : String)
  | restore (name : String)

namespace Session

def start (source : String) : Session := ⟨.start source, false, []⟩

/-- The item at the cursor, which the cursor goes behind. If there is none, the cursor does not move. -/
def next (s : Session) : Except ParseError Item × Session :=
  match s.cursor.read with
  | .ok (item, d) => (.ok item, { s with cursor := d })
  | .error e => (.error e.toParseError, s)

/-- Reads the next item, and goes back in front of it if it is not accepted. -/
def takeItem {α : Type} (expected : Expected) (accept : Item → Option α) (s : Session) :
    Except ParseError α × Session :=
  match s.next with
  | (.ok item, s') =>
    match accept item with
    | some a => (.ok a, s')
    | none => (.error (unexpected expected item), { s' with cursor := s.cursor })
  | (.error e, s') => (.error e, s')

def expect (kind : Option Kind) : Session → Except ParseError Item × Session :=
  takeItem (.ofKind kind) fun item => if item.kind? = kind then some item else none

/-- Tries one kind after the other, each where the one before it has left the session; the error is that
of the last one. -/
def expectOneOf : List (Option Kind) → Session → Except ParseError Item × Session
  | [], s => (.error ⟨.noAlternatives, s.cursor.offset⟩, s)
  | [kind], s => s.expect kind
  | kind :: kinds, s =>
    match s.expect kind with
    | (.ok item, s') => (.ok item, s')
    | (.error _, s') => expectOneOf kinds s'

/-- The next token of a walk, which ends for good at the end of the input or at an error. -/
def walk (s : Session) : Except ParseError Answer × Session :=
  if s.finished then (.ok .finished, s)
  else match s.next with
    | (.ok (.token t), s') => (.ok (.item (.token t)), s')
    | (.ok (.endOfInput _), s') => (.ok .finished, { s' with finished := true })
    | (.error e, s') => (.error e, { s' with finished := true })

/-- What is taken, as the answer to a call. -/
def answering {α : Type} (answer : α → Answer) (x : Except ParseError α × Session) :
    Except ParseError Answer × Session :=
  (x.1.map answer, x.2)

def call (s : Session) : Call → Except ParseError Answer × Session
  | .peek => (s.next.1.map .item, s)
  | .next => answering .item s.next
  | .walk => s.walk
  | .expect kind => answering .item (s.expect kind)
  | .expectOneOf kinds => answering .item (s.expectOneOf kinds)
  | .take literal =>
    answering id (s.takeItem literal.expected fun item => item.kind?.bind literal.value?)
  | .takeMatching expected accept =>
    answering .text (s.takeItem (.described expected) fun item =>
      if accept item.kind? then some (describe item.kind?) else none)
  | .save name => (.ok .nothing, { s with saved := (name, s.cursor) :: s.saved })
  | .restore name => (.ok .nothing, { s with cursor := (s.saved.lookup name).getD s.cursor })

/-- The answers to a sequence of calls, each with the session after it. -/
def run (s : Session) : List Call → List (Except ParseError Answer × Session)
  | [] => []
  | c :: cs =>
    let r := s.call c
    r :: run r.2 cs

end Session
end TrafficQuery
