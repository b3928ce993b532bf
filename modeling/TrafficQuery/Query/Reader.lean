import TrafficQuery.ParseError

namespace TrafficQuery

/-- A reader takes one token after another until it has a value or fails. It names what it needs next
for the case that the input ends. -/
inductive Reader (α : Type)
  | done (value : α)
  | fail (error : ParseError)
  | next (expected : Expected) (take : Token → Reader α)

namespace Reader
variable {α β : Type}

def bind (r : Reader α) (f : α → Reader β) : Reader β :=
  match r with
  | .done a => f a
  | .fail e => .fail e
  | .next expected take => .next expected fun t => (take t).bind f

instance : Monad Reader where
  pure := .done
  bind := bind

/-- One token that is accepted. -/
def want (expected : Expected) (accept : Kind → Option α) : Reader α :=
  .next expected fun t =>
    match accept t.kind with
    | some a => .done a
    | none => .fail (unexpected expected (.token t))

/-- One token of a given kind. -/
def expect (kind : Kind) : Reader Unit :=
  want (.token kind) fun k => if k = kind then some () else none

def string : Reader String :=
  want .string fun
    | .string s => some s
    | _ => none

def number : Reader Int :=
  want .number fun
    | .number n => some n
    | _ => none

def duration : Reader Nat :=
  want .duration fun
    | .duration n => some n
    | _ => none

end Reader
end TrafficQuery
