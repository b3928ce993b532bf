import TrafficQuery.Token.Scan
import TrafficQuery.Query.Clause

namespace TrafficQuery

/-- Operands with the connective behind each, latest first. -/
abbrev Chain := List (Condition × Connective)

/-- The condition that a chain and its last operand make. Connectives bind to the right. -/
def Chain.close (chain : Chain) (last : Condition) : Condition :=
  chain.foldl (fun c (operand, op) => .binary op operand c) last

/-- What an open parenthesis interrupts: a chain, with the negations in front of the parenthesis and
the nesting before it. -/
structure Group where
  chain : Chain
  negations : Nat
  depth : Nat

/-- What the next token continues. -/
inductive Place
  | keyword (word : Keyword) (others : List Keyword)
  | operand (negations : Nat)
  | field (negations : Nat) (expected : Expected) (take : Token → Reader Test)
  | behind (operand : Condition)

/-- How far a query has been read: the groups around the innermost chain, innermost first, the chain,
the nesting, and the place in it. -/
structure Reading where
  groups : List Group
  chain : Chain
  depth : Nat
  place : Place

namespace Reading

def start : Reading := ⟨[], [], 0, .keyword .query [.requests, .whereClause]⟩

def reject {α : Type} (expected : Expected) (t : Token) : Except ParseError α :=
  .error (unexpected expected (.token t))

/-- One level of nesting more, which a token asks for. -/
def descend (p : Reading) (t : Token) : Except ParseError Reading :=
  if p.depth < maxNesting then .ok { p with depth := p.depth + 1 }
  else .error ⟨.nestingTooDeep, t.start⟩

/-- Goes on with the reader of a test. -/
def advance (p : Reading) (negations : Nat) : Reader Test → Except ParseError Reading
  | .done test => .ok { p with place := .behind (.negations negations (.test test)) }
  | .fail e => .error e
  | .next expected take => .ok { p with place := .field negations expected take }

/-- Whether a connective differs from the one before it in the chain. -/
def switches (p : Reading) (op : Connective) : Bool :=
  match p.chain with
  | [] => false
  | (_, last) :: _ => last != op

/-- What ends the innermost chain. -/
def closer (p : Reading) : Expected :=
  if p.groups.isEmpty then .endOfInput else .token (.paren .closing)

/-- Opens a group at a parenthesis behind some negations. -/
def openGroup (p : Reading) (negations : Nat) (t : Token) : Except ParseError Reading := do
  let inner ← p.descend t
  return ⟨⟨p.chain, negations, p.depth⟩ :: p.groups, [], inner.depth, .operand 0⟩

/-- Adds an operand and the connective behind it to the chain. -/
def extend (p : Reading) (operand : Condition) (op : Connective) (t : Token) :
    Except ParseError Reading := do
  let p ← if p.switches op then p.descend t else .ok p
  return { p with chain := (operand, op) :: p.chain, place := .operand 0 }

/-- Ends the innermost group at its parenthesis. -/
def closeGroup (p : Reading) (last : Condition) (t : Token) : Except ParseError Reading :=
  match p.groups with
  | [] => reject p.closer t
  | g :: gs =>
    .ok ⟨gs, g.chain, g.depth, .behind (.negations g.negations (p.chain.close last))⟩

/-- Takes one token. -/
def step (p : Reading) (t : Token) : Except ParseError Reading :=
  match p.place, t.kind with
  | .keyword word others, kind =>
    if kind = .keyword word then
      match others with
      | [] => .ok { p with place := .operand 0 }
      | next :: others => .ok { p with place := .keyword next others }
    else reject (.token (.keyword word)) t
  | .operand n, .not => .ok { p with place := .operand (n + 1) }
  | .operand n, .paren .opening => p.openGroup n t
  | .operand n, .identifier name => p.advance n (.field name t.start)
  | .operand _, _ => reject .condition t
  | .field n _ take, _ => p.advance n (take t)
  | .behind operand, .connective op => p.extend operand op t
  | .behind operand, .paren .closing => p.closeGroup operand t
  | .behind _, _ => reject p.closer t

/-- The condition that has been read when the input ends, or what is missing. -/
def finish (p : Reading) : Except Expected Condition :=
  match p.place with
  | .keyword word _ => .error (.token (.keyword word))
  | .operand _ => .error .condition
  | .field _ expected _ => .error expected
  | .behind operand =>
    if p.groups.isEmpty then .ok (p.chain.close operand) else .error p.closer

/-- Ends with the scan: a text that no token can be read from is an error only here, when all tokens
before it have been taken. -/
def conclude (p : Reading) : Ending → Except ParseError Condition
  | .broken e => .error e.toParseError
  | .endOfInput n =>
    match p.finish with
    | .ok c => .ok c
    | .error expected => .error (unexpected expected (.endOfInput n))

end Reading

/-- The condition that a scanned query puts. -/
def Scan.condition (s : Scan) : Except ParseError Condition := do
  let p ← s.tokens.foldlM Reading.step Reading.start
  p.conclude s.ending

/-- Reads a query from its text. -/
def parse (source : String) : Except ParseError Query := do
  return ⟨.rows, ← (scan source).condition⟩

end TrafficQuery
