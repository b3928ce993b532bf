import TrafficQuery.Condition.Basic
import TrafficQuery.ParseError

/-!
# The query language

The forms of a query over its tokens, and the condition that each of them stands for. Nothing here
refers to how queries are read: a query is accepted when there is a derivation of its tokens.
-/

namespace TrafficQuery.Grammar

/-! ## Field conditions -/

/-- A word, in any case of its ASCII letters. -/
def IsName (t : Token) (name : String) : Prop :=
  ∃ text, t.kind = .identifier text ∧ Text.lower text = name

def requestFields : List (String × Field) :=
  [("timestamp", .timestamp), ("id", .id), ("method", .method), ("header", .header .request),
    ("body", .body .request), ("path", .path), ("raw", .raw .request)]

def responseFields : List (String × Field) :=
  [("status", .status), ("header", .header .response), ("body", .body .response),
    ("raw", .raw .response)]

/-- The tokens that name a field, and the byte where they start. -/
inductive Names : Field → Nat → List Token → Prop
  | request {f : Token} {name : String} {field : Field} :
      IsName f name → (name, field) ∈ requestFields → Names field f.start [f]
  | response {r d f : Token} {owner name : String} {field : Field} :
      IsName r owner → owner ∈ ["resp", "response"] → d.kind = .dot →
      IsName f name → (name, field) ∈ responseFields → Names field r.start [r, d, f]

def textOp? : Kind → Option TextOp
  | .order .eq => some .equals
  | .contains => some .contains
  | .icontains => some .icontains
  | _ => none

/-- The text of a value that an id can have. -/
def idText? : Kind → Option String
  | .uuid s => some s
  | .number n => some (toString n)
  | .string s => some s
  | _ => none

def methodText? : Kind → Option String
  | .identifier s => some s
  | .string s => some s
  | _ => none

def headerText? : Kind → Option String
  | .headerName s => some s
  | .identifier s => some s
  | _ => none

/-- What follows the name of a field, and the test that is made of both. -/
inductive Form : Field → Nat → List Token → Test → Prop
  | timestamp {mark : Nat} {o d a : Token} {op : OrderOp} {seconds : Nat} :
      o.kind = .order op → d.kind = .duration seconds → a.kind = .keyword .ago →
      Form .timestamp mark [o, d, a] (.timestamp op seconds)
  | id {mark : Nat} {o v : Token} {text : String} :
      o.kind = .order .eq → idText? v.kind = some text → Form .id mark [o, v] (.id .eq text)
  | method {mark : Nat} {o v : Token} {text : String} {m : Method} :
      o.kind = .order .eq → methodText? v.kind = some text → Text.upper text = m.word →
      Form .method mark [o, v] (.method m)
  | headerPresent {side : Side} {mark : Nat} {d n o : Token} {name : String} :
      d.kind = .dot → headerText? n.kind = some name → o.kind = .present →
      Form (.header side) mark [d, n, o] (.header side mark name .present)
  | headerValue {side : Side} {mark : Nat} {d n o v : Token} {name text : String} {op : TextOp} :
      d.kind = .dot → headerText? n.kind = some name → textOp? o.kind = some op →
      v.kind = .string text →
      Form (.header side) mark [d, n, o, v] (.header side mark name (.value op text))
  | body {side : Side} {mark : Nat} {o v : Token} {text : String} {op : TextOp} :
      textOp? o.kind = some op → op ≠ .equals → v.kind = .string text →
      Form (.body side) mark [o, v] (.body side op text)
  | path {mark : Nat} {o v : Token} {text : String} {op : TextOp} :
      textOp? o.kind = some op → v.kind = .string text → Form .path mark [o, v] (.path op text)
  | raw {side : Side} {mark : Nat} {o v : Token} {text : String} :
      o.kind = .contains → v.kind = .string text →
      Form (.raw side) mark [o, v] (.raw side mark text)
  | status {mark : Nat} {o v : Token} {op : OrderOp} {value : Int} :
      o.kind = .order op → v.kind = .number value → Form .status mark [o, v] (.status op value)

/-- A field condition is the name of a field with one of its forms behind it. -/
def IsField (ts : List Token) (test : Test) : Prop :=
  ∃ field mark us vs, ts = us ++ vs ∧ Names field mark us ∧ Form field mark vs test

/-! ## Conditions -/

/-- An operand, or what is left of a chain behind a connective, which is none at its start. -/
inductive Phrase
  | operand
  | chain (before : Option Connective)

/-- The level that a connective adds to a chain: one when it differs from the connective before. -/
def switchLevel (before : Option Connective) (op : Connective) : Nat :=
  if before.all (· = op) then 0 else 1

/-- `Derives phrase ts c depth`: the tokens are a phrase that stands for the condition. The depth is
the largest number of levels that are open at once in it, where each parenthesis is a level until it
is closed, and each change between `and` and `or` is one until its chain ends. -/
inductive Derives : Phrase → List Token → Condition → Nat → Prop
  | field {ts : List Token} {test : Test} : IsField ts test → Derives .operand ts (.test test) 0
  | negated {n : Token} {ts : List Token} {c : Condition} {depth : Nat} :
      n.kind = .not → Derives .operand ts c depth → Derives .operand (n :: ts) (.negation c) depth
  | group {o e : Token} {ts : List Token} {c : Condition} {depth : Nat} :
      o.kind = .paren .opening → Derives (.chain none) ts c depth → e.kind = .paren .closing →
      Derives .operand (o :: (ts ++ [e])) c (depth + 1)
  | last {before : Option Connective} {ts : List Token} {c : Condition} {depth : Nat} :
      Derives .operand ts c depth → Derives (.chain before) ts c depth
  | link {before : Option Connective} {t : Token} {ts us : List Token} {op : Connective}
      {c rest : Condition} {depth below : Nat} :
      Derives .operand ts c depth → t.kind = .connective op →
      Derives (.chain (some op)) us rest below →
      Derives (.chain before) (ts ++ t :: us) (.binary op c rest)
        (max depth (switchLevel before op + below))

/-- A query is a condition behind three keywords. -/
def IsQuery (ts : List Token) (c : Condition) (depth : Nat) : Prop :=
  ∃ q r w us, ts = q :: r :: w :: us ∧ q.kind = .keyword .query ∧ r.kind = .keyword .requests ∧
    w.kind = .keyword .whereClause ∧ Derives (.chain none) us c depth

end TrafficQuery.Grammar
