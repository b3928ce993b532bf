import TrafficQuery.Proofs.Compile.Selection

/-!
# What a selected exchange says about its headers

Every header and raw test looks at one row of its own copy of the header table, and a query looks for
rows that make the whole condition true. So a test that is negated asks for a header that fails it, not
for the absence of headers that pass it, and an exchange without headers on the side of a test is never
selected. Where no header or raw test is negated, an exchange that has headers for all of them is
selected when the condition holds of it as it is read.
-/

namespace TrafficQuery
open Sql

/-! ## Truth and falsity of connectives -/

/-- What one operand can give to the whole: a false one makes an `and` false, and a true one makes an
`or` true. -/
def Connective.decides : Connective → Bool
  | .and => false
  | .or => true

namespace Sql.Truth

end Sql.Truth

/-! ## Conditions on an exchange -/

/-- A row of the header table that belongs to a side of the exchange. -/
def IsHeader {α : Type} (s : Settings) (db : Database α) (r q : Row α) (side : Side) (h : Row α) : Prop :=
  h ∈ db s.tables.headers ∧ Belongs r q h side

/-- The columns of the exchange itself in which a raw test looks for its text. -/
def ownColumns : Side → List Term
  | .request => [.column .request .url, .column .request .method, .column .request .body]
  | .response => [.column .response .body]

/-- The columns of a header in which it looks for it. -/
def headerColumns (mark : Nat) : List Term :=
  [.column (.header mark) .value, .column (.header mark) .name]

section Meaning
variable {α : Type} [DecidableEq α] (s : Settings) (E : Engine α) (db : Database α) (r q : Row α)

/-- The truth of a test on an exchange with one header row. -/
def Test.worth (h : Row α) (t : Test) : Truth := t.truth s (E.assignment (exchange r q h))

/-- Whether a column of an exchange with one header row contains a text. -/
def found (h : Row α) (text : String) (column : Term) : Truth :=
  Test.textTruth s (E.assignment (exchange r q h)) column text .contains

/-- How an exchange shows that a test is true or that it is false. Some header passes a header test, or
some header fails it. A raw text is in the exchange itself or in some header, or it is not in the
exchange itself and some header lacks it. -/
def Test.Shows (b : Bool) : Test → Prop
  | .header side mark name wanted => ∃ h, IsHeader s db r q side h ∧
      (Test.header side mark name wanted).worth s E r q h = .ofBool b
  | .raw side mark text =>
    match b with
    | true => (∃ column ∈ ownColumns side, found s E r q (fun _ => none) text column = .yes) ∨
        ∃ h, IsHeader s db r q side h ∧
          ∃ column ∈ headerColumns mark, found s E r q h text column = .yes
    | false => (∀ column ∈ ownColumns side, found s E r q (fun _ => none) text column = .no) ∧
        ∃ h, IsHeader s db r q side h ∧
          ∀ column ∈ headerColumns mark, found s E r q h text column = .no
  | t => t.worth s E r q (fun _ => none) = .ofBool b

/-- How an exchange shows that a condition is true or that it is false: operand by operand, where a
negation turns the one into the other. -/
def Condition.Shows : Bool → Condition → Prop
  | b, .test t => t.Shows s E db r q b
  | b, .binary op left right =>
    if b = op.decides then left.Shows b ∨ right.Shows b else left.Shows b ∧ right.Shows b
  | b, .negation c => c.Shows !b

/-- A condition as it is read: a negation holds when what it negates does not. -/
def Condition.Holds : Condition → Prop
  | .test t => t.Shows s E db r q true
  | .binary .and left right => left.Holds ∧ right.Holds
  | .binary .or left right => left.Holds ∨ right.Holds
  | .negation c => ¬c.Holds

end Meaning

variable {α : Type} {s : Settings} {db : Database α} {r q : Row α}

namespace Condition

end Condition

variable [DecidableEq α] {E : Engine α}

/-! ## Tests -/

end TrafficQuery
