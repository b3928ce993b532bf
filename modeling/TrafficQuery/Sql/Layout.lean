import TrafficQuery.Sql.Expr
import TrafficQuery.Sql.Piece
import TrafficQuery.Like

namespace TrafficQuery.Sql

def connectiveWord : Connective → String
  | .and => "AND"
  | .or => "OR"

/-- A sign or word with a space on either side. -/
def between (piece : Piece) : List Piece := [.space, piece, .space]

def Term.pieces : Term → List Piece
  | .column a c => [.name a.label, .sign ".", .name c.label]
  | .bound v => [.bound v]
  | .lower t => .word "LOWER" :: parenthesized t.pieces
  | .ago seconds =>
    parenthesized (.word "datetime" :: parenthesized
      [.literal "now", .sign ",", .space, .literal ("-" ++ toString seconds ++ " seconds")])

namespace Expr

def isAtom : Expr → Bool
  | .compare .. => true
  | .like .. => true
  | .binary .. => false
  | .negation _ => false

def connective? : Expr → Option Connective
  | .binary op _ _ => some op
  | _ => none

/-- An operand is written in parentheses unless it is an atom, or is on the left of the connective
that it has itself. -/
def pieces : Expr → List Piece
  | .compare op l r => l.pieces ++ between (.sign op.symbol) ++ r.pieces
  | .like t pattern escaped =>
    t.pieces ++ between (.word "LIKE") ++ .bound (.string pattern) ::
      if escaped then between (.word "ESCAPE") ++ [.literal (String.singleton Like.escapeSign)]
      else []
  | .binary op l r =>
    (if l.isAtom || l.connective? == some op then l.pieces else parenthesized l.pieces) ++
      between (.word (connectiveWord op)) ++
      (if r.isAtom then r.pieces else parenthesized r.pieces)
  | .negation e =>
    .word "NOT" :: .space :: if e.isAtom then e.pieces else parenthesized e.pieces

end Expr
end TrafficQuery.Sql
