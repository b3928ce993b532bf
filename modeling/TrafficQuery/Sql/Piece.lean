import TrafficQuery.Sql.Value

namespace TrafficQuery.Sql

/-- A piece of a statement's text. A bound value is written as a placeholder, so the values in the
order of the placeholders are those of the pieces. -/
inductive Piece
  | word (text : String)
  | sign (text : String)
  | space
  | name (text : String)
  | literal (text : String)
  | bound (value : Value)
  deriving DecidableEq, Repr

/-- Writes a quote inside a quoted text twice. -/
def doubled (quote : Char) (s : String) : String :=
  String.ofList (s.toList.flatMap fun c => if c = quote then [c, c] else [c])

namespace Piece

def text : Piece → String
  | .word s => s
  | .sign s => s
  | .space => " "
  | .name s => "\"" ++ doubled '"' s ++ "\""
  | .literal s => "'" ++ doubled '\'' s ++ "'"
  | .bound _ => "?"

def value? : Piece → Option Value
  | .bound v => some v
  | _ => none

end Piece

def textOf (pieces : List Piece) : String := String.join (pieces.map Piece.text)

def valuesOf (pieces : List Piece) : List Value := pieces.filterMap Piece.value?

def parenthesized (pieces : List Piece) : List Piece :=
  .sign "(" :: pieces ++ [.sign ")"]

/-- Parts with a separator between two of them. -/
def separated (separator : List Piece) : List (List Piece) → List Piece
  | [] => []
  | [part] => part
  | part :: parts => part ++ separator ++ separated separator parts

/-- Words with a space between two of them. -/
def phrase (words : List String) : List Piece :=
  separated [.space] (words.map fun w => [.word w])

theorem textOf_append (as bs : List Piece) : textOf (as ++ bs) = textOf as ++ textOf bs := by
  simp [textOf]

@[simp] theorem valuesOf_append (as bs : List Piece) :
    valuesOf (as ++ bs) = valuesOf as ++ valuesOf bs := by
  simp [valuesOf]

@[simp] theorem valuesOf_cons (p : Piece) (ps : List Piece) :
    valuesOf (p :: ps) = p.value?.toList ++ valuesOf ps := by
  cases h : p.value? <;> simp [valuesOf, h]

@[simp] theorem valuesOf_nil : valuesOf [] = [] := rfl

@[simp] theorem valuesOf_parenthesized (ps : List Piece) :
    valuesOf (parenthesized ps) = valuesOf ps := by
  simp [parenthesized, Piece.value?]

end TrafficQuery.Sql
