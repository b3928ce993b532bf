import Mathlib.Algebra.Field.Rat
import TrafficQuery.Json.Skip

/-!
# The grammar of documents

A document is a tree of values, written as a sequence of tokens with blanks between them. A text is made
of characters that stand for themselves and of escapes, and a number of digits with a fraction and an
exponent, and both are kept as they are written.
-/

namespace TrafficQuery.Json

/-! ## Texts -/

/-- A digit in base sixteen, with its value. -/
structure HexDigit where
  char : Char
  value : Nat
  isDigit : (char, value) ∈ "0123456789abcdef".toList.zipIdx ∨
    (char, value) ∈ "0123456789ABCDEF".toList.zipIdx

/-- The letters that can stand behind a backslash, each with the character that it stands for. -/
def escapes : List (Char × Char) :=
  [('"', '"'), ('\\', '\\'), ('/', '/'), ('b', '\x08'), ('f', '\x0c'), ('n', '\n'), ('r', '\r'),
    ('t', '\t')]

/-- A part of a text: a character as it is, a letter behind a backslash, or the number of a unit of
UTF-16. -/
inductive TextPart
  | plain (c : Char) (isPlain : 0x20 ≤ c.toNat ∧ c ≠ '"' ∧ c ≠ '\\')
  | escaped (letter c : Char) (isEscape : (letter, c) ∈ escapes)
  | unit (a b c d : HexDigit)

/-- The parts between the quotes of a text. -/
abbrev TextParts := List TextPart

def TextPart.chars : TextPart → List Char
  | .plain c _ => [c]
  | .escaped letter _ _ => ['\\', letter]
  | .unit a b c d => ['\\', 'u', a.char, b.char, c.char, d.char]

/-- The number of a unit by its digits. -/
def unitNumber (a b c d : HexDigit) : Nat :=
  ((a.value * 16 + b.value) * 16 + c.value) * 16 + d.value

/-- The numbers of units that are the first half of a surrogate pair. -/
abbrev IsLeadingHalf (n : Nat) : Prop := 0xD800 ≤ n ∧ n ≤ 0xDBFF

/-- The numbers of units that are the second half of a surrogate pair. -/
abbrev IsTrailingHalf (n : Nat) : Prop := 0xDC00 ≤ n ∧ n ≤ 0xDFFF

/-- The character of a surrogate pair. -/
def pairChar (n m : Nat) : Char := Char.ofNat (0x10000 + (n - 0xD800) * 0x400 + (m - 0xDC00))

/-- What the parts of a text say. A unit that is half of a surrogate pair needs the other half behind
it, or else they say nothing. -/
def TextParts.text? : TextParts → Option (List Char)
  | [] => some []
  | .plain c _ :: ps => (TextParts.text? ps).map (c :: ·)
  | .escaped _ c _ :: ps => (TextParts.text? ps).map (c :: ·)
  | .unit a b c d :: ps =>
    if IsTrailingHalf (unitNumber a b c d) then none
    else if IsLeadingHalf (unitNumber a b c d) then
      match ps with
      | .unit a' b' c' d' :: qs =>
        if IsTrailingHalf (unitNumber a' b' c' d') then
          (TextParts.text? qs).map (pairChar (unitNumber a b c d) (unitNumber a' b' c' d') :: ·)
        else none
      | _ => none
    else (TextParts.text? ps).map (Char.ofNat (unitNumber a b c d) :: ·)

/-! ## Numbers -/

/-- The power of ten behind a number. -/
structure Exponent where
  mark : Char
  sign : List Char
  digits : List Char
  isMark : mark = 'e' ∨ mark = 'E'
  isSign : sign = [] ∨ sign = ['+'] ∨ sign = ['-']
  digits_ne_nil : digits ≠ []
  isDigit : ∀ c ∈ digits, c.isDigit = true

/-- A number as it is written. -/
structure Numeral where
  isNegative : Bool
  whole : List Char
  fraction : List Char
  exponent : Option Exponent
  whole_ne_nil : whole ≠ []
  isDigit : ∀ c ∈ whole, c.isDigit = true
  /-- The number does not start with a zero, unless that is all in front of the point. -/
  leading : whole.head? = some '0' → whole = ['0']
  isFractionDigit : ∀ c ∈ fraction, c.isDigit = true

def Exponent.chars (e : Exponent) : List Char := e.mark :: e.sign ++ e.digits

def exponentChars : Option Exponent → List Char
  | none => []
  | some e => e.chars

/-- Digits behind a point. Without digits there is no point. -/
def pointed : List Char → List Char
  | [] => []
  | c :: cs => '.' :: c :: cs

def Exponent.value (e : Exponent) : Int :=
  let n : Int := Nat.ofDigitChars 10 e.digits 0
  if e.sign = ['-'] then -n else n

namespace Numeral

/-- The digits of a number without its sign. -/
def unsigned (n : Numeral) : List Char :=
  n.whole ++ (pointed n.fraction ++ exponentChars n.exponent)

def chars (n : Numeral) : List Char := if n.isNegative then '-' :: n.unsigned else n.unsigned

/-- The value of a number. -/
def value (n : Numeral) : ℚ :=
  let size : ℚ := Nat.ofDigitChars 10 (n.whole ++ n.fraction) 0 *
    10 ^ ((n.exponent.map Exponent.value).getD 0 - n.fraction.length)
  if n.isNegative then -size else size

end Numeral

/-! ## Tokens -/

/-- The signs that hold lists and objects together. -/
inductive Mark
  | openObject | closeObject | openList | closeList | colon | comma
  deriving DecidableEq

def Mark.char : Mark → Char
  | .openObject => '\x7b'
  | .closeObject => '\x7d'
  | .openList => '['
  | .closeList => ']'
  | .colon => ':'
  | .comma => ','

inductive Token
  | mark (m : Mark)
  | null
  | bool (b : Bool)
  | number (n : Numeral)
  | text (ps : TextParts)

def Token.chars : Token → List Char
  | .mark m => [m.char]
  | .null => "null".toList
  | .bool true => "true".toList
  | .bool false => "false".toList
  | .number n => n.chars
  | .text ps => '"' :: ps.flatMap TextPart.chars ++ ['"']

/-- A text in which tokens are laid out, with any blanks before, between and behind them. -/
inductive Layout : List Token → List Char → Prop
  | nil {gap : List Char} : (∀ c ∈ gap, isBlank c = true) → Layout [] gap
  | cons {gap rest : List Char} {t : Token} {ts : List Token} :
      (∀ c ∈ gap, isBlank c = true) → Layout ts rest → Layout (t :: ts) (gap ++ t.chars ++ rest)

/-! ## Trees -/

/-- A value of a document. -/
inductive Tree
  | null
  | bool (b : Bool)
  | number (n : Numeral)
  | text (ps : TextParts)
  | list (items : List Tree)
  | object (members : List (TextParts × Tree))

/-- A key with its value. -/
abbrev Member := TextParts × Tree

namespace Tree

mutual

/-- The tokens of a value. -/
def tokens : Tree → List Token
  | .null => [.null]
  | .bool b => [.bool b]
  | .number n => [.number n]
  | .text ps => [.text ps]
  | .list [] => [.mark .openList, .mark .closeList]
  | .list (v :: vs) => .mark .openList :: v.tokens ++ itemTokens vs
  | .object [] => [.mark .openObject, .mark .closeObject]
  | .object ((k, v) :: ms) =>
    .mark .openObject :: .text k :: .mark .colon :: v.tokens ++ memberTokens ms

/-- The tokens behind an item of a list. -/
def itemTokens : List Tree → List Token
  | [] => [.mark .closeList]
  | v :: vs => .mark .comma :: v.tokens ++ itemTokens vs

/-- The tokens behind a member of an object. -/
def memberTokens : List (TextParts × Tree) → List Token
  | [] => [.mark .closeObject]
  | (k, v) :: ms => .mark .comma :: .text k :: .mark .colon :: v.tokens ++ memberTokens ms

end

/-- A text is a document of a value when it is a layout of its tokens. -/
def Writes (v : Tree) (document : String) : Prop := Layout v.tokens document.toList

end Tree
end TrafficQuery.Json
