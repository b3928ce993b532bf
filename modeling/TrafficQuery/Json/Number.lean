import TrafficQuery.Json.Failure
import TrafficQuery.Json.Double

namespace TrafficQuery.Json
open Text

/-- The number that fits an unsigned word. -/
def wordLimit : Nat := .pow 2 64

/-- The number that fits an exponent. -/
def exponentLimit : Nat := .pow 2 31

/-- Takes digits up to the first that would take the number to a limit. -/
def absorb (limit : Nat) (n : Nat) : List Char → Nat × List Char
  | [] => (n, [])
  | c :: cs =>
    let m := 10 * n + (c.toNat - '0'.toNat)
    if m < limit then absorb limit m cs else (n, c :: cs)

def isExponentSign (c : Char) : Bool := c == 'e' || c == 'E'

/-- The digits at a place, and the place behind them. -/
def digitsAt (c : Cursor) : List Char × Cursor :=
  (c.rest.takeWhile Char.isDigit, c.skipWhile Char.isDigit)

/-- The place behind an optional sign, and whether it is a minus. -/
def signAt (c : Cursor) : Bool × Cursor :=
  match c.rest with
  | '+' :: r => (false, c.past ['+'] r)
  | '-' :: r => (true, c.past ['-'] r)
  | _ => (false, c)

def decimalFound (negative : Bool) (d : Double) : Found :=
  .decimal (String.ofList (if negative then '-' :: d.text else d.text))

/-- The number of a significand and a power of ten, which has been read up to a place. -/
def foundAt (negative : Bool) (significand : Nat) (exponent : Int) (c : Cursor) :
    Except Failure (Found × Cursor) :=
  match Double.scaled? significand exponent with
  | some d => .ok (decimalFound negative d, c)
  | none => .error (failHere c .numberOutOfRange)

/-- The digits of an exponent. -/
def readExponent (negative : Bool) (significand : Nat) (exponent : Int) (c : Cursor) :
    Except Failure (Found × Cursor) :=
  let (minus, c) := signAt c
  match digitsAt c with
  | ([], _) => .error (failNext c (if c.rest.isEmpty then .endInValue else .invalidNumber))
  | (digits, d) =>
    match absorb exponentLimit 0 digits with
    | (n, []) => foundAt negative significand (if minus then exponent - n else exponent + n) d
    | (_, others) =>
      if significand ≠ 0 && !minus then
        .error ⟨.numberOutOfRange, c.offset + (digits.length - others.length) + 1⟩
      else .ok (decimalFound negative .zero, d)

/-- The digits behind a decimal point. -/
def readFraction (negative : Bool) (significand : Nat) (exponent : Int) (c : Cursor) :
    Except Failure (Found × Cursor) :=
  match digitsAt c with
  | ([], _) => .error (failNext c (if c.rest.isEmpty then .endInValue else .invalidNumber))
  | (digits, d) =>
    let (significand, others) := absorb wordLimit significand digits
    let exponent := exponent - (digits.length - others.length)
    match d.rest with
    | x :: r =>
      if isExponentSign x then readExponent negative significand exponent (d.past [x] r)
      else foundAt negative significand exponent d
    | [] => foundAt negative significand exponent d

/-- A whole number keeps its value if it fits a word. A negative zero does not. -/
def wholeFound (negative : Bool) (n : Nat) : Option Found :=
  if !negative then some (.integer n)
  else if 0 < n && n ≤ .pow 2 63 then some (.integer (-n))
  else none

/-- What follows the digits in front of a decimal point. -/
def readRemainder (negative : Bool) (digits : List Char) (c : Cursor) :
    Except Failure (Found × Cursor) :=
  let (significand, others) := absorb wordLimit 0 digits
  let exponent : Int := others.length
  let whole := if others.isEmpty then wholeFound negative significand else none
  let ended : Except Failure (Found × Cursor) :=
    match whole with
    | some found => .ok (found, c)
    | none => foundAt negative significand exponent c
  match c.rest with
  | x :: r =>
    if x = '.' then readFraction negative significand exponent (c.past [x] r)
    else if isExponentSign x then readExponent negative significand exponent (c.past [x] r)
    else ended
  | [] => ended

/-- A number behind its sign. -/
def readNumber (negative : Bool) (c : Cursor) : Except Failure (Found × Cursor) :=
  match c.rest with
  | [] => .error (failHere c .endInValue)
  | '0' :: r =>
    let d := c.past ['0'] r
    match d.rest with
    | x :: _ =>
      if x.isDigit then .error (failNext d .invalidNumber) else readRemainder negative ['0'] d
    | [] => readRemainder negative ['0'] d
  | x :: _ =>
    if x.isDigit then
      let (digits, d) := digitsAt c
      readRemainder negative digits d
    else .error (failNext c .invalidNumber)

end TrafficQuery.Json
