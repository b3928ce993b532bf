namespace TrafficQuery.Json

/-- A number of the form mantissa times a power of two, as a 64-bit float holds it. -/
structure Double where
  mantissa : Nat
  exponent : Int
  deriving DecidableEq, Repr

namespace Double

/-- The least exponent. -/
def minExponent : Int := -1074

/-- The greatest exponent. -/
def maxExponent : Int := 971

def zero : Double := ⟨0, minExponent⟩

/-- A power as a numerator and a denominator. -/
def power (base : Nat) (e : Int) : Nat × Nat :=
  (base.pow e.toNat, base.pow (-e).toNat)

/-- The value as a numerator and a denominator. -/
def ratio (d : Double) : Nat × Nat :=
  let p := power 2 d.exponent
  (d.mantissa * p.1, p.2)

/-- A quotient rounded to the nearest whole number, and from the middle to the even one. -/
def roundedQuotient (num den : Nat) : Nat :=
  let n := num / den
  let twice := 2 * (num % den)
  if twice < den then n
  else if den < twice then n + 1
  else if n % 2 = 0 then n else n + 1

/-- The double nearest to a quotient, unless that is too large for one. -/
def nearest? (num den : Nat) : Option Double :=
  if num = 0 then some zero
  else
    let at' (q : Int) : Nat × Nat := let p := power 2 q; (num * p.2, den * p.1)
    let guess := max ((num.log2 : Int) - den.log2 - 53) minExponent
    let q := if .pow 2 53 ≤ (at' guess).1 / (at' guess).2 then guess + 1 else guess
    let m := roundedQuotient (at' q).1 (at' q).2
    let d : Double := if m = .pow 2 53 then ⟨.pow 2 52, q + 1⟩ else ⟨m, q⟩
    if maxExponent < d.exponent then none else some d

def times? (a b : Double) : Option Double :=
  nearest? (a.ratio.1 * b.ratio.1) (a.ratio.2 * b.ratio.2)

def over? (a b : Double) : Option Double :=
  nearest? (a.ratio.1 * b.ratio.2) (a.ratio.2 * b.ratio.1)

/-- The greatest power of ten that is a double. -/
def maxTenPower : Nat := 308

/-- A double divided by a power of ten, in steps of the greatest one. -/
def overTenPower? (a : Double) (n : Nat) : Option Double :=
  if _h : n ≤ maxTenPower then do
    a.over? (← nearest? (.pow 10 n) 1)
  else if a.mantissa = 0 then some a
  else do
    let b ← a.over? (← nearest? (.pow 10 maxTenPower) 1)
    b.overTenPower? (n - maxTenPower)
termination_by n
decreasing_by simp only [maxTenPower] at *; omega

/-- A whole number times a power of ten, where every step is rounded. -/
def scaled? (significand : Nat) (exponent : Int) : Option Double := do
  let a ← nearest? significand 1
  if exponent < 0 then a.overTenPower? (-exponent).toNat
  else if exponent.toNat ≤ maxTenPower then a.times? (← nearest? (.pow 10 exponent.toNat) 1)
  else if a.mantissa = 0 then some a
  else none

/-- Whether a decimal lies where every number rounds to the double. The bounds are a quarter or half
of a unit away, and belong to the double if its mantissa is even. -/
def covers (d : Double) (digits : Nat) (tens : Int) : Bool :=
  let p := power 2 (d.exponent - 2)
  let t := power 10 tens
  let value := digits * t.1 * p.2
  let bound (quarters : Nat) : Nat := quarters * p.1 * t.2
  let below := if d.mantissa = .pow 2 52 && minExponent < d.exponent then 1 else 2
  let low := bound (4 * d.mantissa - below)
  let high := bound (4 * d.mantissa + 2)
  if d.mantissa % 2 = 0 then low ≤ value && value ≤ high else low < value && value < high

/-- The nearer of the two decimals around the double that are multiples of a power of ten, if one
rounds to it. -/
def gridPoint? (d : Double) (tens : Int) : Option Nat :=
  let t := power 10 tens
  let num := d.ratio.1 * t.2
  let den := d.ratio.2 * t.1
  let near := roundedQuotient num den
  [near, num / den, num / den + 1].find? fun n => d.covers n tens

/-- The decimal with the fewest digits that rounds to the double, from a power of ten downwards. -/
def shortestFrom (d : Double) : Nat → Nat × Int
  | 0 => (0, 0)
  | n + 1 =>
    let tens : Int := (n : Int) - 400
    match d.gridPoint? tens with
    | some digits => (digits, tens)
    | none => d.shortestFrom n

/-- An exponent, which always has a sign. -/
def exponentText (e : Int) : List Char :=
  'e' :: if e < 0 then (toString e).toList else '+' :: (toString e).toList

/-- Where the decimal point is written and where an exponent is. -/
def layOut (digits : List Char) (tens : Int) : List Char :=
  let n := digits.length
  let point : Int := n + tens
  let zeros (k : Int) : List Char := List.replicate k.toNat '0'
  if 0 ≤ tens && point ≤ 16 then digits ++ zeros tens ++ ['.', '0']
  else if 0 < point && point ≤ 16 then
    digits.take point.toNat ++ '.' :: digits.drop point.toNat
  else if -5 < point && point ≤ 0 then '0' :: '.' :: zeros (-point) ++ digits
  else
    let exponent := exponentText (point - 1)
    match digits with
    | [c] => c :: exponent
    | c :: cs => c :: '.' :: cs ++ exponent
    | [] => exponent

/-- The shortest decimal of a double. -/
def text (d : Double) : List Char :=
  if d.mantissa = 0 then ['0', '.', '0']
  else
    let s := d.shortestFrom 720
    layOut (toString s.1).toList s.2

end Double
end TrafficQuery.Json
