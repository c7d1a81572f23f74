import SqlMapping.Json.Read
import SqlMapping.Number.Decimal

/-!
# Numbers in JSON text

A numeral without fraction and exponent is an integer of 64 bits if it can be. Any other is a double,
found in few steps: the leading digits that fit 64 bits make the significand, which is rounded, and
then multiplied or divided by the power of ten, and rounded again. A number too large is refused.
-/

namespace SqlMapping.Json

inductive Number where
  | natural (n : Nat)
  | negative (n : Int)
  | real (x : Double)
  deriving DecidableEq

def greatestSignificand : Nat := UInt64.size - 1

def greatestPower : Nat := 308

/-- Appends digits while the significand fits; gives the number of those appended and the rest. -/
def accumulate (significand : Nat) : List Char → Nat × Nat × List Char
  | [] => (significand, 0, [])
  | d :: ds =>
    let next := 10 * significand + digitOf d
    if greatestSignificand < next then (significand, 0, d :: ds)
    else
      let (s, count, rest) := accumulate next ds
      (s, count + 1, rest)

def powerOfTen (n : Nat) : Double := Double.ofFraction false (Nat.pow 10 n) 1

def scaled? (significand : Nat) (exponent : Int) : Option Double :=
  let x := Double.ofFraction false significand 1
  if 0 ≤ exponent then
    if exponent ≤ greatestPower then
      let y := x.times (powerOfTen exponent.toNat)
      if y.isFinite then some y else none
    else if significand = 0 then some x
    else none
  else
    let places := (-exponent).toNat
    if places ≤ greatestPower then some (x.quotient (powerOfTen places))
    else if places ≤ 2 * greatestPower then
      some ((x.quotient (powerOfTen greatestPower)).quotient (powerOfTen (places - greatestPower)))
    else some (Double.ofFraction false 0 1)

def greatestExponent : Nat := 2147483647

def clampExponent (e : Int) : Int := max (-(greatestExponent : Int) - 1) (min e greatestExponent)

def exponentParts : List Char → Option (Bool × Nat)
  | [] => none
  | _ :: cs =>
    let (negative, ds) := takeSign cs
    some (negative, natOfDigits ds)

def realMagnitude? (whole fraction : List Char) (exponent : Option (Bool × Nat)) : Option Double :=
  let (s, _, dropped) := accumulate 0 whole
  let (s, places, _) := accumulate s fraction
  let start : Int := dropped.length - places
  match exponent with
  | none => scaled? s start
  | some (minus, e) =>
    if greatestExponent < e then
      if s ≠ 0 ∧ !minus then none else some (Double.ofFraction false 0 1)
    else scaled? s (clampExponent (if minus then start - e else start + e))

def Number.read (numeral : String) : Option Number :=
  let (minus, cs) := takeSign numeral.toList
  let whole := cs.takeWhile Char.isDigit
  let rest := cs.dropWhile Char.isDigit
  let fraction := (rest.drop 1).takeWhile Char.isDigit
  let (fraction, rest) := match rest with
    | '.' :: more => (fraction, more.dropWhile Char.isDigit)
    | _ => ([], rest)
  let real := (realMagnitude? whole fraction (exponentParts rest)).map fun x =>
    Number.real (if minus then x.negate else x)
  if fraction.isEmpty ∧ rest.isEmpty then
    let n := natOfDigits whole
    if greatestSignificand < n then real
    else if !minus then some (.natural n)
    else if n = 0 ∨ int64Max + 1 < n then some (.real (Double.ofFraction true n 1))
    else some (.negative (-n))
  else real

end SqlMapping.Json
