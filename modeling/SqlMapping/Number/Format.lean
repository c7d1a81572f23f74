/-!
# Binary floating-point formats

A number of a binary format is a bit pattern: a sign, an exponent code and a fraction. `decode` says
what a pattern denotes, and `nearest` gives the pattern of the number nearest to a fraction of two
naturals, a tie going to the even pattern. All arithmetic is exact, on naturals and integers.
-/

namespace SqlMapping

/-- `precision` digits in the significand, the last of them worth `2 ^ leastExponent` in the smallest
numbers; `specialCode` is the exponent code of the infinities and of what is not a number. -/
structure FloatFormat where
  precision : Nat
  leastExponent : Int
  specialCode : Nat

namespace FloatFormat

def single : FloatFormat := ⟨24, -149, 255⟩

def double : FloatFormat := ⟨53, -1074, 2047⟩

end FloatFormat

/-- What a bit pattern denotes; a finite number is `± significand · 2 ^ exponent`. -/
inductive FloatValue where
  | notANumber
  | infinite (negative : Bool)
  | finite (negative : Bool) (significand : Nat) (exponent : Int)
  deriving DecidableEq

namespace FloatFormat

variable (f : FloatFormat)

def fractionLimit : Nat := Nat.pow 2 (f.precision - 1)

/-- The pattern of positive infinity; every pattern below it is a finite magnitude. -/
def infinity : Nat := f.specialCode * f.fractionLimit

def signBit : Nat := (f.specialCode + 1) * f.fractionLimit

def decodeMagnitude (negative : Bool) (m : Nat) : FloatValue :=
  let code := m / f.fractionLimit
  let fraction := m % f.fractionLimit
  if code = f.specialCode then
    if fraction = 0 then .infinite negative else .notANumber
  else if code = 0 then .finite negative fraction f.leastExponent
  else .finite negative (f.fractionLimit + fraction) (f.leastExponent + (code - 1 : Nat))

def decode (bits : Nat) : FloatValue :=
  f.decodeMagnitude (f.signBit ≤ bits) (bits % f.signBit)

def encode (negative : Bool) (magnitude : Nat) : Nat :=
  if negative then f.signBit + magnitude else magnitude

end FloatFormat

/-- `num / (den · 2 ^ q)` as a fraction. -/
def scaleByTwo (num den : Nat) (q : Int) : Nat × Nat :=
  if 0 ≤ q then (num, den * Nat.pow 2 q.toNat) else (num * Nat.pow 2 (-q).toNat, den)

/-- The natural nearest to `num / den`, a tie going to the even one. -/
def nearestEven (num den : Nat) : Nat :=
  let n := num / den
  let r := num % den
  if 2 * r < den then n
  else if den < 2 * r then n + 1
  else if n % 2 = 0 then n else n + 1

/-- The integer `e` with `2 ^ e ≤ num / den < 2 ^ (e + 1)`. -/
def binaryOrder (num den : Nat) : Int :=
  let e := (Nat.log2 num : Int) - Nat.log2 den
  let (a, b) := scaleByTwo num den e
  if a < b then e - 1 else e

/-- Magnitude pattern of the number nearest to `num / den`; one too large is infinite. -/
def FloatFormat.nearest (f : FloatFormat) (num den : Nat) : Nat :=
  if num = 0 then 0
  else
    let q := max (binaryOrder num den - (f.precision - 1 : Nat)) f.leastExponent
    let (a, b) := scaleByTwo num den q
    min ((q - f.leastExponent).toNat * f.fractionLimit + nearestEven a b) f.infinity

end SqlMapping
