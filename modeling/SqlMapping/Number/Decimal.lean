import SqlMapping.Text.Numeral
import SqlMapping.Number.Float

/-!
# Decimal numerals

A decimal numeral has an optional sign, digits with at most one point among, before or after them, and
an optional exponent. The words `inf`, `infinity` and `nan`, in any case, are read as well.
`Double.read` gives the double nearest to the number denoted.
-/

namespace SqlMapping

/-- What a numeral denotes; a number is `± digits · 10 ^ exponent`. -/
inductive DecimalValue where
  | notANumber
  | infinite (negative : Bool)
  | number (negative : Bool) (digits : Nat) (exponent : Int)
  deriving DecidableEq

def takeSign : List Char → Bool × List Char
  | '-' :: cs => (true, cs)
  | '+' :: cs => (false, cs)
  | cs => (false, cs)

def readExponent : List Char → Option Int
  | [] => some 0
  | c :: cs =>
    if c = 'e' ∨ c = 'E' then
      let (negative, ds) := takeSign cs
      (readNat ds).map fun n => if negative then -(n : Int) else (n : Int)
    else none

def readUnsignedDecimal (cs : List Char) : Option (Nat × Int) :=
  let whole := cs.takeWhile Char.isDigit
  let rest := cs.dropWhile Char.isDigit
  let (fraction, rest) := match rest with
    | '.' :: more => (more.takeWhile Char.isDigit, more.dropWhile Char.isDigit)
    | _ => ([], rest)
  if whole.isEmpty ∧ fraction.isEmpty then none
  else (readExponent rest).map fun e => (natOfDigits (whole ++ fraction), e - fraction.length)

def readDecimalChars (cs : List Char) : Option DecimalValue :=
  let (negative, body) := takeSign cs
  let word := body.map Char.toLower
  if word = ['n', 'a', 'n'] then some .notANumber
  else if word = ['i', 'n', 'f'] ∨ word = ['i', 'n', 'f', 'i', 'n', 'i', 't', 'y'] then
    some (.infinite negative)
  else (readUnsignedDecimal body).map fun (d, e) => .number negative d e

def readDecimal (s : String) : Option DecimalValue := readDecimalChars s.toList

/-- Exponents beyond this make a double infinite, whatever the digits. -/
def exponentLimit : Nat := 400

namespace Double

/-- The double nearest to `± digits · 10 ^ exponent`. Exponents far outside the range of the format
are settled without computing the power. -/
def ofDecimal (negative : Bool) (digits : Nat) (exponent : Int) : Double :=
  if digits = 0 then ofFraction negative 0 1
  else if exponentLimit < exponent then ofValue (.infinite negative)
  else if exponent < -(exponentLimit + Nat.log2 digits + 1 : Nat) then ofFraction negative 0 1
  else if 0 ≤ exponent then ofFraction negative (digits * Nat.pow 10 exponent.toNat) 1
  else ofFraction negative digits (Nat.pow 10 (-exponent).toNat)

def ofDecimalValue : DecimalValue → Double
  | .notANumber => ofValue .notANumber
  | .infinite negative => ofValue (.infinite negative)
  | .number negative digits exponent => ofDecimal negative digits exponent

def read (s : String) : Option Double := (readDecimal s).map ofDecimalValue

end Double

end SqlMapping
