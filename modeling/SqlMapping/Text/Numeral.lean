/-!
# Integer numerals

An integer is written with an optional sign and one or more ASCII digits, and nothing else.
-/

namespace SqlMapping

def digitOf (c : Char) : Nat := c.toNat - 48

def natOfDigits (ds : List Char) : Nat := ds.foldl (fun n d => 10 * n + digitOf d) 0

def readNat (cs : List Char) : Option Nat :=
  if cs ≠ [] ∧ cs.all Char.isDigit then some (natOfDigits cs) else none

def readSigned : List Char → Option Int
  | '-' :: cs => (readNat cs).map fun n => -(n : Int)
  | '+' :: cs => (readNat cs).map fun n => (n : Int)
  | cs => (readNat cs).map fun n => (n : Int)

def int64Min : Int := -9223372036854775808

def int64Max : Int := 9223372036854775807

def readInt64 (s : String) : Option Int :=
  (readSigned s.toList).filter fun n => int64Min ≤ n && n ≤ int64Max

def padded (width n : Nat) : String :=
  let s := toString n
  "".pushn '0' (width - s.length) ++ s

end SqlMapping
