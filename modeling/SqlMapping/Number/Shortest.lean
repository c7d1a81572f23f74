import SqlMapping.Number.Format

/-!
# The shortest decimal that reads back

For a finite magnitude `m · 2 ^ q` of a format, the decimals that round to it form an interval around
it. `shortest` looks on the grids of the powers of ten, the coarsest first, and takes the first
neighbour of the number that lies in the interval.
-/

namespace SqlMapping

/-- `digits · 10 ^ exponent`. -/
structure DecimalDigits where
  digits : Nat
  exponent : Int
  deriving DecidableEq

inductive HalfRule where
  | up
  | even
  deriving DecidableEq

/-- The decimals that read back as `number`, in units of a quarter of its last binary digit; the
bounds themselves belong to it when `closed`. -/
structure ReadBack where
  low : Nat
  number : Nat
  high : Nat
  closed : Bool

def FloatFormat.readBack (f : FloatFormat) (m : Nat) (q : Int) : ReadBack where
  low := if m = f.fractionLimit ∧ f.leastExponent < q then 4 * m - 1 else 4 * m - 2
  number := 4 * m
  high := 4 * m + 2
  closed := m % 2 == 0

/-- The neighbour of the number on the grid `den / num`, if one reads back. -/
def ReadBack.neighbour? (i : ReadBack) (rule : HalfRule) (num den : Nat) : Option Nat :=
  let below := i.number * num / den
  let rest := i.number * num % den
  let within (a b : Nat) : Bool := if i.closed then a ≤ b else a < b
  let belowIn := within (i.low * num) (below * den)
  let aboveIn := within ((below + 1) * den) (i.high * num)
  if belowIn && aboveIn then
    if 2 * rest < den then some below
    else if den < 2 * rest then some (below + 1)
    else match rule with
      | .up => some (below + 1)
      | .even => some (if below % 2 = 0 then below else below + 1)
  else if belowIn then some below
  else if aboveIn then some (below + 1)
  else none

def ReadBack.search (i : ReadBack) (rule : HalfRule) (q : Int) : Nat → Int → DecimalDigits
  | 0, k => ⟨0, k⟩
  | steps + 1, k =>
    let unit := q - 2
    let num := Nat.pow 2 unit.toNat * Nat.pow 10 (-k).toNat
    let den := Nat.pow 2 (-unit).toNat * Nat.pow 10 k.toNat
    match i.neighbour? rule num den with
    | some d => ⟨d, k⟩
    | none => i.search rule q steps (k - 1)

/-- An exponent `k` with `2 ^ e < 10 ^ k`, above the least one by at most one for every `e` of a
format. -/
def decimalAbove (e : Int) : Int := e * 30103 / 100000 + 1

def FloatFormat.shortest (f : FloatFormat) (rule : HalfRule) (m : Nat) (q : Int) : DecimalDigits :=
  let top := decimalAbove (Nat.log2 m + 1 + q)
  let bottom := decimalAbove (q - 2) - 3
  (f.readBack m q).search rule q (top - bottom + 1).toNat top

end SqlMapping
