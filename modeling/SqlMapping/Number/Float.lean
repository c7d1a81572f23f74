import SqlMapping.Number.Format

/-!
# Single and double precision numbers

Numbers are kept as bit patterns, so a number that is passed on unchanged keeps every bit. `equals`
compares them as numbers do: what is not a number equals nothing, and the two zeros are equal.
-/

namespace SqlMapping

structure Single where
  bits : UInt32
  deriving DecidableEq

structure Double where
  bits : UInt64
  deriving DecidableEq

namespace FloatValue

def isFinite : FloatValue → Bool
  | .finite .. => true
  | _ => false

def isZero : FloatValue → Bool
  | .finite _ m _ => m == 0
  | _ => false

def fraction (m : Nat) (e : Int) : Nat × Nat :=
  if 0 ≤ e then (m * Nat.pow 2 e.toNat, 1) else (m, Nat.pow 2 (-e).toNat)

/-- The integer nearest to `m · 2 ^ e`, halves going away from zero. -/
def roundHalfAway (m : Nat) (e : Int) : Nat :=
  let (num, den) := fraction m e
  (2 * num + den) / (2 * den)

end FloatValue

def FloatFormat.ofValue (f : FloatFormat) : FloatValue → Nat
  | .notANumber => f.infinity + f.fractionLimit / 2
  | .infinite negative => f.encode negative f.infinity
  | .finite negative m e =>
    let (num, den) := FloatValue.fraction m e
    f.encode negative (f.nearest num den)

namespace Double

def value (x : Double) : FloatValue := FloatFormat.double.decode x.bits.toNat

def ofValue (v : FloatValue) : Double := ⟨UInt64.ofNat (FloatFormat.double.ofValue v)⟩

def ofFraction (negative : Bool) (num den : Nat) : Double :=
  ⟨UInt64.ofNat (FloatFormat.double.encode negative (FloatFormat.double.nearest num den))⟩

def ofInt (n : Int) : Double := ofFraction (n < 0) n.natAbs 1

def isFinite (x : Double) : Bool := x.value.isFinite

def equals (x y : Double) : Bool :=
  x.value != .notANumber && ((x.value.isZero && y.value.isZero) || x == y)

def times (x y : Double) : Double :=
  match x.value, y.value with
  | .finite negative m e, .finite _ m' e' =>
    let (a, b) := FloatValue.fraction m e
    let (a', b') := FloatValue.fraction m' e'
    ofFraction negative (a * a') (b * b')
  | _, _ => x

def quotient (x y : Double) : Double :=
  match x.value, y.value with
  | .finite negative m e, .finite _ m' e' =>
    let (a, b) := FloatValue.fraction m e
    let (a', b') := FloatValue.fraction m' e'
    ofFraction negative (a * b') (b * a')
  | _, _ => x

def negate (x : Double) : Double := ⟨x.bits ^^^ 0x8000000000000000⟩

end Double

namespace Single

def value (x : Single) : FloatValue := FloatFormat.single.decode x.bits.toNat

def ofValue (v : FloatValue) : Single := ⟨UInt32.ofNat (FloatFormat.single.ofValue v)⟩

def ofFraction (negative : Bool) (num den : Nat) : Single :=
  ⟨UInt32.ofNat (FloatFormat.single.encode negative (FloatFormat.single.nearest num den))⟩

def ofInt (n : Int) : Single := ofFraction (n < 0) n.natAbs 1

def isFinite (x : Single) : Bool := x.value.isFinite

def equals (x y : Single) : Bool :=
  x.value != .notANumber && ((x.value.isZero && y.value.isZero) || x == y)

def toDouble (x : Single) : Double := Double.ofValue x.value

end Single

def Double.toSingle (x : Double) : Single := Single.ofValue x.value

end SqlMapping
