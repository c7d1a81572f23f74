import SqlMapping.Number.Shortest
import SqlMapping.Number.Float

/-!
# Written numbers

Floating-point numbers are written with the fewest digits that read back. `plain` is always
positional and is what statements and displayed values use; `exchanged` is the form of data
interchange, which keeps a fraction and changes to an exponent for very large and small numbers.
-/

namespace SqlMapping

structure NumberForm where
  /-- The neighbour taken when two are equally near. -/
  half : HalfRule
  /-- Least and greatest exponent of the leading digit that is written positionally, if bounded. -/
  positional : Option (Int × Int)
  /-- Whether a whole number keeps a fraction. -/
  keepFraction : Bool

namespace NumberForm

def plain : NumberForm := ⟨.up, none, false⟩

def exchangedSingle : NumberForm := ⟨.even, some (-6, 12), true⟩

def exchangedDouble : NumberForm := ⟨.even, some (-5, 15), true⟩

end NumberForm

def DecimalDigits.positional (d : DecimalDigits) (keepFraction : Bool) : String :=
  let ds := toString d.digits
  let point : Int := ds.length + d.exponent
  if 0 ≤ d.exponent then
    ds ++ "".pushn '0' d.exponent.toNat ++ (if keepFraction then ".0" else "")
  else if 0 < point then
    String.ofList (ds.toList.take point.toNat) ++ "." ++ String.ofList (ds.toList.drop point.toNat)
  else "0." ++ "".pushn '0' (-point).toNat ++ ds

def DecimalDigits.scientific (d : DecimalDigits) : String :=
  let ds := toString d.digits
  let e : Int := ds.length + d.exponent - 1
  let fraction := ds.toList.drop 1
  String.ofList (ds.toList.take 1) ++ (if fraction.isEmpty then "" else "." ++ String.ofList fraction)
    ++ "e" ++ (if e < 0 then "-" else "+") ++ toString e.natAbs

def NumberForm.digits (n : NumberForm) (d : DecimalDigits) : String :=
  match n.positional with
  | none => d.positional n.keepFraction
  | some (least, greatest) =>
    let e : Int := (toString d.digits).length + d.exponent - 1
    if least ≤ e ∧ e ≤ greatest then d.positional n.keepFraction else d.scientific

def FloatFormat.magnitudeText (f : FloatFormat) (n : NumberForm) (m : Nat) (q : Int) : String :=
  if m = 0 then (if n.keepFraction then "0.0" else "0") else n.digits (f.shortest n.half m q)

def FloatFormat.text (f : FloatFormat) (n : NumberForm) : FloatValue → String
  | .notANumber => "NaN"
  | .infinite negative => if negative then "-inf" else "inf"
  | .finite negative m q => (if negative then "-" else "") ++ f.magnitudeText n m q

def Single.text (x : Single) : String := FloatFormat.single.text .plain x.value

def Double.text (x : Double) : String := FloatFormat.double.text .plain x.value

def Single.exchanged? (x : Single) : Option String :=
  if x.isFinite then some (FloatFormat.single.text .exchangedSingle x.value) else none

def Double.exchanged? (x : Double) : Option String :=
  if x.isFinite then some (FloatFormat.double.text .exchangedDouble x.value) else none

end SqlMapping
