import SqlMapping.Calendar.Moment
import SqlMapping.Row.MappedType

/-!
# Conversion of column values

A value becomes a value of a member's type. Null becomes what the member receives for it; a value of the
kind asked for is passed on; numbers go from any width to any other that holds them; the rest goes
through text, bytes or truth values where that makes sense, and otherwise fails.
-/

namespace SqlMapping

/-- The value of an integral kind, if the number fits; other kinds take 64 bits. -/
def Value.ofInteger? (k : Kind) (n : Int) : Option Value :=
  match k with
  | .int8 => if -128 ≤ n ∧ n ≤ 127 then some (.int8 (Int8.ofInt n)) else none
  | .int16 => if -32768 ≤ n ∧ n ≤ 32767 then some (.int16 (Int16.ofInt n)) else none
  | .int32 => if -2147483648 ≤ n ∧ n ≤ 2147483647 then some (.int32 (Int32.ofInt n)) else none
  | .uint8 => if 0 ≤ n ∧ n ≤ 255 then some (.uint8 (UInt8.ofNat n.toNat)) else none
  | _ => some (.int64 (Int64.ofInt n))

/-- The integer nearest to a double, halves away from zero. The double just above the greatest 64-bit
integer is taken as that integer; beyond, there is none. -/
def Double.toInt64? (x : Double) : Option Int :=
  match x.value with
  | .finite negative m e =>
    let n : Int := FloatValue.roundHalfAway m e
    let n := if negative then -n else n
    if int64Min ≤ n ∧ n ≤ int64Max + 1 then some (min n int64Max) else none
  | _ => none

namespace Value

/-- The integer of a number. A decimal that is an integer numeral is read exactly. -/
def nearestInteger? (v : Value) : Option Int :=
  match v.integer? with
  | some n => some n
  | none =>
    match v with
    | .decimal t =>
      match readInt64 (trimBlanks t) with
      | some n => some n
      | none => v.double?.bind Double.toInt64?
    | _ => v.double?.bind Double.toInt64?

def toNumeric? (v : Value) (k : Kind) : Option Value :=
  if k.isIntegral then v.nearestInteger?.bind (ofInteger? k)
  else match k with
    | .single => v.double?.map fun x => .single x.toSingle
    | .double => v.double?.map .double
    | .decimal =>
      match v with
      | .decimal t => some (.decimal t)
      | _ =>
        if v.integer?.isSome || (v.double?.map Double.isFinite).getD false then some (.decimal v.display)
        else none
    | _ => none

/-- A number read from text. An integer numeral counts as that integer; a decimal keeps other numerals
as they are written. -/
def readNumeric? (text : String) (k : Kind) : Option Value :=
  let t := trimBlanks text
  match readInt64 t with
  | some n => toNumeric? (.int64 (Int64.ofInt n)) k
  | none =>
    if k = .decimal then (Double.read t).map fun _ => .decimal t
    else (Double.read t).bind fun x => toNumeric? (.double x) k

def readBool? (text : String) : Option Bool :=
  let t := foldCase (trimBlanks text)
  if t = "true" ∨ t = "1" then some true
  else if t = "false" ∨ t = "0" then some false
  else none

def toText? : Value → Option String
  | .string t => some t
  | .uuid u => some u.hyphenated
  | .timestamp t => (Moment.ofMicros? t.toInt).map Moment.rfc3339
  | .bytes _ => none
  | v => some v.display

def readUuid? (text : String) : Option Uuid :=
  (Hex.decodeChars (text.toList.filter (· != '-'))).bind Uuid.ofBytes?

def convertAcross? (v : Value) (k : Kind) : Option Value :=
  match k with
  | .string => v.toText?.map .string
  | .bool =>
    match v with
    | .string t => (readBool? t).map .bool
    | _ => v.integer?.map fun n => .bool (n != 0)
  | .timestamp =>
    match v with
    | .int64 n => some (.timestamp n)
    | .string t => (Moment.readRfc3339 (trimBlanks t)).map fun n => .timestamp (Int64.ofInt n)
    | _ => none
  | .uuid =>
    match v with
    | .bytes bs => (Uuid.ofBytes? bs).map .uuid
    | .string t => (readUuid? t).map .uuid
    | _ => none
  | .bytes =>
    match v with
    | .uuid u => some (.bytes u.bytes)
    | _ => none
  | k =>
    if k.isNumeric then
      match v with
      | .bool b => toNumeric? (.int64 (if b then 1 else 0)) k
      | .string t => readNumeric? t k
      | _ => none
    else none

def toKind? (v : Value) (k : Kind) : Option Value :=
  if v.kind = k then some v
  else if k.isNumeric && v.kind.isNumeric then v.toNumeric? k
  else v.convertAcross? k

def toEnum? (v : Value) (e : EnumType) : Option Value :=
  match v with
  | .string t =>
    match e.number? t with
    | some n => toNumeric? (.int64 (Int64.ofInt n)) e.underlying
    | none => (readInt64 (trimBlanks t)).bind fun n => toNumeric? (.int64 (Int64.ofInt n)) e.underlying
  | _ => if v.kind.isNumeric then v.toNumeric? e.underlying else none

end Value

namespace MemberType

def convertValue? (v : Value) : MemberType → Option Value
  | .any => some v
  | .binary => if v.kind = .bytes then some v else none
  | .enum e => v.toEnum? e
  | .primitive k => v.toKind? k
  | .nullable inner => convertValue? v inner

def convert? (t : MemberType) (v : Value) : Option Value :=
  if v.isNull then some t.defaultValue else convertValue? v t.core

/-- Whether a column of a kind may fill a parameter of the type; a kind that is not known may. -/
def accepts (t : MemberType) : Option Kind → Bool
  | none => true
  | some k =>
    match t with
    | .any => true
    | .nullable inner => k == .null || inner.accepts (some k)
    | .primitive expected => expected == k
    | .enum e => k == e.underlying || k == .string
    | .binary => k == .bytes

end MemberType

end SqlMapping
