import SqlMapping.Value.Text

/-!
# Typed storage

A place that holds values of one type takes a value only if it is of that type: integers of any width
that fit, doubles from any number, and otherwise exactly the kind.
-/

namespace SqlMapping

inductive ValueError where
  | unexpected (expected actual : Kind)
  | outOfRange (kind : Kind) (number : Int) (target : String)
  deriving DecidableEq

namespace ValueError

def kind : ValueError → String
  | .unexpected .. => "UnexpectedValue"
  | .outOfRange .. => "OutOfRange"

def message : ValueError → String
  | .unexpected expected actual => "expected " ++ expected.typeName ++ " value, got " ++ actual.typeName
  | .outOfRange kind number target =>
    kind.typeName ++ " value " ++ toString number ++ " is out of range for " ++ target

end ValueError

inductive Storage where
  | any
  | int8
  | int16
  | int32
  | int64
  | uint8
  | bool
  | double
  | string
  | bytes
  deriving DecidableEq

namespace Storage

def takeInteger (expected : Kind) (target : String) (least greatest : Int) (v : Value) :
    Except ValueError Int :=
  match v.integer? with
  | none => .error (.unexpected expected v.kind)
  | some n =>
    if least ≤ n ∧ n ≤ greatest then .ok n else .error (.outOfRange v.kind n target)

def take (s : Storage) (v : Value) : Except ValueError Value :=
  match s with
  | .any => .ok v
  | .int8 => (takeInteger .int8 "i8" (-128) 127 v).map fun n => .int8 (Int8.ofInt n)
  | .int16 => (takeInteger .int16 "i16" (-32768) 32767 v).map fun n => .int16 (Int16.ofInt n)
  | .int32 => (takeInteger .int32 "i32" (-2147483648) 2147483647 v).map fun n => .int32 (Int32.ofInt n)
  | .int64 => (takeInteger .int64 "i64" int64Min int64Max v).map fun n => .int64 (Int64.ofInt n)
  | .uint8 => (takeInteger .uint8 "u8" 0 255 v).map fun n => .uint8 (UInt8.ofNat n.toNat)
  | .bool =>
    match v.bool? with
    | some b => .ok (.bool b)
    | none => .error (.unexpected .bool v.kind)
  | .double =>
    match v.double? with
    | some x => .ok (.double x)
    | none => .error (.unexpected .double v.kind)
  | .string =>
    match v.string? with
    | some t => .ok (.string t)
    | none => .error (.unexpected .string v.kind)
  | .bytes =>
    match v.bytes? with
    | some bs => .ok (.bytes bs)
    | none => .error (.unexpected .bytes v.kind)

end Storage

end SqlMapping
