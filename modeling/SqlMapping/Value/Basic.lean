import SqlMapping.Number.Decimal

/-!
# Values

A value is what a parameter carries or a row holds: null, or a payload of one of thirteen kinds.
Decimals are kept as text and timestamps as microseconds since the start of 1970.
-/

namespace SqlMapping

inductive Kind where
  | null
  | bool
  | int8
  | int16
  | int32
  | int64
  | uint8
  | single
  | double
  | decimal
  | string
  | bytes
  | timestamp
  | uuid
  deriving DecidableEq

structure Uuid where
  bytes : List UInt8
  size : bytes.length = 16
  deriving DecidableEq

inductive Value where
  | null
  | bool (b : Bool)
  | int8 (n : Int8)
  | int16 (n : Int16)
  | int32 (n : Int32)
  | int64 (n : Int64)
  | uint8 (n : UInt8)
  | single (x : Single)
  | double (x : Double)
  | decimal (text : String)
  | string (text : String)
  | bytes (bs : List UInt8)
  | timestamp (micros : Int64)
  | uuid (u : Uuid)
  deriving DecidableEq

namespace Kind

def isIntegral : Kind → Bool
  | .int8 | .int16 | .int32 | .int64 | .uint8 => true
  | _ => false

def isNumeric : Kind → Bool
  | .single | .double | .decimal => true
  | k => k.isIntegral

def typeName : Kind → String
  | .null => "Null"
  | .bool => "Boolean"
  | .int8 => "SByte"
  | .int16 => "Int16"
  | .int32 => "Int32"
  | .int64 => "Int64"
  | .uint8 => "Byte"
  | .single => "Single"
  | .double => "Double"
  | .decimal => "Decimal"
  | .string => "String"
  | .bytes => "Byte[]"
  | .timestamp => "DateTime"
  | .uuid => "Guid"

def tag : Kind → String
  | .null => "Null"
  | .bool => "Bool"
  | .int8 => "Int8"
  | .int16 => "Int16"
  | .int32 => "Int32"
  | .int64 => "Int64"
  | .uint8 => "UInt8"
  | .single => "Float32"
  | .double => "Float64"
  | .decimal => "Decimal"
  | .string => "String"
  | .bytes => "Bytes"
  | .timestamp => "Timestamp"
  | .uuid => "Uuid"

def all : List Kind :=
  [.null, .bool, .int8, .int16, .int32, .int64, .uint8, .single, .double, .decimal, .string, .bytes,
    .timestamp, .uuid]

def ofTag? (s : String) : Option Kind := all.find? fun k => k.tag == s

end Kind

namespace Value

def kind : Value → Kind
  | .null => .null
  | .bool _ => .bool
  | .int8 _ => .int8
  | .int16 _ => .int16
  | .int32 _ => .int32
  | .int64 _ => .int64
  | .uint8 _ => .uint8
  | .single _ => .single
  | .double _ => .double
  | .decimal _ => .decimal
  | .string _ => .string
  | .bytes _ => .bytes
  | .timestamp _ => .timestamp
  | .uuid _ => .uuid

def isNull : Value → Bool
  | .null => true
  | _ => false

/-- Equality of values. Floating-point payloads are compared as numbers. -/
def equals : Value → Value → Bool
  | .single x, .single y => x.equals y
  | .double x, .double y => x.equals y
  | v, w => v == w

def bool? : Value → Option Bool
  | .bool b => some b
  | _ => none

def integer? : Value → Option Int
  | .int8 n => some n.toInt
  | .int16 n => some n.toInt
  | .int32 n => some n.toInt
  | .int64 n => some n.toInt
  | .uint8 n => some n.toNat
  | _ => none

def double? : Value → Option Double
  | .single x => some x.toDouble
  | .double x => some x
  | .decimal t => Double.read t
  | v => v.integer?.map Double.ofInt

def string? : Value → Option String
  | .string t => some t
  | _ => none

def bytes? : Value → Option (List UInt8)
  | .bytes bs => some bs
  | _ => none

def timestamp? : Value → Option Int64
  | .timestamp t => some t
  | _ => none

def uuid? : Value → Option Uuid
  | .uuid u => some u
  | _ => none

theorem isNull_iff (v : Value) : v.isNull = true ↔ v = .null := by cases v <;> simp [isNull]

theorem kind_eq_null_iff (v : Value) : v.kind = .null ↔ v = .null := by cases v <;> simp [kind]

end Value

end SqlMapping
