import SqlMapping.Value.Basic

/-!
# Logical column types

Columns are declared with logical types, which dialects turn into type names of their databases. The
type `identity` marks a generated integer key.
-/

namespace SqlMapping

inductive DbType where
  | ansiString
  | ansiStringFixedLength
  | string
  | stringFixedLength
  | binary
  | boolean
  | byte
  | int16
  | int32
  | int64
  | single
  | double
  | decimal
  | currency
  | date
  | time
  | dateTime
  | dateTimeOffset
  | guid
  | xml
  | identity
  deriving DecidableEq

namespace DbType

def name : DbType → String
  | .ansiString => "AnsiString"
  | .ansiStringFixedLength => "AnsiStringFixedLength"
  | .string => "String"
  | .stringFixedLength => "StringFixedLength"
  | .binary => "Binary"
  | .boolean => "Boolean"
  | .byte => "Byte"
  | .int16 => "Int16"
  | .int32 => "Int32"
  | .int64 => "Int64"
  | .single => "Single"
  | .double => "Double"
  | .decimal => "Decimal"
  | .currency => "Currency"
  | .date => "Date"
  | .time => "Time"
  | .dateTime => "DateTime"
  | .dateTimeOffset => "DateTimeOffset"
  | .guid => "Guid"
  | .xml => "Xml"
  | .identity => "Identity"

def all : List DbType :=
  [.ansiString, .ansiStringFixedLength, .string, .stringFixedLength, .binary, .boolean, .byte, .int16,
    .int32, .int64, .single, .double, .decimal, .currency, .date, .time, .dateTime, .dateTimeOffset,
    .guid, .xml, .identity]

def ofName? (s : String) : Option DbType := all.find? fun t => t.name == s

def isNumeric : DbType → Bool
  | .byte | .int16 | .int32 | .int64 | .single | .double | .decimal | .currency | .identity => true
  | _ => false

def isText : DbType → Bool
  | .ansiString | .ansiStringFixedLength | .string | .stringFixedLength | .xml => true
  | _ => false

def isTemporal : DbType → Bool
  | .date | .time | .dateTime | .dateTimeOffset => true
  | _ => false

def kind : DbType → Kind
  | .ansiString | .ansiStringFixedLength | .string | .stringFixedLength | .xml => .string
  | .binary => .bytes
  | .boolean => .bool
  | .byte => .uint8
  | .int16 => .int16
  | .int32 | .identity => .int32
  | .int64 => .int64
  | .single => .single
  | .double => .double
  | .decimal | .currency => .decimal
  | .date | .time | .dateTime | .dateTimeOffset => .timestamp
  | .guid => .uuid

end DbType

end SqlMapping
