import SqlMapping.Catalog.DbType
import SqlMapping.Json.Decode
import SqlMapping.Value.Text

/-!
# Values in JSON

A value is a choice named for its kind. Bytes are arrays of numbers; floating-point numbers that are not
finite become null, which is not read back.
-/

namespace SqlMapping

def Json.ofNumeral? : Option String → Json
  | some numeral => .number numeral
  | none => .null

def Json.ofBytes (bs : List UInt8) : Json := .array (bs.map fun b => Json.ofInt b.toNat)

namespace Kind

def toJson (k : Kind) : Json := Json.ofString k.tag

def ofJson? (room : Nat) (j : Json) : Option Kind := j.oneOf? room ofTag?

end Kind

namespace DbType

def toJson (t : DbType) : Json := Json.ofString t.name

def ofJson? (room : Nat) (j : Json) : Option DbType := j.oneOf? room ofName?

end DbType

namespace Value

def content : Value → Json
  | .null => .null
  | .bool b => .bool b
  | .int8 n => Json.ofInt n.toInt
  | .int16 n => Json.ofInt n.toInt
  | .int32 n => Json.ofInt n.toInt
  | .int64 n => Json.ofInt n.toInt
  | .uint8 n => Json.ofInt n.toNat
  | .single x => Json.ofNumeral? x.exchanged?
  | .double x => Json.ofNumeral? x.exchanged?
  | .decimal t => Json.ofString t
  | .string t => Json.ofString t
  | .bytes bs => Json.ofBytes bs
  | .timestamp t => Json.ofInt t.toInt
  | .uuid u => Json.ofBytes u.bytes

def toJson (v : Value) : Json :=
  match v with
  | .null => Json.ofString Kind.null.tag
  | _ => Json.ofFields [(v.kind.tag, v.content)]

def ofContent? (room : Nat) (k : Kind) (j : Json) : Option Value :=
  match k with
  | .null =>
    match j with
    | .null => some .null
    | _ => none
  | .bool => j.bool?.map .bool
  | .int8 => (j.integer? (-128) 127).map fun n => .int8 (Int8.ofInt n)
  | .int16 => (j.integer? (-32768) 32767).map fun n => .int16 (Int16.ofInt n)
  | .int32 => (j.integer? (-2147483648) 2147483647).map fun n => .int32 (Int32.ofInt n)
  | .int64 => (j.integer? int64Min int64Max).map fun n => .int64 (Int64.ofInt n)
  | .uint8 => (j.integer? 0 255).map fun n => .uint8 (UInt8.ofNat n.toNat)
  | .single => j.single?.map .single
  | .double => j.double?.map .double
  | .decimal => j.text?.map .decimal
  | .string => j.text?.map .string
  | .bytes => (j.bytes? room).map .bytes
  | .timestamp => (j.integer? int64Min int64Max).map fun n => .timestamp (Int64.ofInt n)
  | .uuid => ((j.bytes? room).bind Uuid.ofBytes?).map .uuid

def ofJson? (room : Nat) (j : Json) : Option Value :=
  match j with
  | .string text => if text = some Kind.null.tag then some .null else none
  | _ => do
    let (tag, content) ← j.choice? room
    let k ← Kind.ofTag? tag
    ofContent? (room - 1) k content

end Value

end SqlMapping
