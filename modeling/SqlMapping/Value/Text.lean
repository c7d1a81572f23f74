import SqlMapping.Text.Hex
import SqlMapping.Text.Quoted
import SqlMapping.Number.Written
import SqlMapping.Value.Basic

/-!
# Displayed values

The text of a value for readers: numbers plain, strings quoted, bytes by their count.
-/

namespace SqlMapping

namespace Uuid

def hex (u : Uuid) : String := Hex.encode u.bytes

def hyphenated (u : Uuid) : String :=
  let hs := Hex.encodeChars u.bytes
  let group (start count : Nat) : String := String.ofList ((hs.drop start).take count)
  "-".intercalate [group 0 8, group 8 4, group 12 4, group 16 4, group 20 12]

def ofBytes? (bs : List UInt8) : Option Uuid :=
  if h : bs.length = 16 then some ⟨bs, h⟩ else none

def zero : Uuid := ⟨List.replicate 16 0, by simp⟩

end Uuid

def boolText (b : Bool) : String := if b then "true" else "false"

namespace Value

def display : Value → String
  | .null => "null"
  | .bool b => boolText b
  | .int8 n => toString n.toInt
  | .int16 n => toString n.toInt
  | .int32 n => toString n.toInt
  | .int64 n => toString n.toInt
  | .uint8 n => toString n.toNat
  | .single x => x.text
  | .double x => x.text
  | .decimal t => t
  | .string t => displayText t
  | .bytes bs => "<" ++ toString bs.length ++ " bytes>"
  | .timestamp t => "@" ++ toString t.toInt ++ "us"
  | .uuid u => u.hex

end Value

end SqlMapping
