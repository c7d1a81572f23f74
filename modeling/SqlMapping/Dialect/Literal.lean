import SqlMapping.Calendar.Moment
import SqlMapping.Dialect.Basic
import SqlMapping.Value.Text

/-!
# Literals

The spelling of values inside SQL text. Numbers that are not finite and moments outside the calendar
have none.
-/

namespace SqlMapping.Dialect

variable (d : Dialect)

def booleanLiteral (b : Bool) : String := if b then d.trueLiteral else d.falseLiteral

def stringLiteral (s : String) : String :=
  let cs := if d.doubleBackslash then replaceChar '\\' ['\\', '\\'] s.toList else s.toList
  String.ofList ('\x27' :: (replaceChar '\x27' ['\x27', '\x27'] cs ++ ['\x27']))

def binaryLiteral (bs : List UInt8) : String := d.binaryOpen ++ Hex.encode bs ++ d.binaryClose

def momentLiteral (micros : Int) : Except Error String :=
  match Moment.ofMicros? micros with
  | some m => .ok ("'" ++ m.spaced ++ "'")
  | none => .error (.invalidArgument (.momentOutOfRange micros))

def finiteLiteral (finite : Bool) (text : String) : Except Error String :=
  if finite then .ok text else .error (.invalidArgument (.notFinite text))

def literal : Value → Except Error String
  | .null => .ok "null"
  | .bool b => .ok (d.booleanLiteral b)
  | .int8 n => .ok (toString n.toInt)
  | .int16 n => .ok (toString n.toInt)
  | .int32 n => .ok (toString n.toInt)
  | .int64 n => .ok (toString n.toInt)
  | .uint8 n => .ok (toString n.toNat)
  | .single x => finiteLiteral x.isFinite x.text
  | .double x => finiteLiteral x.isFinite x.text
  | .decimal t => .ok t
  | .string t => .ok (d.stringLiteral t)
  | .bytes bs => .ok (d.binaryLiteral bs)
  | .timestamp t => momentLiteral t.toInt
  | .uuid u => .ok (d.stringLiteral u.hyphenated)

end SqlMapping.Dialect
