import SqlMapping.Text.Hex

/-!
# JSON trees and their text

A number keeps its numeral as written. A string is missing when its escapes name half of a surrogate
pair: such a string is well formed but denotes no text. `write` gives the compact text of a tree.
-/

namespace SqlMapping

inductive Json where
  | null
  | bool (b : Bool)
  | number (numeral : String)
  | string (text : Option String)
  | array (items : List Json)
  | object (fields : List (Option String × Json))
  deriving Inhabited

namespace Json

def ofFields (fields : List (String × Json)) : Json := .object (fields.map fun f => (some f.1, f.2))

def ofString (s : String) : Json := .string (some s)

def ofInt (n : Int) : Json := .number (toString n)

def ofOption {α : Type} (f : α → Json) : Option α → Json
  | some a => f a
  | none => .null

/-! ## Writing -/

def writeChar (c : Char) : List Char :=
  match c with
  | '\x22' => ['\\', '\x22']
  | '\\' => ['\\', '\\']
  | '\x08' => ['\\', 'b']
  | '\x0c' => ['\\', 'f']
  | '\n' => ['\\', 'n']
  | '\r' => ['\\', 'r']
  | '\t' => ['\\', 't']
  | c =>
    if c.toNat < 32 then ['\\', 'u', '0', '0', Hex.digit (c.toNat / 16), Hex.digit (c.toNat % 16)] else [c]

def writeString (s : String) : List Char := '\x22' :: (s.toList.flatMap writeChar ++ ['\x22'])

mutual

def writeChars : Json → List Char
  | .null => "null".toList
  | .bool b => (if b then "true" else "false").toList
  | .number numeral => numeral.toList
  | .string text => writeString (text.getD "")
  | .array items => '[' :: (writeItems items ++ [']'])
  | .object fields => '\x7b' :: (writeFields fields ++ ['\x7d'])

def writeItems : List Json → List Char
  | [] => []
  | [j] => writeChars j
  | j :: js => writeChars j ++ ',' :: writeItems js

def writeFields : List (Option String × Json) → List Char
  | [] => []
  | [(key, j)] => writeString (key.getD "") ++ ':' :: writeChars j
  | (key, j) :: fields => writeString (key.getD "") ++ ':' :: (writeChars j ++ ',' :: writeFields fields)

end

def write (j : Json) : String := String.ofList j.writeChars

end Json

end SqlMapping
