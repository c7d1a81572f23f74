import SqlMapping.Text.Visible

/-!
# Displayed text

A text is displayed between double quotes. The quote, the backslash and the common controls have
two-character escapes, and every other character that is not shown as itself is written by its
code point.
-/

namespace SqlMapping

def lowerHex (n : Nat) : String := String.ofList (Nat.toDigits 16 n)

def displayChar (c : Char) : String :=
  match c with
  | '\x00' => "\\0"
  | '\t' => "\\t"
  | '\r' => "\\r"
  | '\n' => "\\n"
  | '\x22' => "\\\""
  | '\\' => "\\\\"
  | c => if isShown c then c.toString else "\\u\x7b" ++ lowerHex c.toNat ++ "\x7d"

def displayText (s : String) : String :=
  "\"" ++ String.join (s.toList.map displayChar) ++ "\""

end SqlMapping
