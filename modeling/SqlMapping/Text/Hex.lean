/-!
# Hexadecimal text

Bytes are written as two small hexadecimal digits each. Reading takes digits of either case and
refuses an odd count.
-/

namespace SqlMapping.Hex

def digit (n : Nat) : Char :=
  if n < 10 then Char.ofNat (48 + n) else Char.ofNat (87 + n)

def digitValue? (c : Char) : Option Nat :=
  if '0' ≤ c ∧ c ≤ '9' then some (c.toNat - 48)
  else if 'a' ≤ c ∧ c ≤ 'f' then some (c.toNat - 87)
  else if 'A' ≤ c ∧ c ≤ 'F' then some (c.toNat - 55)
  else none

def encodeByte (b : UInt8) : List Char := [digit (b.toNat / 16), digit (b.toNat % 16)]

def encodeChars (bs : List UInt8) : List Char := bs.flatMap encodeByte

def decodeChars : List Char → Option (List UInt8)
  | [] => some []
  | [_] => none
  | a :: b :: rest =>
    match digitValue? a, digitValue? b with
    | some x, some y => (decodeChars rest).map (UInt8.ofNat (16 * x + y) :: ·)
    | _, _ => none

def encode (bs : List UInt8) : String := String.ofList (encodeChars bs)

def decode (s : String) : Option (List UInt8) := decodeChars s.toList

end SqlMapping.Hex
