import SqlMapping.Json.Basic
import SqlMapping.Text.Numeral

/-!
# Reading JSON text

`Json.read` takes one value with blanks around it. Control characters in strings must be escaped, and
numerals have no leading zeros. Nesting is not limited here: what looks into the tree decides how deep
it goes.
-/

namespace SqlMapping.Json

def isSpace (c : Char) : Bool := c == ' ' || c == '\n' || c == '\t' || c == '\r'

def skipSpace (cs : List Char) : List Char := cs.dropWhile isSpace

/-! ## Strings -/

/-- A character of a string, or half of a surrogate pair. -/
inductive StringUnit where
  | char (c : Char)
  | surrogate (code : Nat)
  deriving DecidableEq

def hexNumber (cs : List Char) : Option Nat :=
  (cs.mapM Hex.digitValue?).map fun ds => ds.foldl (fun n d => 16 * n + d) 0

def unitOfCode (code : Nat) : StringUnit :=
  if 0xd800 ≤ code ∧ code ≤ 0xdfff then .surrogate code else .char (Char.ofNat code)

def escaped? : Char → Option Char
  | '\x22' => some '\x22'
  | '\\' => some '\\'
  | '/' => some '/'
  | 'b' => some '\x08'
  | 'f' => some '\x0c'
  | 'n' => some '\n'
  | 'r' => some '\r'
  | 't' => some '\t'
  | _ => none

def readUnits : List Char → Option (List StringUnit × List Char)
  | [] => none
  | '\x22' :: rest => some ([], rest)
  | '\\' :: 'u' :: a :: b :: c :: d :: rest => do
    let code ← hexNumber [a, b, c, d]
    let (units, rest) ← readUnits rest
    some (unitOfCode code :: units, rest)
  | '\\' :: e :: rest => do
    let c ← escaped? e
    let (units, rest) ← readUnits rest
    some (.char c :: units, rest)
  | c :: rest =>
    if c.toNat < 32 then none
    else do
      let (units, rest) ← readUnits rest
      some (.char c :: units, rest)

def joinUnits : List StringUnit → Option (List Char)
  | [] => some []
  | .char c :: units => (joinUnits units).map (c :: ·)
  | .surrogate high :: .surrogate low :: units =>
    if high < 0xdc00 ∧ 0xdc00 ≤ low then
      (joinUnits units).map (Char.ofNat (0x10000 + (high - 0xd800) * 0x400 + (low - 0xdc00)) :: ·)
    else none
  | .surrogate _ :: _ => none

def readString (cs : List Char) : Option (Option String × List Char) :=
  (readUnits cs).map fun (units, rest) => ((joinUnits units).map String.ofList, rest)

/-! ## Numerals -/

def takeRun (cs : List Char) : Option (List Char × List Char) :=
  let ds := cs.takeWhile Char.isDigit
  if ds.isEmpty then none else some (ds, cs.dropWhile Char.isDigit)

def takeWhole (cs : List Char) : Option (List Char × List Char) := do
  let (ds, rest) ← takeRun cs
  if 1 < ds.length ∧ ds.head? = some '0' then none else some (ds, rest)

def takeFraction : List Char → Option (List Char × List Char)
  | '.' :: cs => (takeRun cs).map fun (ds, rest) => ('.' :: ds, rest)
  | cs => some ([], cs)

def takeExponent : List Char → Option (List Char × List Char)
  | e :: cs =>
    if e = 'e' ∨ e = 'E' then
      match cs with
      | s :: more =>
        if s = '+' ∨ s = '-' then (takeRun more).map fun (ds, rest) => (e :: s :: ds, rest)
        else (takeRun cs).map fun (ds, rest) => (e :: ds, rest)
      | [] => none
    else some ([], e :: cs)
  | [] => some ([], [])

def takeNumeral (cs : List Char) : Option (List Char × List Char) := do
  let (sign, cs) := match cs with
    | '-' :: rest => (['-'], rest)
    | _ => ([], cs)
  let (whole, cs) ← takeWhole cs
  let (fraction, cs) ← takeFraction cs
  let (exponent, cs) ← takeExponent cs
  some (sign ++ whole ++ fraction ++ exponent, cs)

/-! ## Values -/

mutual

def readValue (depth : Nat) (cs : List Char) : Option (Json × List Char) :=
  match depth with
  | 0 => none
  | depth + 1 =>
    match skipSpace cs with
    | 'n' :: 'u' :: 'l' :: 'l' :: rest => some (.null, rest)
    | 't' :: 'r' :: 'u' :: 'e' :: rest => some (.bool true, rest)
    | 'f' :: 'a' :: 'l' :: 's' :: 'e' :: rest => some (.bool false, rest)
    | '\x22' :: rest => (readString rest).map fun (text, rest) => (.string text, rest)
    | '[' :: rest =>
      match skipSpace rest with
      | ']' :: rest => some (.array [], rest)
      | rest => (readItems depth rest).map fun (items, rest) => (.array items, rest)
    | '\x7b' :: rest =>
      match skipSpace rest with
      | '\x7d' :: rest => some (.object [], rest)
      | rest => (readFields depth rest).map fun (fields, rest) => (.object fields, rest)
    | rest => (takeNumeral rest).map fun (numeral, rest) => (.number (String.ofList numeral), rest)

def readItems (depth : Nat) (cs : List Char) : Option (List Json × List Char) :=
  match depth with
  | 0 => none
  | depth + 1 => do
    let (item, rest) ← readValue depth cs
    match skipSpace rest with
    | ',' :: rest => do
      let (items, rest) ← readItems depth rest
      some (item :: items, rest)
    | ']' :: rest => some ([item], rest)
    | _ => none

def readFields (depth : Nat) (cs : List Char) : Option (List (Option String × Json) × List Char) :=
  match depth with
  | 0 => none
  | depth + 1 =>
    match skipSpace cs with
    | '\x22' :: rest => do
      let (key, rest) ← readString rest
      match skipSpace rest with
      | ':' :: rest => do
        let (item, rest) ← readValue depth rest
        match skipSpace rest with
        | ',' :: rest => do
          let (fields, rest) ← readFields depth rest
          some ((key, item) :: fields, rest)
        | '\x7d' :: rest => some ([(key, item)], rest)
        | _ => none
      | _ => none
    | _ => none

end

/-- The tree of a whole text. Each step of reading consumes a character, so the length of the text is
depth enough. -/
def read (text : String) : Option Json := do
  let cs := text.toList
  let (j, rest) ← readValue (2 * cs.length + 2) cs
  if (skipSpace rest).isEmpty then some j else none

end SqlMapping.Json
