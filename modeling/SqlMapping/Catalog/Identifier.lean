import SqlMapping.Text.Replace

/-!
# Identifiers

A name may be written between double quotes, brackets or backticks, a closing quote inside being
doubled. `stripQuotes` reads such a name; an identifier keeps the name without its quotes and remembers
whether it had any.
-/

namespace SqlMapping

def quotePairs : List (Char × Char) := [('\x22', '\x22'), ('[', ']'), ('\x60', '\x60')]

def splitEnds : List Char → Option (Char × List Char × Char)
  | [] => none
  | first :: rest =>
    match rest.getLast? with
    | none => none
    | some last => some (first, rest.dropLast, last)

def stripQuotes (raw : String) : Option String :=
  match splitEnds raw.toList with
  | none => none
  | some (first, inner, last) =>
    (quotePairs.find? fun p => p.1 = first ∧ p.2 = last).map fun p =>
      String.ofList (replacePair p.2 p.2 [p.2] inner)

structure Identifier where
  /-- The name without quotes. -/
  name : String
  /-- Whether the name was written quoted. -/
  quoted : Bool
  deriving DecidableEq

namespace Identifier

def parse (raw : String) : Identifier :=
  match stripQuotes raw with
  | some name => ⟨name, true⟩
  | none => ⟨raw, false⟩

def plain (name : String) : Identifier := ⟨name, false⟩

end Identifier

end SqlMapping
