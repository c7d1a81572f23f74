import SqlMapping.Json.Number

/-!
# Decoding JSON trees

A choice is an object with one field, named for the alternative; an alternative without content may also
be its name alone. A record is an object with known fields, or the array of all its fields. What is
looked into may nest `nestingLimit` deep: `room` counts the levels that are left.
-/

namespace SqlMapping.Json

def nestingLimit : Nat := 127

def bool? : Json → Option Bool
  | .bool b => some b
  | _ => none

def text? : Json → Option String
  | .string text => text
  | _ => none

def char? (j : Json) : Option Char :=
  match j.text?.map String.toList with
  | some [c] => some c
  | _ => none

def number? : Json → Option Number
  | .number numeral => Number.read numeral
  | _ => none

def integer? (least greatest : Int) (j : Json) : Option Int :=
  match j.number? with
  | some (.natural n) => if least ≤ n ∧ n ≤ greatest then some n else none
  | some (.negative n) => if least ≤ n ∧ n ≤ greatest then some n else none
  | _ => none

def double? (j : Json) : Option Double :=
  match j.number? with
  | some (.natural n) => some (Double.ofInt n)
  | some (.negative n) => some (Double.ofInt n)
  | some (.real x) => some x
  | none => none

def single? (j : Json) : Option Single :=
  match j.number? with
  | some (.natural n) => some (Single.ofInt n)
  | some (.negative n) => some (Single.ofInt n)
  | some (.real x) => some x.toSingle
  | none => none

def items? (room : Nat) : Json → Option (List Json)
  | .array items => if 0 < room then some items else none
  | _ => none

def bytes? (room : Nat) (j : Json) : Option (List UInt8) := do
  let items ← j.items? room
  items.mapM fun item => (item.integer? 0 255).map fun n => UInt8.ofNat n.toNat

def optional? {α : Type} (f : Json → Option α) : Json → Option (Option α)
  | .null => some none
  | j => (f j).map some

def choice? (room : Nat) : Json → Option (String × Json)
  | .object [(some tag, content)] => if 0 < room then some (tag, content) else none
  | _ => none

def tag? (room : Nat) (j : Json) : Option String :=
  match j with
  | .string text => text
  | _ =>
    match j.choice? room with
    | some (tag, .null) => some tag
    | _ => none

def oneOf? {α : Type} (room : Nat) (ofTag? : String → Option α) (j : Json) : Option α :=
  (j.tag? room).bind ofTag?

/-! ## Records -/

def uniqueField? (fields : List (String × Json)) (name : String) : Option (Option Json) :=
  match fields.filter fun f => f.1 == name with
  | [] => some none
  | [f] => some (some f.2)
  | _ => none

def readableFields : List (Option String × Json) → Option (List (String × Json))
  | [] => some []
  | (some key, j) :: fields => (readableFields fields).map ((key, j) :: ·)
  | (none, _) :: _ => none

/-- The fields of a record by their names in order, each present or not. Unknown fields are skipped. An
array gives all fields, or as many as there are when `partialArray`. -/
def record? (names : List String) (partialArray : Bool) : Json → Option (List (Option Json))
  | .object fields => do
    let fields ← readableFields fields
    names.mapM (uniqueField? fields)
  | .array items =>
    if items.length = names.length ∨ (partialArray ∧ items.length < names.length) then
      some (items.map some ++ List.replicate (names.length - items.length) none)
    else none
  | _ => none

def fields? (names : List String) (j : Json) : Option (List (Option Json)) := j.record? names false

def required? {α : Type} (f : Json → Option α) (field : Option Json) : Option α := field.bind f

def nullable? {α : Type} (f : Json → Option α) : Option Json → Option (Option α)
  | none => some none
  | some j => optional? f j

end SqlMapping.Json
