import SqlMapping.Data.Keyed
import SqlMapping.Row.Materializer

/-!
# Rows without a declared type

A dynamic row pairs the column names with the values of a row, nulls included.
-/

namespace SqlMapping

structure DynamicRow where
  names : List String
  values : List Value
  deriving DecidableEq

namespace DynamicRow

def get? (r : DynamicRow) (name : String) : Option Value :=
  (r.names.findIdx? fun n => sameName n name).bind fun i => r.values[i]?

def contains (r : DynamicRow) (name : String) : Bool := r.names.any fun n => sameName n name

def pairs (r : DynamicRow) : List (String × Value) := r.names.zip r.values

def size (r : DynamicRow) : Nat := r.values.length

/-- Values under exact names; of columns with one name, the last counts. -/
def toMap (r : DynamicRow) : Keyed String Value :=
  r.pairs.foldl (fun m p => Keyed.insert m p.1 p.2) []

end DynamicRow

structure DynamicMaterializer where
  names : List String
  deriving DecidableEq

namespace DynamicMaterializer

def compile (shape : RowShape) (table : Option Table) : DynamicMaterializer := ⟨shape.resolvedNames table⟩

def valuesFrom (row : RowReader) : Nat → Nat → Except Error (List Value)
  | _, 0 => .ok []
  | ordinal, count + 1 =>
    match row ordinal with
    | .error e => .error e
    | .ok v =>
      match valuesFrom row (ordinal + 1) count with
      | .error e => .error e
      | .ok vs => .ok (v :: vs)

def run (m : DynamicMaterializer) (row : RowReader) : Except Error DynamicRow :=
  (valuesFrom row 0 m.names.length).map fun values => ⟨m.names, values⟩

end DynamicMaterializer

end SqlMapping
