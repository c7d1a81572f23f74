import SqlMapping.Row.Cursor

/-!
# Shapes of results

The shape of a result is the list of its column names, with the kinds that are known. Plans depend on
the names alone, so those are what a plan remembers of the shape it was made for.
-/

namespace SqlMapping

structure RowShape where
  columns : List (String × Option Kind)
  deriving DecidableEq

namespace RowShape

def ofNames (names : List String) : RowShape := ⟨names.map fun n => (n, none)⟩

def columnsFrom {γ : Type} [RowCursor γ] (c : γ) : Nat → Nat → Except Error (List (String × Option Kind))
  | _, 0 => .ok []
  | ordinal, count + 1 =>
    match RowCursor.fieldName c ordinal with
    | .error e => .error e
    | .ok name =>
      match columnsFrom c (ordinal + 1) count with
      | .error e => .error e
      | .ok rest => .ok ((name, RowCursor.fieldKind c ordinal) :: rest)

def ofCursor {γ : Type} [RowCursor γ] (c : γ) : Except Error RowShape :=
  (columnsFrom c 0 (RowCursor.fieldCount c)).map RowShape.mk

def names (s : RowShape) : List String := s.columns.map Prod.fst

def size (s : RowShape) : Nat := s.columns.length

def name? (s : RowShape) (ordinal : Nat) : Option String := (s.columns[ordinal]?).map Prod.fst

def kind? (s : RowShape) (ordinal : Nat) : Option Kind := (s.columns[ordinal]?).bind Prod.snd

def signature (s : RowShape) : String :=
  let parameter (c : String × Option Kind) : String :=
    (match c.2 with
      | some k => k.typeName
      | none => "Object") ++ " " ++ c.1
  "(" ++ ", ".intercalate (s.columns.map parameter) ++ ")"

end RowShape

end SqlMapping
