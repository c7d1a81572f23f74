import SqlMapping.Catalog.Table
import SqlMapping.Data.Keyed

/-!
# Registered tables

Tables are registered under their names, in any case, and for the types they are mapped to.
-/

namespace SqlMapping

/-- The identity of a type that rows are made into or parameters are taken from. -/
inductive TypeKey where
  | mapped (index : Nat)
  /-- Rows without a declared type. -/
  | dynamic
  deriving DecidableEq

structure Registry where
  byName : Keyed String Table := []
  byType : Keyed TypeKey Table := []

namespace Registry

def register (r : Registry) (t : Table) : Registry :=
  { r with byName := r.byName.insert (foldCase t.name.name) t }

def registerFor (r : Registry) (type : TypeKey) (t : Table) : Registry :=
  { r.register t with byType := r.byType.insert type t }

def table? (r : Registry) (name : String) : Option Table := r.byName.find? (foldCase name)

def tableFor? (r : Registry) (type : TypeKey) : Option Table := r.byType.find? type

def size (r : Registry) : Nat := r.byName.length

end Registry

end SqlMapping
