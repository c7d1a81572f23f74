import SqlMapping.Catalog.Column
import SqlMapping.Catalog.Identifier
import SqlMapping.Error

/-!
# Tables

A table lists its columns, keys and indexes. `Table.build` accepts a table when no two columns share a
name, at most one is an identity, and every key and index names columns that exist.
-/

namespace SqlMapping

structure Key where
  name : String
  columns : List String
  deriving DecidableEq

structure Index where
  name : String
  columns : List String
  unique : Bool := false
  deriving DecidableEq

structure Table where
  name : Identifier
  schema : Option Identifier := none
  catalog : Option Identifier := none
  columns : List Column := []
  primaryKey : Option Key := none
  uniqueKeys : List Key := []
  indexes : List Index := []
  deriving DecidableEq

namespace Key

def contains (k : Key) (column : String) : Bool := k.columns.any fun c => sameName c column

end Key

namespace Table

def column? (t : Table) (name : String) : Option Column := t.columns.find? fun c => c.isNamed name

def identityColumn? (t : Table) : Option Column := t.columns.find? Column.isIdentity

def isKeyColumn (t : Table) (name : String) : Bool :=
  match t.primaryKey with
  | some key => key.contains name
  | none => false

def insertColumns (t : Table) : List Column := t.columns.filter fun c => !c.isIdentity

def updateColumns (t : Table) : List Column :=
  t.columns.filter fun c => !c.isIdentity && !t.isKeyColumn c.name

def keyColumns (t : Table) : List Column :=
  match t.primaryKey with
  | some key => key.columns.filterMap t.column?
  | none => []

/-! ## Validation -/

def firstRepeated (seen : List String) : List Column → Option Column
  | [] => none
  | c :: cs =>
    if seen.contains (foldCase c.name) then some c else firstRepeated (foldCase c.name :: seen) cs

def references (t : Table) : List (List String) :=
  t.primaryKey.toList.map Key.columns ++ t.uniqueKeys.map Key.columns ++ t.indexes.map Index.columns

def checkReference (t : Table) (columns : List String) : Except Error Unit :=
  if columns.isEmpty then .error (.invalidArgument (.keyWithoutColumns t.name.name))
  else match columns.find? fun name => (t.column? name).isNone with
    | some missing => .error (.unknownColumn t.name.name missing)
    | none => .ok ()

def checkReferences (t : Table) : List (List String) → Except Error Unit
  | [] => .ok ()
  | columns :: rest =>
    match t.checkReference columns with
    | .error e => .error e
    | .ok () => t.checkReferences rest

def build (t : Table) : Except Error Table :=
  match firstRepeated [] t.columns with
  | some c => .error (.duplicateColumn t.name.name c.name)
  | none =>
    if 1 < (t.columns.filter Column.isIdentity).length then .error (.multipleIdentityColumns t.name.name)
    else match t.checkReferences t.references with
      | .error e => .error e
      | .ok () => .ok t

end Table

end SqlMapping
