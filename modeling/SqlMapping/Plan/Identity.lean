import SqlMapping.Catalog.Registry

/-!
# Query identities

What makes two queries share a plan: the text, how the text is taken, the connection, the types on both
sides, and which result of several is meant.
-/

namespace SqlMapping

inductive CommandKind where
  | text
  | storedProcedure
  | tableDirect
  deriving DecidableEq

structure QueryIdentity where
  sql : String
  command : CommandKind := .text
  connection : String
  target : TypeKey
  parameter : Option TypeKey := none
  gridIndex : Nat := 0
  deriving DecidableEq

end SqlMapping
