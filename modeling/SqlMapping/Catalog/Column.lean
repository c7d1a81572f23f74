import SqlMapping.Text.Ascii
import SqlMapping.Catalog.DbType

/-!
# Columns

A column has a name, a logical type with its sizes, its constraints, and the member of the mapped type
that it is bound to.
-/

namespace SqlMapping

inductive MemberKind where
  | property
  | field
  | constructorParameter
  deriving DecidableEq

structure MemberBinding where
  kind : MemberKind
  name : String
  deriving DecidableEq

inductive DefaultValue where
  | value (v : Value)
  /-- SQL text such as `current_timestamp`. -/
  | expression (sql : String)
  deriving DecidableEq

structure Column where
  name : String
  type : DbType
  length : Option Nat := none
  precision : Option Nat := none
  scale : Option Nat := none
  nullable : Bool := false
  unique : Bool := false
  default : Option DefaultValue := none
  check : Option String := none
  member : Option MemberBinding := none
  deriving DecidableEq

namespace Column

def isIdentity (c : Column) : Bool := c.type == .identity

def isNamed (c : Column) (name : String) : Bool := sameName c.name name

def memberName (c : Column) : String :=
  match c.member with
  | some m => m.name
  | none => c.name

end Column

end SqlMapping
