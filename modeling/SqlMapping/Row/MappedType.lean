import SqlMapping.Catalog.Column
import SqlMapping.Text.Blank
import SqlMapping.Value.Text
import SqlMapping.Error

/-!
# Mapped types

The description of a type that rows are made into: its members, which can be assigned, and its
constructors. A mapping adds how instances are made, changed and read.
-/

namespace SqlMapping

structure EnumType where
  name : String
  underlying : Kind
  variants : List (String × Int) := []
  deriving DecidableEq

inductive MemberType where
  | primitive (kind : Kind)
  | enum (type : EnumType)
  | nullable (inner : MemberType)
  /-- Bytes that are handed on unread. -/
  | binary
  | any
  deriving DecidableEq

inductive Visibility where
  | own
  | package
  | everyone
  deriving DecidableEq

structure Member where
  name : String
  type : MemberType
  kind : MemberKind
  deriving DecidableEq

structure Parameter where
  name : String
  type : MemberType
  deriving DecidableEq

structure Constructor where
  visibility : Visibility
  parameters : List Parameter
  deriving DecidableEq

structure TypeInfo where
  name : String
  members : List Member := []
  constructors : List Constructor := []
  deriving DecidableEq

namespace EnumType

def number? (t : EnumType) (name : String) : Option Int :=
  (t.variants.find? fun v => sameName v.1 (trimBlanks name)).map Prod.snd

end EnumType

def Kind.zero : Kind → Value
  | .bool => .bool false
  | .int8 => .int8 0
  | .int16 => .int16 0
  | .int32 => .int32 0
  | .int64 => .int64 0
  | .uint8 => .uint8 0
  | .single => .single ⟨0⟩
  | .double => .double ⟨0⟩
  | .decimal => .decimal "0"
  | .timestamp => .timestamp 0
  | .uuid => .uuid Uuid.zero
  | .string | .bytes | .null => .null

namespace MemberType

def core : MemberType → MemberType
  | .nullable inner => inner.core
  | t => t

def acceptsNull : MemberType → Bool
  | .nullable _ | .binary | .any => true
  | .primitive k => k == .string || k == .bytes || k == .null
  | .enum _ => false

def defaultValue (t : MemberType) : Value :=
  if t.acceptsNull then .null
  else match t with
    | .primitive k => k.zero
    | .enum e => e.underlying.zero
    | _ => .null

def display : MemberType → String
  | .primitive k => k.typeName
  | .enum e => e.name
  | .nullable inner => inner.display ++ "?"
  | .binary => "Binary"
  | .any => "Object"

end MemberType

namespace Visibility

def rank : Visibility → Nat
  | .own => 0
  | .package => 1
  | .everyone => 2

end Visibility

namespace Constructor

def isParameterless (c : Constructor) : Bool := c.parameters.isEmpty

def signature (c : Constructor) : String :=
  "(" ++ ", ".intercalate (c.parameters.map fun p => p.type.display ++ " " ++ p.name) ++ ")"

end Constructor

namespace TypeInfo

def parameterless? (t : TypeInfo) : Option Nat := t.constructors.findIdx? Constructor.isParameterless

/-- Index of a member by its exact name, or else, if allowed, by a name of another case. -/
def memberIndex? (t : TypeInfo) (name : String) (ignoreCase : Bool) : Option Nat :=
  match t.members.findIdx? fun m => m.name == name with
  | some i => some i
  | none => if ignoreCase then t.members.findIdx? fun m => sameName m.name name else none

end TypeInfo

/-- How the instances of a described type are handled. Constructors and members are given by their
index in the description. -/
structure Mapping (α : Type) where
  info : TypeInfo
  construct : Nat → List Value → Except Error α
  assign : α → Nat → Value → Except Error α
  memberValue : α → Nat → Except Error Value

end SqlMapping
