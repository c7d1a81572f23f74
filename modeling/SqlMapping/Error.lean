import SqlMapping.Catalog.DbType
import SqlMapping.Value.Storage

/-!
# Errors

Each failure names its cause, and `Error.message` words it.
-/

namespace SqlMapping

/-- No constructor or member of a type fits the columns of a result. -/
structure MappingError where
  typeName : String
  /-- The signature that the columns propose. -/
  proposed : String
  /-- Signatures of the constructors tried. -/
  attempted : List String
  detail : Option String
  deriving DecidableEq

namespace MappingError

def message (e : MappingError) : String :=
  "a parameterless constructor or one matching signature " ++ e.proposed ++ " is required for " ++ e.typeName
    ++ " materialization"
    ++ (if e.attempted.isEmpty then "" else "; attempted: " ++ ", ".intercalate e.attempted)
    ++ (match e.detail with
      | none => ""
      | some d => " (" ++ d ++ ")")

end MappingError

structure ConversionError where
  typeName : String
  member : String
  column : String
  kind : Kind
  target : String
  deriving DecidableEq

namespace ConversionError

def message (e : ConversionError) : String :=
  "cannot convert " ++ e.kind.typeName ++ " value of column '" ++ e.column ++ "' to " ++ e.target
    ++ " for member " ++ e.typeName ++ "." ++ e.member

end ConversionError

inductive ArgumentFault where
  | notFinite (number : String)
  | momentOutOfRange (micros : Int)
  | takesNoArguments (name : String) (count : Nat)
  | placeholderTooLarge (digits : String)
  | missingArgument (template : String) (index count : Nat)
  | keyWithoutColumns (table : String)
  | nothingToUpdate (table : String)
  | zeroInterval
  | unreadableConfig
  | unreadableMember (member : Nat)
  | other (text : String)
  deriving DecidableEq

namespace ArgumentFault

def message : ArgumentFault → String
  | .notFinite number => number ++ " has no SQL literal form"
  | .momentOutOfRange micros => "timestamp " ++ toString micros ++ "us is out of range"
  | .takesNoArguments name count => "function '" ++ name ++ "' takes no arguments, got " ++ toString count
  | .placeholderTooLarge digits => "bad placeholder ?" ++ digits
  | .missingArgument template index count =>
    "template '" ++ template ++ "' needs argument ?" ++ toString index ++ ", got " ++ toString count
  | .keyWithoutColumns table => "key on table '" ++ table ++ "' has no columns"
  | .nothingToUpdate table => "table '" ++ table ++ "' has no updatable columns"
  | .zeroInterval => "collect_every must be greater than zero"
  | .unreadableConfig => "invalid mapper config"
  | .unreadableMember member => "member " ++ toString member ++ " is unreadable"
  | .other text => text

end ArgumentFault

inductive CursorFault where
  | noCurrentRow
  | ordinalOutOfRange (ordinal : Nat)
  | failed (text : String)
  deriving DecidableEq

namespace CursorFault

def message : CursorFault → String
  | .noCurrentRow => "no current row"
  | .ordinalOutOfRange ordinal => "ordinal " ++ toString ordinal ++ " out of range"
  | .failed text => text

end CursorFault

inductive Error where
  | mapping (e : MappingError)
  | unsupportedFunction (name dialect : String)
  | conversion (e : ConversionError)
  | duplicateParameter (name : String)
  | unregisteredType (type : DbType) (dialect : String)
  | duplicateColumn (table column : String)
  | multipleIdentityColumns (table : String)
  | unknownColumn (table column : String)
  | noPrimaryKey (table : String)
  | invalidArgument (fault : ArgumentFault)
  | cursor (fault : CursorFault)
  | value (e : ValueError)
  deriving DecidableEq

namespace Error

def kind : Error → String
  | .mapping _ => "Mapping"
  | .unsupportedFunction .. => "UnsupportedFunction"
  | .conversion _ => "TypeCoercion"
  | .duplicateParameter _ => "DuplicateParameter"
  | .unregisteredType .. => "UnregisteredType"
  | .duplicateColumn .. => "DuplicateColumn"
  | .multipleIdentityColumns _ => "MultipleIdentityColumns"
  | .unknownColumn .. => "UnknownColumn"
  | .noPrimaryKey _ => "NoPrimaryKey"
  | .invalidArgument _ => "InvalidArgument"
  | .cursor _ => "Cursor"
  | .value _ => "Value"

def message : Error → String
  | .mapping e => e.message
  | .unsupportedFunction name dialect =>
    "function '" ++ name ++ "' is not registered in the " ++ dialect ++ " dialect"
  | .conversion e => e.message
  | .duplicateParameter name => "parameter '" ++ name ++ "' is already registered"
  | .unregisteredType type dialect =>
    "no type name registered for " ++ type.name ++ " in the " ++ dialect ++ " dialect"
  | .duplicateColumn table column => "table '" ++ table ++ "' already has a column named '" ++ column ++ "'"
  | .multipleIdentityColumns table => "table '" ++ table ++ "' declares more than one identity column"
  | .unknownColumn table column => "table '" ++ table ++ "' has no column named '" ++ column ++ "'"
  | .noPrimaryKey table => "table '" ++ table ++ "' has no primary key"
  | .invalidArgument fault => "invalid argument: " ++ fault.message
  | .cursor fault => "cursor error: " ++ fault.message
  | .value e => "value error: " ++ e.message

end Error

end SqlMapping
