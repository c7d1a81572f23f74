import SqlMapping.Catalog.Table
import SqlMapping.Dialect.FunctionForm
import SqlMapping.Dialect.TypeNames

/-!
# Dialects

A dialect gathers what differs between databases: quotes, parameter markers, type names, functions, the
spelling of literals, identity columns, and how a select is cut to a window. The defaults are standard
SQL without types and functions.
-/

namespace SqlMapping

inductive IdentityClause where
  /-- The type, then `generated by default as identity`. -/
  | generated
  /-- A serial type, the wide one for long keys. -/
  | serial
  /-- The type or a wide one, then `identity(1,1)`. -/
  | seeded
  /-- The type or a wide one, then `not null auto_increment`. -/
  | autoIncrement
  /-- The type, then `primary key autoincrement`. -/
  | inlineKey
  /-- A text of the dialect's own for each column. -/
  | custom (text : Column → Except Error String)

inductive WindowForm where
  /-- `offset n rows fetch first m rows only` -/
  | offsetFetch
  /-- `limit m offset n` -/
  | limitOffset
  /-- `limit m offset n`, with `-1` for no limit. -/
  | limitRequired
  /-- `limit n, m` -/
  | limitPair
  /-- `top m`, or `offset n rows fetch next m rows only` after an order. -/
  | topOrFetch
  /-- Nested selects that filter by row number. -/
  | rowNumber
  deriving DecidableEq

structure Dialect where
  name : String
  types : TypeNames := []
  functions : Functions := []
  openQuote : Char := '\x22'
  closeQuote : Char := '\x22'
  marker : String := ":"
  /-- Whether `not` needs parentheses around its operand. -/
  parenthesizeNot : Bool := false
  ilike : Bool := false
  identityColumns : Bool := true
  /-- Whether an identity clause declares the primary key as well. -/
  identityIsKey : Bool := false
  identityClause : IdentityClause := .generated
  /-- Whether type names carry lengths and precisions. -/
  sizedTypes : Bool := true
  trueLiteral : String := "true"
  falseLiteral : String := "false"
  /-- Whether a backslash in a string literal is written twice. -/
  doubleBackslash : Bool := false
  /-- What stands around the hexadecimal digits of a binary literal. -/
  binaryOpen : String := "X'"
  binaryClose : String := "'"
  window : WindowForm := .offsetFetch

namespace Dialect

variable (d : Dialect)

/-! ## Names -/

/-- Quotes a name as it stands, doubling closing quotes inside. -/
def quoteBare (name : String) : String :=
  String.ofList
    (d.openQuote :: (replaceChar d.closeQuote [d.closeQuote, d.closeQuote] name.toList ++ [d.closeQuote]))

/-- Quotes a name after taking off the quotes it may have. -/
def quote (name : String) : String := d.quoteBare ((stripQuotes name).getD name)

def quoteIdentifier (i : Identifier) : String := if i.quoted then d.quoteBare i.name else d.quote i.name

def qualify (t : Table) : String :=
  ".".intercalate ((t.catalog.toList ++ t.schema.toList ++ [t.name]).map d.quoteIdentifier)

def parameter (name : String) : String := d.marker ++ name

def function? (name : String) : Option FunctionForm := d.functions.function? name

/-! ## Types -/

def orUnregistered (type : DbType) : Option String → Except Error String
  | some text => .ok text
  | none => .error (.unregisteredType type d.name)

def typeName (type : DbType) : Except Error String := d.orUnregistered type (d.types.get? type)

def sizedTypeName (type : DbType) (length precision scale : Nat) : Except Error String :=
  if d.sizedTypes then d.orUnregistered type (d.types.getSized? type length precision scale)
  else d.typeName type

/-- The type of a column. Its length, or else its precision, chooses among the sized names. -/
def columnType (c : Column) : Except Error String :=
  match c.length <|> c.precision with
  | some size =>
    d.sizedTypeName c.type size (c.precision.getD defaultPrecision) (c.scale.getD defaultScale)
  | none => d.typeName c.type

def isWide (c : Column) : Bool :=
  match c.precision with
  | some p => 9 < p
  | none => false

def identityDefinition (c : Column) : Except Error String :=
  match d.identityClause with
  | .generated => (d.typeName .identity).map (· ++ " generated by default as identity")
  | .serial => if isWide c then .ok "bigserial" else d.typeName .identity
  | .seeded => (if isWide c then .ok "bigint" else d.typeName .identity).map (· ++ " identity(1,1)")
  | .autoIncrement =>
    (d.typeName (if isWide c then .int64 else .identity)).map (· ++ " not null auto_increment")
  | .inlineKey => (d.typeName .identity).map (· ++ " primary key autoincrement")
  | .custom text => text c

end Dialect

end SqlMapping
