import SqlMapping.Dialect.Basic

/-!
# Built-in dialects

Standard SQL, and five databases that start from its types and functions and replace what differs.
-/

namespace SqlMapping

inductive TypeRule where
  | always (type : DbType) (template : String)
  | upTo (type : DbType) (capacity : Nat) (template : String)

namespace TypeNames

def putRule (ts : TypeNames) : TypeRule → TypeNames
  | .always type template => ts.put type template
  | .upTo type capacity template => ts.putSized type capacity template

def putRules (ts : TypeNames) (rules : List TypeRule) : TypeNames := rules.foldl putRule ts

end TypeNames

namespace Functions

def registerAll (fs : Functions) (forms : List (String × FunctionForm)) : Functions :=
  forms.foldl (fun fs f => fs.register f.1 f.2) fs

end Functions

def greatestLength : Nat := UInt32.size - 1

def momentParts : List String := ["second", "minute", "hour", "day", "month", "year"]

namespace Dialect

open TypeRule FunctionForm

def standardTypes : TypeNames :=
  TypeNames.putRules []
    [always .ansiStringFixedLength "char(255)", upTo .ansiStringFixedLength 255 "char($l)",
      always .ansiString "varchar(255)", upTo .ansiString 4000 "varchar($l)",
      always .stringFixedLength "nchar(255)", upTo .stringFixedLength 255 "nchar($l)",
      always .string "varchar(255)", upTo .string 4000 "varchar($l)",
      always .binary "blob", upTo .binary 8000 "varbinary($l)",
      always .boolean "boolean",
      always .byte "smallint",
      always .int16 "smallint",
      always .int32 "integer",
      always .int64 "bigint",
      always .single "real",
      always .double "double precision",
      always .decimal "decimal(19,5)", upTo .decimal 38 "decimal($p,$s)",
      always .currency "decimal(19,4)",
      always .date "date",
      always .time "time",
      always .dateTime "timestamp",
      always .dateTimeOffset "timestamp with time zone",
      always .guid "char(36)",
      always .xml "clob",
      always .identity "integer"]

def plainFunctions : List String :=
  ["abs", "sqrt", "upper", "lower", "trim", "coalesce", "nullif", "mod", "substring", "count", "sum",
    "avg", "min", "max"]

def standardFunctions : Functions :=
  Functions.registerAll []
    (plainFunctions.map (fun n => (n, standard n))
      ++ [("length", standard "char_length"),
        ("bit_length", standard "bit_length"),
        ("cast", template "cast(?1 as ?2)"),
        ("locate", template "position(?1 in ?2)"),
        ("concat", variadic "(" " || " ")"),
        ("current_timestamp", noArguments "current_timestamp" false),
        ("current_date", noArguments "current_date" false)]
      ++ momentParts.map fun part => (part, template ("extract(" ++ part ++ " from ?1)")))

def ansi : Dialect where
  name := "ansi"
  types := standardTypes
  functions := standardFunctions

def postgres : Dialect where
  name := "postgres"
  types := standardTypes.putRules
    [always .binary "bytea",
      always .byte "smallint",
      always .double "float8",
      always .single "float4",
      always .guid "uuid",
      always .xml "xml",
      always .currency "money",
      always .dateTimeOffset "timestamptz",
      always .identity "serial"]
  functions := standardFunctions.registerAll
    [("length", standard "length"),
      ("locate", template "position(?1 in ?2)"),
      ("current_timestamp", noArguments "now" true),
      ("random", noArguments "random" true)]
  ilike := true
  identityClause := .serial
  binaryOpen := "'\\x"
  binaryClose := "'::bytea"
  window := .limitOffset

def sqlServer : Dialect where
  name := "sqlserver"
  types := standardTypes.putRules
    [always .string "nvarchar(255)", upTo .string 4000 "nvarchar($l)",
      upTo .string greatestLength "nvarchar(max)",
      always .ansiString "varchar(255)", upTo .ansiString 8000 "varchar($l)",
      upTo .ansiString greatestLength "varchar(max)",
      always .binary "varbinary(max)", upTo .binary 8000 "varbinary($l)",
      always .boolean "bit",
      always .byte "tinyint",
      always .int32 "int",
      always .single "real",
      always .double "float",
      always .currency "money",
      always .dateTime "datetime2",
      always .dateTimeOffset "datetimeoffset",
      always .guid "uniqueidentifier",
      always .xml "xml",
      always .identity "int"]
  functions := standardFunctions.registerAll
    ([("length", standard "len"),
        ("locate", template "charindex(?1, ?2)"),
        ("mod", template "(?1 % ?2)"),
        ("concat", variadic "(" " + " ")"),
        ("bit_length", template "(datalength(?1) * 8)"),
        ("current_timestamp", noArguments "getdate" true),
        ("current_date", template "cast(getdate() as date)"),
        ("trim", template "ltrim(rtrim(?1))")]
      ++ momentParts.map fun part => (part, template ("datepart(" ++ part ++ ", ?1)")))
  openQuote := '['
  closeQuote := ']'
  marker := "@"
  identityClause := .seeded
  trueLiteral := "1"
  falseLiteral := "0"
  binaryOpen := "0x"
  binaryClose := ""
  window := .topOrFetch

def mySql : Dialect where
  name := "mysql"
  types := standardTypes.putRules
    [always .string "varchar(255)", upTo .string 65535 "varchar($l)",
      upTo .string 16777215 "mediumtext", upTo .string greatestLength "longtext",
      always .binary "longblob", upTo .binary 255 "tinyblob", upTo .binary 65535 "blob",
      always .boolean "bit",
      always .byte "tinyint unsigned",
      always .int32 "integer",
      always .single "float",
      always .double "double precision",
      always .dateTime "datetime",
      always .dateTimeOffset "datetime",
      always .guid "varchar(40)",
      always .xml "text",
      always .identity "integer"]
  functions := standardFunctions.registerAll
    [("length", standard "length"),
      ("locate", template "locate(?1, ?2)"),
      ("concat", standard "concat"),
      ("current_timestamp", noArguments "now" true)]
  openQuote := '\x60'
  closeQuote := '\x60'
  marker := "?"
  parenthesizeNot := true
  identityClause := .autoIncrement
  doubleBackslash := true
  window := .limitPair

/-- Columns of this dialect have a storage class, without a size. -/
def sqlite : Dialect where
  name := "sqlite"
  types := standardTypes.putRules
    [always .boolean "integer",
      always .byte "integer",
      always .int16 "integer",
      always .int32 "integer",
      always .int64 "integer",
      always .single "real",
      always .double "real",
      always .decimal "numeric",
      always .currency "numeric",
      always .ansiString "text",
      always .ansiStringFixedLength "text",
      always .string "text",
      always .stringFixedLength "text",
      always .xml "text",
      always .binary "blob",
      always .guid "blob",
      always .date "datetime",
      always .time "datetime",
      always .dateTime "datetime",
      always .dateTimeOffset "datetime",
      always .identity "integer"]
  functions := standardFunctions.registerAll
    ([("substring", standard "substr"),
        ("length", standard "length"),
        ("locate", template "instr(?2, ?1)"),
        ("mod", template "(?1 % ?2)"),
        ("current_timestamp", template "datetime('now')"),
        ("current_date", template "date('now')")]
      ++ (momentParts.zip ["%S", "%M", "%H", "%d", "%m", "%Y"]).map fun (part, format) =>
        (part, template ("cast(strftime('" ++ format ++ "', ?1) as integer)")))
  marker := "@"
  identityIsKey := true
  identityClause := .inlineKey
  sizedTypes := false
  trueLiteral := "1"
  falseLiteral := "0"
  window := .limitRequired

def oracle : Dialect where
  name := "oracle"
  types := ((standardTypes.clear .string).clear .binary).putRules
    [always .ansiString "varchar2(255)", upTo .ansiString 4000 "varchar2($l)",
      always .string "nvarchar2(255)", upTo .string 2000 "nvarchar2($l)",
      upTo .string greatestLength "nclob",
      always .binary "blob", upTo .binary 2000 "raw($l)",
      always .boolean "number(1,0)",
      always .byte "number(3,0)",
      always .int16 "number(5,0)",
      always .int32 "number(10,0)",
      always .int64 "number(19,0)",
      always .single "float(24)",
      always .double "double precision",
      always .decimal "number(19,5)", upTo .decimal 38 "number($p,$s)",
      always .currency "number(20,2)",
      always .date "date",
      always .time "date",
      always .dateTime "timestamp(4)",
      always .guid "raw(16)",
      always .xml "xmltype",
      always .identity "number(10,0)"]
  functions := standardFunctions.registerAll
    [("substring", standard "substr"),
      ("length", standard "length"),
      ("locate", template "instr(?2, ?1)"),
      ("bit_length", template "(vsize(?1) * 8)"),
      ("current_date", noArguments "sysdate" false)]
  parenthesizeNot := true
  identityColumns := false
  trueLiteral := "1"
  falseLiteral := "0"
  binaryOpen := "hextoraw('"
  binaryClose := "')"
  window := .rowNumber

def builtIn : List Dialect := [ansi, postgres, sqlServer, mySql, sqlite, oracle]

end Dialect

end SqlMapping
