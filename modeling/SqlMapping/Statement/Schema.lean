import SqlMapping.Dialect.Literal

/-!
# Statements on the schema

Creating and dropping a table, and creating its indexes.
-/

namespace SqlMapping

namespace Table

variable (t : Table) (d : Dialect)

def hasInlineKey : Bool :=
  match t.primaryKey with
  | none => true
  | some key =>
    d.identityColumns && d.identityIsKey && key.columns.length == 1
      && (match t.identityColumn? with
        | some c => key.contains c.name
        | none => false)

/-- The definition of an identity column. Where the identity clause would declare a key that the table
declares by itself, the column is a plain one. -/
def identityColumnText (c : Column) (inlineKey : Bool) : Except Error String :=
  let name := d.quote c.name
  if d.identityIsKey && !inlineKey then (d.typeName .identity).map fun ty => name ++ " " ++ ty ++ " not null"
  else if d.identityColumns then (d.identityDefinition c).map fun text => name ++ " " ++ text
  else (d.typeName .int32).map fun ty => name ++ " " ++ ty ++ " not null"

def defaultText : Option DefaultValue → Except Error String
  | none => .ok ""
  | some (.expression sql) => .ok (" default " ++ sql)
  | some (.value v) => (d.literal v).map (" default " ++ ·)

def columnText (c : Column) (inlineKey : Bool) : Except Error String :=
  if c.isIdentity then identityColumnText d c inlineKey
  else
    match d.columnType c with
    | .error e => .error e
    | .ok ty =>
      match defaultText d c.default with
      | .error e => .error e
      | .ok default =>
        .ok (d.quote c.name ++ " " ++ ty ++ default ++ (if c.nullable then "" else " not null")
          ++ (if c.unique then " unique" else "")
          ++ (match c.check with
            | some condition => " check (" ++ condition ++ ")"
            | none => ""))

def columnTexts (inlineKey : Bool) : List Column → Except Error (List String)
  | [] => .ok []
  | c :: cs =>
    match columnText d c inlineKey with
    | .error e => .error e
    | .ok text =>
      match columnTexts inlineKey cs with
      | .error e => .error e
      | .ok texts => .ok (text :: texts)

theorem columnTexts_cons_eq_ok_iff {d : Dialect} {inlineKey : Bool} {c : Column} {cs : List Column}
    {texts : List String} : columnTexts d inlineKey (c :: cs) = .ok texts ↔
      ∃ text rest, columnText d c inlineKey = .ok text ∧ columnTexts d inlineKey cs = .ok rest ∧
        texts = text :: rest := by
  rw [columnTexts]
  cases columnText d c inlineKey with
  | error e => simp
  | ok text =>
    cases columnTexts d inlineKey cs with
    | error e => simp
    | ok rest => simp [eq_comm]

def constraintName (name : String) : String := if name.isEmpty then "" else "constraint " ++ d.quote name ++ " "

def quotedList (columns : List String) : String := ", ".intercalate (columns.map d.quote)

def primaryKeyTexts (inlineKey : Bool) : List String :=
  match t.primaryKey with
  | some key =>
    if inlineKey then []
    else [constraintName d key.name ++ "primary key (" ++ quotedList d key.columns ++ ")"]
  | none => []

def uniqueKeyText (key : Key) : String :=
  constraintName d key.name ++ "unique (" ++ quotedList d key.columns ++ ")"

def createStatement : Except Error String :=
  let inlineKey := t.hasInlineKey d
  match columnTexts d inlineKey t.columns with
  | .error e => .error e
  | .ok columns =>
    let parts := columns ++ t.primaryKeyTexts d inlineKey ++ t.uniqueKeys.map (uniqueKeyText d)
    .ok ("create table " ++ d.qualify t ++ " (" ++ ", ".intercalate parts ++ ")")

theorem createStatement_eq_ok_iff {t : Table} {d : Dialect} {sql : String} : t.createStatement d = .ok sql ↔
    ∃ definitions, columnTexts d (t.hasInlineKey d) t.columns = .ok definitions ∧
      sql = "create table " ++ d.qualify t ++ " (" ++ ", ".intercalate (definitions ++
        t.primaryKeyTexts d (t.hasInlineKey d) ++ t.uniqueKeys.map (uniqueKeyText d)) ++ ")" := by
  rw [createStatement]
  cases columnTexts d (t.hasInlineKey d) t.columns with
  | error e => simp
  | ok definitions => simp [eq_comm]

def createIndexStatement (index : Index) : String :=
  "create " ++ (if index.unique then "unique " else "") ++ "index " ++ d.quote index.name ++ " on "
    ++ d.qualify t ++ " (" ++ quotedList d index.columns ++ ")"

def dropStatement : String := "drop table " ++ d.qualify t

end Table

end SqlMapping
