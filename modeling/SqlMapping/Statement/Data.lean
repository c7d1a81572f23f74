import SqlMapping.Dialect.Basic

/-!
# Statements on rows

Insert, update, delete and select by key for a table. Each parameter has the name of the member that
its column is bound to.
-/

namespace SqlMapping

structure Statement where
  sql : String
  parameters : List String
  deriving DecidableEq

namespace Table

variable (t : Table) (d : Dialect)

def assignment (c : Column) : String := d.quote c.name ++ " = " ++ d.parameter c.memberName

def requireKey : Except Error (List Column) :=
  if t.keyColumns.isEmpty then .error (.noPrimaryKey t.name.name) else .ok t.keyColumns

def keyCondition (keys : List Column) : String := " and ".intercalate (keys.map (assignment d))

def insertStatement : Statement :=
  let target := d.qualify t
  if t.insertColumns.isEmpty then ⟨"insert into " ++ target ++ " default values", []⟩
  else
    let names := t.insertColumns.map fun c => d.quote c.name
    let parameters := t.insertColumns.map Column.memberName
    ⟨"insert into " ++ target ++ " (" ++ ", ".intercalate names ++ ") values ("
      ++ ", ".intercalate (parameters.map d.parameter) ++ ")", parameters⟩

def updateStatement : Except Error Statement :=
  match t.requireKey with
  | .error e => .error e
  | .ok keys =>
    let columns := t.updateColumns
    if columns.isEmpty then .error (.invalidArgument (.nothingToUpdate t.name.name))
    else .ok
      ⟨"update " ++ d.qualify t ++ " set " ++ ", ".intercalate (columns.map (assignment d)) ++ " where "
        ++ keyCondition d keys, (columns ++ keys).map Column.memberName⟩

def deleteStatement : Except Error Statement :=
  match t.requireKey with
  | .error e => .error e
  | .ok keys =>
    .ok ⟨"delete from " ++ d.qualify t ++ " where " ++ keyCondition d keys, keys.map Column.memberName⟩

def selectByKeyStatement : Except Error Statement :=
  match t.requireKey with
  | .error e => .error e
  | .ok keys =>
    .ok
      ⟨"select " ++ ", ".intercalate (t.columns.map fun c => d.quote c.name) ++ " from " ++ d.qualify t
        ++ " where " ++ keyCondition d keys, keys.map Column.memberName⟩

end Table

end SqlMapping
