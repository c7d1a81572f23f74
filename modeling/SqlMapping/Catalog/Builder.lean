import SqlMapping.Catalog.Table

/-!
# Building tables

A table is put together by calls that set a part of it or add to one of its lists. A part that is set again
is replaced. Nothing is checked before the table is built.
-/

namespace SqlMapping

inductive TableCall where
  | schema (raw : String)
  | catalog (raw : String)
  | column (c : Column)
  | columns (cs : List Column)
  | primaryKey (key : Key)
  | uniqueKey (key : Key)
  | index (index : Index)
  deriving DecidableEq

namespace Table

def named (raw : String) : Table := { name := Identifier.parse raw }

def extend (t : Table) : TableCall → Table
  | .schema raw => { t with schema := some (Identifier.parse raw) }
  | .catalog raw => { t with catalog := some (Identifier.parse raw) }
  | .column c => { t with columns := t.columns ++ [c] }
  | .columns cs => { t with columns := t.columns ++ cs }
  | .primaryKey key => { t with primaryKey := some key }
  | .uniqueKey key => { t with uniqueKeys := t.uniqueKeys ++ [key] }
  | .index index => { t with indexes := t.indexes ++ [index] }

def ofCalls (raw : String) (calls : List TableCall) : Table := calls.foldl extend (named raw)

end Table

end SqlMapping
