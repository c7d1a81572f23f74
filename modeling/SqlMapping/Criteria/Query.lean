import SqlMapping.Criteria.Render
import SqlMapping.Dialect.Window

/-!
# Queries over a table

Criteria name a table, conditions that must all hold, order terms, projections and a window. They make
a select, and a count of the rows that the select has without order and window.
-/

namespace SqlMapping

structure Query where
  sql : String
  params : ParameterSet
  deriving DecidableEq

structure Criteria where
  table : Table
  conditions : List Expr := []
  orders : List Expr := []
  /-- Without any, every column of the table. -/
  projections : List Expr := []
  limit : Option Nat := none
  offset : Option Nat := none

def Render.toQuery (r : Render String) : Except Error Query :=
  match r {} with
  | (.ok sql, ps) => .ok ⟨sql, ps⟩
  | (.error e, _) => .error e

namespace Expr

def asOrder (e : Expr) : Expr := if e.isOrder then e else .order e true

def toQuery (ctx : RenderContext) (e : Expr) : Except Error Query := Render.toQuery (e.render ctx)

end Expr

namespace Criteria

variable (c : Criteria) (d : Dialect)

def context : RenderContext := { dialect := d, table := some c.table, parameterized := true }

def selectList : Render String :=
  if c.projections.isEmpty then
    pure (if c.table.columns.isEmpty then "*"
      else ", ".intercalate (c.table.columns.map fun col => d.quote col.name))
  else do
    let parts ← Expr.renderAll (c.context d) c.projections
    pure (", ".intercalate parts)

def baseSelect : Render String := do
  let list ← c.selectList d
  let sql := "select " ++ list ++ " from " ++ d.qualify c.table
  if c.conditions.isEmpty then pure sql
  else do
    let parts ← Expr.renderAll (c.context d) c.conditions
    pure (sql ++ " where " ++ " and ".intercalate parts)

def orderTerms : Render String := do
  let parts ← Expr.renderAll (c.context d) (c.orders.map Expr.asOrder)
  pure (", ".intercalate parts)

def windowed (limit offset : Option Nat) : Render String := do
  let sql ← c.baseSelect d
  let terms ← c.orderTerms d
  let order := if terms.isEmpty then none else some terms
  pure (if limit.isSome || offset.isSome then d.paginate sql order limit offset else withOrder sql order)

def select : Except Error Query := Render.toQuery (c.windowed d c.limit c.offset)

/-- The select with a window that replaces, part by part, the one of the criteria. -/
def selectWindow (limit offset : Option Nat) : Except Error Query :=
  Render.toQuery (c.windowed d (limit <|> c.limit) (offset <|> c.offset))

def count : Except Error Query := Render.toQuery do
  let sql ← c.baseSelect d
  pure ("select count(*) from (" ++ sql ++ ") t")

end Criteria

end SqlMapping
