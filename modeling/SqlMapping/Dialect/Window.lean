import SqlMapping.Dialect.Basic
import SqlMapping.Text.Ascii

/-!
# Windows

A select is cut to the rows after an offset, up to a limit. Each dialect has its own form for this; an
offset of zero is the same as none.
-/

namespace SqlMapping

def withOrder (sql : String) (order : Option String) : String :=
  match order with
  | some terms => if terms.isEmpty then sql else sql ++ " order by " ++ terms
  | none => sql

def greatestRow : Nat := UInt64.size - 1

/-- Puts `top n` after the leading `select` and `distinct`; other text stays as it is. -/
def insertTop (sql : String) (limit : Nat) : String :=
  let folded := (foldCase sql).toList
  let heads := ["select distinct ".toList, "select ".toList]
  match heads.find? fun head => head.isPrefixOf folded with
  | none => sql
  | some head =>
    String.ofList (sql.toList.take head.length) ++ "top " ++ toString limit ++ " "
      ++ String.ofList (sql.toList.drop head.length)

namespace WindowForm

def offsetFetchText (sql : String) (limit offset : Option Nat) : String :=
  sql
    ++ (match offset with
      | some n => " offset " ++ toString n ++ " rows"
      | none => "")
    ++ (match limit with
      | some m => " fetch first " ++ toString m ++ " rows only"
      | none => "")

def limitOffsetText (sql : String) (limit offset : Option Nat) : String :=
  sql
    ++ (match limit with
      | some m => " limit " ++ toString m
      | none => "")
    ++ (match offset with
      | some n => " offset " ++ toString n
      | none => "")

def limitRequiredText (sql : String) (limit offset : Option Nat) : String :=
  match limit, offset with
  | some m, some n => sql ++ " limit " ++ toString m ++ " offset " ++ toString n
  | some m, none => sql ++ " limit " ++ toString m
  | none, some n => sql ++ " limit -1 offset " ++ toString n
  | none, none => sql

def limitPairText (sql : String) (limit offset : Option Nat) : String :=
  match limit, offset with
  | some m, some n => sql ++ " limit " ++ toString n ++ ", " ++ toString m
  | some m, none => sql ++ " limit " ++ toString m
  | none, some n => sql ++ " limit " ++ toString n ++ ", " ++ toString greatestRow
  | none, none => sql

/-- Skipping rows needs an order; without one, any order will do. -/
def topOrFetchText (sql : String) (order : Option String) (limit offset : Option Nat) : String :=
  match offset with
  | none =>
    withOrder
      (match limit with
        | some m => insertTop sql m
        | none => sql)
      order
  | some n =>
    let terms := (order.filter fun o => !o.isEmpty).getD "(select null)"
    sql ++ " order by " ++ terms ++ " offset " ++ toString n ++ " rows"
      ++ (match limit with
        | some m => " fetch next " ++ toString m ++ " rows only"
        | none => "")

def rowNumberText (sql : String) (limit offset : Option Nat) : String :=
  match limit, offset with
  | none, none => sql
  | some m, none => "select * from (" ++ sql ++ ") where rownum <= " ++ toString m
  | some m, some n =>
    "select * from (select row_.*, rownum rownum_ from (" ++ sql ++ ") row_ where rownum <= "
      ++ toString (min (n + m) greatestRow) ++ ") where rownum_ > " ++ toString n
  | none, some n =>
    "select * from (select row_.*, rownum rownum_ from (" ++ sql ++ ") row_) where rownum_ > " ++ toString n

end WindowForm

namespace Dialect

def paginate (d : Dialect) (sql : String) (order : Option String) (limit offset : Option Nat) : String :=
  let offset := offset.filter fun n => 0 < n
  match d.window with
  | .offsetFetch => WindowForm.offsetFetchText (withOrder sql order) limit offset
  | .limitOffset => WindowForm.limitOffsetText (withOrder sql order) limit offset
  | .limitRequired => WindowForm.limitRequiredText (withOrder sql order) limit offset
  | .limitPair => WindowForm.limitPairText (withOrder sql order) limit offset
  | .topOrFetch => WindowForm.topOrFetchText sql order limit offset
  | .rowNumber => WindowForm.rowNumberText (withOrder sql order) limit offset

end Dialect

end SqlMapping
