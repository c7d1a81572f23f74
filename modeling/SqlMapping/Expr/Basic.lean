import SqlMapping.Value.Basic

/-!
# Expressions

The expression tree of conditions, projections and order terms.
-/

namespace SqlMapping

inductive CompareOp where
  | eq
  | ne
  | lt
  | le
  | gt
  | ge
  deriving DecidableEq

inductive LogicalOp where
  | and
  | or
  deriving DecidableEq

inductive MatchMode where
  | exact
  | startsWith
  | endsWith
  | contains
  deriving DecidableEq

inductive Expr where
  | field (name : String) (table : Option String)
  | literal (value : Value)
  /-- SQL text that is written as it stands. -/
  | plain (sql : String)
  | compare (left : Expr) (op : CompareOp) (right : Expr)
  | logical (left : Expr) (op : LogicalOp) (right : Expr)
  | junction (op : LogicalOp) (exprs : List Expr)
  | not (expr : Expr)
  | isNull (expr : Expr) (negated : Bool)
  | between (expr low high : Expr)
  | inList (expr : Expr) (values : List Expr) (negated : Bool)
  | like (expr : Expr) (pattern : String) (mode : MatchMode) (escape : Option Char) (ignoreCase : Bool)
  | function (name : String) (args : List Expr)
  /-- Without a field, of all rows. -/
  | aggregate (name : String) (field : Option String)
  | compareFields (left right : String) (op : CompareOp)
  | select (expr : Expr) (label : Option String) (distinct : Bool)
  | order (expr : Expr) (ascending : Bool)

namespace CompareOp

def sql : CompareOp → String
  | .eq => "="
  | .ne => "<>"
  | .lt => "<"
  | .le => "<="
  | .gt => ">"
  | .ge => ">="

end CompareOp

namespace LogicalOp

def sql : LogicalOp → String
  | .and => "and"
  | .or => "or"

end LogicalOp

namespace MatchMode

def decorate (mode : MatchMode) (pattern : String) : String :=
  match mode with
  | .exact => pattern
  | .startsWith => pattern ++ "%"
  | .endsWith => "%" ++ pattern
  | .contains => "%" ++ pattern ++ "%"

end MatchMode

namespace Expr

def isOrder : Expr → Bool
  | .order .. => true
  | _ => false

def isSelect : Expr → Bool
  | .select .. => true
  | _ => false

def isNullLiteral : Expr → Bool
  | .literal v => v.isNull
  | _ => false

mutual

def literalCount : Expr → Nat
  | .literal _ => 1
  | .field .. | .plain _ | .aggregate .. | .compareFields .. => 0
  | .compare left _ right | .logical left _ right => literalCount left + literalCount right
  | .junction _ exprs => literalCounts exprs
  | .not expr | .isNull expr _ | .like expr .. | .select expr .. | .order expr _ => literalCount expr
  | .between expr low high => literalCount expr + literalCount low + literalCount high
  | .inList expr values _ => literalCount expr + literalCounts values
  | .function _ args => literalCounts args

def literalCounts : List Expr → Nat
  | [] => 0
  | e :: es => literalCount e + literalCounts es

end

mutual

def equals : Expr → Expr → Bool
  | .field name table, .field name' table' => name == name' && table == table'
  | .literal v, .literal v' => v.equals v'
  | .plain sql, .plain sql' => sql == sql'
  | .compare left op right, .compare left' op' right' =>
    equals left left' && op == op' && equals right right'
  | .logical left op right, .logical left' op' right' =>
    equals left left' && op == op' && equals right right'
  | .junction op exprs, .junction op' exprs' => op == op' && equalsAll exprs exprs'
  | .not expr, .not expr' => equals expr expr'
  | .isNull expr negated, .isNull expr' negated' => equals expr expr' && negated == negated'
  | .between expr low high, .between expr' low' high' =>
    equals expr expr' && equals low low' && equals high high'
  | .inList expr values negated, .inList expr' values' negated' =>
    equals expr expr' && equalsAll values values' && negated == negated'
  | .like expr pattern mode escape ignoreCase, .like expr' pattern' mode' escape' ignoreCase' =>
    equals expr expr' && pattern == pattern' && mode == mode' && escape == escape'
      && ignoreCase == ignoreCase'
  | .function name args, .function name' args' => name == name' && equalsAll args args'
  | .aggregate name column, .aggregate name' column' => name == name' && column == column'
  | .compareFields left right op, .compareFields left' right' op' =>
    left == left' && right == right' && op == op'
  | .select expr label distinct, .select expr' label' distinct' =>
    equals expr expr' && label == label' && distinct == distinct'
  | .order expr ascending, .order expr' ascending' => equals expr expr' && ascending == ascending'
  | _, _ => false

def equalsAll : List Expr → List Expr → Bool
  | [], [] => true
  | e :: es, e' :: es' => equals e e' && equalsAll es es'
  | _, _ => false

end

end Expr

end SqlMapping
