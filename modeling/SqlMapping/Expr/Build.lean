import SqlMapping.Expr.Basic

/-!
# Building expressions

Short forms for the conditions, projections and order terms that are written most, each on a field
given by its name.
-/

namespace SqlMapping.Expr

def named (field : String) : Expr := .field field none

def qualified (table field : String) : Expr := .field field (some table)

/-! ## Projections and order terms -/

def project (e : Expr) : Expr := .select e none false

def withAlias (e : Expr) (label : String) : Expr :=
  match e with
  | .select inner _ distinct => .select inner (some label) distinct
  | other => .select other (some label) false

def withDistinct (e : Expr) : Expr :=
  match e with
  | .select inner label _ => .select inner label true
  | other => .select other none true

def ascending (field : String) : Expr := .order (named field) true

def descending (field : String) : Expr := .order (named field) false

/-! ## Conditions -/

def compareTo (field : String) (op : CompareOp) (v : Value) : Expr :=
  .compare (named field) op (.literal v)

def betweenValues (field : String) (low high : Value) : Expr :=
  .between (named field) (.literal low) (.literal high)

def amongValues (field : String) (values : List Value) (negated : Bool) : Expr :=
  .inList (named field) (values.map .literal) negated

def isNullField (field : String) (negated : Bool) : Expr := .isNull (named field) negated

def matching (field pattern : String) (mode : MatchMode) (escape : Option Char) (ignoreCase : Bool) :
    Expr :=
  .like (named field) pattern mode escape ignoreCase

def both (left right : Expr) : Expr := .logical left .and right

def either (left right : Expr) : Expr := .logical left .or right

def conjunction (es : List Expr) : Expr := .junction .and es

def disjunction (es : List Expr) : Expr := .junction .or es

def sameRow (left : String) (op : CompareOp) (right : String) : Expr := .compareFields left right op

/-! ## Functions -/

def call (name : String) (args : List Expr) : Expr := .function name args

def aggregateOf (name field : String) : Expr := .aggregate name (some field)

def countAll : Expr := .aggregate "count" none

end SqlMapping.Expr
