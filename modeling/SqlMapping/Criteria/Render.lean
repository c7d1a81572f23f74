import SqlMapping.Criteria.Parameters
import SqlMapping.Dialect.Literal
import SqlMapping.Expr.Basic

/-!
# Rendering expressions

An expression is rendered to SQL text for a dialect and, if known, the table its fields belong to.
Literals become parameters or are spelled out. The parameters registered up to a failure stay
registered.
-/

namespace SqlMapping

/-- A computation that registers parameters and may fail. -/
abbrev Render := ExceptT Error (StateM ParameterSet)

namespace Render

variable {α β : Type}

def ofExcept (r : Except Error α) : Render α := fun ps => (r, ps)

def register (v : Value) : Render String := fun ps => ps.register v

theorem bind_apply (x : Render α) (f : α → Render β) (ps : ParameterSet) :
    (x >>= f) ps = match x ps with
      | (.ok a, ps') => f a ps'
      | (.error e, ps') => (.error e, ps') := by
  show ExceptT.bindCont f (x ps).1 (x ps).2 = _
  rcases x ps with ⟨_ | _, _⟩ <;> rfl

theorem pure_apply (a : α) (ps : ParameterSet) : (pure a : Render α) ps = (.ok a, ps) := rfl

end Render

structure RenderContext where
  dialect : Dialect
  table : Option Table := none
  /-- Whether literals become parameters. -/
  parameterized : Bool := true

namespace RenderContext

variable (ctx : RenderContext)

/-- A field the table knows is quoted as the table spells it; any other is written as given. -/
def field (name : String) (qualifier : Option String) : String :=
  match ctx.table.bind fun t => t.column? name with
  | some column =>
    match qualifier with
    | some q => ctx.dialect.quote q ++ "." ++ ctx.dialect.quote column.name
    | none => ctx.dialect.quote column.name
  | none =>
    match qualifier with
    | some q => q ++ "." ++ name
    | none => name

/-- Null is always spelled out. -/
def value (v : Value) : Render String :=
  if v.isNull then pure "null"
  else if ctx.parameterized then do
    let name ← Render.register v
    pure (ctx.dialect.parameter name)
  else Render.ofExcept (ctx.dialect.literal v)

def call (name : String) (args : List String) : Except Error String :=
  match ctx.dialect.function? name with
  | none => .error (.unsupportedFunction name ctx.dialect.name)
  | some form => form.apply args

def negation (operand : String) : String :=
  if ctx.dialect.parenthesizeNot then "not (" ++ operand ++ ")" else "not " ++ operand

def nullTest (operand : String) (negated : Bool) : String :=
  operand ++ (if negated then " is not null" else " is null")

/-- Equality with a null literal is a null test. -/
def nullComparison? (op : CompareOp) (right : Expr) : Option Bool :=
  if right.isNullLiteral then
    match op with
    | .eq => some false
    | .ne => some true
    | _ => none
  else none

/-- A pattern match. Without `ilike`, both sides are put in lower case. -/
def likeText (operand pattern : String) (ignoreCase : Bool) : Except Error String :=
  if !ignoreCase then .ok (operand ++ " like " ++ pattern)
  else if ctx.dialect.ilike then .ok (operand ++ " ilike " ++ pattern)
  else
    match ctx.call "lower" [operand] with
    | .error e => .error e
    | .ok lowered =>
      match ctx.call "lower" [pattern] with
      | .error e => .error e
      | .ok loweredPattern => .ok (lowered ++ " like " ++ loweredPattern)

def escapeClause : Option Char → String
  | some c => " escape " ++ ctx.dialect.stringLiteral c.toString
  | none => ""

end RenderContext

mutual

def Expr.render (ctx : RenderContext) : Expr → Render String
  | .field name table => pure (ctx.field name table)
  | .literal v => ctx.value v
  | .plain sql => pure sql
  | .compare left op right => do
    let l ← Expr.render ctx left
    match RenderContext.nullComparison? op right with
    | some negated => pure (RenderContext.nullTest l negated)
    | none => do
      let r ← Expr.render ctx right
      pure (l ++ " " ++ op.sql ++ " " ++ r)
  | .logical left op right => do
    let l ← Expr.render ctx left
    let r ← Expr.render ctx right
    pure ("(" ++ l ++ " " ++ op.sql ++ " " ++ r ++ ")")
  | .junction op exprs =>
    match exprs with
    | [] => pure "1=1"
    | e :: es => do
      let first ← Expr.render ctx e
      let rest ← Expr.renderAll ctx es
      pure ("(" ++ (" " ++ op.sql ++ " ").intercalate (first :: rest) ++ ")")
  | .not expr => do
    let operand ← Expr.render ctx expr
    pure (ctx.negation operand)
  | .isNull expr negated => do
    let operand ← Expr.render ctx expr
    pure (RenderContext.nullTest operand negated)
  | .between expr low high => do
    let operand ← Expr.render ctx expr
    let l ← Expr.render ctx low
    let h ← Expr.render ctx high
    pure (operand ++ " between " ++ l ++ " and " ++ h)
  | .inList expr values negated =>
    match values with
    | [] => pure (if negated then "1=1" else "1=0")
    | v :: vs => do
      let operand ← Expr.render ctx expr
      let first ← Expr.render ctx v
      let rest ← Expr.renderAll ctx vs
      pure (operand ++ (if negated then " not in (" else " in (") ++ ", ".intercalate (first :: rest) ++ ")")
  | .like expr pattern mode escape ignoreCase => do
    let operand ← Expr.render ctx expr
    let p ← ctx.value (.string (mode.decorate pattern))
    let text ← Render.ofExcept (ctx.likeText operand p ignoreCase)
    pure (text ++ ctx.escapeClause escape)
  | .function name args => do
    let rendered ← Expr.renderAll ctx args
    Render.ofExcept (ctx.call name rendered)
  | .aggregate name column =>
    let arg := match column with
      | some c => ctx.field c none
      | none => "*"
    Render.ofExcept (ctx.call name [arg])
  | .compareFields left right op => pure (ctx.field left none ++ " " ++ op.sql ++ " " ++ ctx.field right none)
  | .select expr label distinct => do
    let operand ← Expr.render ctx expr
    pure ((if distinct then "distinct " else "") ++ operand
      ++ (match label with
        | some a => " as " ++ ctx.dialect.quote a
        | none => ""))
  | .order expr ascending => do
    let operand ← Expr.render ctx expr
    pure (operand ++ (if ascending then " asc" else " desc"))

def Expr.renderAll (ctx : RenderContext) : List Expr → Render (List String)
  | [] => pure []
  | e :: es => do
    let first ← Expr.render ctx e
    let rest ← Expr.renderAll ctx es
    pure (first :: rest)

end

end SqlMapping
