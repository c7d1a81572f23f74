import SqlMapping.Expr.Basic
import SqlMapping.Value.Json

/-!
# Expressions in JSON

An expression is a choice named for its form, with its parts as the fields of a record.
-/

namespace SqlMapping

namespace CompareOp

def tag : CompareOp → String
  | .eq => "Eq"
  | .ne => "Ne"
  | .lt => "Lt"
  | .le => "Le"
  | .gt => "Gt"
  | .ge => "Ge"

def ofTag? (s : String) : Option CompareOp :=
  [CompareOp.eq, .ne, .lt, .le, .gt, .ge].find? fun op => op.tag == s

end CompareOp

namespace LogicalOp

def tag : LogicalOp → String
  | .and => "And"
  | .or => "Or"

def ofTag? (s : String) : Option LogicalOp := [LogicalOp.and, .or].find? fun op => op.tag == s

end LogicalOp

namespace MatchMode

def tag : MatchMode → String
  | .exact => "Exact"
  | .startsWith => "Start"
  | .endsWith => "End"
  | .contains => "Anywhere"

def ofTag? (s : String) : Option MatchMode :=
  [MatchMode.exact, .startsWith, .endsWith, .contains].find? fun mode => mode.tag == s

end MatchMode

/-! ## Writing -/

def Expr.recordJson (tag : String) (fields : List (String × Json)) : Json :=
  Json.ofFields [(tag, Json.ofFields fields)]

mutual

def Expr.toJsonWith (literal : Value → Json) : Expr → Json
  | .field name table =>
    recordJson "Field" [("name", .ofString name), ("table", .ofOption Json.ofString table)]
  | .literal v => Json.ofFields [("Literal", literal v)]
  | .plain sql => Json.ofFields [("Plain", .ofString sql)]
  | .compare left op right =>
    recordJson "Compare"
      [("left", left.toJsonWith literal), ("op", .ofString op.tag), ("right", right.toJsonWith literal)]
  | .logical left op right =>
    recordJson "Logical"
      [("left", left.toJsonWith literal), ("op", .ofString op.tag), ("right", right.toJsonWith literal)]
  | .junction op exprs =>
    recordJson "Junction" [("op", .ofString op.tag), ("exprs", .array (listJsonWith literal exprs))]
  | .not expr => Json.ofFields [("Not", expr.toJsonWith literal)]
  | .isNull expr negated =>
    recordJson "IsNull" [("expr", expr.toJsonWith literal), ("negated", .bool negated)]
  | .between expr low high =>
    recordJson "Between"
      [("expr", expr.toJsonWith literal), ("low", low.toJsonWith literal),
        ("high", high.toJsonWith literal)]
  | .inList expr values negated =>
    recordJson "In"
      [("expr", expr.toJsonWith literal), ("values", .array (listJsonWith literal values)),
        ("negated", .bool negated)]
  | .like expr pattern mode escape ignoreCase =>
    recordJson "Like"
      [("expr", expr.toJsonWith literal), ("pattern", .ofString pattern), ("mode", .ofString mode.tag),
        ("escape", .ofOption (fun c => .ofString c.toString) escape), ("ignore_case", .bool ignoreCase)]
  | .function name args =>
    recordJson "Function" [("name", .ofString name), ("args", .array (listJsonWith literal args))]
  | .aggregate name column =>
    recordJson "Aggregate" [("function", .ofString name), ("field", .ofOption Json.ofString column)]
  | .compareFields left right op =>
    recordJson "PropertyCompare"
      [("left", .ofString left), ("right", .ofString right), ("op", .ofString op.tag)]
  | .select expr label distinct =>
    recordJson "Select"
      [("expr", expr.toJsonWith literal), ("alias", .ofOption Json.ofString label),
        ("distinct", .bool distinct)]
  | .order expr ascending =>
    recordJson "Order" [("expr", expr.toJsonWith literal), ("ascending", .bool ascending)]

def Expr.listJsonWith (literal : Value → Json) : List Expr → List Json
  | [] => []
  | e :: es => e.toJsonWith literal :: listJsonWith literal es

end

def Expr.toJson (e : Expr) : Json := e.toJsonWith Value.toJson

/-! ## Reading -/

namespace Expr

def ofLeaf? (room : Nat) (tag : String) (fields : List String → Option (List (Option Json))) :
    Option Expr :=
  match tag with
  | "Field" => do
    let [name, table] ← fields ["name", "table"] | none
    return .field (← Json.required? Json.text? name) (← Json.nullable? Json.text? table)
  | "Aggregate" => do
    let [name, column] ← fields ["function", "field"] | none
    return .aggregate (← Json.required? Json.text? name) (← Json.nullable? Json.text? column)
  | "PropertyCompare" => do
    let [left, right, op] ← fields ["left", "right", "op"] | none
    return .compareFields (← Json.required? Json.text? left) (← Json.required? Json.text? right)
      (← Json.required? (Json.oneOf? room CompareOp.ofTag?) op)
  | _ => none

/-- The record of a form: `part` reads an expression in it, and `parts` a list of them. -/
def ofRecord? (room : Nat) (part : Json → Option Expr) (parts : Json → Option (List Expr)) (tag : String)
    (fields : List String → Option (List (Option Json))) : Option Expr :=
  match tag with
  | "Compare" => do
    let [left, op, right] ← fields ["left", "op", "right"] | none
    return .compare (← Json.required? part left) (← Json.required? (Json.oneOf? room CompareOp.ofTag?) op)
      (← Json.required? part right)
  | "Logical" => do
    let [left, op, right] ← fields ["left", "op", "right"] | none
    return .logical (← Json.required? part left) (← Json.required? (Json.oneOf? room LogicalOp.ofTag?) op)
      (← Json.required? part right)
  | "Junction" => do
    let [op, exprs] ← fields ["op", "exprs"] | none
    return .junction (← Json.required? (Json.oneOf? room LogicalOp.ofTag?) op)
      (← Json.required? parts exprs)
  | "IsNull" => do
    let [expr, negated] ← fields ["expr", "negated"] | none
    return .isNull (← Json.required? part expr) (← Json.required? Json.bool? negated)
  | "Between" => do
    let [expr, low, high] ← fields ["expr", "low", "high"] | none
    return .between (← Json.required? part expr) (← Json.required? part low) (← Json.required? part high)
  | "In" => do
    let [expr, values, negated] ← fields ["expr", "values", "negated"] | none
    return .inList (← Json.required? part expr) (← Json.required? parts values)
      (← Json.required? Json.bool? negated)
  | "Like" => do
    let [expr, pattern, mode, escape, ignoreCase] ←
      fields ["expr", "pattern", "mode", "escape", "ignore_case"] | none
    return .like (← Json.required? part expr) (← Json.required? Json.text? pattern)
      (← Json.required? (Json.oneOf? room MatchMode.ofTag?) mode) (← Json.nullable? Json.char? escape)
      (← Json.required? Json.bool? ignoreCase)
  | "Function" => do
    let [name, args] ← fields ["name", "args"] | none
    return .function (← Json.required? Json.text? name) (← Json.required? parts args)
  | "Select" => do
    let [expr, label, distinct] ← fields ["expr", "alias", "distinct"] | none
    return .select (← Json.required? part expr) (← Json.nullable? Json.text? label)
      (← Json.required? Json.bool? distinct)
  | "Order" => do
    let [expr, ascending] ← fields ["expr", "ascending"] | none
    return .order (← Json.required? part expr) (← Json.required? Json.bool? ascending)
  | _ => ofLeaf? room tag fields

mutual

/-- Reads an expression with some levels of nesting left. Its own object takes one level, and the record in it
another. -/
def ofJson? : Nat → Json → Option Expr
  | 0, _ => none
  | room + 1, j =>
    match j with
    | .object [(some tag, content)] =>
      if tag = "Literal" then (Value.ofJson? room content).map .literal
      else if tag = "Plain" then content.text?.map .plain
      else if tag = "Not" then (ofJson? room content).map .not
      else
        match room with
        | 0 => none
        | inner + 1 => ofRecord? inner (ofJson? inner) (listOfJson? inner) tag fun names => content.fields? names
    | _ => none

def listOfJson? : Nat → Json → Option (List Expr)
  | 0, _ => none
  | room + 1, j =>
    match j with
    | .array items => items.mapM (ofJson? room)
    | _ => none

end

end Expr

end SqlMapping
