import SqlMapping.Criteria.Render

/-!
# Meanings of conditions

A condition is put together from fields of a table and values by comparisons, connectives and tests. A
`Meaning` says what each of these does; three-valued logic over the rows of a table is one of them. In a
condition that is grouped from the left, no operand needs parentheses that it is not rendered with.
-/

namespace SqlMapping

/-- What the parts of a condition do to the meanings of their operands. -/
structure Meaning (α : Type) where
  column : String → α
  literal : Value → α
  truth : Bool → α
  compare : CompareOp → α → α → α
  nullTest : Bool → α → α
  between : α → α → α → α
  member : Bool → α → List α → α
  join : LogicalOp → List α → α
  negate : α → α
  /-- Of one operand it makes no difference how it is joined. -/
  join_single : ∀ op a, join op [a] = join .and [a]

mutual

/-- The meaning of a condition over a table. An empty junction is true, an empty list has no members, and
equality with a null literal is a null test. -/
def Expr.meaning {α : Type} (m : Meaning α) (t : Table) : Expr → α
  | .field name _ =>
    match t.column? name with
    | some c => m.column c.name
    | none => m.literal .null
  | .literal v => m.literal v
  | .compare left op right =>
    match RenderContext.nullComparison? op right with
    | some negated => m.nullTest negated (Expr.meaning m t left)
    | none => m.compare op (Expr.meaning m t left) (Expr.meaning m t right)
  | .logical left op right => m.join op [Expr.meaning m t left, Expr.meaning m t right]
  | .junction _ [] => m.truth true
  | .junction op (e :: es) => m.join op (Expr.meaning m t e :: Expr.meanings m t es)
  | .not expr => m.negate (Expr.meaning m t expr)
  | .isNull expr negated => m.nullTest negated (Expr.meaning m t expr)
  | .between expr low high =>
    m.between (Expr.meaning m t expr) (Expr.meaning m t low) (Expr.meaning m t high)
  | .inList _ [] negated => m.truth negated
  | .inList expr (v :: vs) negated =>
    m.member negated (Expr.meaning m t expr) (Expr.meaning m t v :: Expr.meanings m t vs)
  | _ => m.literal .null

def Expr.meanings {α : Type} (m : Meaning α) (t : Table) : List Expr → List α
  | [] => []
  | e :: es => Expr.meaning m t e :: Expr.meanings m t es

end

/-! ## Three-valued logic -/

abbrev Truth := Option Bool

namespace Truth

def not (p : Truth) : Truth := p.map Bool.not

def and : Truth → Truth → Truth
  | some false, _ | _, some false => some false
  | some true, some true => some true
  | _, _ => none

def or : Truth → Truth → Truth
  | some true, _ | _, some true => some true
  | some false, some false => some false
  | _, _ => none

theorem and_true (p : Truth) : p.and (some true) = p := by
  rcases p with _ | _ | _ <;> rfl

theorem or_false (p : Truth) : p.or (some false) = p := by
  rcases p with _ | _ | _ <;> rfl

def toValue : Truth → Value
  | some b => .bool b
  | none => .null

end Truth

/-- How a database compares values other than null, and which truth it sees in values that are neither null
nor booleans. -/
structure Interpretation where
  compare : CompareOp → Value → Value → Truth
  truth : Value → Truth

namespace Interpretation

variable (i : Interpretation)

def truthOf : Value → Truth
  | .null => none
  | .bool b => some b
  | v => i.truth v

def compared (op : CompareOp) (v w : Value) : Truth :=
  if v.isNull || w.isNull then none else i.compare op v w

def allOf (vs : List Value) : Truth := vs.foldr (fun v p => (i.truthOf v).and p) (some true)

def anyOf (vs : List Value) : Truth := vs.foldr (fun v p => (i.truthOf v).or p) (some false)

def found (v : Value) (ws : List Value) : Truth := ws.foldr (fun w p => (i.compared .eq v w).or p) (some false)

def joined : LogicalOp → List Value → Truth
  | .and => i.allOf
  | .or => i.anyOf

/-- Three-valued logic on a row, which has a value for each column name. -/
def onRow (row : String → Value) : Meaning Value where
  column := row
  literal v := v
  truth b := .bool b
  compare op v w := (i.compared op v w).toValue
  nullTest negated v := .bool (v.isNull != negated)
  between v low high := ((i.compared .ge v low).and (i.compared .le v high)).toValue
  member negated v ws := (if negated then (i.found v ws).not else i.found v ws).toValue
  join op vs := (i.joined op vs).toValue
  negate v := (i.truthOf v).not.toValue
  join_single op v := by
    cases op with
    | and => rfl
    | or => simp [joined, allOf, anyOf, Truth.and_true, Truth.or_false]

end Interpretation

/-! ## Conditions -/

namespace Expr

mutual

def isCondition (t : Table) : Expr → Bool
  | .field name _ => (t.column? name).isSome
  | .literal _ => true
  | .compare left _ right | .logical left _ right => isCondition t left && isCondition t right
  | .junction _ exprs => areConditions t exprs
  | .not expr | .isNull expr _ => isCondition t expr
  | .between expr low high => isCondition t expr && isCondition t low && isCondition t high
  | .inList expr values _ => isCondition t expr && areConditions t values
  | _ => false

def areConditions (t : Table) : List Expr → Bool
  | [] => true
  | e :: es => isCondition t e && areConditions t es

end

/-- The text does not end within the operand of a negation that has no parentheses. -/
def isClosed (d : Dialect) : Expr → Bool
  | .not _ => d.parenthesizeNot
  | .compare _ op right => (RenderContext.nullComparison? op right).isSome || isClosed d right
  | .between _ _ high => isClosed d high
  | _ => true

/-- No comparison and no test, which take up what stands to the left of them. -/
def isOperand : Expr → Bool
  | .compare .. | .isNull .. | .between .. => false
  | .inList _ values _ => values.isEmpty
  | _ => true

mutual

/-- Comparisons and tests are grouped from the left, and negations reach as far as they can: what stands to
the left of a comparison or test is closed, and what stands to the right is an operand. -/
def isGrouped (d : Dialect) : Expr → Bool
  | .compare left op right =>
    isClosed d left && isGrouped d left &&
      ((RenderContext.nullComparison? op right).isSome || isOperand right && isGrouped d right)
  | .logical left _ right => isGrouped d left && isGrouped d right
  | .junction _ exprs => areGrouped d exprs
  | .not expr => isGrouped d expr
  | .isNull expr _ => isClosed d expr && isGrouped d expr
  | .between expr low high =>
    isClosed d expr && isGrouped d expr && isGrouped d low && isOperand high && isGrouped d high
  | .inList _ [] _ => true
  | .inList expr (v :: vs) _ => isClosed d expr && isGrouped d expr && isGrouped d v && areGrouped d vs
  | _ => true

def areGrouped (d : Dialect) : List Expr → Bool
  | [] => true
  | e :: es => isGrouped d e && areGrouped d es

end

end Expr

end SqlMapping
