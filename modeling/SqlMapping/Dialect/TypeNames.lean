import SqlMapping.Catalog.DbType
import SqlMapping.Data.Keyed
import SqlMapping.Text.Replace

/-!
# Type names

A logical type has a default name and names for lengths up to some capacity. A sized look-up takes the
smallest capacity that holds the length. In a name, `$l`, `$p` and `$s` stand for length, precision and
scale.
-/

namespace SqlMapping

/-- The names of one logical type; those with a capacity in increasing order of it. -/
structure TypeEntry where
  default : Option String := none
  sized : List (Nat × String) := []
  deriving DecidableEq

abbrev TypeNames := Keyed DbType TypeEntry

def defaultPrecision : Nat := 19

def defaultScale : Nat := 5

def insertCapacity (capacity : Nat) (template : String) : List (Nat × String) → List (Nat × String)
  | [] => [(capacity, template)]
  | (c, t) :: rest =>
    if capacity < c then (capacity, template) :: (c, t) :: rest
    else if capacity = c then (capacity, template) :: rest
    else (c, t) :: insertCapacity capacity template rest

def fillTypeName (template : String) (length precision scale : Nat) : String :=
  let l := replacePair '$' 'l' (toString length).toList template.toList
  let p := replacePair '$' 'p' (toString precision).toList l
  String.ofList (replacePair '$' 's' (toString scale).toList p)

namespace TypeNames

def entry (ts : TypeNames) (type : DbType) : TypeEntry := (ts.find? type).getD {}

def put (ts : TypeNames) (type : DbType) (template : String) : TypeNames :=
  ts.insert type { ts.entry type with default := some template }

def putSized (ts : TypeNames) (type : DbType) (capacity : Nat) (template : String) : TypeNames :=
  let e := ts.entry type
  ts.insert type { e with sized := insertCapacity capacity template e.sized }

def add (ts : TypeNames) (type : DbType) (template : String) : Option Nat → TypeNames
  | some capacity => ts.putSized type capacity template
  | none => ts.put type template

def clear (ts : TypeNames) (type : DbType) : TypeNames := ts.erase type

def get? (ts : TypeNames) (type : DbType) : Option String := (ts.entry type).default

/-- The name for a length: that of the smallest capacity that holds it, else the default. -/
def template? (ts : TypeNames) (type : DbType) (length : Nat) : Option String :=
  match (ts.entry type).sized.find? fun c => length ≤ c.1 with
  | some c => some c.2
  | none => ts.get? type

def getSized? (ts : TypeNames) (type : DbType) (length precision scale : Nat) : Option String :=
  (ts.template? type length).map fun t => fillTypeName t length precision scale

def contains (ts : TypeNames) (type : DbType) : Bool :=
  let e := ts.entry type
  e.default.isSome || !e.sized.isEmpty

end TypeNames

end SqlMapping
