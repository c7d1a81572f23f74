import SqlMapping.Catalog.Table
import SqlMapping.Config
import SqlMapping.Row.Conversion
import SqlMapping.Row.Shape

/-!
# Materializers

A materializer makes an instance of a type from a row. It is compiled once for a shape: each column is
bound to a member, or all columns to the parameters of one constructor, with the conversions they need.
-/

namespace SqlMapping

structure ColumnBinding where
  ordinal : Nat
  column : String
  /-- Index of the member, or of the parameter. -/
  slot : Nat
  member : String
  type : MemberType
  deriving DecidableEq

structure Materializer where
  typeName : String
  constructor : Nat
  /-- Whether the constructor takes the values; otherwise they are assigned to members. -/
  viaParameters : Bool
  bindings : List ColumnBinding
  deriving DecidableEq

/-! ## Running -/

abbrev RowReader := Nat → Except Error Value

namespace ColumnBinding

def read (b : ColumnBinding) (row : RowReader) (typeName : String) : Except Error Value :=
  match row b.ordinal with
  | .error e => .error e
  | .ok v =>
    match b.type.convert? v with
    | some w => .ok w
    | none => .error (.conversion ⟨typeName, b.member, b.column, v.kind, b.type.display⟩)

end ColumnBinding

namespace Materializer

variable {α : Type}

def arguments (row : RowReader) (typeName : String) : List ColumnBinding → Except Error (List Value)
  | [] => .ok []
  | b :: bs =>
    match b.read row typeName with
    | .error e => .error e
    | .ok v =>
      match arguments row typeName bs with
      | .error e => .error e
      | .ok vs => .ok (v :: vs)

def assignAll (m : Mapping α) (row : RowReader) (typeName : String) (target : α) :
    List ColumnBinding → Except Error α
  | [] => .ok target
  | b :: bs =>
    match b.read row typeName with
    | .error e => .error e
    | .ok v =>
      match m.assign target b.slot v with
      | .error e => .error e
      | .ok target => assignAll m row typeName target bs

def run (p : Materializer) (m : Mapping α) (row : RowReader) : Except Error α :=
  if p.viaParameters then
    match arguments row p.typeName p.bindings with
    | .error e => .error e
    | .ok args => m.construct p.constructor args
  else
    match m.construct p.constructor [] with
    | .error e => .error e
    | .ok target => assignAll m row p.typeName target p.bindings

end Materializer

/-! ## Compiling -/

namespace RowShape

def resolvedName (table : Option Table) (name : String) : String :=
  match table.bind fun t => t.column? name with
  | some column => column.memberName
  | none => name

def resolvedNames (s : RowShape) (table : Option Table) : List String := s.names.map (resolvedName table)

def bindsConstructor (s : RowShape) (table : Option Table) : Bool :=
  match table with
  | none => false
  | some t =>
    s.names.any fun name =>
      match (t.column? name).bind Column.member with
      | some m => m.kind == .constructorParameter
      | none => false

end RowShape

namespace TypeInfo

variable (t : TypeInfo)

/-- Bindings of columns to members, with the ordinal of the first column. A column without a member is
skipped, or refused when the columns are strict. -/
def memberBindings (config : MapperConfig) (proposed : String) (table : Option Table) :
    Nat → List String → Except Error (List ColumnBinding)
  | _, [] => .ok []
  | ordinal, column :: columns =>
    let name := RowShape.resolvedName table column
    match t.memberIndex? name config.caseInsensitiveMembers with
    | none =>
      if config.strictColumns then
        .error (.mapping ⟨t.name, proposed, [], some ("column '" ++ name ++ "' has no matching member")⟩)
      else memberBindings config proposed table (ordinal + 1) columns
    | some slot =>
      match memberBindings config proposed table (ordinal + 1) columns with
      | .error e => .error e
      | .ok rest =>
        match t.members[slot]? with
        | some m => .ok (⟨ordinal, column, slot, m.name, m.type⟩ :: rest)
        | none => .ok rest

def compileMembers (constructor : Nat) (shape : RowShape) (table : Option Table) (config : MapperConfig) :
    Except Error Materializer :=
  (t.memberBindings config shape.signature table 0 shape.names).map fun bindings =>
    ⟨t.name, constructor, false, bindings⟩

end TypeInfo

namespace Constructor

def before (c c' : Constructor) : Bool :=
  c'.visibility.rank < c.visibility.rank
    || (c.visibility.rank == c'.visibility.rank && c.parameters.length < c'.parameters.length)

def place (c : Nat × Constructor) : List (Nat × Constructor) → List (Nat × Constructor)
  | [] => [c]
  | c' :: cs => if c'.2.before c.2 then c' :: place c cs else c :: c' :: cs

/-- Constructors with their indexes in the order in which they are tried, ties as declared. -/
def trialOrder (cs : List (Nat × Constructor)) : List (Nat × Constructor) := cs.foldr place []

def matchesColumns : List Parameter → List String → List (Option Kind) → Bool
  | [], [], _ => true
  | p :: ps, name :: names, kinds =>
    sameName p.name name && p.type.accepts (kinds.head?.bind id) && matchesColumns ps names kinds.tail
  | _, _, _ => false

end Constructor

def indexed {α : Type} : Nat → List α → List (Nat × α)
  | _, [] => []
  | i, x :: xs => (i, x) :: indexed (i + 1) xs

namespace TypeInfo

variable (t : TypeInfo)

def parameterBindings (parameters : List Parameter) (columns : List String) : List ColumnBinding :=
  (indexed 0 (parameters.zip columns)).map fun (ordinal, p, column) =>
    ⟨ordinal, column, ordinal, p.name, p.type⟩

def compileConstructor (shape : RowShape) (table : Option Table) : Except Error Materializer :=
  let order := Constructor.trialOrder (indexed 0 t.constructors)
  let names := shape.resolvedNames table
  let kinds := shape.columns.map Prod.snd
  match order.find? fun c => Constructor.matchesColumns c.2.parameters names kinds with
  | some (i, c) => .ok ⟨t.name, i, true, parameterBindings c.parameters shape.names⟩
  | none => .error (.mapping ⟨t.name, shape.signature, order.map fun c => c.2.signature, none⟩)

/-- The materializer for a shape. A parameterless constructor and assignments are preferred, unless the
table binds a column to a constructor parameter. -/
def compile (shape : RowShape) (table : Option Table) (config : MapperConfig) :
    Except Error Materializer :=
  match t.parameterless? with
  | some constructor =>
    if shape.bindsConstructor table then t.compileConstructor shape table
    else t.compileMembers constructor shape table config
  | none => t.compileConstructor shape table

end TypeInfo

end SqlMapping
