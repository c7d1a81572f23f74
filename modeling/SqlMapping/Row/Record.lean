import SqlMapping.Data.Keyed
import SqlMapping.Row.MappedType
import SqlMapping.Value.Storage

/-!
# Records

Types that are described by data alone. A record keeps the constructor it was made with, its arguments
and what was assigned to its members, each value as its place stores it.
-/

namespace SqlMapping

structure RecordMember where
  name : String
  type : MemberType
  kind : MemberKind := .property
  storage : Storage := .any
  readable : Bool := true
  deriving DecidableEq

structure RecordParameter where
  name : String
  type : MemberType
  storage : Storage := .any
  deriving DecidableEq

structure RecordConstructor where
  visibility : Visibility := .everyone
  parameters : List RecordParameter := []
  deriving DecidableEq

structure RecordType where
  name : String
  members : List RecordMember := []
  constructors : List RecordConstructor := []
  deriving DecidableEq

structure Record where
  constructor : Nat := 0
  arguments : List Value := []
  /-- Values of the members, by index. -/
  values : Keyed Nat Value := []
  /-- Indexes of the members assigned, in order and with repetitions. -/
  assigned : List Nat := []
  deriving DecidableEq

namespace Record

def ofValues (vs : List Value) : Record := { values := (List.range vs.length).zip vs }

def value (r : Record) (member : Nat) : Value := (r.values.find? member).getD .null

end Record

namespace RecordType

variable (t : RecordType)

def info : TypeInfo where
  name := t.name
  members := t.members.map fun m => ⟨m.name, m.type, m.kind⟩
  constructors := t.constructors.map fun c =>
    ⟨c.visibility, c.parameters.map fun p => ⟨p.name, p.type⟩⟩

def store (s : Storage) (v : Value) : Except Error Value :=
  match s.take v with
  | .ok w => .ok w
  | .error e => .error (.value e)

def storeAll : List RecordParameter → List Value → Except Error (List Value)
  | p :: ps, v :: vs =>
    match store p.storage v with
    | .error e => .error e
    | .ok w =>
      match storeAll ps vs with
      | .error e => .error e
      | .ok ws => .ok (w :: ws)
  | _, _ => .ok []

def construct (constructor : Nat) (args : List Value) : Except Error Record :=
  let parameters := match t.constructors[constructor]? with
    | some c => c.parameters
    | none => []
  (storeAll parameters args).map fun arguments => { constructor, arguments }

def assign (r : Record) (member : Nat) (v : Value) : Except Error Record :=
  let storage := match t.members[member]? with
    | some m => m.storage
    | none => .any
  (store storage v).map fun w =>
    { r with values := r.values.insert member w, assigned := r.assigned ++ [member] }

def memberValue (r : Record) (member : Nat) : Except Error Value :=
  match t.members[member]? with
  | some m => if m.readable then .ok (r.value member) else .error (.invalidArgument (.unreadableMember member))
  | none => .ok (r.value member)

def mapping : Mapping Record where
  info := t.info
  construct := t.construct
  assign := t.assign
  memberValue := t.memberValue

end RecordType

end SqlMapping
