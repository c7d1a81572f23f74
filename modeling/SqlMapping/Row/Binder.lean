import SqlMapping.Text.Ascii
import SqlMapping.Text.Quoted
import SqlMapping.Row.MappedType

/-!
# Binding parameters

The placeholders of an SQL text are the words that follow a parameter marker outside string literals. A
binder pairs them with the members of a type, and gives the values of an instance under these names.
-/

namespace SqlMapping

/-- Words after a marker. `before` holds the characters passed, last first; the next `skip` characters
belong to a marker and word already seen. A marker next to another is none. -/
def scanPlaceholders (marker : List Char) :
    (before : List Char) → (inLiteral : Bool) → (skip : Nat) → List Char → List (List Char)
  | _, _, _, [] => []
  | before, inLiteral, skip + 1, c :: cs => scanPlaceholders marker (c :: before) inLiteral skip cs
  | before, inLiteral, 0, c :: cs =>
    if c = '\x27' then scanPlaceholders marker (c :: before) (!inLiteral) 0 cs
    else if inLiteral || !marker.isPrefixOf (c :: cs) then
      scanPlaceholders marker (c :: before) inLiteral 0 cs
    else
      let rest := (c :: cs).drop marker.length
      let word := rest.takeWhile isWordChar
      let doubled := marker.isPrefixOf rest || marker.reverse.isPrefixOf before
      let found := if doubled || word.isEmpty then [] else [word]
      found ++ scanPlaceholders marker (c :: before) false (marker.length + word.length - 1) cs

def placeholders (sql marker : String) : List String :=
  if marker.isEmpty then []
  else (scanPlaceholders marker.toList [] false 0 sql.toList).map String.ofList

structure ParameterBinder where
  slots : List (String × Nat)
  deriving DecidableEq

namespace ParameterBinder

/-- Keeps the first placeholder of each name that a member has, in any case. -/
def collect (info : TypeInfo) (slots : List (String × Nat)) : List String → List (String × Nat)
  | [] => slots
  | name :: names =>
    if slots.any fun s => sameName s.1 name then collect info slots names
    else match info.memberIndex? name true with
      | some member => collect info (slots ++ [(name, member)]) names
      | none => collect info slots names

def compile (info : TypeInfo) (sql marker : String) : ParameterBinder :=
  ⟨collect info [] (placeholders sql marker)⟩

def names (b : ParameterBinder) : List String := b.slots.map Prod.fst

def bindSlots {α : Type} (m : Mapping α) (instance_ : α) :
    List (String × Nat) → Except Error (List (String × Value))
  | [] => .ok []
  | (name, member) :: slots =>
    match m.memberValue instance_ member with
    | .error e => .error e
    | .ok v =>
      match bindSlots m instance_ slots with
      | .error e => .error e
      | .ok rest => .ok ((name, v) :: rest)

def bind {α : Type} (b : ParameterBinder) (m : Mapping α) (instance_ : α) :
    Except Error (List (String × Value)) :=
  bindSlots m instance_ b.slots

def describe (b : ParameterBinder) : String :=
  let slot (s : String × Nat) : String := "(" ++ displayText s.1 ++ ", " ++ toString s.2 ++ ")"
  "ParameterBinder \x7b slots: [" ++ ", ".intercalate (b.slots.map slot) ++ "] \x7d"

end ParameterBinder

end SqlMapping
