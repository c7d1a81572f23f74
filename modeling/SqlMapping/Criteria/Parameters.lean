import SqlMapping.Error
import Std.Data.HashSet.Basic

/-!
# Parameters

The parameters of a statement, in the order they were registered, under names that are all different.
Generated names count up and are used once, also after a failure. Whether a name is taken is read off the entries, or
asked of a set of names that is kept beside them.
-/

namespace SqlMapping

structure ParameterSet where
  entries : List (String × Value) := []
  /-- Number of the next generated name. -/
  next : Nat := 0
  deriving DecidableEq

def generatedName (n : Nat) : String := "p_" ++ toString n

namespace ParameterSet

def names (ps : ParameterSet) : List String := ps.entries.map Prod.fst

def size (ps : ParameterSet) : Nat := ps.entries.length

def isEmpty (ps : ParameterSet) : Bool := ps.entries.isEmpty

def get? (ps : ParameterSet) (name : String) : Option Value :=
  (ps.entries.find? fun e => e.1 == name).map Prod.snd

def registerNamed (ps : ParameterSet) (name : String) (v : Value) : Except Error Unit × ParameterSet :=
  if ps.names.contains name then (.error (.duplicateParameter name), ps)
  else (.ok (), { ps with entries := ps.entries ++ [(name, v)] })

def register (ps : ParameterSet) (v : Value) : Except Error String × ParameterSet :=
  let name := generatedName ps.next
  match registerNamed { ps with next := ps.next + 1 } name v with
  | (.ok (), ps) => (.ok name, ps)
  | (.error e, ps) => (.error e, ps)

end ParameterSet

/-- Entries with a set of names, which is asked whether a name is taken. -/
structure IndexedParameters where
  entries : List (String × Value) := []
  known : Std.HashSet String := {}
  next : Nat := 0

namespace IndexedParameters

/-- The name goes into the set first, and the entry follows if it was not there. -/
def registerNamed (s : IndexedParameters) (name : String) (v : Value) : Except Error Unit × IndexedParameters :=
  let (taken, known) := s.known.containsThenInsert name
  if taken then (.error (.duplicateParameter name), { s with known })
  else (.ok (), { s with entries := s.entries ++ [(name, v)], known })

def register (s : IndexedParameters) (v : Value) : Except Error String × IndexedParameters :=
  let name := generatedName s.next
  match registerNamed { s with next := s.next + 1 } name v with
  | (.ok (), s) => (.ok name, s)
  | (.error e, s) => (.error e, s)

end IndexedParameters

end SqlMapping
