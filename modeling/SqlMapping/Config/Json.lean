import SqlMapping.Config
import SqlMapping.Json.Decode

/-!
# Settings in JSON

Settings are records in which every field has a default.
-/

namespace SqlMapping

def Json.withDefault? {α : Type} (default : α) (f : Json → Option α) : Option Json → Option α
  | none => some default
  | some j => f j

def Json.natural? (j : Json) : Option Nat :=
  match j.number? with
  | some (.natural n) => some n
  | _ => none

namespace CacheConfig

def toJson (c : CacheConfig) : Json :=
  Json.ofFields [("collect_every", Json.ofInt c.collectEvery), ("min_hits", Json.ofInt c.minHits)]

def ofJson? (j : Json) : Option CacheConfig := do
  let [collectEvery, minHits] ← j.record? ["collect_every", "min_hits"] true | none
  let default : CacheConfig := {}
  return ⟨← Json.withDefault? default.collectEvery Json.natural? collectEvery,
    ← Json.withDefault? default.minHits Json.natural? minHits⟩

end CacheConfig

namespace MapperConfig

def toJson (c : MapperConfig) : Json :=
  Json.ofFields
    [("cache", c.cache.toJson), ("strict_columns", .bool c.strictColumns),
      ("case_insensitive_members", .bool c.caseInsensitiveMembers)]

def ofJson? (j : Json) : Option MapperConfig := do
  let [cache, strict, ignoreCase] ←
    j.record? ["cache", "strict_columns", "case_insensitive_members"] true | none
  let default : MapperConfig := {}
  return ⟨← Json.withDefault? default.cache CacheConfig.ofJson? cache,
    ← Json.withDefault? default.strictColumns Json.bool? strict,
    ← Json.withDefault? default.caseInsensitiveMembers Json.bool? ignoreCase⟩

def read (text : String) : Except Error MapperConfig :=
  match (Json.read text).bind ofJson? with
  | none => .error (.invalidArgument .unreadableConfig)
  | some c =>
    match c.cache.check with
    | .error e => .error e
    | .ok () => .ok c

end MapperConfig

end SqlMapping
