import SqlMapping.Plan.Cache

/-!
# Row mappers

A row mapper turns results into instances and instances into parameters, with the tables of a registry
and the plans of a cache, which several mappers may share.
-/

namespace SqlMapping

/-- Makes something from every remaining row, up to the first failure. -/
def readRows {γ β : Type} [RowCursor γ] (make : RowReader → Except Error β) (c : γ) :
    Except Error (List β) × γ :=
  match _ : RowCursor.read c with
  | (.error e, c') => (.error e, c')
  | (.ok false, c') => (.ok [], c')
  | (.ok true, c') =>
    match make (RowCursor.value c') with
    | .error e => (.error e, c')
    | .ok row =>
      match readRows make c' with
      | (.error e, c'') => (.error e, c'')
      | (.ok rows, c'') => (.ok (row :: rows), c'')
termination_by RowCursor.remaining c
decreasing_by exact RowCursor.remaining_lt ‹_›

/-- Makes something from every remaining row, with the failures among them, up to a failed read. -/
def everyRow {γ β : Type} [RowCursor γ] (make : RowReader → Except Error β) (c : γ) :
    List (Except Error β) × Option Error :=
  match _ : RowCursor.read c with
  | (.error e, _) => ([], some e)
  | (.ok false, _) => ([], none)
  | (.ok true, c') =>
    let (rows, failed) := everyRow make c'
    (make (RowCursor.value c') :: rows, failed)
termination_by RowCursor.remaining c
decreasing_by exact RowCursor.remaining_lt ‹_›

namespace PlanCache

variable {γ α : Type} [RowCursor γ]

def dynamicMaterializer (cache : PlanCache) (id : QueryIdentity) (cursor : γ) :
    Except Error (Served DynamicMaterializer) × PlanCache :=
  cache.getOrCompile .dynamic id cursor fun shape => .ok (DynamicMaterializer.compile shape none)

def queryDynamic (cache : PlanCache) (id : QueryIdentity) (cursor : γ) :
    Except Error (List DynamicRow) × γ × PlanCache :=
  match cache.dynamicMaterializer id cursor with
  | (.error e, cache) => (.error e, cursor, cache)
  | (.ok served, cache) =>
    let (rows, cursor) := readRows served.materializer.run cursor
    (rows, cursor, cache)

def bindParameters (cache : PlanCache) (type : Nat) (mapping : Mapping α) (id : QueryIdentity)
    (marker : String) (params : α) : Except Error (List (String × Value)) × PlanCache :=
  let (stored, cache) := cache.binderOrCompile id (.mapped type) marker
    (ParameterBinder.compile mapping.info id.sql marker)
  (stored.binder.bind mapping params, cache)

end PlanCache

structure RowMapper where
  registry : Registry := {}
  config : MapperConfig := {}

namespace RowMapper

variable (m : RowMapper) {γ α : Type} [RowCursor γ]

def compile (type : Nat) (info : TypeInfo) (shape : RowShape) : Except Error Materializer :=
  info.compile shape (m.registry.tableFor? (.mapped type)) m.config

def materializer (type : Nat) (info : TypeInfo) (id : QueryIdentity) (cursor : γ) (cache : PlanCache) :
    Except Error (Served Materializer) × PlanCache :=
  cache.getOrCompile (.mapped type) id cursor (m.compile type info)

def query (type : Nat) (mapping : Mapping α) (id : QueryIdentity) (cursor : γ) (cache : PlanCache) :
    Except Error (List α) × γ × PlanCache :=
  match m.materializer type mapping.info id cursor cache with
  | (.error e, cache) => (.error e, cursor, cache)
  | (.ok served, cache) =>
    let (rows, cursor) := readRows (served.materializer.run mapping) cursor
    (rows, cursor, cache)

def describe (cache : PlanCache) : String :=
  "RowMapper \x7b cache: " ++ cache.describe ++ ", config: MapperConfig \x7b cache: "
    ++ PlanCache.describeConfig m.config.cache ++ ", strict_columns: " ++ boolText m.config.strictColumns
    ++ ", case_insensitive_members: " ++ boolText m.config.caseInsensitiveMembers ++ " \x7d, .. \x7d"

end RowMapper

end SqlMapping
