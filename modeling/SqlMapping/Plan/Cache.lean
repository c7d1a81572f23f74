import SqlMapping.Config
import SqlMapping.Plan.Identity
import SqlMapping.Row.Binder
import SqlMapping.Row.Dynamic

/-!
# The plan cache

A plan is a compiled materializer with the shape it was compiled for. The cache keeps one plan for an
identity: a look-up with the same shape and type is served by it and counts a hit; any other compiles
afresh. At every so many new plans a collection drops those that were hardly used. Plans and binders
carry serial numbers, which tell instances apart; plans that left the cache are kept aside, because a
caller may still hold them.
-/

namespace SqlMapping

inductive Recipe where
  | mapped (type : Nat) (materializer : Materializer)
  | dynamic (materializer : DynamicMaterializer)
  deriving DecidableEq

def Recipe.type : Recipe → TypeKey
  | .mapped type _ => .mapped type
  | .dynamic _ => .dynamic

/-- A kind of recipe that can be put into a plan and taken out again. -/
structure RecipeKind (ρ : Type) where
  wrap : ρ → Recipe
  unwrap? : Recipe → Option ρ
  unwrap_wrap : ∀ m, unwrap? (wrap m) = some m

namespace RecipeKind

def mapped (type : Nat) : RecipeKind Materializer where
  wrap := .mapped type
  unwrap?
    | .mapped t m => if t = type then some m else none
    | .dynamic _ => none
  unwrap_wrap := by simp

def dynamic : RecipeKind DynamicMaterializer where
  wrap := .dynamic
  unwrap?
    | .mapped _ _ => none
    | .dynamic m => some m
  unwrap_wrap := by simp

end RecipeKind

structure StoredBinder where
  serial : Nat
  type : TypeKey
  binder : ParameterBinder
  deriving DecidableEq

structure CachedPlan where
  serial : Nat
  /-- Column names of the shape the plan was compiled for. -/
  shape : List String
  recipe : Recipe
  /-- Binders by the parameter marker they were compiled for. -/
  binders : Keyed String StoredBinder := []
  hits : Nat := 0
  deriving DecidableEq

structure CacheStats where
  hits : Nat := 0
  misses : Nat := 0
  /-- Plans replaced by one for another shape or type. -/
  recompiles : Nat := 0
  collected : Nat := 0
  deriving DecidableEq

structure PlanCache where
  config : CacheConfig := {}
  entries : Keyed QueryIdentity CachedPlan := []
  /-- Plans that left the cache. -/
  retired : List CachedPlan := []
  insertions : Nat := 0
  stats : CacheStats := {}
  nextPlan : Nat := 0
  nextBinder : Nat := 0

structure Served (ρ : Type) where
  serial : Nat
  materializer : ρ

namespace CacheStats

def hitRate (s : CacheStats) : Double :=
  let total := s.hits + s.misses + s.recompiles
  if total = 0 then Double.ofInt 0 else (Double.ofInt s.hits).quotient (Double.ofInt total)

end CacheStats

namespace CachedPlan

def serves? {ρ : Type} (p : CachedPlan) (kind : RecipeKind ρ) (shape : RowShape) : Option ρ :=
  if p.shape = shape.names then kind.unwrap? p.recipe else none

def binder? (p : CachedPlan) (type : TypeKey) (marker : String) : Option StoredBinder :=
  (p.binders.find? marker).filter fun b => b.type = type

end CachedPlan

namespace PlanCache

def make (config : CacheConfig) : Except Error PlanCache :=
  match config.check with
  | .error e => .error e
  | .ok () => .ok { config }

variable (c : PlanCache)

def plan? (id : QueryIdentity) : Option CachedPlan := c.entries.find? id

def size : Nat := c.entries.length

def isEmpty : Bool := c.entries.isEmpty

def retire (id : QueryIdentity) : PlanCache :=
  { c with retired := (c.plan? id).toList ++ c.retired }

def remove (id : QueryIdentity) : Option CachedPlan × PlanCache :=
  (c.plan? id, { c.retire id with entries := c.entries.erase id })

def clear : PlanCache :=
  { c with entries := [], retired := c.entries.map Prod.snd ++ c.retired, insertions := 0 }

def survives (p : CachedPlan) : Bool := c.config.minHits < p.hits

def collect : PlanCache :=
  let dropped := c.entries.filter fun e => !c.survives e.2
  { c with
    entries := c.entries.filter fun e => c.survives e.2
    retired := dropped.map Prod.snd ++ c.retired
    insertions := 0
    stats := { c.stats with collected := c.stats.collected + dropped.length } }

/-! ## Hits -/

def bump (serial : Nat) (p : CachedPlan) : CachedPlan :=
  if p.serial = serial then { p with hits := p.hits + 1 } else p

def bySerial? (serial : Nat) : Option CachedPlan :=
  (c.entries.map Prod.snd ++ c.retired).find? fun p => p.serial = serial

/-- What a plan that was found for the identity has become since, in the cache or aside. -/
def latest (id : QueryIdentity) (found : CachedPlan) : CachedPlan :=
  (((c.plan? id).toList ++ c.retired).find? fun p => p.serial = found.serial).getD found

theorem map_latest (id : QueryIdentity) : (c.plan? id).map (c.latest id) = c.plan? id := by
  cases hp : c.plan? id with
  | none => rfl
  | some p => simp [latest, hp]

def recordHit (serial : Nat) : PlanCache :=
  { c with
    entries := c.entries.map fun e => (e.1, bump serial e.2)
    retired := c.retired.map (bump serial) }

/-! ## Materializers -/

def serve (serial : Nat) : PlanCache :=
  { c.recordHit serial with stats := { c.stats with hits := c.stats.hits + 1 } }

/-- Stores a fresh plan in place of a stale one, whose binders it takes over. -/
def replacePlan (id : QueryIdentity) (stale fresh : CachedPlan) : PlanCache :=
  { c.retire id with
    entries := c.entries.insert id { fresh with binders := stale.binders }
    stats := { c.stats with recompiles := c.stats.recompiles + 1 }
    nextPlan := c.nextPlan + 1 }

def countInsertion : PlanCache :=
  let c := { c with insertions := c.insertions + 1 }
  if c.config.collectEvery ≤ c.insertions then c.collect else c

/-- Stores a new plan, after the collection that it may cause. -/
def insertPlan (id : QueryIdentity) (fresh : CachedPlan) : PlanCache :=
  let c := { c with stats := { c.stats with misses := c.stats.misses + 1 } }
  let c := c.countInsertion
  { c.retire id with entries := c.entries.insert id fresh, nextPlan := c.nextPlan + 1 }

def store (id : QueryIdentity) (existing : Option CachedPlan) (shape : RowShape) (recipe : Recipe) :
    PlanCache :=
  let fresh : CachedPlan := { serial := c.nextPlan, shape := shape.names, recipe }
  match existing with
  | some stale => c.replacePlan id stale fresh
  | none => c.insertPlan id fresh

/-- The materializer for an identity and the shape under a cursor. Compiling may itself use the cache, and put binders
into the plan that is then replaced. A failure leaves the cache as compiling left it. -/
def getOrCompileWith {ρ γ : Type} [RowCursor γ] (kind : RecipeKind ρ) (id : QueryIdentity) (cursor : γ)
    (compile : RowShape → PlanCache → Except Error ρ × PlanCache) :
    Except Error (Served ρ) × PlanCache :=
  match RowShape.ofCursor cursor with
  | .error e => (.error e, c)
  | .ok shape =>
    let existing := c.plan? id
    match existing.bind fun p => (p.serves? kind shape).map fun m => (p.serial, m) with
    | some (serial, m) => (.ok ⟨serial, m⟩, c.serve serial)
    | none =>
      match compile shape c with
      | (.error e, c) => (.error e, c)
      | (.ok m, c) => (.ok ⟨c.nextPlan, m⟩, c.store id (existing.map (c.latest id)) shape (kind.wrap m))

def getOrCompile {ρ γ : Type} [RowCursor γ] (kind : RecipeKind ρ) (id : QueryIdentity) (cursor : γ)
    (compile : RowShape → Except Error ρ) : Except Error (Served ρ) × PlanCache :=
  c.getOrCompileWith kind id cursor fun shape c => (compile shape, c)

def isServed {ρ γ : Type} [RowCursor γ] (kind : RecipeKind ρ) (id : QueryIdentity) (cursor : γ) : Bool :=
  match RowShape.ofCursor cursor with
  | .error _ => false
  | .ok shape => ((c.plan? id).bind fun p => p.serves? kind shape).isSome

/-! ## Binders -/

/-- The binder of a type for an identity and marker. A new one is kept with the plan, unless there is no
plan or the place is taken by the binder of another type. -/
def binderOrCompile (id : QueryIdentity) (type : TypeKey) (marker : String)
    (compile : ParameterBinder) : StoredBinder × PlanCache :=
  let fresh : StoredBinder := ⟨c.nextBinder, type, compile⟩
  let counted := { c with nextBinder := c.nextBinder + 1 }
  match c.plan? id with
  | none => (fresh, counted)
  | some plan =>
    match plan.binders.find? marker with
    | some stored => if stored.type = type then (stored, c) else (fresh, counted)
    | none =>
      let plan := { plan with binders := plan.binders.insert marker fresh }
      (fresh, { counted with entries := c.entries.insert id plan })

/-! ## Description -/

def describeConfig (config : CacheConfig) : String :=
  "CacheConfig \x7b collect_every: " ++ toString config.collectEvery ++ ", min_hits: "
    ++ toString config.minHits ++ " \x7d"

def describeStats (s : CacheStats) : String :=
  "CacheStats \x7b hits: " ++ toString s.hits ++ ", misses: " ++ toString s.misses ++ ", recompiles: "
    ++ toString s.recompiles ++ ", collected: " ++ toString s.collected ++ " \x7d"

def describe : String :=
  "PlanCache \x7b len: " ++ toString c.size ++ ", config: " ++ describeConfig c.config ++ ", stats: "
    ++ describeStats c.stats ++ " \x7d"

end PlanCache

end SqlMapping
