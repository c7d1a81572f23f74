import SqlMapping.Dialect.Basic
import SqlMapping.Proofs.Plan.LookUp
import SqlMapping.Proofs.Row.Members
import SqlMapping.Row.Record
import Mathlib.Data.List.Induction

/-!
# Reuse of plans

Runs of calls on a row mapper. `materializer_after_calls`: whatever calls came before, a materializer is
what compiling makes of the cursor's shape, or of the shape with the same names of an earlier cursor.
-/

namespace SqlMapping

/-- The mapped types of a program: the instances of each, and how they are handled. -/
structure MappedTypes where
  Instance : Nat → Type
  mapping : (type : Nat) → Mapping (Instance type)

abbrev MappedTypes.info (types : MappedTypes) (type : Nat) : TypeInfo := (types.mapping type).info

structure AnyCursor where
  {Cursor : Type}
  [rowCursor : RowCursor Cursor]
  cursor : Cursor

attribute [instance] AnyCursor.rowCursor

def AnyCursor.shape (c : AnyCursor) : Except Error RowShape := RowShape.ofCursor c.cursor

inductive MapperCall (types : MappedTypes) : Type 1 where
  | materializer (type : Nat) (id : QueryIdentity) (c : AnyCursor)
  | query (type : Nat) (id : QueryIdentity) (c : AnyCursor)
  | queryDynamic (id : QueryIdentity) (c : AnyCursor)
  | bindParameters (type : Nat) (id : QueryIdentity) (dialect : Dialect) (params : types.Instance type)
  | remove (id : QueryIdentity)
  | clear

namespace MapperCall

variable {types : MappedTypes}

def after (m : RowMapper) (cache : PlanCache) : MapperCall types → PlanCache
  | .materializer type id c => (m.materializer type (types.info type) id c.cursor cache).2
  | .query type id c => (m.query type (types.mapping type) id c.cursor cache).2.2
  | .queryDynamic id c => (cache.queryDynamic id c.cursor).2.2
  | .bindParameters type id dialect params =>
    (cache.bindParameters type (types.mapping type) id dialect.marker params).2
  | .remove id => (cache.remove id).2
  | .clear => cache.clear

def afterAll (m : RowMapper) (cache : PlanCache) (calls : List (MapperCall types)) : PlanCache :=
  calls.foldl (after m) cache

def Asks (type : Nat) (id : QueryIdentity) (shape : RowShape) : MapperCall types → Prop
  | .materializer type' id' c | .query type' id' c => type' = type ∧ id' = id ∧ c.shape = .ok shape
  | _ => False

end MapperCall

/-! ## Caches that queries leave -/

theorem RowMapper.query_cache {γ α : Type} [RowCursor γ] (m : RowMapper) (type : Nat) (mapping : Mapping α)
    (id : QueryIdentity) (cursor : γ) (cache : PlanCache) :
    (m.query type mapping id cursor cache).2.2 = (m.materializer type mapping.info id cursor cache).2 := by
  simp only [query]
  split <;> rename_i h <;> rw [h]

theorem PlanCache.queryDynamic_cache {γ : Type} [RowCursor γ] (cache : PlanCache) (id : QueryIdentity)
    (cursor : γ) :
    (cache.queryDynamic id cursor).2.2 = (cache.dynamicMaterializer id cursor).2 := by
  simp only [queryDynamic]
  split <;> rename_i h <;> rw [h]

/-! ## Where plans come from -/

/-- What holds of the plans because of what they were compiled to holds after a call, if it holds of the plan that the
call may bring in: one of the type it asks for, or one for dynamic rows. -/
theorem MapperCall.forall_mem_after {types : MappedTypes} {P : QueryIdentity → CachedPlan → Prop}
    (hagrees : ∀ id p p', p.Agrees p' → P id p → P id p') {cache : PlanCache} (h : ∀ e ∈ cache.entries, P e.1 e.2)
    (m : RowMapper) (call : MapperCall types)
    (hmapped : ∀ type id shape r p, call.Asks type id shape → m.compile type (types.info type) shape = .ok r →
      p.shape = shape.names → p.recipe = .mapped type r → P id p)
    (hdynamic : ∀ id (shape : RowShape) p, p.shape = shape.names → p.recipe = .dynamic (.compile shape none) → P id p) :
    ∀ e ∈ (call.after m cache).entries, P e.1 e.2 := by
  cases call with
  | materializer type id c =>
    exact PlanCache.forall_mem_getOrCompile hagrees h fun shape r p hshape =>
      hmapped type id shape r p ⟨rfl, rfl, hshape⟩
  | query type id c =>
    simp only [after, RowMapper.query_cache]
    exact PlanCache.forall_mem_getOrCompile hagrees h fun shape r p hshape =>
      hmapped type id shape r p ⟨rfl, rfl, hshape⟩
  | queryDynamic id c =>
    simp only [after, PlanCache.queryDynamic_cache]
    refine PlanCache.forall_mem_getOrCompile hagrees h fun shape r p _ hr hp hrecipe => ?_
    cases hr
    exact hdynamic id shape p hp hrecipe
  | bindParameters type id dialect params =>
    intro e he
    simp only [after, PlanCache.bindParameters] at he
    obtain ⟨p, hp, hp'⟩ := PlanCache.mem_binderOrCompile he
    exact hagrees _ p _ hp' (h _ hp)
  | remove id =>
    intro e he
    simp only [after] at he
    exact h e (PlanCache.mem_remove he)
  | clear =>
    intro e he
    simp [after, PlanCache.clear] at he

section
variable {types : MappedTypes} (m : RowMapper) (calls : List (MapperCall types))

/-- A plan of a mapped type was compiled for the shape of a cursor that an earlier call asked with. -/
def Justified (id : QueryIdentity) (p : CachedPlan) : Prop :=
  ∀ type materializer, p.recipe = .mapped type materializer →
    ∃ source, (∃ call ∈ calls, call.Asks type id source) ∧ source.names = p.shape ∧
      m.compile type (types.info type) source = .ok materializer

def Sound (cache : PlanCache) : Prop := ∀ e ∈ cache.entries, Justified m calls e.1 e.2

variable {m calls} {id : QueryIdentity} {p p' : CachedPlan}

theorem Justified.of_agrees (h : Justified m calls id p) (hp : p.Agrees p') : Justified m calls id p' := by
  intro type materializer hrecipe
  rw [← hp.1]
  exact h type materializer (hp.2.trans hrecipe)

theorem Justified.mono (h : Justified m calls id p) (call : MapperCall types) :
    Justified m (calls ++ [call]) id p := by
  intro type materializer hrecipe
  obtain ⟨source, ⟨call', hcall, hasks⟩, hsource⟩ := h type materializer hrecipe
  exact ⟨source, ⟨call', List.mem_append_left _ hcall, hasks⟩, hsource⟩

variable {cache : PlanCache}

theorem Sound.after (h : Sound m calls cache) (call : MapperCall types) :
    Sound m (calls ++ [call]) (call.after m cache) := by
  refine call.forall_mem_after (fun _ _ _ hp' hp => hp.of_agrees hp') (fun e he => (h e he).mono call) m ?_ ?_
  · intro type id shape r p hasks hr hp hrecipe type' materializer hmapped
    cases hrecipe.symm.trans hmapped
    exact ⟨shape, ⟨call, List.mem_concat_self, hasks⟩, hp.symm, hr⟩
  · intro id shape p _ hrecipe type materializer hmapped
    cases hrecipe.symm.trans hmapped

theorem sound_afterAll (settings : CacheConfig) (calls : List (MapperCall types)) :
    Sound m calls (MapperCall.afterAll m { config := settings } calls) := by
  induction calls using List.reverseRecOn with
  | nil => intro e he; cases he
  | append_singleton calls call ih =>
    rw [MapperCall.afterAll, List.foldl_append]
    exact ih.after call

end

/-! ## Reuse -/

theorem CachedPlan.of_serves? {p : CachedPlan} {type : Nat} {shape : RowShape} {materializer : Materializer}
    (h : p.serves? (.mapped type) shape = some materializer) :
    p.shape = shape.names ∧ p.recipe = .mapped type materializer := by
  obtain ⟨hnames, hunwrap⟩ := unwrap?_of_serves? h
  refine ⟨hnames, ?_⟩
  unfold RecipeKind.mapped at hunwrap
  cases hrecipe : p.recipe with
  | dynamic materializer' => simp [hrecipe] at hunwrap
  | mapped type' materializer' =>
    obtain ⟨rfl, rfl⟩ : type' = type ∧ materializer' = materializer := by simpa [hrecipe] using hunwrap
    rfl

/-- After any calls, a materializer is what compiling makes of the shape of the cursor, or of the shape
with the same names of an earlier cursor that compiled for the same type and identity. It is what
compiling makes of the cursor's own shape where columns are assigned to members, and where all earlier
such cursors had the same kinds. -/
theorem materializer_after_calls {types : MappedTypes} (m : RowMapper) (settings : CacheConfig)
    (calls : List (MapperCall types)) (type : Nat) (id : QueryIdentity) (c : AnyCursor) :
    let cache := MapperCall.afterAll m { config := settings } calls
    let made := (m.materializer type (types.info type) id c.cursor cache).1.map Served.materializer
    let compiled := m.compile type (types.info type)
    (∀ e, c.shape = .error e → made = .error e) ∧
      ∀ shape, c.shape = .ok shape →
        (made = compiled shape ∨ ∃ source, source.names = shape.names ∧
          (∃ call ∈ calls, call.Asks type id source) ∧ (∃ p, compiled source = .ok p) ∧ made = compiled source) ∧
        ((types.info type).AssignsMembers shape (m.registry.tableFor? (.mapped type)) → made = compiled shape) ∧
        ((∀ call ∈ calls, ∀ source, call.Asks type id source → source.names = shape.names → source = shape) →
          made = compiled shape) := by
  intro cache made compiled
  refine ⟨fun e he => ?_, fun shape hshape => ?_⟩
  · simp only [made, RowMapper.materializer]
    rw [cache.getOrCompile_error _ id _ he]
    rfl
  have hstep := cache.getOrCompile_step (.mapped type) id compiled hshape
  have hmade : made = (cache.getOrCompile (.mapped type) id c.cursor compiled).1.map Served.materializer := rfl
  generalize cache.getOrCompile (.mapped type) id c.cursor compiled = result at hstep hmade
  cases hstep with
  | failed hnone he =>
    have : made = compiled shape := hmade.trans he.symm
    exact ⟨.inl this, fun _ => this, fun _ => this⟩
  | compiled hnone hm =>
    have : made = compiled shape := hmade.trans hm.symm
    exact ⟨.inl this, fun _ => this, fun _ => this⟩
  | served hp hm =>
    obtain ⟨hnames, hrecipe⟩ := CachedPlan.of_serves? hm
    obtain ⟨source, hasks, hsource, hcompiled⟩ :=
      sound_afterAll settings calls _ (Keyed.mem_of_find? hp) _ _ hrecipe
    have hsame : source.names = shape.names := hsource.trans hnames
    refine ⟨.inr ⟨source, hsame, hasks, ⟨_, hcompiled⟩, hmade.trans hcompiled.symm⟩, fun hassigns => ?_,
      fun hkinds => ?_⟩
    · have := (types.info type).compile_eq_of_names m.config hsame hassigns hcompiled
      exact hmade.trans this.symm
    · obtain ⟨call, hcall, hcallasks⟩ := hasks
      obtain rfl := hkinds call hcall source hcallasks hsame
      exact hmade.trans hcompiled.symm

def point : RecordType :=
  { name := "Point", constructors := [{ parameters := [⟨"id", .primitive .int32, .any⟩] }] }

/-- Kinds are not compared: a plan that was compiled for a number serves a cursor whose column of the same
name holds truth values, for which the type does not compile. -/
theorem serves_other_kinds :
    let types : MappedTypes := ⟨fun _ => Record, fun _ => point.mapping⟩
    let id : QueryIdentity := { sql := "select id", connection := "db", target := .mapped 0 }
    let cursor (kind : Kind) : AnyCursor := ⟨(MemoryCursor.ofNames ["id"]).withKinds [kind]⟩
    let m : RowMapper := {}
    let calls : List (MapperCall types) := [.materializer 0 id (cursor .int32)]
    let cache := MapperCall.afterAll m {} calls
    (cursor .bool).shape = .ok ⟨[("id", some .bool)]⟩ ∧
      (m.compile 0 (types.info 0) ⟨[("id", some .bool)]⟩).isOk = false ∧
      (m.materializer 0 (types.info 0) id (cursor .bool).cursor cache).1.isOk = true := by
  decide

end SqlMapping
