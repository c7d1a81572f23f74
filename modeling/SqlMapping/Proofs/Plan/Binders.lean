import SqlMapping.Proofs.Plan.Reuse

/-!
# Stored binders

A binder that the cache holds for an identity and a marker was compiled for them and for the type it is
stored with: it came in by a request of this kind, and all that happens to it is to be taken over by a newer
plan of the same identity. So `bindParameters_after_calls`: whatever calls came before, on any mappers over
the cache, parameters are bound as by a binder compiled afresh.
-/

namespace SqlMapping

/-! ## Binders after an operation -/

namespace PlanCache

def Stores (c : PlanCache) (id : QueryIdentity) (marker : String) (b : StoredBinder) : Prop :=
  ∃ p, (id, p) ∈ c.entries ∧ (marker, b) ∈ p.binders

variable {c c' : PlanCache} {id other : QueryIdentity} {marker : String} {b : StoredBinder}

theorem Stores.mono (h : ∀ e ∈ c'.entries, e ∈ c.entries) (hb : c'.Stores id marker b) : c.Stores id marker b :=
  let ⟨p, hp, hmem⟩ := hb
  ⟨p, h _ hp, hmem⟩

theorem binders_bump (serial : Nat) (p : CachedPlan) : (bump serial p).binders = p.binders := by
  simp only [bump]; split <;> rfl

theorem Stores.of_serve {serial : Nat} (h : (c.serve serial).Stores id marker b) : c.Stores id marker b := by
  obtain ⟨p, hp, hmem⟩ := h
  simp only [serve, recordHit, List.mem_map, Prod.mk.injEq] at hp
  obtain ⟨⟨_, q⟩, hq, rfl, rfl⟩ := hp
  exact ⟨q, hq, binders_bump serial q ▸ hmem⟩

/-- A plan that is stored for an identity has the binders of the one before it, or none. -/
theorem Stores.of_store {shape : RowShape} {recipe : Recipe}
    (h : (c.store other (c.plan? other) shape recipe).Stores id marker b) : c.Stores id marker b := by
  obtain ⟨p, hp, hmem⟩ := h
  cases hplan : c.plan? other with
  | some stale =>
    simp only [hplan, store, replacePlan] at hp
    rcases Keyed.mem_insert hp with heq | hp
    · cases heq
      exact ⟨stale, Keyed.mem_of_find? hplan, hmem⟩
    · exact ⟨p, hp, hmem⟩
  | none =>
    simp only [hplan, store, insertPlan] at hp
    rcases Keyed.mem_insert hp with heq | hp
    · cases heq
      cases hmem
    · have hold := mem_countInsertion hp
      exact ⟨p, hold, hmem⟩

theorem Stores.of_getOrCompile {ρ γ : Type} [RowCursor γ] {kind : RecipeKind ρ} {cursor : γ}
    {compile : RowShape → Except Error ρ} (h : (c.getOrCompile kind other cursor compile).2.Stores id marker b) :
    c.Stores id marker b := by
  cases hshape : RowShape.ofCursor cursor with
  | error e => rwa [c.getOrCompile_error kind other compile hshape] at h
  | ok shape =>
    have hstep := c.getOrCompile_step kind other compile hshape
    generalize c.getOrCompile kind other cursor compile = result at h hstep
    cases hstep with
    | served => exact h.of_serve
    | failed => exact h
    | compiled => exact h.of_store

theorem Stores.of_binderOrCompile {type : TypeKey} {marker' : String} {compile : ParameterBinder}
    (h : (c.binderOrCompile other type marker' compile).2.Stores id marker b) :
    c.Stores id marker b ∨ id = other ∧ marker = marker' ∧ b.type = type ∧ b.binder = compile := by
  simp only [binderOrCompile] at h
  split at h
  · exact .inl h
  · rename_i plan hplan
    split at h
    · split at h <;> exact .inl h
    · -- only a free place is filled, so this is where a binder comes in
      obtain ⟨p, hp, hmem⟩ := h
      rcases Keyed.mem_insert hp with heq | hp
      · cases heq
        rcases Keyed.mem_insert hmem with heq | hmem
        · cases heq
          exact .inr ⟨rfl, rfl, rfl, rfl⟩
        · exact .inl ⟨plan, Keyed.mem_of_find? hplan, hmem⟩
      · exact .inl ⟨p, hp, hmem⟩

/-- The binder that is handed out is new, or one that is stored for the type asked for. -/
theorem binderOrCompile_fst (c : PlanCache) (id : QueryIdentity) (type : TypeKey) (marker : String)
    (compile : ParameterBinder) :
    (c.binderOrCompile id type marker compile).1.binder = compile ∨
      (c.binderOrCompile id type marker compile).1.type = type ∧
        c.Stores id marker (c.binderOrCompile id type marker compile).1 := by
  simp only [binderOrCompile]
  split
  · exact .inl rfl
  · rename_i plan hplan
    split
    · rename_i stored hstored
      split
      · rename_i htype
        exact .inr ⟨htype, plan, Keyed.mem_of_find? hplan, Keyed.mem_of_find? hstored⟩
      · exact .inl rfl
    · exact .inl rfl

end PlanCache

/-! ## Runs of several mappers over one cache -/

/-- The cache after calls that are each made on a mapper of its own. -/
def MapperCall.afterShared {types : MappedTypes} (cache : PlanCache)
    (calls : List (RowMapper × MapperCall types)) : PlanCache :=
  calls.foldl (fun cache call => call.2.after call.1 cache) cache

def FreshBinders (types : MappedTypes) (cache : PlanCache) : Prop :=
  ∀ id marker b, cache.Stores id marker b →
    ∃ type, b.type = .mapped type ∧ b.binder = ParameterBinder.compile (types.info type) id.sql marker

section
variable {types : MappedTypes} {cache : PlanCache}

theorem FreshBinders.of_stores {cache' : PlanCache} (h : FreshBinders types cache)
    (hstores : ∀ id marker b, cache'.Stores id marker b → cache.Stores id marker b) : FreshBinders types cache' :=
  fun id marker b hb => h id marker b (hstores id marker b hb)

theorem FreshBinders.after (h : FreshBinders types cache) (m : RowMapper) (call : MapperCall types) :
    FreshBinders types (call.after m cache) := by
  cases call with
  | materializer type id c => exact h.of_stores fun _ _ _ hb => hb.of_getOrCompile
  | query type id c =>
    simp only [MapperCall.after, RowMapper.query_cache]
    exact h.of_stores fun _ _ _ hb => hb.of_getOrCompile
  | queryDynamic id c =>
    simp only [MapperCall.after, PlanCache.queryDynamic_cache]
    exact h.of_stores fun _ _ _ hb => hb.of_getOrCompile
  | bindParameters type id dialect params =>
    intro other marker b hb
    rcases PlanCache.Stores.of_binderOrCompile hb with hb | ⟨rfl, rfl, htype, hbinder⟩
    · exact h other marker b hb
    · exact ⟨type, htype, hbinder⟩
  | remove id => exact h.of_stores fun _ _ _ hb => hb.mono fun _ => PlanCache.mem_remove
  | clear =>
    rintro _ _ _ ⟨p, hp, _⟩
    cases hp

theorem freshBinders_afterShared (settings : CacheConfig) (calls : List (RowMapper × MapperCall types)) :
    FreshBinders types (MapperCall.afterShared { config := settings } calls) := by
  induction calls using List.reverseRecOn with
  | nil =>
    rintro _ _ _ ⟨p, hp, _⟩
    cases hp
  | append_singleton calls call ih =>
    rw [MapperCall.afterShared, List.foldl_append]
    exact ih.after call.1 call.2

theorem FreshBinders.binderOrCompile (h : FreshBinders types cache) (type : Nat) (id : QueryIdentity) (marker : String) :
    (cache.binderOrCompile id (.mapped type) marker (.compile (types.info type) id.sql marker)).1.binder =
      .compile (types.info type) id.sql marker := by
  rcases cache.binderOrCompile_fst id (.mapped type) marker (.compile (types.info type) id.sql marker) with
    hnew | ⟨htype, hstored⟩
  · exact hnew
  · obtain ⟨type', htype', hbinder⟩ := h _ _ _ hstored
    cases htype.symm.trans htype'
    exact hbinder

end

/-- After any calls on any mappers over one cache, the parameters that an instance gives for an identity and a
dialect are those of a binder compiled from the text of the identity and the marker of the dialect, or the
failure of that binder. -/
theorem bindParameters_after_calls {types : MappedTypes} (settings : CacheConfig)
    (calls : List (RowMapper × MapperCall types)) (type : Nat) (id : QueryIdentity) (dialect : Dialect)
    (params : types.Instance type) :
    let cache := MapperCall.afterShared { config := settings } calls
    (cache.bindParameters type (types.mapping type) id dialect.marker params).1 =
      (ParameterBinder.compile (types.info type) id.sql dialect.marker).bind (types.mapping type) params := by
  intro cache
  have hfresh := (freshBinders_afterShared settings calls).binderOrCompile type id dialect.marker
  exact congrArg (fun binder : ParameterBinder => binder.bind (types.mapping type) params) hfresh

end SqlMapping
