import SqlMapping.Plan.Mapper

/-!
# Steps of the plan cache

What one operation does to the plans in the cache. `getOrCompile_step` gives the three ways in which a
look-up ends, and the other lemmas say which plans there are after an operation: those from before, with
what they were compiled to untouched, and at most one new plan.
-/

namespace SqlMapping

namespace CachedPlan

def Agrees (p p' : CachedPlan) : Prop := p.shape = p'.shape ∧ p.recipe = p'.recipe

theorem Agrees.refl (p : CachedPlan) : p.Agrees p := ⟨rfl, rfl⟩

theorem agrees_bump (serial : Nat) (p : CachedPlan) : p.Agrees (PlanCache.bump serial p) := by
  simp only [PlanCache.bump]; split <;> exact ⟨rfl, rfl⟩

theorem unwrap?_of_serves? {ρ : Type} {p : CachedPlan} {kind : RecipeKind ρ} {shape : RowShape} {m : ρ}
    (h : p.serves? kind shape = some m) : p.shape = shape.names ∧ kind.unwrap? p.recipe = some m := by
  unfold serves? at h
  by_cases hnames : p.shape = shape.names
  · rw [if_pos hnames] at h
    exact ⟨hnames, h⟩
  · rw [if_neg hnames] at h
    cases h

end CachedPlan

namespace PlanCache

/-- The ways in which a look-up for a shape ends: it is served by the plan of the identity, compiling
fails, or what was compiled is stored. -/
inductive LookUp {ρ : Type} (c : PlanCache) (kind : RecipeKind ρ) (id : QueryIdentity) (shape : RowShape)
    (compile : RowShape → Except Error ρ) : Except Error (Served ρ) × PlanCache → Prop where
  | served {p : CachedPlan} {m : ρ} (hp : c.plan? id = some p) (hm : p.serves? kind shape = some m) :
    LookUp c kind id shape compile (.ok ⟨p.serial, m⟩, c.serve p.serial)
  | failed {e : Error} (hnone : ∀ p, c.plan? id = some p → p.serves? kind shape = none)
      (he : compile shape = .error e) :
    LookUp c kind id shape compile (.error e, c)
  | compiled {m : ρ} (hnone : ∀ p, c.plan? id = some p → p.serves? kind shape = none)
      (hm : compile shape = .ok m) :
    LookUp c kind id shape compile (.ok ⟨c.nextPlan, m⟩, c.store id (c.plan? id) shape (kind.wrap m))

section
variable {ρ γ : Type} [RowCursor γ] (c : PlanCache) (kind : RecipeKind ρ) (id : QueryIdentity) {cursor : γ}
  (compile : RowShape → Except Error ρ)

theorem getOrCompile_error {e : Error} (h : RowShape.ofCursor cursor = .error e) :
    c.getOrCompile kind id cursor compile = (.error e, c) := by
  simp only [getOrCompile, getOrCompileWith, h]

theorem getOrCompile_step {shape : RowShape} (h : RowShape.ofCursor cursor = .ok shape) :
    LookUp c kind id shape compile (c.getOrCompile kind id cursor compile) := by
  simp only [getOrCompile, getOrCompileWith, h]
  cases hserved : (c.plan? id).bind fun p => (p.serves? kind shape).map fun m => (p.serial, m) with
  | some found =>
    obtain ⟨p, hp, hfound⟩ := Option.bind_eq_some_iff.mp hserved
    obtain ⟨m, hm, rfl⟩ := Option.map_eq_some_iff.mp hfound
    exact .served hp hm
  | none =>
    have hnone : ∀ p, c.plan? id = some p → p.serves? kind shape = none := by
      intro p hp
      simpa [hp] using hserved
    cases hcompile : compile shape with
    | error e => exact .failed hnone hcompile
    | ok m =>
      simp only [map_latest]
      exact .compiled hnone hcompile

end

/-! ## Plans after an operation -/

variable {c : PlanCache} {e : QueryIdentity × CachedPlan}

theorem mem_serve {serial : Nat} (h : e ∈ (c.serve serial).entries) :
    ∃ p, (e.1, p) ∈ c.entries ∧ p.Agrees e.2 := by
  simp only [serve, recordHit, List.mem_map] at h
  obtain ⟨⟨id, p⟩, hp, rfl⟩ := h
  exact ⟨p, hp, CachedPlan.agrees_bump serial p⟩

theorem mem_countInsertion (h : e ∈ c.countInsertion.entries) : e ∈ c.entries := by
  simp only [countInsertion] at h
  split at h
  · exact (List.mem_filter.mp h).1
  · exact h

theorem mem_store {id : QueryIdentity} {existing : Option CachedPlan} {shape : RowShape} {recipe : Recipe}
    (h : e ∈ (c.store id existing shape recipe).entries) :
    e ∈ c.entries ∨ e.1 = id ∧ e.2.shape = shape.names ∧ e.2.recipe = recipe := by
  cases existing with
  | some stale =>
    rcases Keyed.mem_insert h with rfl | h
    · exact .inr ⟨rfl, rfl, rfl⟩
    · exact .inl h
  | none =>
    rcases Keyed.mem_insert h with rfl | h
    · exact .inr ⟨rfl, rfl, rfl⟩
    · have hmem := mem_countInsertion h
      exact .inl hmem

theorem mem_remove {id : QueryIdentity} (h : e ∈ (c.remove id).2.entries) : e ∈ c.entries :=
  Keyed.mem_of_mem_erase h

theorem mem_binderOrCompile {id : QueryIdentity} {type : TypeKey} {marker : String} {compile : ParameterBinder}
    (h : e ∈ (c.binderOrCompile id type marker compile).2.entries) :
    ∃ p, (e.1, p) ∈ c.entries ∧ p.Agrees e.2 := by
  simp only [binderOrCompile] at h
  split at h
  · exact ⟨e.2, h, .refl _⟩
  · rename_i plan hplan
    split at h
    · split at h <;> exact ⟨e.2, h, .refl _⟩
    · rcases Keyed.mem_insert h with rfl | h
      · exact ⟨plan, Keyed.mem_of_find? hplan, rfl, rfl⟩
      · exact ⟨e.2, h, .refl _⟩

/-- What holds of the plans because of what they were compiled to holds after a look-up, if it holds of a new plan. -/
theorem forall_mem_getOrCompile {P : QueryIdentity → CachedPlan → Prop}
    (hagrees : ∀ id p p', p.Agrees p' → P id p → P id p') (h : ∀ e ∈ c.entries, P e.1 e.2) {ρ γ : Type} [RowCursor γ]
    {kind : RecipeKind ρ} {id : QueryIdentity} {cursor : γ} {compile : RowShape → Except Error ρ}
    (hnew : ∀ shape r p, RowShape.ofCursor cursor = .ok shape → compile shape = .ok r → p.shape = shape.names →
      p.recipe = kind.wrap r → P id p) :
    ∀ e ∈ (c.getOrCompile kind id cursor compile).2.entries, P e.1 e.2 := by
  cases hshape : RowShape.ofCursor cursor with
  | error e => rwa [c.getOrCompile_error kind id compile hshape]
  | ok shape =>
    have hstep := c.getOrCompile_step kind id compile hshape
    generalize c.getOrCompile kind id cursor compile = result at hstep ⊢
    cases hstep with
    | served hp hm =>
      intro e he
      obtain ⟨p, hp, hp'⟩ := mem_serve he
      exact hagrees _ p _ hp' (h _ hp)
    | failed hnone he => exact h
    | compiled hnone hm =>
      intro e he
      rcases mem_store he with he | ⟨hid, hshape', hrecipe⟩
      · exact h e he
      · rw [hid]
        exact hnew shape _ e.2 hshape hm hshape' hrecipe

end PlanCache

end SqlMapping
