import SqlMapping.Proofs.Plan.Hits

/-!
# Instances over the history of a cache

Which materializer a look-up returns, when its compilation runs, and what calls do to plans of other
identities. `plans_follow_history` puts this together with the hits of each plan.
-/

namespace SqlMapping

def CacheCall.Touches (c : PlanCache) (id : QueryIdentity) : CacheCall → Prop
  | .getOrCompile _ id' _ _ | .binderOrCompile id' _ _ _ | .get id' | .remove id' => id' = id
  | .clear => True
  | .recordHit serial => ∃ p, c.plan? id = some p ∧ p.serial = serial

/-! ## Compilations that leave a trace -/

/-- The look-up for a compilation with any effects. -/
def PlanCache.lookUp {M : Type → Type} [Monad M] [MonadStateOf PlanCache M] {ρ : Type} (kind : RecipeKind ρ)
    (id : QueryIdentity) (cursor : AnyCursor) (compile : RowShape → M (Except Error ρ)) :
    M (Except Error (Served ρ)) :=
  match cursor.shape with
  | .error e => return .error e
  | .ok shape => do
    let c ← get
    let existing := c.plan? id
    match existing.bind fun p => (p.serves? kind shape).map fun m => (p.serial, m) with
    | some (serial, m) =>
      set (c.serve serial)
      return .ok ⟨serial, m⟩
    | none =>
      match ← compile shape with
      | .error e => return .error e
      | .ok m =>
        let c ← get
        set (c.store id (existing.map (c.latest id)) shape (kind.wrap m))
        return .ok ⟨c.nextPlan, m⟩

abbrev Traced : Type → Type := StateT PlanCache (StateM (List RowShape))

def traced {ρ : Type} (compile : RowShape → Except Error ρ) (shape : RowShape) : Traced (Except Error ρ) := do
  modifyThe (List RowShape) (· ++ [shape])
  return compile shape

theorem run_traced {ρ : Type} (compile : RowShape → Except Error ρ) (shape : RowShape) (c : PlanCache)
    (shapes : List RowShape) :
    ((traced compile shape).run c).run shapes = (pure ((compile shape, c), shapes ++ [shape]) : Id _) := rfl

def PlanCache.traceOf {ρ : Type} (c : PlanCache) (kind : RecipeKind ρ) (id : QueryIdentity) (cursor : AnyCursor)
    (compile : RowShape → Except Error ρ) : (Except Error (Served ρ) × PlanCache) × List RowShape :=
  ((lookUp kind id cursor (traced compile) : Traced _).run c).run []

namespace PlanCache

variable {c : PlanCache} {ρ : Type} {kind : RecipeKind ρ} {id : QueryIdentity} {cursor : AnyCursor}

/-- On a cache alone this is the look-up of the cache. -/
theorem lookUp_eq_getOrCompileWith (compile : RowShape → PlanCache → Except Error ρ × PlanCache) :
    (lookUp (M := StateM PlanCache) kind id cursor compile).run c =
      c.getOrCompileWith kind id cursor.cursor compile := by
  simp only [lookUp, AnyCursor.shape, getOrCompileWith]
  cases RowShape.ofCursor cursor.cursor with
  | error e => rfl
  | ok shape =>
    dsimp only
    cases hserved : (c.plan? id).bind fun p => (p.serves? kind shape).map fun m => (p.serial, m) with
    | some found => simp only [StateT.run_bind, StateT.run_get, pure_bind, hserved]; rfl
    | none =>
      cases hcompile : compile shape c with
      | mk result left =>
        have hrun : StateT.run (m := Id) (compile shape) c = pure (result, left) := hcompile
        simp only [StateT.run_bind, StateT.run_get, pure_bind, hserved, hrun]
        cases result <;> rfl

/-- The compilation runs once, for the shape under the cursor, unless there is none or a plan serves it. -/
theorem traceOf_eq (compile : RowShape → Except Error ρ) :
    c.traceOf kind id cursor compile =
      (c.getOrCompile kind id cursor.cursor compile,
        if c.isServed kind id cursor.cursor then [] else cursor.shape.toOption.toList) := by
  cases hshape : RowShape.ofCursor cursor.cursor with
  | error e =>
    simp only [traceOf, lookUp, AnyCursor.shape, getOrCompile, getOrCompileWith, isServed, hshape]
    rfl
  | ok shape =>
    simp only [traceOf, lookUp, AnyCursor.shape, getOrCompile, getOrCompileWith, isServed, hshape]
    cases hp : (c.plan? id).bind fun p => (p.serves? kind shape).map fun m => (p.serial, m) with
    | some found =>
      have hserved : ((c.plan? id).bind fun p => p.serves? kind shape).isSome = true := by
        obtain ⟨p, hp, hfound⟩ := Option.bind_eq_some_iff.mp hp
        obtain ⟨m, hm, _⟩ := Option.map_eq_some_iff.mp hfound
        simp [hp, hm]
      rw [if_pos hserved]
      simp only [StateT.run_bind, StateT.run_get, pure_bind, hp]
      rfl
    | none =>
      have hserved : ((c.plan? id).bind fun p => p.serves? kind shape).isSome = false := by
        cases hplan : c.plan? id with
        | none => rfl
        | some p => simpa [hplan] using hp
      rw [hserved]
      simp only [StateT.run_bind, StateT.run_get, pure_bind, hp, run_traced]
      cases compile shape <;> rfl

end PlanCache

/-! ## What was compiled last -/

namespace CacheStep

def compiles (id : QueryIdentity) (s : CacheStep) : Bool :=
  s.succeeds && s.call.lookedUp == some id && !s.call.isServed s.before

def compiled? (id : QueryIdentity) (s : CacheStep) : Option CachedPlan :=
  if s.compiles id then s.after.plan? id else none

end CacheStep

def lastCompiled (id : QueryIdentity) (history : List CacheStep) : Option CachedPlan :=
  history.foldl (fun last s => (s.compiled? id).or last) none

theorem lastCompiled_concat (id : QueryIdentity) (history : List CacheStep) (s : CacheStep) :
    lastCompiled id (history ++ [s]) = (s.compiled? id).or (lastCompiled id history) := by
  simp [lastCompiled]

def CachedPlan.SameInstance (p q : CachedPlan) : Prop := p.serial = q.serial ∧ p.recipe = q.recipe

theorem CachedPlan.sameInstance_bump (n : Nat) (p : CachedPlan) : (PlanCache.bump n p).SameInstance p :=
  ⟨PlanCache.serial_bump n p, (CachedPlan.agrees_bump n p).2.symm⟩

namespace CacheStep

variable {s : CacheStep} {id : QueryIdentity} {p : CachedPlan}

theorem returned_of_compiles (h : s.compiles id = true) : s.returned = some s.before.nextPlan := by
  simp only [compiles, succeeds, Bool.and_eq_true, Bool.not_eq_true'] at h
  obtain ⟨⟨hsucceeds, _⟩, hserved⟩ := h
  cases s.ends with
  | recompiled _ _ _ _ _ hreturned _ | missed _ _ _ _ hreturned _ => exact hreturned
  | served hcall hshape hp hm _ _ =>
    rw [hcall, CacheCall.isServed, PlanCache.isServed_of_serves hshape hp hm] at hserved
    cases hserved
  | unshaped _ _ hreturned _ | failed _ _ _ _ hreturned _ | bound _ hreturned _ | got _ hreturned _
  | removed _ hreturned _ | cleared _ hreturned _ | recorded _ hreturned _ =>
    rw [hreturned] at hsucceeds
    cases hsucceeds

theorem compiles_of_returned_new (hkept : s.before.WellKept) (hid : s.call.lookedUp = some id)
    (h : s.returned = some s.before.nextPlan) : s.compiles id = true := by
  simp [compiles, succeeds, h, hid, isServed_of_returned_new hkept h]

/-- A plan in the cache is one that the step compiled, or the instance was there before. -/
theorem compiled_or_kept (hkept : s.before.WellKept) (hp : s.after.plan? id = some p) :
    s.compiled? id = some p ∨
      s.compiled? id = none ∧ ∃ q, s.before.plan? id = some q ∧ p.SameInstance q := by
  by_cases hcompiles : s.compiles id = true
  · exact .inl (by rw [compiled?, if_pos hcompiles, hp])
  -- a step that compiles, but not for this identity, does so for another one
  have hother : ∀ {id'}, s.call.lookedUp = some id' → s.returned = some s.before.nextPlan → id ≠ id' := by
    rintro id' hid hreturned rfl
    exact hcompiles (compiles_of_returned_new hkept hid hreturned)
  refine .inr ⟨if_neg hcompiles, ?_⟩
  have hold : s.before.plan? id = some p → ∃ q, s.before.plan? id = some q ∧ p.SameInstance q :=
    fun h => ⟨p, h, rfl, rfl⟩
  cases s.ends with
  | unshaped _ _ _ hafter | failed _ _ _ _ _ hafter | got _ _ hafter =>
    rw [hafter] at hp
    exact hold hp
  | served _ _ _ _ _ hafter =>
    rw [hafter, PlanCache.plan?_serve] at hp
    obtain ⟨q, hq, rfl⟩ := Option.map_eq_some_iff.mp hp
    exact ⟨q, hq, CachedPlan.sameInstance_bump _ q⟩
  | recorded _ _ hafter =>
    rw [hafter, PlanCache.plan?_recordHit] at hp
    obtain ⟨q, hq, rfl⟩ := Option.map_eq_some_iff.mp hp
    exact ⟨q, hq, CachedPlan.sameInstance_bump _ q⟩
  | recompiled hcall _ _ _ _ hreturned hafter =>
    have hne := hother (by rw [hcall]; rfl) hreturned
    rw [hafter, PlanCache.plan?_replacePlan_of_ne hne] at hp
    exact hold hp
  | missed hcall _ hnone _ hreturned hafter =>
    have hne := hother (by rw [hcall]; rfl) hreturned
    rw [hafter, PlanCache.plan?_insertPlan_of_ne hkept.identities hnone hne] at hp
    split at hp
    · exact hold (Option.filter_eq_some_iff.mp hp).1
    · exact hold hp
  | @bound id' type marker compile _ _ hafter =>
    rw [hafter] at hp
    by_cases hid : id = id'
    · subst hid
      obtain ⟨binders, heq⟩ := s.before.plan?_binderOrCompile_self id type marker compile
      rw [heq] at hp
      obtain ⟨q, hq, rfl⟩ := Option.map_eq_some_iff.mp hp
      exact ⟨q, hq, rfl, rfl⟩
    · rw [PlanCache.plan?_binderOrCompile_of_ne type marker compile hid] at hp
      exact hold hp
  | removed _ _ hafter =>
    rw [hafter] at hp
    have hmem := PlanCache.mem_remove (Keyed.mem_of_find? hp)
    exact hold (Keyed.find?_of_mem hkept.identities hmem)
  | cleared _ _ hafter =>
    rw [hafter] at hp
    cases hp

theorem returned_lt_after {n : Nat} (hkept : s.before.WellKept) (h : s.returned = some n) :
    n < s.after.nextPlan := by
  cases s.ends with
  | unshaped _ _ hreturned _ | failed _ _ _ _ hreturned _ | bound _ hreturned _ | got _ hreturned _
  | removed _ hreturned _ | cleared _ hreturned _ | recorded _ hreturned _ =>
    rw [hreturned] at h
    cases h
  | served _ _ hp _ hreturned hafter =>
    rw [hreturned] at h
    cases h
    rw [hafter]
    exact hkept.numbered _ (PlanCache.mem_plans_of_plan? hp)
  | recompiled _ _ _ _ _ hreturned hafter =>
    rw [hreturned] at h
    cases h
    rw [hafter]
    exact Nat.lt_succ_self _
  | missed _ _ hp _ hreturned hafter =>
    rw [hreturned] at h
    cases h
    rw [hafter, PlanCache.insertPlan_eq hp, PlanCache.nextPlan_countInsertion]
    exact Nat.lt_succ_self _

/-- A call that is not made on the plan of an identity touches that plan only by a collection. -/
theorem plan?_after_of_not_touches (hkept : s.before.WellKept) (h : ¬ s.call.Touches s.before id) :
    s.after.plan? id = if s.collects then (s.before.plan? id).filter s.before.survives else s.before.plan? id := by
  have hquiet : s.misses = false → s.after.plan? id = s.before.plan? id →
      s.after.plan? id =
        if s.collects then (s.before.plan? id).filter s.before.survives else s.before.plan? id := by
    intro hmiss hsame
    simpa [collects, hmiss] using hsame
  cases s.ends with
  | unshaped _ _ hreturned hafter | failed _ _ _ _ hreturned hafter | got _ hreturned hafter =>
    exact hquiet (misses_of_returned_none hreturned) (by rw [hafter])
  | served hcall _ hp _ _ hafter =>
    have hne : id ≠ _ := fun heq => h (by rw [hcall]; exact heq.symm)
    refine hquiet (by simp [misses, hcall, CacheCall.finds, hp]) ?_
    rw [hafter, PlanCache.plan?_serve]
    exact PlanCache.map_bump_of_ne fun q hq => hkept.serial_ne hne hp hq
  | recorded hcall hreturned hafter =>
    refine hquiet (misses_of_returned_none hreturned) ?_
    rw [hafter, PlanCache.plan?_recordHit]
    exact PlanCache.map_bump_of_ne fun q hq heq => h (by rw [hcall]; exact ⟨q, hq, heq⟩)
  | recompiled hcall _ hp _ _ _ hafter =>
    have hne : id ≠ _ := fun heq => h (by rw [hcall]; exact heq.symm)
    refine hquiet (by simp [misses, hcall, CacheCall.finds, hp]) ?_
    rw [hafter, PlanCache.plan?_replacePlan_of_ne hne]
  | missed hcall _ hp _ hreturned hafter =>
    have hne : id ≠ _ := fun heq => h (by rw [hcall]; exact heq.symm)
    have hcollects : s.collects = s.before.isDue := by
      simp [collects, misses, succeeds, hreturned, hcall, CacheCall.finds, hp]
    rw [hafter, PlanCache.plan?_insertPlan_of_ne hkept.identities hp hne, hcollects]
  | bound hcall hreturned hafter =>
    have hne : id ≠ _ := fun heq => h (by rw [hcall]; exact heq.symm)
    refine hquiet (misses_of_returned_none hreturned) ?_
    rw [hafter, PlanCache.plan?_binderOrCompile_of_ne _ _ _ hne]
  | removed hcall hreturned hafter =>
    have hne : id ≠ _ := fun heq => h (by rw [hcall]; exact heq.symm)
    refine hquiet (misses_of_returned_none hreturned) ?_
    rw [hafter, PlanCache.plan?_remove_of_ne hne]
  | cleared hcall _ _ => exact absurd trivial (by rw [hcall] at h; exact h)

end CacheStep

theorem PlanCache.plan?_after_getOrCompile {c : PlanCache} {ρ : Type} {kind : RecipeKind ρ} {id : QueryIdentity}
    {cursor : AnyCursor} {compile : RowShape → Except Error ρ} {served : Served ρ}
    (h : (c.getOrCompile kind id cursor.cursor compile).1 = .ok served) :
    ∃ p, (c.getOrCompile kind id cursor.cursor compile).2.plan? id = some p ∧ p.serial = served.serial ∧
      kind.unwrap? p.recipe = some served.materializer := by
  cases hshape : RowShape.ofCursor cursor.cursor with
  | error e =>
    rw [c.getOrCompile_error kind id compile hshape] at h
    cases h
  | ok shape =>
    have hstep := c.getOrCompile_step kind id compile hshape
    generalize c.getOrCompile kind id cursor.cursor compile = result at h hstep
    cases hstep with
    | failed => cases h
    | @served p m hp hm =>
      cases h
      have hinstance := CachedPlan.sameInstance_bump p.serial p
      refine ⟨bump p.serial p, by rw [plan?_serve, hp]; rfl, hinstance.1, ?_⟩
      rw [hinstance.2]
      exact (CachedPlan.unwrap?_of_serves? hm).2
    | compiled =>
      cases h
      cases hp : c.plan? id with
      | some stale =>
        exact ⟨_, plan?_replacePlan_self, rfl, kind.unwrap_wrap _⟩
      | none => exact ⟨_, plan?_insertPlan_self hp, rfl, kind.unwrap_wrap _⟩

/-- In every run each plan in the cache is the one that was compiled last for its identity. -/
theorem lastCompiled_afterAll (config : CacheConfig) (calls : List CacheCall) {id : QueryIdentity} {p : CachedPlan}
    (hp : (PlanCache.afterAll { config } calls).plan? id = some p) :
    ∃ q, lastCompiled id (PlanCache.history { config } calls) = some q ∧ p.SameInstance q := by
  induction calls using List.reverseRecOn generalizing p with
  | nil => cases hp
  | append_singleton calls call ih =>
    have hkept := PlanCache.wellKept_afterAll config calls
    rw [PlanCache.afterAll_concat] at hp
    rw [PlanCache.history_concat, lastCompiled_concat]
    rcases CacheStep.compiled_or_kept hkept hp with hnew | ⟨hnone, q, hq, hsame⟩
    · exact ⟨p, by rw [hnew]; rfl, rfl, rfl⟩
    · obtain ⟨r, hr, hsame'⟩ := ih hq
      refine ⟨r, by rw [hnone, hr]; rfl, ?_⟩
      exact ⟨hsame.1.trans hsame'.1, hsame.2.trans hsame'.2⟩

theorem returned_lt_afterAll (config : CacheConfig) (calls : List CacheCall) {s : CacheStep} {n : Nat}
    (hs : s ∈ PlanCache.history { config } calls) (h : s.returned = some n) :
    n < (PlanCache.afterAll { config } calls).nextPlan := by
  induction calls using List.reverseRecOn with
  | nil => cases hs
  | append_singleton calls call ih =>
    have hle := (CacheStep.mk (PlanCache.afterAll { config } calls) call).nextPlan_le_after
    rw [PlanCache.afterAll_concat]
    rw [PlanCache.history_concat] at hs
    rcases List.mem_append.mp hs with hs | hs
    · exact Nat.lt_of_lt_of_le (ih hs) hle
    · obtain rfl := List.mem_singleton.mp hs
      exact CacheStep.returned_lt_after (PlanCache.wellKept_afterAll config calls) h

/-- In every run on a new cache: the hits of a plan, in the cache or held by a caller, are the look-ups that it
served and the hits recorded on it. A plan in the cache is the one compiled last for its identity. A look-up
that succeeds returns what was compiled last for the identity, itself included; its compilation runs not at all
if a plan serves it or the shape under the cursor cannot be had, and else once, for that shape. What is
compiled is an instance that no look-up returned before. A call touches the plan of another identity only by a
collection, which drops it or leaves it as it is. -/
theorem plans_follow_history (config : CacheConfig) (calls : List CacheCall) (call : CacheCall) :
    let before := PlanCache.afterAll { config } calls
    let history := PlanCache.history { config } calls
    let s : CacheStep := ⟨before, call⟩
    (∀ p ∈ before.plans,
        p.hits = history.countP (·.servedBy p.serial) + history.countP (·.recordedOn p.serial)) ∧
      (∀ id p, before.plan? id = some p →
        p ∈ before.plans ∧ ∃ q, lastCompiled id history = some q ∧ p.SameInstance q) ∧
      (∀ (ρ : Type) (kind : RecipeKind ρ) (id : QueryIdentity) (cursor : AnyCursor)
          (compile : RowShape → Except Error ρ), call = .getOrCompile kind id cursor compile →
        let look := before.getOrCompile kind id cursor.cursor compile
        (∀ served, look.1 = .ok served →
          ∃ q, lastCompiled id (history ++ [s]) = some q ∧ q.serial = served.serial ∧
            kind.unwrap? q.recipe = some served.materializer) ∧
          before.traceOf kind id cursor compile =
            (look, if before.isServed kind id cursor.cursor then [] else cursor.shape.toOption.toList)) ∧
      (∀ id, s.compiles id = true → ∀ t ∈ history, t.returned ≠ s.returned) ∧
      ∀ other, ¬ call.Touches before other →
        s.after.plan? other =
          if s.collects then (before.plan? other).filter fun p => config.minHits < p.hits
          else before.plan? other := by
  intro before history s
  have hkept : before.WellKept := PlanCache.wellKept_afterAll config calls
  refine ⟨?_, fun id p hp => ?_, ?_, fun id hcompiles t ht heq => ?_, fun other htouches => ?_⟩
  · exact (hits_afterAll config calls).1
  · exact ⟨PlanCache.mem_plans_of_plan? hp, lastCompiled_afterAll config calls hp⟩
  · rintro ρ kind id cursor compile rfl look
    refine ⟨fun served hserved => ?_, PlanCache.traceOf_eq compile⟩
    obtain ⟨p, hp, hserial, hrecipe⟩ := PlanCache.plan?_after_getOrCompile hserved
    have hafter : (PlanCache.afterAll { config } (calls ++ [.getOrCompile kind id cursor compile])).plan? id = some p := by
      rw [PlanCache.afterAll_concat]
      exact hp
    have hlast := lastCompiled_afterAll config (calls ++ [.getOrCompile kind id cursor compile]) hafter
    rw [PlanCache.history_concat] at hlast
    obtain ⟨q, hq, hsame⟩ := hlast
    exact ⟨q, hq, hsame.1.symm.trans hserial, by rw [← hsame.2, hrecipe]⟩
  · have hnew := CacheStep.returned_of_compiles hcompiles
    have hold := returned_lt_afterAll config calls ht (heq.trans hnew)
    exact Nat.lt_irrefl _ hold
  · rw [CacheStep.plan?_after_of_not_touches hkept htouches, PlanCache.survives_afterAll]

/-- A column whose name cannot be read ends the look-up before anything is compiled, although no plan serves it. -/
theorem unreadable_name_compiles_nothing :
    let before := PlanCache.afterAll {} [lookUpOf "a"]
    let cursor : AnyCursor := ⟨({ inner := .ofNames ["id"], failName := some 0 } : FaultyCursor)⟩
    let compile : RowShape → Except Error DynamicMaterializer := fun shape => .ok (.compile shape none)
    (before.plan? (queryOf "a")).isSome ∧ before.isServed .dynamic (queryOf "a") cursor.cursor = false ∧
      (before.traceOf .dynamic (queryOf "a") cursor compile).2 = [] := by
  decide

end SqlMapping
