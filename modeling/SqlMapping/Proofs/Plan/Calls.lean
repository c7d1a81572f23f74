import SqlMapping.Proofs.Plan.Plans
import SqlMapping.Proofs.Plan.Reuse

/-!
# Runs of a plan cache

Calls on a cache one after the other. `CacheStep.ends` lists the ways in which one call ends, with
everything it does to the cache, and `wellKept_afterAll` says that in every run identities and serial
numbers stay distinct.
-/

namespace SqlMapping

/-- A call on a plan cache. Hits are recorded on a plan that a caller holds, in the cache or not. -/
inductive CacheCall : Type 1 where
  | getOrCompile {ρ : Type} (kind : RecipeKind ρ) (id : QueryIdentity) (cursor : AnyCursor)
      (compile : RowShape → Except Error ρ)
  | binderOrCompile (id : QueryIdentity) (type : TypeKey) (marker : String) (compile : ParameterBinder)
  | get (id : QueryIdentity)
  | remove (id : QueryIdentity)
  | clear
  | recordHit (serial : Nat)

namespace CacheCall

def after (c : PlanCache) : CacheCall → PlanCache
  | .getOrCompile kind id cursor compile => (c.getOrCompile kind id cursor.cursor compile).2
  | .binderOrCompile id type marker compile => (c.binderOrCompile id type marker compile).2
  | .get _ => c
  | .remove id => (c.remove id).2
  | .clear => c.clear
  | .recordHit serial => c.recordHit serial

def returned (c : PlanCache) : CacheCall → Option Nat
  | .getOrCompile kind id cursor compile =>
    match (c.getOrCompile kind id cursor.cursor compile).1 with
    | .ok served => some served.serial
    | .error _ => none
  | _ => none

def isServed (c : PlanCache) : CacheCall → Bool
  | .getOrCompile kind id cursor _ => c.isServed kind id cursor.cursor
  | _ => false

def finds (c : PlanCache) : CacheCall → Bool
  | .getOrCompile _ id _ _ => (c.plan? id).isSome
  | _ => false

end CacheCall

structure CacheStep : Type 1 where
  before : PlanCache
  call : CacheCall

namespace CacheStep

def after (s : CacheStep) : PlanCache := s.call.after s.before

def returned (s : CacheStep) : Option Nat := s.call.returned s.before

def succeeds (s : CacheStep) : Bool := s.returned.isSome

def misses (s : CacheStep) : Bool := s.succeeds && !s.call.finds s.before

end CacheStep

namespace PlanCache

def afterAll (c : PlanCache) (calls : List CacheCall) : PlanCache := calls.foldl CacheCall.after c

def history (c : PlanCache) : List CacheCall → List CacheStep
  | [] => []
  | call :: calls => ⟨c, call⟩ :: (call.after c).history calls

variable (c : PlanCache)

theorem afterAll_concat (calls : List CacheCall) (call : CacheCall) :
    c.afterAll (calls ++ [call]) = (CacheStep.mk (c.afterAll calls) call).after := by
  simp [afterAll, CacheStep.after]

theorem history_concat (calls : List CacheCall) (call : CacheCall) :
    c.history (calls ++ [call]) = c.history calls ++ [⟨c.afterAll calls, call⟩] := by
  induction calls generalizing c with
  | nil => rfl
  | cons first rest ih => simp [history, afterAll, ih]

end PlanCache

/-! ## How a call ends -/

def freshPlan (c : PlanCache) (shape : RowShape) (recipe : Recipe) : CachedPlan :=
  { serial := c.nextPlan, shape := shape.names, recipe }

/-- The ways in which a call ends, with what it returns and the cache it leaves. -/
inductive CacheStep.Ends (s : CacheStep) : Prop where
  | unshaped {ρ id cursor compile e} {kind : RecipeKind ρ}
      (hcall : s.call = .getOrCompile kind id cursor compile) (hshape : cursor.shape = .error e)
      (hreturned : s.returned = none) (hafter : s.after = s.before)
  | served {ρ id cursor compile shape p m} {kind : RecipeKind ρ}
      (hcall : s.call = .getOrCompile kind id cursor compile) (hshape : cursor.shape = .ok shape)
      (hp : s.before.plan? id = some p) (hm : p.serves? kind shape = some m)
      (hreturned : s.returned = some p.serial) (hafter : s.after = s.before.serve p.serial)
  | failed {ρ id cursor compile shape e} {kind : RecipeKind ρ}
      (hcall : s.call = .getOrCompile kind id cursor compile) (hshape : cursor.shape = .ok shape)
      (hnone : ∀ p, s.before.plan? id = some p → p.serves? kind shape = none) (he : compile shape = .error e)
      (hreturned : s.returned = none) (hafter : s.after = s.before)
  | recompiled {ρ id cursor compile shape stale m} {kind : RecipeKind ρ}
      (hcall : s.call = .getOrCompile kind id cursor compile) (hshape : cursor.shape = .ok shape)
      (hp : s.before.plan? id = some stale) (hnone : stale.serves? kind shape = none)
      (hm : compile shape = .ok m) (hreturned : s.returned = some s.before.nextPlan)
      (hafter : s.after = s.before.replacePlan id stale (freshPlan s.before shape (kind.wrap m)))
  | missed {ρ id cursor compile shape m} {kind : RecipeKind ρ}
      (hcall : s.call = .getOrCompile kind id cursor compile) (hshape : cursor.shape = .ok shape)
      (hp : s.before.plan? id = none) (hm : compile shape = .ok m)
      (hreturned : s.returned = some s.before.nextPlan)
      (hafter : s.after = s.before.insertPlan id (freshPlan s.before shape (kind.wrap m)))
  | bound {id type marker compile} (hcall : s.call = .binderOrCompile id type marker compile)
      (hreturned : s.returned = none) (hafter : s.after = (s.before.binderOrCompile id type marker compile).2)
  | got {id} (hcall : s.call = .get id) (hreturned : s.returned = none) (hafter : s.after = s.before)
  | removed {id} (hcall : s.call = .remove id) (hreturned : s.returned = none)
      (hafter : s.after = (s.before.remove id).2)
  | cleared (hcall : s.call = .clear) (hreturned : s.returned = none) (hafter : s.after = s.before.clear)
  | recorded {serial} (hcall : s.call = .recordHit serial) (hreturned : s.returned = none)
      (hafter : s.after = s.before.recordHit serial)

theorem CacheStep.ends (s : CacheStep) : s.Ends := by
  obtain ⟨c, call⟩ := s
  cases call with
  | getOrCompile kind id cursor compile =>
    cases hshape : cursor.shape with
    | error e =>
      have hlook := c.getOrCompile_error kind id compile hshape
      refine .unshaped rfl hshape ?_ ?_ <;> simp [returned, after, CacheCall.returned, CacheCall.after, hlook]
    | ok shape =>
      have hstep := c.getOrCompile_step kind id compile hshape
      generalize hlook : c.getOrCompile kind id cursor.cursor compile = result at hstep
      cases hstep with
      | served hp hm =>
        refine .served rfl hshape hp hm ?_ ?_ <;>
          simp [returned, after, CacheCall.returned, CacheCall.after, hlook]
      | failed hnone he =>
        refine .failed rfl hshape hnone he ?_ ?_ <;>
          simp [returned, after, CacheCall.returned, CacheCall.after, hlook]
      | compiled hnone hm =>
        cases hp : c.plan? id with
        | some stale =>
          refine .recompiled rfl hshape hp (hnone stale hp) hm ?_ ?_ <;>
            simp [returned, after, CacheCall.returned, CacheCall.after, hlook, PlanCache.store, hp, freshPlan]
        | none =>
          refine .missed rfl hshape hp hm ?_ ?_ <;>
            simp [returned, after, CacheCall.returned, CacheCall.after, hlook, PlanCache.store, hp, freshPlan]
  | binderOrCompile id type marker compile => exact .bound rfl rfl rfl
  | get id => exact .got rfl rfl rfl
  | remove id => exact .removed rfl rfl rfl
  | clear => exact .cleared rfl rfl rfl
  | recordHit serial => exact .recorded rfl rfl rfl

/-! ## What every run keeps -/

theorem CacheStep.wellKept {s : CacheStep} (h : s.before.WellKept) : s.after.WellKept := by
  cases s.ends with
  | unshaped _ _ _ hafter | failed _ _ _ _ _ hafter | got _ _ hafter => rwa [hafter]
  | served _ _ _ _ _ hafter => rw [hafter]; exact h.serve _
  | recompiled _ _ hp _ _ _ hafter => rw [hafter]; exact h.replacePlan hp rfl
  | missed _ _ hp _ _ hafter => rw [hafter]; exact h.insertPlan hp rfl
  | bound _ _ hafter => rw [hafter]; exact h.binderOrCompile ..
  | removed _ _ hafter => rw [hafter]; exact h.remove _
  | cleared _ _ hafter => rw [hafter]; exact h.clear
  | recorded _ _ hafter => rw [hafter]; exact h.recordHit _

theorem CacheStep.config_after (s : CacheStep) : s.after.config = s.before.config := by
  cases s.ends with
  | unshaped _ _ _ hafter | failed _ _ _ _ _ hafter | got _ _ hafter => rw [hafter]
  | served _ _ _ _ _ hafter | recompiled _ _ _ _ _ _ hafter | removed _ _ hafter | cleared _ _ hafter
  | recorded _ _ hafter => rw [hafter]; rfl
  | missed _ _ hp _ _ hafter => rw [hafter, PlanCache.config_insertPlan hp]
  | bound _ _ hafter => rw [hafter, (s.before.quiet_binderOrCompile ..).config]

namespace PlanCache

theorem wellKept_afterAll (config : CacheConfig) (calls : List CacheCall) :
    (afterAll { config } calls).WellKept := by
  induction calls using List.reverseRecOn with
  | nil => exact wellKept_new config
  | append_singleton calls call ih =>
    rw [afterAll_concat]
    exact CacheStep.wellKept ih

theorem config_afterAll (c : PlanCache) (calls : List CacheCall) : (c.afterAll calls).config = c.config := by
  induction calls using List.reverseRecOn with
  | nil => rfl
  | append_singleton calls call ih =>
    rw [afterAll_concat, CacheStep.config_after]
    exact ih

theorem survives_afterAll (c : PlanCache) (calls : List CacheCall) :
    (c.afterAll calls).survives = fun p => decide (c.config.minHits < p.hits) := by
  funext p
  rw [survives, config_afterAll]

end PlanCache

end SqlMapping
