import Mathlib.Algebra.Ring.Nat
import SqlMapping.Proofs.Plan.Calls

/-!
# The books of a plan cache

The counters of a cache balance in every run. `counters_balance`: look-ups that succeeded are hits, misses
or recompilations, and plans that came in by misses are in the cache, collected, removed or cleared.
-/

namespace SqlMapping

def CacheStats.lookUps (s : CacheStats) : Nat × Nat × Nat := (s.hits, s.misses, s.recompiles)

def CacheStats.answered (s : CacheStats) : Nat := s.hits + s.misses + s.recompiles

namespace CacheStep

def RaisesOne (s : CacheStep) : Prop :=
  let (hits, misses, recompiles) := s.before.stats.lookUps
  s.after.stats.lookUps = (hits + 1, misses, recompiles) ∨
    s.after.stats.lookUps = (hits, misses + 1, recompiles) ∨
      s.after.stats.lookUps = (hits, misses, recompiles + 1)

def removesPlan (s : CacheStep) : Bool :=
  match s.call with
  | .remove id => (s.before.remove id).1.isSome
  | _ => false

def cleared (s : CacheStep) : Nat :=
  match s.call with
  | .clear => s.before.size
  | _ => 0

end CacheStep

namespace PlanCache

variable {c : PlanCache} {id : QueryIdentity} {p : CachedPlan}

theorem lookUps_countInsertion : c.countInsertion.stats.lookUps = c.stats.lookUps := by
  simp only [countInsertion]; split <;> rfl

theorem lookUps_insertPlan (fresh : CachedPlan) (h : c.plan? id = none) :
    (c.insertPlan id fresh).stats.lookUps = (c.stats.hits, c.stats.misses + 1, c.stats.recompiles) := by
  have hcount := lookUps_countInsertion (c := c)
  simp only [CacheStats.lookUps, Prod.mk.injEq] at hcount
  rw [insertPlan_eq h]
  simp [CacheStats.lookUps, hcount]

/-- A collection moves plans from the cache to the count of those collected. -/
theorem size_collect : c.collect.size + c.collect.stats.collected = c.size + c.stats.collected := by
  have hsplit := (List.filter_append_perm (fun e : QueryIdentity × CachedPlan => c.survives e.2) c.entries).length_eq
  rw [List.length_append] at hsplit
  simp only [size, collect]
  omega

theorem size_countInsertion :
    c.countInsertion.size + c.countInsertion.stats.collected = c.size + c.stats.collected := by
  cases hdue : c.isDue with
  | false => rw [countInsertion_of_not_due hdue]; rfl
  | true => rw [countInsertion_of_due hdue, size_collect]; rfl

theorem size_insertPlan (fresh : CachedPlan) (h : c.plan? id = none) :
    (c.insertPlan id fresh).size + (c.insertPlan id fresh).stats.collected = c.size + c.stats.collected + 1 := by
  have hcount := size_countInsertion (c := c)
  rw [insertPlan_eq h]
  simp only [size, List.length_append, List.length_singleton] at hcount ⊢
  omega

theorem size_remove (c : PlanCache) (id : QueryIdentity) :
    (c.remove id).2.size + (if (c.remove id).1.isSome then 1 else 0) = c.size := by
  cases h : c.plan? id with
  | none =>
    have herase : Keyed.erase c.entries id = c.entries := Keyed.erase_of_find?_none h
    simp [remove, size, h, herase]
  | some p =>
    have hold := (Keyed.perm_erase h).length_eq
    rw [List.length_cons] at hold
    simp [remove, size, h, hold]

end PlanCache

namespace CacheStep

variable (s : CacheStep)

theorem lookUps_after : if s.succeeds then s.RaisesOne else s.after.stats.lookUps = s.before.stats.lookUps := by
  cases s.ends with
  | unshaped _ _ hreturned hafter | failed _ _ _ _ hreturned hafter | got _ hreturned hafter =>
    simp [succeeds, hreturned, hafter]
  | removed _ hreturned hafter | cleared _ hreturned hafter | recorded _ hreturned hafter =>
    rw [succeeds, hreturned, hafter]; rfl
  | bound _ hreturned hafter =>
    rw [succeeds, hreturned, hafter, (s.before.quiet_binderOrCompile ..).stats]; rfl
  | served _ _ _ _ hreturned hafter =>
    rw [succeeds, hreturned, RaisesOne, hafter]
    exact .inl rfl
  | missed _ _ hp _ hreturned hafter =>
    rw [succeeds, hreturned, RaisesOne, hafter]
    exact .inr (.inl (PlanCache.lookUps_insertPlan _ hp))
  | recompiled _ _ _ _ _ hreturned hafter =>
    rw [succeeds, hreturned, RaisesOne, hafter]
    exact .inr (.inr rfl)

theorem answered_after : s.after.stats.answered = s.before.stats.answered + (if s.succeeds then 1 else 0) := by
  have h := s.lookUps_after
  by_cases hs : s.succeeds = true
  · rw [if_pos hs] at h ⊢
    simp only [RaisesOne, CacheStats.lookUps, Prod.mk.injEq] at h
    simp only [CacheStats.answered]
    omega
  · rw [if_neg hs] at h ⊢
    simp only [CacheStats.lookUps, Prod.mk.injEq] at h
    simp only [CacheStats.answered, h, Nat.add_zero]

/-- A miss brings in one plan, and a plan that goes out is counted as collected, removed or cleared. -/
theorem size_after :
    s.after.size + s.after.stats.collected + (if s.removesPlan then 1 else 0) + s.cleared
        + s.before.stats.misses =
      s.before.size + s.before.stats.collected + s.after.stats.misses := by
  cases s.ends with
  | unshaped hcall _ _ hafter | failed hcall _ _ _ _ hafter | got hcall _ hafter =>
    simp [removesPlan, cleared, hcall, hafter]
  | served hcall _ _ _ _ hafter | recorded hcall _ hafter =>
    simp [removesPlan, cleared, hcall, hafter, PlanCache.serve, PlanCache.recordHit, PlanCache.size]
  | bound hcall _ hafter =>
    have hquiet : PlanCache.Quiet s.before s.after := hafter ▸ PlanCache.quiet_binderOrCompile ..
    simp [removesPlan, cleared, hcall, hquiet.stats, hquiet.size]
  | @removed id hcall _ hafter =>
    have hsize := s.before.size_remove id
    simp only [removesPlan, cleared, hcall, hafter, Nat.add_zero]
    rw [← hsize]
    simp only [PlanCache.remove, PlanCache.retire]
    omega
  | cleared hcall _ hafter =>
    simp [removesPlan, cleared, hcall, hafter, PlanCache.clear, PlanCache.size]
    omega
  | missed hcall _ hp _ _ hafter =>
    generalize freshPlan s.before _ _ = fresh at hafter
    have hsize := PlanCache.size_insertPlan fresh hp
    have hlook := PlanCache.lookUps_insertPlan fresh hp
    simp only [CacheStats.lookUps, Prod.mk.injEq] at hlook
    simp only [removesPlan, cleared, hcall, hafter, Bool.false_eq_true, if_false]
    omega
  | recompiled hcall _ hp _ _ _ hafter =>
    simp only [removesPlan, cleared, hcall, hafter, PlanCache.size, PlanCache.replacePlan, PlanCache.retire]
    rw [PlanCache.size_insert hp]
    simp [PlanCache.size]

end CacheStep

section
variable (c : PlanCache) (calls : List CacheCall)

theorem answered_afterAll :
    (c.afterAll calls).stats.answered = c.stats.answered + (c.history calls).countP CacheStep.succeeds := by
  induction calls using List.reverseRecOn with
  | nil => rfl
  | append_singleton calls call ih =>
    have hstep := (CacheStep.mk (c.afterAll calls) call).answered_after
    rw [c.afterAll_concat, c.history_concat, hstep, List.countP_append, List.countP_singleton]
    dsimp only
    omega

theorem size_afterAll :
    (c.afterAll calls).size + (c.afterAll calls).stats.collected + (c.history calls).countP CacheStep.removesPlan
        + ((c.history calls).map CacheStep.cleared).sum + c.stats.misses =
      c.size + c.stats.collected + (c.afterAll calls).stats.misses := by
  induction calls using List.reverseRecOn with
  | nil => simp [PlanCache.afterAll, PlanCache.history]
  | append_singleton calls call ih =>
    have hstep := (CacheStep.mk (c.afterAll calls) call).size_after
    rw [c.afterAll_concat, c.history_concat, List.countP_append, List.countP_singleton, List.map_append,
      List.sum_append]
    dsimp only at hstep
    simp only [List.map_cons, List.map_nil, List.sum_cons, List.sum_nil]
    omega

theorem length_history : (c.history calls).length = calls.length := by
  induction calls generalizing c with
  | nil => rfl
  | cons call calls ih => simp [PlanCache.history, ih]

end

/-- In every run of calls on a new cache, a look-up that succeeds raises one of hits, misses and
recompilations by one, and no other call raises any; so the three add up to the look-ups that succeeded.
Every plan that a miss brought in is in the cache, was collected, was removed or was cleared away. No counter
is above the number of calls. -/
theorem counters_balance (config : CacheConfig) (calls : List CacheCall) :
    let history := PlanCache.history { config } calls
    let cache := PlanCache.afterAll { config } calls
    let stats := cache.stats
    (∀ s ∈ history, if s.succeeds then s.RaisesOne else s.after.stats.lookUps = s.before.stats.lookUps) ∧
      stats.hits + stats.misses + stats.recompiles = history.countP CacheStep.succeeds ∧
      cache.size + stats.collected + history.countP CacheStep.removesPlan + (history.map CacheStep.cleared).sum
        = stats.misses ∧
      stats.hits + stats.misses + stats.recompiles ≤ calls.length ∧ stats.collected ≤ stats.misses := by
  intro history cache stats
  have hanswered : stats.hits + stats.misses + stats.recompiles = history.countP CacheStep.succeeds := by
    have := answered_afterAll { config } calls
    simpa [CacheStats.answered] using this
  have hsize : cache.size + stats.collected + history.countP CacheStep.removesPlan
      + (history.map CacheStep.cleared).sum = stats.misses := by
    have := size_afterAll { config } calls
    simpa [PlanCache.size] using this
  have hlength : history.countP CacheStep.succeeds ≤ calls.length := by
    rw [← length_history { config } calls]
    exact List.countP_le_length
  refine ⟨fun s _ => s.lookUps_after, hanswered, hsize, ?_, ?_⟩
  · exact hanswered ▸ hlength
  · omega

end SqlMapping
