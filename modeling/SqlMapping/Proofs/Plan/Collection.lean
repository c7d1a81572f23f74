import SqlMapping.Proofs.Plan.Accounting

/-!
# Collections of a plan cache

When a collection runs, what it drops, and how large a cache grows between two of them. The insertion counter
counts the misses since the last collection or clearing (`tracks_history`), and `collection_runs` draws from
this when collections run and how many plans there are.
-/

namespace SqlMapping

namespace CacheCall

def isClear : CacheCall → Bool
  | .clear => true
  | _ => false

theorem eq_clear_of_isClear {call : CacheCall} (h : call.isClear = true) : call = .clear := by
  cases call <;> simp [isClear] at h
  rfl

def lookedUp : CacheCall → Option QueryIdentity
  | .getOrCompile _ id _ _ => some id
  | _ => none

def TakesOut (id : QueryIdentity) : CacheCall → Prop
  | .remove id' => id' = id
  | .clear => True
  | _ => False

end CacheCall

/-- A miss for which the cache collects before it stores the new plan. -/
def CacheStep.collects (s : CacheStep) : Bool := s.misses && s.before.isDue

structure SincePass where
  misses : Nat := 0
  /-- The plans that the last collection left; none if there was no collection. -/
  survivors : Nat := 0

namespace SincePass

def next (r : SincePass) (s : CacheStep) : SincePass :=
  if s.call.isClear then {}
  else if s.collects then { misses := 0, survivors := s.before.collect.size }
  else if s.misses then { r with misses := r.misses + 1 }
  else r

def ofHistory (history : List CacheStep) : SincePass := history.foldl next {}

/-- The counter of the cache is the number of misses, and at most one plan more than these came in since
the last collection: the one that brought it. -/
structure Tracks (r : SincePass) (c : PlanCache) : Prop where
  counter : c.insertions = r.misses
  below : c.insertions < c.config.collectEvery
  size : c.size ≤ r.survivors + r.misses + 1

theorem Tracks.of_quiet {r : SincePass} {c c' : PlanCache} (h : Tracks r c) (hconfig : c'.config = c.config)
    (hinsertions : c'.insertions = c.insertions) (hsize : c'.size ≤ c.size) : Tracks r c' where
  counter := hinsertions.trans h.counter
  below := by rw [hinsertions, hconfig]; exact h.below
  size := Nat.le_trans hsize h.size

end SincePass

namespace PlanCache

variable {c : PlanCache} {id other : QueryIdentity} {fresh : CachedPlan}

theorem insertions_insertPlan (fresh : CachedPlan) (h : c.plan? id = none) :
    (c.insertPlan id fresh).insertions = if c.isDue then 0 else c.insertions + 1 := by
  rw [insertPlan_eq h]
  cases hdue : c.isDue with
  | false => rw [countInsertion_of_not_due hdue]; simp
  | true => rw [countInsertion_of_due hdue]; simp [collect]

theorem entries_insertPlan (fresh : CachedPlan) (h : c.plan? id = none) :
    (c.insertPlan id fresh).entries =
      (if c.isDue then c.collect.entries else c.entries) ++ [(id, fresh)] := by
  rw [insertPlan_eq h]
  cases hdue : c.isDue with
  | false => rw [countInsertion_of_not_due hdue]; simp
  | true => rw [countInsertion_of_due hdue]; simp [collect, survives]

theorem collected_insertPlan_of_not_due (h : c.plan? id = none) (hdue : c.isDue = false) :
    (c.insertPlan id fresh).stats.collected = c.stats.collected := by
  rw [insertPlan_eq h, countInsertion_of_not_due hdue]

theorem plan?_insertPlan_self (h : c.plan? id = none) : (c.insertPlan id fresh).plan? id = some fresh := by
  have hleft : ∀ es : Keyed QueryIdentity CachedPlan, (∀ e ∈ es, e ∈ c.entries) → Keyed.find? es id = none := by
    intro es hes
    refine Keyed.find?_eq_none_iff.mpr fun a ha => ?_
    exact Keyed.find?_eq_none_iff.mp h a (hes _ ha)
  rw [plan?, entries_insertPlan fresh h]
  refine plan?_append_self (hleft _ fun e he => ?_)
  split at he
  · exact (List.mem_filter.mp he).1
  · exact he

theorem find?_append_of_ne (es : Keyed QueryIdentity CachedPlan) (h : other ≠ id) :
    Keyed.find? (es ++ [(id, fresh)]) other = Keyed.find? es other := by
  induction es with
  | nil => simp [Keyed.find?, Ne.symm h]
  | cons e es ih => simp only [List.cons_append, Keyed.find?, ih]

theorem plan?_insertPlan_of_ne (hids : (c.entries.map Prod.fst).Nodup) (h : c.plan? id = none) (hne : other ≠ id) :
    (c.insertPlan id fresh).plan? other =
      if c.isDue then (c.plan? other).filter c.survives else c.plan? other := by
  rw [plan?, entries_insertPlan fresh h, find?_append_of_ne _ hne]
  split
  · exact plan?_collect hids
  · rfl

end PlanCache

namespace SincePass

open PlanCache

variable {r : SincePass} {c : PlanCache} {id : QueryIdentity}

theorem Tracks.clear (h : r.Tracks c) : Tracks {} c.clear where
  counter := rfl
  below := Nat.zero_lt_of_lt h.below
  size := Nat.zero_le _

theorem Tracks.insertPlan_of_due (h : r.Tracks c) (fresh : CachedPlan) (hp : c.plan? id = none)
    (hdue : c.isDue = true) : Tracks { misses := 0, survivors := c.collect.size } (c.insertPlan id fresh) where
  counter := by rw [insertions_insertPlan fresh hp, if_pos hdue]
  below := by
    rw [insertions_insertPlan fresh hp, if_pos hdue, config_insertPlan hp]
    exact Nat.zero_lt_of_lt h.below
  size := by
    rw [PlanCache.size, entries_insertPlan fresh hp, if_pos hdue, List.length_append]
    exact Nat.le_refl _

theorem Tracks.insertPlan (h : r.Tracks c) (fresh : CachedPlan) (hp : c.plan? id = none) (hdue : c.isDue = false) :
    Tracks { r with misses := r.misses + 1 } (c.insertPlan id fresh) := by
  have hroom : ¬ c.config.collectEvery ≤ c.insertions + 1 := by simpa [isDue] using hdue
  have hinsertions := insertions_insertPlan fresh hp
  have hentries := entries_insertPlan fresh hp
  rw [hdue, if_neg Bool.false_ne_true] at hinsertions hentries
  refine ⟨?_, ?_, ?_⟩
  · rw [hinsertions, h.counter]
  · rw [hinsertions, config_insertPlan hp]
    omega
  · have hsize := h.size
    rw [PlanCache.size, hentries, List.length_append, List.length_singleton]
    simp only [PlanCache.size] at hsize ⊢
    omega

end SincePass

/-! ## Counting misses -/

namespace CacheStep

variable {s : CacheStep}

theorem misses_of_returned_none (h : s.returned = none) : s.misses = false := by
  simp [misses, succeeds, h]

/-- A call that is no miss and no clearing leaves the counter as it is and adds no plan. -/
theorem quiet_of_not_misses (h : s.misses = false) (hclear : s.call.isClear = false) :
    s.after.insertions = s.before.insertions ∧ s.after.size ≤ s.before.size ∧
      s.after.stats.collected = s.before.stats.collected := by
  cases s.ends with
  | unshaped _ _ _ hafter | failed _ _ _ _ _ hafter | got _ _ hafter => simp [hafter]
  | served _ _ _ _ _ hafter | recorded _ _ hafter =>
    simp [hafter, PlanCache.serve, PlanCache.recordHit, PlanCache.size]
  | recompiled _ _ hp _ _ _ hafter =>
    have hsize := PlanCache.size_insert hp
    simp [hafter, PlanCache.replacePlan, PlanCache.retire, PlanCache.size, hsize]
  | missed hcall _ hp _ hreturned _ =>
    simp [misses, succeeds, hreturned, hcall, CacheCall.finds, hp] at h
  | bound _ _ hafter =>
    have hquiet : PlanCache.Quiet s.before s.after := hafter ▸ PlanCache.quiet_binderOrCompile ..
    exact ⟨hquiet.insertions, Nat.le_of_eq hquiet.size, congrArg CacheStats.collected hquiet.stats⟩
  | @removed id _ _ hafter =>
    have hsize := s.before.size_remove id
    rw [hafter]
    refine ⟨rfl, ?_, rfl⟩
    omega
  | cleared hcall _ _ => simp [CacheCall.isClear, hcall] at hclear

theorem exists_of_misses (h : s.misses = true) :
    ∃ id fresh, s.call.lookedUp = some id ∧ s.before.plan? id = none ∧
      s.returned = some fresh.serial ∧ s.after = s.before.insertPlan id fresh := by
  cases s.ends with
  | unshaped _ _ hreturned _ | failed _ _ _ _ hreturned _ | got _ hreturned _ | bound _ hreturned _
  | removed _ hreturned _ | cleared _ hreturned _ | recorded _ hreturned _ =>
    rw [misses_of_returned_none hreturned] at h
    cases h
  | served hcall _ hp _ _ _ => simp [misses, hcall, CacheCall.finds, hp] at h
  | recompiled hcall _ hp _ _ _ _ => simp [misses, hcall, CacheCall.finds, hp] at h
  | missed hcall _ hp _ hreturned hafter => exact ⟨_, _, by rw [hcall]; rfl, hp, hreturned, hafter⟩

theorem tracks {r : SincePass} (h : r.Tracks s.before) : (r.next s).Tracks s.after := by
  by_cases hclear : s.call.isClear = true
  · have hafter : s.after = s.before.clear := by
      rw [after, CacheCall.eq_clear_of_isClear hclear]
      rfl
    simp only [SincePass.next, hclear, if_true, hafter]
    exact h.clear
  have hclear : s.call.isClear = false := by simpa using hclear
  by_cases hmiss : s.misses = true
  · obtain ⟨id, fresh, _, hp, _, hafter⟩ := exists_of_misses hmiss
    cases hdue : s.before.isDue with
    | true =>
      simp only [SincePass.next, hclear, collects, hmiss, hdue, hafter]
      exact h.insertPlan_of_due fresh hp hdue
    | false =>
      simp only [SincePass.next, hclear, collects, hmiss, hdue, hafter]
      exact h.insertPlan fresh hp hdue
  · have hmiss : s.misses = false := by simpa using hmiss
    obtain ⟨hinsertions, hsize, _⟩ := quiet_of_not_misses hmiss hclear
    have hnext : r.next s = r := by simp [SincePass.next, hclear, collects, hmiss]
    rw [hnext]
    exact h.of_quiet s.config_after hinsertions hsize

end CacheStep

theorem tracks_history {config : CacheConfig} (h : 0 < config.collectEvery) (calls : List CacheCall) :
    (SincePass.ofHistory (PlanCache.history { config } calls)).Tracks (PlanCache.afterAll { config } calls) := by
  induction calls using List.reverseRecOn with
  | nil => exact ⟨rfl, h, by simp [PlanCache.afterAll, PlanCache.size]⟩
  | append_singleton calls call ih =>
    rw [PlanCache.afterAll_concat, PlanCache.history_concat, SincePass.ofHistory, List.foldl_append]
    exact CacheStep.tracks ih

/-! ## When collections run -/

theorem PlanCache.of_make {config : CacheConfig} {cache : PlanCache} (h : make config = .ok cache) :
    cache = { config } ∧ 0 < config.collectEvery := by
  simp only [make, CacheConfig.check] at h
  by_cases hzero : config.collectEvery = 0
  · simp [hzero] at h
  · rw [if_neg hzero] at h
    cases h
    exact ⟨rfl, Nat.pos_of_ne_zero hzero⟩

/-- Without a collection, a plan leaves the cache only when it is removed or the cache is cleared. -/
theorem CacheStep.stays_of_not_collects {s : CacheStep} (hkept : s.before.WellKept) (h : s.collects = false)
    {id : QueryIdentity} (hid : ¬ s.call.TakesOut id) (hp : (s.before.plan? id).isSome) :
    (s.after.plan? id).isSome := by
  cases s.ends with
  | unshaped _ _ _ hafter | failed _ _ _ _ _ hafter | got _ _ hafter => rwa [hafter]
  | served _ _ _ _ _ hafter => rwa [hafter, PlanCache.plan?_serve, Option.isSome_map]
  | recorded _ _ hafter => rwa [hafter, PlanCache.plan?_recordHit, Option.isSome_map]
  | @recompiled _ id' _ _ _ _ _ _ _ _ _ _ _ _ hafter =>
    by_cases hid : id = id'
    · rw [hafter, hid, PlanCache.plan?_replacePlan_self]; rfl
    · rwa [hafter, PlanCache.plan?_replacePlan_of_ne hid]
  | @missed _ id' _ _ _ _ _ hcall _ hnone _ hreturned hafter =>
    have hdue : s.before.isDue = false := by
      simpa [collects, misses, succeeds, hreturned, hcall, CacheCall.finds, hnone] using h
    by_cases hid : id = id'
    · rw [hafter, hid, PlanCache.plan?_insertPlan_self hnone]; rfl
    · rw [hafter, PlanCache.plan?_insertPlan_of_ne hkept.identities hnone hid, hdue]
      exact hp
  | @bound id' type marker compile _ _ hafter =>
    by_cases hid : id = id'
    · subst hid
      obtain ⟨binders, heq⟩ := s.before.plan?_binderOrCompile_self id type marker compile
      rwa [hafter, heq, Option.isSome_map]
    · rwa [hafter, PlanCache.plan?_binderOrCompile_of_ne type marker compile hid]
  | removed hcall _ hafter =>
    have hne : id ≠ _ := fun heq => hid (by rw [hcall]; exact heq.symm)
    rwa [hafter, PlanCache.plan?_remove_of_ne hne]
  | cleared hcall _ _ => exact absurd trivial (by rw [hcall] at hid; exact hid)

/-- A collection goes through the plans that there are, and then the plan that brought it is stored. -/
theorem CacheStep.exists_of_collects {s : CacheStep} (hkept : s.before.WellKept) (h : s.collects = true) :
    ∃ id fresh, s.call.lookedUp = some id ∧ s.returned = some fresh.serial ∧ s.after.plan? id = some fresh ∧
      ∀ other, other ≠ id → s.after.plan? other = (s.before.plan? other).filter s.before.survives := by
  simp only [collects, Bool.and_eq_true] at h
  obtain ⟨hmiss, hdue⟩ := h
  obtain ⟨id, fresh, hid, hp, hreturned, hafter⟩ := exists_of_misses hmiss
  refine ⟨id, fresh, hid, hreturned, ?_, fun other hne => ?_⟩
  · rw [hafter]
    exact PlanCache.plan?_insertPlan_self hp
  · rw [hafter, PlanCache.plan?_insertPlan_of_ne hkept.identities hp hne, if_pos hdue]

theorem CacheStep.collected_of_not_collects {s : CacheStep} (h : s.collects = false) :
    s.after.stats.collected = s.before.stats.collected := by
  by_cases hmiss : s.misses = true
  · obtain ⟨id, fresh, _, hp, _, hafter⟩ := exists_of_misses hmiss
    have hdue : s.before.isDue = false := by simpa [collects, hmiss] using h
    rw [hafter]
    exact PlanCache.collected_insertPlan_of_not_due hp hdue
  have hmiss : s.misses = false := by simpa using hmiss
  by_cases hclear : s.call.isClear = true
  · rw [after, CacheCall.eq_clear_of_isClear hclear]
    rfl
  · exact (quiet_of_not_misses hmiss (by simpa using hclear)).2.2

/-- In every run on a new cache that collects at every `collectEvery` new plans: after each call the counter
of insertions is the number of misses since the creation, the last collection or the last clearing, and is
below `collectEvery`. A call brings a collection if and only if it is a miss, and the one that makes
`collectEvery` of them. The collection drops exactly the plans with at most `minHits` hits, keeps all others
as they are, and the plan that brought it is stored; any other call drops only what it removes or clears.
There are never more than `collectEvery` plans besides those that the last collection left. -/
theorem collection_runs {config : CacheConfig} {cache : PlanCache} (hnew : PlanCache.make config = .ok cache)
    (calls : List CacheCall) (call : CacheCall) :
    let before := cache.afterAll calls
    let s : CacheStep := ⟨before, call⟩
    let since := SincePass.ofHistory (cache.history calls)
    let sinceThen := SincePass.ofHistory (cache.history (calls ++ [call]))
    s.after.insertions = sinceThen.misses ∧ s.after.insertions < config.collectEvery ∧
      (s.collects = true ↔ s.misses = true ∧ since.misses + 1 = config.collectEvery) ∧
      (s.collects = true →
        ∃ id fresh, call.lookedUp = some id ∧ s.returned = some fresh.serial ∧ s.after.plan? id = some fresh ∧
          ∀ other, other ≠ id →
            s.after.plan? other = (before.plan? other).filter fun p => config.minHits < p.hits) ∧
      (s.collects = false →
        s.after.stats.collected = before.stats.collected ∧
          ∀ id, ¬ call.TakesOut id → (before.plan? id).isSome → (s.after.plan? id).isSome) ∧
      s.after.size ≤ sinceThen.survivors + config.collectEvery := by
  intro before s since sinceThen
  obtain ⟨rfl, hpos⟩ := PlanCache.of_make hnew
  have htracks : since.Tracks before := tracks_history hpos calls
  have hkept : before.WellKept := PlanCache.wellKept_afterAll config calls
  have hconfig : before.config = config := PlanCache.config_afterAll { config } calls
  have hnext : sinceThen.Tracks s.after := by
    have := tracks_history hpos (calls ++ [call])
    rwa [PlanCache.afterAll_concat] at this
  have hbelow : s.after.insertions < config.collectEvery := by
    have := hnext.below
    rwa [s.config_after, hconfig] at this
  refine ⟨hnext.counter, hbelow, ?_, fun hcollects => ?_, fun hquiet => ⟨?_, fun id hid hp => ?_⟩, ?_⟩
  · have hcounter := htracks.counter
    have hless := htracks.below
    rw [hconfig] at hless
    have hdue : before.isDue = true ↔ since.misses + 1 = config.collectEvery := by
      simp only [PlanCache.isDue, hconfig, decide_eq_true_eq]
      omega
    simp only [CacheStep.collects, Bool.and_eq_true]
    exact and_congr_right fun _ => hdue
  · have hcollected := CacheStep.exists_of_collects hkept hcollects
    rwa [PlanCache.survives_afterAll] at hcollected
  · exact CacheStep.collected_of_not_collects hquiet
  · exact CacheStep.stays_of_not_collects hkept hquiet hid hp
  · have hsize := hnext.size
    have hcounter := hnext.counter
    omega

def queryOf (sql : String) : QueryIdentity := { sql, connection := "db", target := .dynamic }

def lookUpOf (sql : String) : CacheCall :=
  .getOrCompile .dynamic (queryOf sql) ⟨MemoryCursor.ofNames ["id"]⟩ fun shape =>
    .ok (DynamicMaterializer.compile shape none)

/-- With a collection at every third new plan, the third query brings one, which keeps the plan that was
used again and drops the other. -/
theorem third_miss_collects :
    let config : CacheConfig := { collectEvery := 3 }
    let cache : PlanCache := { config }
    let before := cache.afterAll [lookUpOf "a", lookUpOf "a", lookUpOf "b"]
    let s : CacheStep := ⟨before, lookUpOf "c"⟩
    PlanCache.make config = .ok cache ∧ s.collects = true ∧
      s.after.plan? (queryOf "a") = before.plan? (queryOf "a") ∧ (before.plan? (queryOf "a")).isSome ∧
      s.after.plan? (queryOf "b") = none ∧ (before.plan? (queryOf "b")).isSome := by
  intro config cache before s
  have hnew : PlanCache.make config = .ok cache := rfl
  obtain ⟨_, _, hruns, hcollected, _⟩ := collection_runs hnew [lookUpOf "a", lookUpOf "a", lookUpOf "b"] (lookUpOf "c")
  have hcollects : s.collects = true := hruns.mpr (by decide)
  obtain ⟨id, fresh, hid, _, _, hothers⟩ := hcollected hcollects
  obtain rfl : queryOf "c" = id := Option.some.inj hid
  have ha := hothers (queryOf "a") (by decide)
  have hb := hothers (queryOf "b") (by decide)
  exact ⟨hnew, hcollects, ha.trans (by decide), by decide, hb.trans (by decide), by decide⟩

end SqlMapping
