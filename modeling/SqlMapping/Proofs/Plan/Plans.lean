import SqlMapping.Proofs.Plan.LookUp
import Mathlib.Data.List.Nodup
import Mathlib.Data.List.Perm.Basic

/-!
# Plans in the cache and aside

What each operation does to the plan of an identity, and to all the plans there are, those that left the
cache included. `WellKept` says that entries have distinct identities and that plans have distinct serial
numbers; every operation keeps it.
-/

namespace SqlMapping.PlanCache

variable {c : PlanCache} {id other : QueryIdentity} {p stale fresh : CachedPlan} {serial : Nat}

def plans (c : PlanCache) : List CachedPlan := c.entries.map Prod.snd ++ c.retired

def isDue (c : PlanCache) : Bool := c.config.collectEvery ≤ c.insertions + 1

theorem retire_of_none (h : c.plan? id = none) : c.retire id = c := by
  simp [retire, h]

/-! ## New plans and binders -/

theorem countInsertion_of_due (h : c.isDue = true) :
    c.countInsertion = { c with insertions := c.insertions + 1 }.collect := by
  have h : c.config.collectEvery ≤ c.insertions + 1 := by simpa [isDue] using h
  simp [countInsertion, h]

theorem countInsertion_of_not_due (h : c.isDue = false) :
    c.countInsertion = { c with insertions := c.insertions + 1 } := by
  have h : ¬ c.config.collectEvery ≤ c.insertions + 1 := by simpa [isDue] using h
  simp [countInsertion, h]

/-- A new plan is stored behind the entries that counting it leaves. -/
theorem insertPlan_eq (hnone : c.plan? id = none) :
    c.insertPlan id fresh =
      { c.countInsertion with
        entries := c.countInsertion.entries ++ [(id, fresh)]
        stats := { c.countInsertion.stats with misses := c.stats.misses + 1 }
        nextPlan := c.countInsertion.nextPlan + 1 } := by
  have hcounted : ∀ c : PlanCache, c.plan? id = none → c.countInsertion.plan? id = none := by
    intro c h
    refine Keyed.find?_eq_none_iff.mpr fun a ha => ?_
    exact Keyed.find?_eq_none_iff.mp h a (mem_countInsertion ha)
  have hstored : ∀ c : PlanCache, c.plan? id = none →
      { c.retire id with entries := c.entries.insert id fresh, nextPlan := c.nextPlan + 1 } =
        { c with entries := c.entries ++ [(id, fresh)], nextPlan := c.nextPlan + 1 } := by
    intro c h
    rw [retire_of_none h, Keyed.insert_of_find?_none h]
  refine (hstored _ (hcounted { c with stats := { c.stats with misses := c.stats.misses + 1 } } hnone)).trans ?_
  cases hdue : c.isDue with
  | false =>
    rw [countInsertion_of_not_due hdue, countInsertion_of_not_due (by simpa [isDue] using hdue)]
  | true =>
    rw [countInsertion_of_due hdue, countInsertion_of_due (by simpa [isDue] using hdue)]
    rfl

/-- Asking for a binder changes at most the binders of the plan of the identity. -/
theorem binderOrCompile_eq (c : PlanCache) (id : QueryIdentity) (type : TypeKey) (marker : String)
    (compile : ParameterBinder) :
    ∃ entries nextBinder, (c.binderOrCompile id type marker compile).2 = { c with entries, nextBinder } ∧
      (entries = c.entries ∨
        ∃ p binders, c.plan? id = some p ∧ entries = c.entries.insert id { p with binders }) := by
  simp only [binderOrCompile]
  split
  · exact ⟨c.entries, _, rfl, .inl rfl⟩
  · rename_i p hp
    split
    · split <;> exact ⟨c.entries, _, rfl, .inl rfl⟩
    · exact ⟨_, _, rfl, .inr ⟨p, _, hp, rfl⟩⟩

theorem size_insert (h : c.plan? id = some p) (new : CachedPlan) : (c.entries.insert id new).length = c.size := by
  have hnew := (Keyed.perm_insert h new).length_eq
  have hold := (Keyed.perm_erase h).length_eq
  rw [List.length_cons] at hnew hold
  exact hnew.trans hold.symm

structure Quiet (c c' : PlanCache) : Prop where
  config : c'.config = c.config
  stats : c'.stats = c.stats
  insertions : c'.insertions = c.insertions
  nextPlan : c'.nextPlan = c.nextPlan
  size : c'.size = c.size

theorem quiet_binderOrCompile (c : PlanCache) (id : QueryIdentity) (type : TypeKey) (marker : String)
    (compile : ParameterBinder) : Quiet c (c.binderOrCompile id type marker compile).2 := by
  obtain ⟨entries, nextBinder, heq, rfl | ⟨p, binders, hp, rfl⟩⟩ := c.binderOrCompile_eq id type marker compile
  · rw [heq]
    exact ⟨rfl, rfl, rfl, rfl, rfl⟩
  · rw [heq]
    exact ⟨rfl, rfl, rfl, rfl, size_insert hp _⟩

theorem config_insertPlan (hnone : c.plan? id = none) : (c.insertPlan id fresh).config = c.config := by
  rw [insertPlan_eq hnone]
  simp only [countInsertion]
  split <;> rfl

/-! ## The plan of an identity after an operation -/

theorem plan?_recordHit : (c.recordHit serial).plan? id = (c.plan? id).map (bump serial) :=
  Keyed.find?_map c.entries (bump serial) id

theorem plan?_serve : (c.serve serial).plan? id = (c.plan? id).map (bump serial) := plan?_recordHit

theorem plan?_replacePlan_self :
    (c.replacePlan id stale fresh).plan? id = some { fresh with binders := stale.binders } :=
  Keyed.find?_insert_self c.entries id _

theorem plan?_replacePlan_of_ne (h : other ≠ id) :
    (c.replacePlan id stale fresh).plan? other = c.plan? other :=
  Keyed.find?_insert_of_ne c.entries _ h

theorem plan?_remove_of_ne (h : other ≠ id) : (c.remove id).2.plan? other = c.plan? other :=
  Keyed.find?_erase_of_ne c.entries h

theorem plan?_binderOrCompile_of_ne (type : TypeKey) (marker : String) (compile : ParameterBinder)
    (h : other ≠ id) : (c.binderOrCompile id type marker compile).2.plan? other = c.plan? other := by
  obtain ⟨entries, nextBinder, heq, rfl | ⟨p, binders, hp, rfl⟩⟩ := c.binderOrCompile_eq id type marker compile
  · rw [heq]; rfl
  · rw [heq]
    exact Keyed.find?_insert_of_ne c.entries _ h

/-- The plan for which a binder is asked for keeps all but its binders. -/
theorem plan?_binderOrCompile_self (c : PlanCache) (id : QueryIdentity) (type : TypeKey) (marker : String)
    (compile : ParameterBinder) :
    ∃ binders : CachedPlan → Keyed String StoredBinder,
      (c.binderOrCompile id type marker compile).2.plan? id =
        (c.plan? id).map fun p => { p with binders := binders p } := by
  obtain ⟨entries, nextBinder, heq, rfl | ⟨p, binders, hp, rfl⟩⟩ := c.binderOrCompile_eq id type marker compile
  · refine ⟨CachedPlan.binders, ?_⟩
    rw [heq]
    exact (Option.map_id' ..).symm
  · refine ⟨fun _ => binders, ?_⟩
    rw [heq, hp]
    exact Keyed.find?_insert_self c.entries id _

theorem plan?_collect (hkeys : (c.entries.map Prod.fst).Nodup) :
    c.collect.plan? id = (c.plan? id).filter c.survives :=
  Keyed.find?_filter hkeys c.survives id

theorem plan?_append_self {es : Keyed QueryIdentity CachedPlan} (h : Keyed.find? es id = none) :
    Keyed.find? (es ++ [(id, fresh)]) id = some fresh := by
  rw [← Keyed.insert_of_find?_none h]
  exact Keyed.find?_insert_self es id fresh

/-! ## All plans after an operation -/

theorem plans_recordHit : (c.recordHit serial).plans = c.plans.map (bump serial) := by
  simp [plans, recordHit]

theorem plans_serve : (c.serve serial).plans = c.plans.map (bump serial) := plans_recordHit

theorem plans_clear : c.clear.plans = c.plans := by
  simp [plans, clear]

theorem plans_collect : c.collect.plans.Perm c.plans := by
  have hsplit := List.filter_append_perm (fun e : QueryIdentity × CachedPlan => c.survives e.2) c.entries
  have := (hsplit.map Prod.snd).append_right c.retired
  simpa [plans, collect, List.append_assoc] using this

theorem plans_remove : (c.remove id).2.plans.Perm c.plans := by
  cases h : c.plan? id with
  | none =>
    have herase : Keyed.erase c.entries id = c.entries := Keyed.erase_of_find?_none h
    simp [plans, remove, retire, h, herase]
  | some p =>
    have hperm := (Keyed.perm_erase h).map Prod.snd
    simp only [plans, remove, retire, h, Option.toList_some]
    refine List.perm_middle.trans ?_
    exact (hperm.append_right c.retired).symm

theorem plans_replacePlan (h : c.plan? id = some stale) :
    (c.replacePlan id stale fresh).plans.Perm ({ fresh with binders := stale.binders } :: c.plans) := by
  have hinsert := (Keyed.perm_insert h { fresh with binders := stale.binders }).map Prod.snd
  have herase := (Keyed.perm_erase h).map Prod.snd
  simp only [plans, replacePlan, retire, h, Option.toList_some]
  refine (hinsert.append_right _).trans (.cons _ ?_)
  refine List.perm_middle.trans ?_
  exact (herase.append_right c.retired).symm

theorem plans_countInsertion : c.countInsertion.plans.Perm c.plans := by
  cases hdue : c.isDue with
  | false => rw [countInsertion_of_not_due hdue]; exact .refl _
  | true => rw [countInsertion_of_due hdue]; exact plans_collect

theorem plans_insertPlan (h : c.plan? id = none) : (c.insertPlan id fresh).plans.Perm (fresh :: c.plans) := by
  rw [insertPlan_eq h]
  simp only [plans, List.map_append, List.append_assoc]
  exact List.perm_middle.trans (plans_countInsertion.cons fresh)

theorem plans_binderOrCompile (c : PlanCache) (id : QueryIdentity) (type : TypeKey) (marker : String)
    (compile : ParameterBinder) :
    (c.binderOrCompile id type marker compile).2.plans = c.plans ∨
      ∃ p binders rest, c.plans.Perm (p :: rest) ∧
        (c.binderOrCompile id type marker compile).2.plans.Perm ({ p with binders } :: rest) := by
  obtain ⟨entries, nextBinder, heq, rfl | ⟨p, binders, hp, rfl⟩⟩ := c.binderOrCompile_eq id type marker compile
  · rw [heq]; exact .inl rfl
  · rw [heq]
    refine .inr ⟨p, binders, (Keyed.erase c.entries id).map Prod.snd ++ c.retired, ?_, ?_⟩
    · exact ((Keyed.perm_erase hp).map Prod.snd).append_right c.retired
    · exact ((Keyed.perm_insert hp _).map Prod.snd).append_right c.retired

/-! ## Distinct identities and serial numbers -/

structure WellKept (c : PlanCache) : Prop where
  identities : (c.entries.map Prod.fst).Nodup
  serials : (c.plans.map CachedPlan.serial).Nodup
  numbered : ∀ p ∈ c.plans, p.serial < c.nextPlan

theorem wellKept_new (config : CacheConfig) : WellKept { config } where
  identities := by simp
  serials := by simp [plans]
  numbered := by simp [plans]

theorem serial_bump (serial : Nat) (p : CachedPlan) : (bump serial p).serial = p.serial := by
  simp only [bump]; split <;> rfl

theorem identities_insert {es : Keyed QueryIdentity CachedPlan} (h : Keyed.find? es id = some p) (new : CachedPlan) :
    ((es.insert id new).map Prod.fst).Perm (es.map Prod.fst) :=
  ((Keyed.perm_insert h new).map Prod.fst).trans ((Keyed.perm_erase h).map Prod.fst).symm

theorem WellKept.of_perm {c c' : PlanCache} (h : c.WellKept) (hids : (c'.entries.map Prod.fst).Nodup)
    (hserials : (c'.plans.map CachedPlan.serial).Perm (c.plans.map CachedPlan.serial))
    (hnext : c'.nextPlan = c.nextPlan) : c'.WellKept where
  identities := hids
  serials := hserials.nodup_iff.mpr h.serials
  numbered p hp := by
    obtain ⟨q, hq, hserial⟩ := List.mem_map.mp (hserials.subset (List.mem_map_of_mem hp))
    rw [hnext, ← hserial]
    exact h.numbered q hq

theorem WellKept.of_perm_cons {c c' : PlanCache} (h : c.WellKept) (hids : (c'.entries.map Prod.fst).Nodup)
    (hplans : c'.plans.Perm (fresh :: c.plans)) (hserial : fresh.serial = c.nextPlan)
    (hnext : c'.nextPlan = c.nextPlan + 1) : c'.WellKept where
  identities := hids
  serials := by
    refine ((hplans.map CachedPlan.serial).nodup_iff).mpr (List.nodup_cons.mpr ⟨?_, h.serials⟩)
    intro hmem
    obtain ⟨p, hp, hp'⟩ := List.mem_map.mp hmem
    have := h.numbered p hp
    omega
  numbered p hp := by
    rw [hnext]
    rcases List.mem_cons.mp (hplans.subset hp) with rfl | hp
    · omega
    · have := h.numbered p hp
      omega

theorem WellKept.recordHit (h : c.WellKept) (serial : Nat) : (c.recordHit serial).WellKept := by
  refine h.of_perm ?_ ?_ rfl
  · have : ((c.recordHit serial).entries.map Prod.fst) = c.entries.map Prod.fst := by
      simp [PlanCache.recordHit]
    rw [this]; exact h.identities
  · rw [plans_recordHit, List.map_map]
    have : CachedPlan.serial ∘ bump serial = CachedPlan.serial := funext (serial_bump serial)
    rw [this]

theorem WellKept.serve (h : c.WellKept) (serial : Nat) : (c.serve serial).WellKept :=
  (h.recordHit serial).of_perm (h.recordHit serial).identities (.refl _) rfl

theorem WellKept.clear (h : c.WellKept) : c.clear.WellKept := by
  refine h.of_perm List.nodup_nil ?_ rfl
  rw [plans_clear]

theorem WellKept.remove (h : c.WellKept) (id : QueryIdentity) : (c.remove id).2.WellKept := by
  refine h.of_perm ?_ (plans_remove.map _) rfl
  cases hp : c.plan? id with
  | none =>
    have herase : (c.remove id).2.entries = c.entries := Keyed.erase_of_find?_none hp
    rw [herase]; exact h.identities
  | some p =>
    have := ((Keyed.perm_erase hp).map Prod.fst).nodup_iff.mp h.identities
    exact (List.nodup_cons.mp this).2

theorem WellKept.replacePlan (h : c.WellKept) (hp : c.plan? id = some stale) (hserial : fresh.serial = c.nextPlan) :
    (c.replacePlan id stale fresh).WellKept := by
  refine h.of_perm_cons ?_ (plans_replacePlan hp) hserial rfl
  exact (identities_insert hp _).nodup_iff.mpr h.identities

theorem nextPlan_countInsertion : c.countInsertion.nextPlan = c.nextPlan := by
  simp only [countInsertion]; split <;> rfl

theorem identities_countInsertion (h : (c.entries.map Prod.fst).Nodup) :
    (c.countInsertion.entries.map Prod.fst).Nodup := by
  cases hdue : c.isDue with
  | false => rw [countInsertion_of_not_due hdue]; exact h
  | true =>
    rw [countInsertion_of_due hdue]
    exact h.sublist (List.filter_sublist.map Prod.fst)

theorem WellKept.insertPlan (h : c.WellKept) (hp : c.plan? id = none) (hserial : fresh.serial = c.nextPlan) :
    (c.insertPlan id fresh).WellKept := by
  refine h.of_perm_cons ?_ (plans_insertPlan hp) hserial ?_
  · rw [insertPlan_eq hp]
    simp only [List.map_append, List.map_cons, List.map_nil]
    refine List.Nodup.append (identities_countInsertion h.identities) (List.nodup_singleton _) ?_
    intro key hkey hkey'
    obtain ⟨e, he, rfl⟩ := List.mem_map.mp hkey
    have hid : e.1 = id := List.mem_singleton.mp hkey'
    exact Keyed.find?_eq_none_iff.mp hp e.2 (hid ▸ mem_countInsertion he)
  · rw [insertPlan_eq hp, nextPlan_countInsertion]

theorem WellKept.binderOrCompile (h : c.WellKept) (id : QueryIdentity) (type : TypeKey) (marker : String)
    (compile : ParameterBinder) : (c.binderOrCompile id type marker compile).2.WellKept := by
  have hserials : ((c.binderOrCompile id type marker compile).2.plans.map CachedPlan.serial).Perm
      (c.plans.map CachedPlan.serial) := by
    rcases c.plans_binderOrCompile id type marker compile with heq | ⟨p, binders, rest, hold, hnew⟩
    · rw [heq]
    · exact (hnew.map CachedPlan.serial).trans (hold.map CachedPlan.serial).symm
  obtain ⟨entries, nextBinder, heq, hentries⟩ := c.binderOrCompile_eq id type marker compile
  rw [heq] at hserials ⊢
  refine h.of_perm ?_ hserials rfl
  rcases hentries with rfl | ⟨p, binders, hp, rfl⟩
  · exact h.identities
  · exact (identities_insert hp _).nodup_iff.mpr h.identities

end SqlMapping.PlanCache
