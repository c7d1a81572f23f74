import SqlMapping.Proofs.Plan.Collection

/-!
# Hits over the history of a cache

Which look-ups a plan serves. `hits_afterAll` says that in every run the hits of a plan are the look-ups that
it served and the hits that were recorded on it; a plan is told from others by its serial number, so that none
of these came before it was compiled.
-/

namespace SqlMapping

namespace CacheStep

def servedBy (serial : Nat) (s : CacheStep) : Bool :=
  s.call.isServed s.before && s.returned == some serial

def recordedOn (serial : Nat) (s : CacheStep) : Bool :=
  match s.call with
  | .recordHit serial' => serial' == serial && (s.before.bySerial? serial).isSome
  | _ => false

end CacheStep

def hitsOf (history : List CacheStep) (serial : Nat) : Nat :=
  history.countP (·.servedBy serial) + history.countP (·.recordedOn serial)

/-! ## Which look-ups are served -/

namespace PlanCache

variable {c : PlanCache} {ρ : Type} {kind : RecipeKind ρ} {id : QueryIdentity} {cursor : AnyCursor}
  {shape : RowShape} {p : CachedPlan} {m : ρ}

theorem isServed_of_serves (hshape : cursor.shape = .ok shape) (hp : c.plan? id = some p)
    (hm : p.serves? kind shape = some m) : c.isServed kind id cursor.cursor = true := by
  have hshape : RowShape.ofCursor cursor.cursor = .ok shape := hshape
  simp [isServed, hshape, hp, hm]

theorem isServed_of_serves_none (hshape : cursor.shape = .ok shape)
    (hnone : ∀ p, c.plan? id = some p → p.serves? kind shape = none) :
    c.isServed kind id cursor.cursor = false := by
  have hshape : RowShape.ofCursor cursor.cursor = .ok shape := hshape
  cases hp : c.plan? id with
  | none => simp [isServed, hshape, hp]
  | some p => simp [isServed, hshape, hp, hnone p hp]

theorem mem_plans_of_plan? (h : c.plan? id = some p) : p ∈ c.plans :=
  List.mem_append_left _ (List.mem_map_of_mem (f := Prod.snd) (Keyed.mem_of_find? h))

theorem bySerial?_isSome (h : p ∈ c.plans) : (c.bySerial? p.serial).isSome := by
  rw [bySerial?, List.find?_isSome]
  exact ⟨p, h, by simp⟩

theorem exists_of_bySerial? {serial : Nat} (h : (c.bySerial? serial).isSome) :
    ∃ p ∈ c.plans, p.serial = serial := by
  rw [bySerial?, List.find?_isSome] at h
  obtain ⟨p, hp, hserial⟩ := h
  exact ⟨p, hp, by simpa using hserial⟩

theorem WellKept.serial_ne (h : c.WellKept) {other : QueryIdentity} {q : CachedPlan} (hne : other ≠ id)
    (hp : c.plan? id = some p) (hq : c.plan? other = some q) : q.serial ≠ p.serial := by
  intro hserial
  have hnodup : (c.entries.map fun e => e.2.serial).Nodup := by
    have := h.serials
    rw [plans, List.map_append, List.map_map] at this
    exact (List.nodup_append.mp this).1
  have heq := List.inj_on_of_nodup_map hnodup (Keyed.mem_of_find? hq) (Keyed.mem_of_find? hp) hserial
  exact hne (congrArg Prod.fst heq)

theorem map_bump_of_ne {found : Option CachedPlan} {serial : Nat} (h : ∀ p, found = some p → p.serial ≠ serial) :
    found.map (bump serial) = found := by
  cases found with
  | none => rfl
  | some p => simp [bump, h p rfl]

end PlanCache

/-! ## Hits -/

namespace CacheStep

variable {s : CacheStep}

theorem isServed_of_returned_new (hkept : s.before.WellKept) (h : s.returned = some s.before.nextPlan) :
    s.call.isServed s.before = false := by
  cases s.ends with
  | unshaped _ _ hreturned _ | failed _ _ _ _ hreturned _ | bound _ hreturned _ | got _ hreturned _
  | removed _ hreturned _ | cleared _ hreturned _ | recorded _ hreturned _ =>
    rw [hreturned] at h
    cases h
  | served _ _ hp _ hreturned _ =>
    rw [hreturned] at h
    have hserial := Option.some.inj h
    have hless := hkept.numbered _ (PlanCache.mem_plans_of_plan? hp)
    omega
  | recompiled hcall hshape hp hnone _ _ _ =>
    rw [hcall]
    refine PlanCache.isServed_of_serves_none hshape fun q hq => ?_
    rwa [← Option.some.inj (hp.symm.trans hq)]
  | missed hcall hshape hp _ _ _ =>
    rw [hcall]
    refine PlanCache.isServed_of_serves_none hshape fun q hq => ?_
    rw [hp] at hq
    cases hq

def hitsCounted (s : CacheStep) (serial : Nat) : Nat :=
  (if s.servedBy serial then 1 else 0) + (if s.recordedOn serial then 1 else 0)

theorem hitsOf_concat (history : List CacheStep) (s : CacheStep) (serial : Nat) :
    hitsOf (history ++ [s]) serial = hitsOf history serial + s.hitsCounted serial := by
  simp only [hitsOf, hitsCounted, List.countP_append, List.countP_singleton]
  omega

theorem hitsCounted_of_compiles (hkept : s.before.WellKept) (h : s.returned = some s.before.nextPlan) (serial : Nat) :
    s.hitsCounted serial = 0 := by
  have hserved := isServed_of_returned_new hkept h
  have hrecorded : s.recordedOn serial = false := by
    simp only [recordedOn]
    split
    · rename_i n hcall
      simp [returned, hcall, CacheCall.returned] at h
    · rfl
  simp [hitsCounted, servedBy, hserved, hrecorded]

theorem hitsCounted_of_quiet (h : s.returned = none) (hcall : ∀ n, s.call ≠ .recordHit n) (serial : Nat) :
    s.hitsCounted serial = 0 := by
  have hrecorded : s.recordedOn serial = false := by simp only [recordedOn]
  simp [hitsCounted, servedBy, h, hrecorded]

/-- A call on the plan with serial number `n` counts one hit if there is such a plan. -/
theorem hits_bump (c : PlanCache) (n : Nat) {p : CachedPlan} (hp : p ∈ (c.plans.map (PlanCache.bump n))) :
    ∃ q ∈ c.plans, q.serial = p.serial ∧ p.hits = q.hits + if n = p.serial then 1 else 0 := by
  obtain ⟨q, hq, rfl⟩ := List.mem_map.mp hp
  refine ⟨q, hq, (PlanCache.serial_bump n q).symm, ?_⟩
  by_cases h : q.serial = n
  · simp [PlanCache.bump, h]
  · simp [PlanCache.bump, h, Ne.symm h]

/-- After a step, each plan is one from before with the hits of the step added, or new and not hit. -/
theorem hits_after (hkept : s.before.WellKept) {p : CachedPlan} (hp : p ∈ s.after.plans) :
    (∃ q ∈ s.before.plans, q.serial = p.serial ∧ p.hits = q.hits + s.hitsCounted p.serial) ∨
      (p.serial = s.before.nextPlan ∧ p.hits = 0 ∧ s.hitsCounted p.serial = 0) := by
  have hold : ∀ {q : CachedPlan}, q ∈ s.before.plans → q.serial = p.serial → p.hits = q.hits →
      s.hitsCounted p.serial = 0 →
      ∃ q ∈ s.before.plans, q.serial = p.serial ∧ p.hits = q.hits + s.hitsCounted p.serial := by
    intro q hq hserial hhits hzero
    exact ⟨q, hq, hserial, by rw [hzero, hhits, Nat.add_zero]⟩
  cases s.ends with
  | unshaped hcall _ hreturned hafter | failed hcall _ _ _ hreturned hafter | got hcall hreturned hafter =>
    rw [hafter] at hp
    exact .inl (hold hp rfl rfl (hitsCounted_of_quiet hreturned (by simp [hcall]) _))
  | cleared hcall hreturned hafter =>
    rw [hafter, PlanCache.plans_clear] at hp
    exact .inl (hold hp rfl rfl (hitsCounted_of_quiet hreturned (by simp [hcall]) _))
  | removed hcall hreturned hafter =>
    rw [hafter] at hp
    have hp := PlanCache.plans_remove.subset hp
    exact .inl (hold hp rfl rfl (hitsCounted_of_quiet hreturned (by simp [hcall]) _))
  | @bound id type marker compile hcall hreturned hafter =>
    rw [hafter] at hp
    have hzero := hitsCounted_of_quiet hreturned (by simp [hcall]) p.serial
    rcases s.before.plans_binderOrCompile id type marker compile with
      heq | ⟨q, binders, rest, hbefore, hnow⟩
    · rw [heq] at hp
      exact .inl (hold hp rfl rfl hzero)
    · rcases List.mem_cons.mp (hnow.subset hp) with rfl | hp
      · exact .inl (hold (hbefore.symm.subset List.mem_cons_self) rfl rfl hzero)
      · exact .inl (hold (hbefore.symm.subset (List.mem_cons_of_mem _ hp)) rfl rfl hzero)
  | @served _ id cursor compile shape q m kind hcall hshape hq hm hreturned hafter =>
    rw [hafter, PlanCache.plans_serve] at hp
    have hserved : s.before.isServed kind id cursor.cursor = true := PlanCache.isServed_of_serves hshape hq hm
    have hcounted : s.hitsCounted p.serial = if q.serial = p.serial then 1 else 0 := by
      simp [hitsCounted, servedBy, recordedOn, hreturned, hcall, CacheCall.isServed, hserved]
    rw [hcounted]
    exact .inl (hits_bump s.before q.serial hp)
  | @recorded serial hcall hreturned hafter =>
    rw [hafter, PlanCache.plans_recordHit] at hp
    obtain ⟨q, hq, hserial, hhits⟩ := hits_bump s.before serial hp
    have hfound : (s.before.bySerial? p.serial).isSome := hserial ▸ PlanCache.bySerial?_isSome hq
    have hcounted : s.hitsCounted p.serial = if serial = p.serial then 1 else 0 := by
      simp [hitsCounted, servedBy, recordedOn, hreturned, hcall, hfound]
    exact .inl ⟨q, hq, hserial, by rw [hcounted]; exact hhits⟩
  -- a compilation takes the next serial number, which is not hit by the step itself
  | recompiled _ _ hstale _ _ hreturned hafter =>
    rw [hafter] at hp
    have hzero := hitsCounted_of_compiles hkept hreturned p.serial
    rcases List.mem_cons.mp ((PlanCache.plans_replacePlan hstale).subset hp) with rfl | hp
    · exact .inr ⟨rfl, rfl, hzero⟩
    · exact .inl (hold hp rfl rfl hzero)
  | missed _ _ hnone _ hreturned hafter =>
    rw [hafter] at hp
    have hzero := hitsCounted_of_compiles hkept hreturned p.serial
    rcases List.mem_cons.mp ((PlanCache.plans_insertPlan hnone).subset hp) with rfl | hp
    · exact .inr ⟨rfl, rfl, hzero⟩
    · exact .inl (hold hp rfl rfl hzero)

theorem hitsCounted_of_new (hkept : s.before.WellKept) {serial : Nat} (h : s.before.nextPlan ≤ serial) :
    s.hitsCounted serial = 0 := by
  have hnew : ∀ p ∈ s.before.plans, p.serial ≠ serial := by
    intro p hp
    have := hkept.numbered p hp
    omega
  cases s.ends with
  | unshaped hcall _ hreturned _ | failed hcall _ _ _ hreturned _ | bound hcall hreturned _
  | got hcall hreturned _ | removed hcall hreturned _ | cleared hcall hreturned _ =>
    exact hitsCounted_of_quiet hreturned (by simp [hcall]) serial
  | recompiled _ _ _ _ _ hreturned _ | missed _ _ _ _ hreturned _ =>
    exact hitsCounted_of_compiles hkept hreturned serial
  | served hcall _ hp _ hreturned _ =>
    have := hnew _ (PlanCache.mem_plans_of_plan? hp)
    simp [hitsCounted, servedBy, recordedOn, hreturned, hcall, this]
  | recorded hcall hreturned _ =>
    have hfound : (s.before.bySerial? serial).isSome = false := by
      cases hfound : (s.before.bySerial? serial).isSome with
      | false => rfl
      | true =>
        obtain ⟨p, hp, hserial⟩ := PlanCache.exists_of_bySerial? hfound
        exact absurd hserial (hnew p hp)
    simp [hitsCounted, servedBy, recordedOn, hreturned, hcall, hfound]

theorem nextPlan_le_after : s.before.nextPlan ≤ s.after.nextPlan := by
  cases s.ends with
  | unshaped _ _ _ hafter | failed _ _ _ _ _ hafter | got _ _ hafter
  | served _ _ _ _ _ hafter | removed _ _ hafter | cleared _ _ hafter
  | recorded _ _ hafter => exact hafter ▸ Nat.le_refl s.before.nextPlan
  | recompiled _ _ _ _ _ _ hafter => exact hafter ▸ Nat.le_succ s.before.nextPlan
  | missed _ _ hp _ _ hafter =>
    rw [hafter, PlanCache.insertPlan_eq hp, PlanCache.nextPlan_countInsertion]
    exact Nat.le_succ _
  | bound _ _ hafter => exact hafter ▸ Nat.le_of_eq (s.before.quiet_binderOrCompile ..).nextPlan.symm

end CacheStep

/-- The hits of a plan are those of its history, and no plan to come has any. -/
theorem hits_afterAll (config : CacheConfig) (calls : List CacheCall) :
    (∀ p ∈ (PlanCache.afterAll { config } calls).plans, p.hits = hitsOf (PlanCache.history { config } calls) p.serial) ∧
      ∀ serial, (PlanCache.afterAll { config } calls).nextPlan ≤ serial →
        hitsOf (PlanCache.history { config } calls) serial = 0 := by
  induction calls using List.reverseRecOn with
  | nil => simp [PlanCache.afterAll, PlanCache.plans, PlanCache.history, hitsOf]
  | append_singleton calls call ih =>
    obtain ⟨hhits, hnew⟩ := ih
    have hkept := PlanCache.wellKept_afterAll config calls
    rw [PlanCache.afterAll_concat, PlanCache.history_concat]
    refine ⟨fun p hp => ?_, fun serial hserial => ?_⟩
    · rw [CacheStep.hitsOf_concat]
      rcases CacheStep.hits_after hkept hp with ⟨q, hq, hserial, heq⟩ | ⟨hserial, hzero, hcounted⟩
      · rw [heq, hhits q hq, hserial]
      · rw [hzero, hcounted, hnew p.serial (Nat.le_of_eq hserial.symm)]
    · have hle := Nat.le_trans CacheStep.nextPlan_le_after hserial
      rw [CacheStep.hitsOf_concat, hnew serial hle, CacheStep.hitsCounted_of_new hkept hle]

end SqlMapping
