import SqlMapping.Proofs.Plan.Collection

/-!
# Failed look-ups

A look-up fails when a column of the cursor cannot be named or when it has to compile and the compilation
fails (`getOrCompile_error_iff`). `failed_lookUp_changes_nothing`: it leaves the cache as it was, so that in
every run the failed look-ups can be left out (`history_withoutFailures`).
-/

namespace SqlMapping

/-! ## Columns that cannot be named -/

section
variable {γ : Type} [RowCursor γ]

/-- The first column, of so many from an ordinal on, whose name cannot be had, and the cursor's reason. -/
def Unnamed (cursor : γ) (start count : Nat) (e : Error) : Prop :=
  ∃ i < count, RowCursor.fieldName cursor (start + i) = .error e ∧
    ∀ j < i, ∃ name, RowCursor.fieldName cursor (start + j) = .ok name

variable {cursor : γ} {start count : Nat} {e : Error}

theorem unnamed_succ_of_error {e' : Error} (h : RowCursor.fieldName cursor start = .error e') :
    Unnamed cursor start (count + 1) e ↔ e' = e := by
  refine ⟨?_, ?_⟩
  · rintro ⟨i, _, hi, hbefore⟩
    cases i with
    | zero => exact Except.error.inj (h.symm.trans hi)
    | succ i =>
      obtain ⟨name, hname⟩ := hbefore 0 (Nat.succ_pos i)
      cases h.symm.trans hname
  · rintro rfl
    exact ⟨0, Nat.succ_pos _, h, fun j hj => absurd hj (Nat.not_lt_zero j)⟩

theorem unnamed_succ_of_ok {name : String} (h : RowCursor.fieldName cursor start = .ok name) :
    Unnamed cursor start (count + 1) e ↔ Unnamed cursor (start + 1) count e := by
  have hnext : ∀ i, start + 1 + i = start + (i + 1) := by omega
  simp only [Unnamed, hnext]
  refine ⟨?_, ?_⟩
  · rintro ⟨i, hlt, hi, hbefore⟩
    cases i with
    | zero => cases h.symm.trans hi
    | succ i =>
      exact ⟨i, Nat.lt_of_succ_lt_succ hlt, hi, fun j hj => hbefore (j + 1) (Nat.succ_lt_succ hj)⟩
  · rintro ⟨i, hlt, hi, hbefore⟩
    refine ⟨i + 1, Nat.succ_lt_succ hlt, hi, fun j hj => ?_⟩
    cases j with
    | zero => exact ⟨name, h⟩
    | succ j => exact hbefore j (Nat.lt_of_succ_lt_succ hj)

theorem RowShape.columnsFrom_error_iff (cursor : γ) (count : Nat) (e : Error) :
    ∀ start, columnsFrom cursor start count = .error e ↔ Unnamed cursor start count e := by
  induction count with
  | zero => simp [columnsFrom, Unnamed]
  | succ count ih =>
    intro start
    cases h : RowCursor.fieldName cursor start with
    | error e' => simp [columnsFrom, h, unnamed_succ_of_error h]
    | ok name =>
      rw [unnamed_succ_of_ok h, ← ih (start + 1)]
      simp only [columnsFrom, h]
      cases columnsFrom cursor (start + 1) count <;> simp

theorem RowShape.ofCursor_error_iff :
    ofCursor cursor = .error e ↔ Unnamed cursor 0 (RowCursor.fieldCount cursor) e := by
  rw [← columnsFrom_error_iff, ofCursor]
  cases columnsFrom cursor 0 (RowCursor.fieldCount cursor) <;> simp [Except.map]

end

/-! ## Failed look-ups -/

namespace PlanCache

section
variable {ρ γ : Type} [RowCursor γ] {c : PlanCache} {kind : RecipeKind ρ} {id : QueryIdentity} {cursor : γ}

/-- Also when compiling uses the cache, a look-up that fails does nothing to it besides. -/
theorem snd_getOrCompileWith_of_error {compile : RowShape → PlanCache → Except Error ρ × PlanCache} {e : Error}
    (h : (c.getOrCompileWith kind id cursor compile).1 = .error e) :
    (c.getOrCompileWith kind id cursor compile).2 =
      match RowShape.ofCursor cursor with
      | .error _ => c
      | .ok shape => (compile shape c).2 := by
  simp only [getOrCompileWith] at h ⊢
  cases hshape : RowShape.ofCursor cursor with
  | error e' => rfl
  | ok shape =>
    simp only [hshape] at h ⊢
    split at h
    · cases h
    · split at h
      · rename_i hcompile
        simp [hcompile]
      · cases h

theorem getOrCompile_error_iff {compile : RowShape → Except Error ρ} {e : Error} :
    (c.getOrCompile kind id cursor compile).1 = .error e ↔
      Unnamed cursor 0 (RowCursor.fieldCount cursor) e ∨
        ∃ shape, RowShape.ofCursor cursor = .ok shape ∧ (∀ p, c.plan? id = some p → p.serves? kind shape = none) ∧
          compile shape = .error e := by
  rw [← RowShape.ofCursor_error_iff]
  cases hshape : RowShape.ofCursor cursor with
  | error e' => simp [c.getOrCompile_error kind id compile hshape]
  | ok shape =>
    have hstep := c.getOrCompile_step kind id compile hshape
    generalize c.getOrCompile kind id cursor compile = result at hstep ⊢
    cases hstep with
    | served hp hm =>
      refine ⟨by simp, ?_⟩
      rintro (h | ⟨shape', hshape', hnone, _⟩)
      · cases h
      · cases hshape'
        cases hm.symm.trans (hnone _ hp)
    | failed hnone he => simpa [he] using fun _ => hnone
    | compiled hnone hm => simp [hm]

theorem snd_getOrCompile_of_error {compile : RowShape → Except Error ρ} {e : Error}
    (h : (c.getOrCompile kind id cursor compile).1 = .error e) : (c.getOrCompile kind id cursor compile).2 = c := by
  refine (snd_getOrCompileWith_of_error h).trans ?_
  cases RowShape.ofCursor cursor <;> rfl

theorem getOrCompile_of_serves {compile : RowShape → Except Error ρ} {shape : RowShape} {p : CachedPlan} {m : ρ}
    (hshape : RowShape.ofCursor cursor = .ok shape) (hp : c.plan? id = some p) (hm : p.serves? kind shape = some m) :
    c.getOrCompile kind id cursor compile = (.ok ⟨p.serial, m⟩, c.serve p.serial) := by
  simp only [getOrCompile, getOrCompileWith, hshape, hp, Option.bind_some, hm, Option.map_some]

end

end PlanCache

/-! ## Runs without their failed look-ups -/

namespace CacheCall

def failure? (c : PlanCache) : CacheCall → Option Error
  | .getOrCompile kind id cursor compile =>
    match (c.getOrCompile kind id cursor.cursor compile).1 with
    | .ok _ => none
    | .error e => some e
  | _ => none

theorem after_of_failure {c : PlanCache} {call : CacheCall} (h : (call.failure? c).isSome) : call.after c = c := by
  cases call with
  | getOrCompile kind id cursor compile =>
    simp only [failure?] at h
    split at h
    · cases h
    · rename_i e he
      exact PlanCache.snd_getOrCompile_of_error he
  | binderOrCompile _ _ _ _ | get _ | remove _ | clear | recordHit _ => cases h

end CacheCall

def CacheStep.fails (s : CacheStep) : Bool := (s.call.failure? s.before).isSome

namespace PlanCache

variable (c : PlanCache)

def withoutFailures (calls : List CacheCall) : List CacheCall :=
  ((c.history calls).filter fun s => !s.fails).map CacheStep.call

theorem history_cons_of_fails {call : CacheCall} (h : (CacheStep.mk c call).fails = true) (calls : List CacheCall) :
    c.history (call :: calls) = ⟨c, call⟩ :: c.history calls := by
  rw [history, CacheCall.after_of_failure h]

/-- Without the failed look-ups of a run, its other calls are made on the same caches as before. -/
theorem history_withoutFailures (calls : List CacheCall) :
    c.history (c.withoutFailures calls) = (c.history calls).filter fun s => !s.fails := by
  induction calls generalizing c with
  | nil => rfl
  | cons call calls ih =>
    have hrest := ih (call.after c)
    rw [withoutFailures] at hrest ⊢
    -- after a failed step the rest of the run starts on the same cache
    cases h : (CacheStep.mk c call).fails with
    | true => rw [c.history_cons_of_fails h, List.filter_cons_of_neg (by simp [h]), ← withoutFailures, ih c]
    | false =>
      rw [history, List.filter_cons_of_pos (by simp [h]), List.map_cons, history, hrest]

end PlanCache

/-- On any cache, a look-up fails exactly when some column of the cursor cannot be named, or when no plan
serves it (there is none, or one for other names or of another type) and compiling fails. It leaves the cache
as it was: a look-up that the plan of the identity serves is still served by it, and every later call finds the
cache that it would have found without the failed one. A compilation that uses the cache itself changes it by
these calls alone. -/
theorem failed_lookUp_changes_nothing {ρ : Type} (c : PlanCache) (kind : RecipeKind ρ) (id : QueryIdentity)
    (cursor : AnyCursor) (compile : RowShape → Except Error ρ) :
    let look := c.getOrCompile kind id cursor.cursor compile
    (∀ e, look.1 = .error e ↔
        Unnamed cursor.cursor 0 (RowCursor.fieldCount cursor.cursor) e ∨
          ∃ shape, cursor.shape = .ok shape ∧ (∀ p, c.plan? id = some p → p.serves? kind shape = none) ∧
            compile shape = .error e) ∧
      (∀ e, look.1 = .error e →
        look.2 = c ∧
          (∀ (σ : Type) (kind' : RecipeKind σ) (cursor' : AnyCursor) (compile' : RowShape → Except Error σ)
            (shape : RowShape) (p : CachedPlan) (m : σ), c.plan? id = some p → cursor'.shape = .ok shape →
            p.serves? kind' shape = some m →
              look.2.getOrCompile kind' id cursor'.cursor compile' = (.ok ⟨p.serial, m⟩, c.serve p.serial)) ∧
          ∀ later, c.history (.getOrCompile kind id cursor compile :: later) =
            ⟨c, .getOrCompile kind id cursor compile⟩ :: c.history later) ∧
      ∀ (use : RowShape → PlanCache → Except Error ρ × PlanCache) (e : Error),
        (c.getOrCompileWith kind id cursor.cursor use).1 = .error e →
          (c.getOrCompileWith kind id cursor.cursor use).2 =
            match cursor.shape with
            | .error _ => c
            | .ok shape => (use shape c).2 := by
  intro look
  refine ⟨fun e => PlanCache.getOrCompile_error_iff, fun e he => ?_,
    fun use e he => PlanCache.snd_getOrCompileWith_of_error he⟩
  have hsame : look.2 = c := PlanCache.snd_getOrCompile_of_error he
  refine ⟨hsame, fun σ kind' cursor' compile' shape p m hp hshape hm => ?_, fun later => ?_⟩
  · rw [hsame]
    exact PlanCache.getOrCompile_of_serves hshape hp hm
  · rw [PlanCache.history, CacheCall.after]
    exact congrArg _ (congrArg (PlanCache.history · later) hsame)

/-- After a look-up for more columns, whose compilation is refused, the plan for one column still serves. -/
theorem narrow_plan_outlives_failure :
    let c := PlanCache.afterAll {} [lookUpOf "a"]
    let narrow : AnyCursor := ⟨MemoryCursor.ofNames ["id"]⟩
    let wide : AnyCursor := ⟨MemoryCursor.ofNames ["id", "name"]⟩
    let refuse : RowShape → Except Error DynamicMaterializer := fun _ => .error (.invalidArgument .unreadableConfig)
    let look := c.getOrCompile .dynamic (queryOf "a") wide.cursor refuse
    look.1 = .error (.invalidArgument .unreadableConfig) ∧ look.2 = c ∧
      (look.2.getOrCompile .dynamic (queryOf "a") narrow.cursor refuse).1 =
        .ok ⟨0, .compile (.ofNames ["id"]) none⟩ := by
  intro c narrow wide refuse look
  obtain ⟨hfails, hkeeps, _⟩ := failed_lookUp_changes_nothing c .dynamic (queryOf "a") wide refuse
  have he : look.1 = .error (.invalidArgument .unreadableConfig) := by
    refine (hfails _).mpr (.inr ⟨.ofNames ["id", "name"], rfl, ?_, rfl⟩)
    rintro p ⟨⟩
    decide
  obtain ⟨hsame, hserves, _⟩ := hkeeps _ he
  have hplan : c.plan? (queryOf "a") = some ⟨0, ["id"], .dynamic (.compile (.ofNames ["id"]) none), [], 0⟩ := rfl
  have hserved := hserves _ .dynamic narrow refuse (.ofNames ["id"]) _ (.compile (.ofNames ["id"]) none) hplan rfl rfl
  exact ⟨he, hsame, congrArg Prod.fst hserved⟩

end SqlMapping
