import SqlMapping.Proofs.Plan.Binders

/-!
# Queries

A query looks up its plan and then reads the cursor, row by row. `OverMemory` says of a cursor that it goes through rows
in memory as long as no call on it fails. `queries_read_remaining_rows`: a query makes one thing of every row that is
left, in order, or stops at the first read or row that fails.
-/

namespace SqlMapping

/-! ## Reads one after the other -/

section
variable {γ : Type} [RowCursor γ]

def afterReads (c : γ) : Nat → γ
  | 0 => c
  | n + 1 => (RowCursor.read (afterReads c n)).2

def readAfter (c : γ) (n : Nat) : Except Error Bool := (RowCursor.read (afterReads c n)).1

def rowAfter (c : γ) (n : Nat) : RowReader := RowCursor.value (afterReads c (n + 1))

theorem afterReads_read (c : γ) (n : Nat) : afterReads (RowCursor.read c).2 n = afterReads c (n + 1) := by
  induction n with
  | zero => rfl
  | succ n ih => rw [afterReads, ih, afterReads.eq_2 c (n + 1)]

theorem readAfter_read (c : γ) (n : Nat) : readAfter (RowCursor.read c).2 n = readAfter c (n + 1) := by
  rw [readAfter, afterReads_read, readAfter]

theorem rowAfter_read (c : γ) (n : Nat) : rowAfter (RowCursor.read c).2 n = rowAfter c (n + 1) := by
  rw [rowAfter, afterReads_read, rowAfter]

end

/-! ## Cursors over memory -/

namespace MemoryCursor

def rest (c : MemoryCursor) : List (List Value) := c.rows.drop c.following

def Full (c : MemoryCursor) : Prop := ∀ row ∈ c.rows, row.length = c.names.length

variable {c : MemoryCursor}

theorem full_ofNames (names : List String) : (ofNames names).Full := by
  intro row h
  cases h

theorem Full.withRow (h : c.Full) (row : List Value) : (c.withRow row).Full := by
  intro row' hrow'
  rcases List.mem_append.mp hrow' with hrow' | hrow'
  · exact h row' hrow'
  · rw [List.mem_singleton.mp hrow']
    simp only [resized, List.length_append, List.length_take, List.length_replicate, MemoryCursor.withRow]
    omega

theorem read_of_rest_nil (h : c.rest = []) : c.read = (false, { c with position := some c.rows.length }) := by
  have hend : ¬ c.following < c.rows.length := Nat.not_lt.mpr (List.drop_eq_nil_iff.mp h)
  rw [read, if_neg hend]

theorem read_of_rest_cons {row : List Value} {rows : List (List Value)} (h : c.rest = row :: rows) :
    c.read = (true, { c with position := some c.following }) ∧ c.read.2.rest = rows ∧
      c.read.2.currentRow? = some row := by
  have hlt : c.following < c.rows.length := by
    apply Nat.lt_of_not_le
    intro hle
    rw [rest, List.drop_eq_nil_of_le hle] at h
    cases h
  rw [rest, List.drop_eq_getElem_cons hlt] at h
  obtain ⟨hrow, hrows⟩ := List.cons.inj h
  rw [read, if_pos hlt]
  exact ⟨rfl, hrows, hrow ▸ List.getElem?_eq_getElem hlt⟩

end MemoryCursor

/-- A cursor that goes through rows in memory. Any call on it may fail instead. -/
class OverMemory (γ : Type) [RowCursor γ] where
  memory : γ → MemoryCursor
  fieldCount_eq : ∀ c : γ, RowCursor.fieldCount c = (memory c).names.length
  fieldName_eq : ∀ (c : γ) i name, RowCursor.fieldName c i = .ok name → (memory c).fieldName i = .ok name
  value_eq : ∀ (c : γ) i v, RowCursor.value c i = .ok v → (memory c).value i = .ok v
  read_eq : ∀ (c : γ) found, (RowCursor.read c).1 = .ok found →
    (memory c).read = (found, memory (RowCursor.read c).2)

open OverMemory (memory)

instance : OverMemory MemoryCursor where
  memory c := c
  fieldCount_eq _ := rfl
  fieldName_eq _ _ _ h := h
  value_eq _ _ _ h := h
  read_eq c found h := by
    cases h
    rfl

instance : OverMemory FaultyCursor where
  memory c := c.inner
  fieldCount_eq _ := rfl
  fieldName_eq c i name h := by
    simp only [RowCursor.fieldName, FaultyCursor.fieldName] at h
    split at h
    · cases h
    · exact h
  value_eq c i v h := by
    simp only [RowCursor.value, FaultyCursor.value] at h
    split at h
    · cases h
    · exact h
  read_eq c found h := by
    simp only [RowCursor.read, FaultyCursor.read] at h ⊢
    split at h
    · cases h
    · rename_i hread
      cases h
      rw [if_neg hread]

section
variable {γ : Type} [RowCursor γ] [OverMemory γ] {c : γ}

theorem memory_of_read_false (h : (RowCursor.read c).1 = .ok false) :
    (memory c).rest = [] ∧
      memory (RowCursor.read c).2 = { memory c with position := some (memory c).rows.length } := by
  have hread := OverMemory.read_eq c false h
  cases hrest : (memory c).rest with
  | nil => exact ⟨rfl, (Prod.mk.inj (hread.symm.trans (MemoryCursor.read_of_rest_nil hrest))).2⟩
  | cons row rows => cases hread.symm.trans (MemoryCursor.read_of_rest_cons hrest).1

theorem memory_of_read_true (h : (RowCursor.read c).1 = .ok true) :
    memory (RowCursor.read c).2 = { memory c with position := some (memory c).following } ∧
      ∃ row, (memory c).rest = row :: (memory (RowCursor.read c).2).rest ∧
        (memory (RowCursor.read c).2).currentRow? = some row := by
  have hread := OverMemory.read_eq c true h
  cases hrest : (memory c).rest with
  | nil => cases hread.symm.trans (MemoryCursor.read_of_rest_nil hrest)
  | cons row rows =>
    obtain ⟨hposition, hmore, hcurrent⟩ := MemoryCursor.read_of_rest_cons hrest
    rw [hread] at hposition hmore hcurrent
    exact ⟨(Prod.mk.inj hposition).2, row, by rw [hmore], hcurrent⟩

/-- The read that comes after so many others moves to the row of this place among those that are left. -/
def FindsRow (c : γ) (n : Nat) : Prop :=
  readAfter c n = .ok true ∧
    ∃ row, (memory c).rest[n]? = some row ∧ (memory (afterReads c (n + 1))).currentRow? = some row

theorem findsRow_zero (h : (RowCursor.read c).1 = .ok true) : FindsRow c 0 := by
  obtain ⟨_, row, hrest, hcurrent⟩ := memory_of_read_true h
  exact ⟨h, row, by rw [hrest]; rfl, hcurrent⟩

theorem FindsRow.succ {n : Nat} (h : (RowCursor.read c).1 = .ok true) (hn : FindsRow (RowCursor.read c).2 n) :
    FindsRow c (n + 1) := by
  obtain ⟨_, _, hrest, _⟩ := memory_of_read_true h
  obtain ⟨hread, row, hrow, hcurrent⟩ := hn
  rw [readAfter_read] at hread
  rw [afterReads_read] at hcurrent
  exact ⟨hread, row, by rw [hrest]; exact hrow, hcurrent⟩

end

/-! ## Reading to the end -/

section
variable {γ β : Type} [RowCursor γ] [OverMemory γ]

/-- The first reads each find a row, and these things are made of the rows. -/
def Makes (make : RowReader → Except Error β) (c : γ) (made : List β) : Prop :=
  ∀ i b, made[i]? = some b → FindsRow c i ∧ make (rowAfter c i) = .ok b

/-- How reading a cursor to its end comes out, and the cursor it leaves: something is made of every row, or a read
fails, or a row of which nothing can be made. No read follows. -/
inductive Ending (make : RowReader → Except Error β) (c : γ) : Except Error (List β) × γ → Prop where
  | complete {made : List β} (hmade : Makes make c made) (hlength : made.length = (memory c).rest.length)
      (hread : readAfter c made.length = .ok false)
      (hafter : memory (afterReads c (made.length + 1)) =
        { memory c with position := some (memory c).rows.length }) :
      Ending make c (.ok made, afterReads c (made.length + 1))
  | readFails {made : List β} {e : Error} (hmade : Makes make c made) (hread : readAfter c made.length = .error e) :
      Ending make c (.error e, afterReads c (made.length + 1))
  | rowFails {made : List β} {e : Error} (hmade : Makes make c made) (hfound : FindsRow c made.length)
      (hrow : make (rowAfter c made.length) = .error e) :
      Ending make c (.error e, afterReads c (made.length + 1))

variable {make : RowReader → Except Error β} {c : γ}

theorem makes_nil : Makes make c [] := by
  intro i b h
  cases h

theorem Makes.cons {b : β} {made : List β} (hread : (RowCursor.read c).1 = .ok true)
    (hrow : make (rowAfter c 0) = .ok b) (hmade : Makes make (RowCursor.read c).2 made) :
    Makes make c (b :: made) := by
  intro i b' hb'
  cases i with
  | zero =>
    cases hb'
    exact ⟨findsRow_zero hread, hrow⟩
  | succ i =>
    obtain ⟨hfound, hrow'⟩ := hmade i b' hb'
    rw [rowAfter_read] at hrow'
    exact ⟨hfound.succ hread, hrow'⟩

/-- One row is read, and then the others. -/
theorem Ending.cons {b : β} {result : Except Error (List β)} {c' : γ} (hread : (RowCursor.read c).1 = .ok true)
    (hrow : make (rowAfter c 0) = .ok b) (h : Ending make (RowCursor.read c).2 (result, c')) :
    Ending make c (result.map (b :: ·), c') := by
  cases h with
  | complete hmade hlength hend hafter =>
    obtain ⟨hmemory, row, hrest, _⟩ := memory_of_read_true hread
    rw [readAfter_read] at hend
    rw [afterReads_read] at hafter ⊢
    refine .complete (hmade.cons hread hrow) ?_ hend ?_
    · simp [hrest, hlength]
    · simpa [hmemory] using hafter
  | readFails hmade hend =>
    rw [readAfter_read] at hend
    rw [afterReads_read]
    exact .readFails (hmade.cons hread hrow) hend
  | rowFails hmade hfound hfails =>
    rw [rowAfter_read] at hfails
    rw [afterReads_read]
    exact .rowFails (hmade.cons hread hrow) (hfound.succ hread) hfails

theorem readRows_ends (make : RowReader → Except Error β) (c : γ) : Ending make c (readRows make c) := by
  fun_induction readRows make c with
  | case1 c e c' h =>
    obtain rfl : (RowCursor.read c).2 = c' := congrArg Prod.snd h
    exact .readFails makes_nil (congrArg Prod.fst h)
  | case2 c c' h =>
    obtain rfl : (RowCursor.read c).2 = c' := congrArg Prod.snd h
    obtain ⟨hrest, hmemory⟩ := memory_of_read_false (congrArg Prod.fst h)
    exact .complete makes_nil (by simp [hrest]) (congrArg Prod.fst h) hmemory
  | case3 c c' h e hrow =>
    obtain rfl : (RowCursor.read c).2 = c' := congrArg Prod.snd h
    exact .rowFails makes_nil (findsRow_zero (congrArg Prod.fst h)) hrow
  | case4 c c' h b hrow e c'' hrows ih =>
    obtain rfl : (RowCursor.read c).2 = c' := congrArg Prod.snd h
    rw [hrows] at ih
    exact ih.cons (congrArg Prod.fst h) hrow
  | case5 c c' h b hrow made c'' hrows ih =>
    obtain rfl : (RowCursor.read c).2 = c' := congrArg Prod.snd h
    rw [hrows] at ih
    exact ih.cons (congrArg Prod.fst h) hrow

end

/-! ## Names and values of dynamic rows -/

section
variable {γ : Type} [RowCursor γ] [OverMemory γ] {cursor : γ}

theorem names_columnsFrom {count : Nat} : ∀ {start : Nat} {columns : List (String × Option Kind)},
    RowShape.columnsFrom cursor start count = .ok columns →
      columns.map Prod.fst = ((memory cursor).names.drop start).take count := by
  induction count with
  | zero =>
    intro start columns h
    cases h
    rfl
  | succ count ih =>
    intro start columns h
    rw [RowShape.columnsFrom] at h
    cases hname : RowCursor.fieldName cursor start with
    | error e => simp [hname] at h
    | ok name =>
      cases hrest : RowShape.columnsFrom cursor (start + 1) count with
      | error e => simp [hname, hrest] at h
      | ok rest =>
        simp only [hname, hrest, Except.ok.injEq] at h
        have hmemory := OverMemory.fieldName_eq cursor start name hname
        unfold MemoryCursor.fieldName at hmemory
        split at hmemory
        · rename_i hget
          cases hmemory
          obtain ⟨hlt, rfl⟩ := List.getElem?_eq_some_iff.mp hget
          rw [List.drop_eq_getElem_cons hlt, List.take_succ_cons, ← ih hrest, ← h]
          rfl
        · cases hmemory

theorem names_ofCursor {shape : RowShape} (h : RowShape.ofCursor cursor = .ok shape) :
    shape.names = (memory cursor).names := by
  unfold RowShape.ofCursor at h
  cases hcolumns : RowShape.columnsFrom cursor 0 (RowCursor.fieldCount cursor) with
  | error e => simp [hcolumns, Except.map] at h
  | ok columns =>
    simp only [hcolumns, Except.map, Except.ok.injEq] at h
    rw [← h, RowShape.names, names_columnsFrom hcolumns, OverMemory.fieldCount_eq, List.drop_zero, List.take_length]

theorem values_valuesFrom {row : RowReader} {values : List Value} (hrow : ∀ i v, row i = .ok v → values[i]? = some v)
    {count : Nat} : ∀ {start : Nat} {vs : List Value},
      DynamicMaterializer.valuesFrom row start count = .ok vs → vs = (values.drop start).take count := by
  induction count with
  | zero =>
    intro start vs h
    cases h
    rfl
  | succ count ih =>
    intro start vs h
    rw [DynamicMaterializer.valuesFrom] at h
    cases hvalue : row start with
    | error e => simp [hvalue] at h
    | ok v =>
      cases hrest : DynamicMaterializer.valuesFrom row (start + 1) count with
      | error e => simp [hvalue, hrest] at h
      | ok rest =>
        simp only [hvalue, hrest, Except.ok.injEq] at h
        obtain ⟨hlt, rfl⟩ := List.getElem?_eq_some_iff.mp (hrow start v hvalue)
        rw [List.drop_eq_getElem_cons hlt, List.take_succ_cons, ← ih hrest, ← h]

end

/-! ## Queries -/

/-- Without a plan nothing is read. With one, the cursor is read to its end. The cache stays as the look-up left it. -/
def Answers {γ ρ β : Type} [RowCursor γ] [OverMemory γ] (look : Except Error (Served ρ) × PlanCache)
    (make : ρ → RowReader → Except Error β) (cursor : γ) (answer : Except Error (List β) × γ × PlanCache) : Prop :=
  answer.2.2 = look.2 ∧
    match look.1 with
    | .error e => answer.1 = .error e ∧ answer.2.1 = cursor
    | .ok served => Ending (make served.materializer) cursor (answer.1, answer.2.1)

section
variable {γ : Type} [RowCursor γ] [OverMemory γ]

theorem RowMapper.query_answers {α : Type} (m : RowMapper) (type : Nat) (mapping : Mapping α) (id : QueryIdentity)
    (cursor : γ) (cache : PlanCache) :
    Answers (m.materializer type mapping.info id cursor cache) (fun p => p.run mapping) cursor
      (m.query type mapping id cursor cache) := by
  unfold query
  rcases m.materializer type mapping.info id cursor cache with ⟨e | served, cache'⟩
  · exact ⟨rfl, rfl, rfl⟩
  · exact ⟨rfl, readRows_ends _ cursor⟩

theorem PlanCache.queryDynamic_answers (cache : PlanCache) (id : QueryIdentity) (cursor : γ) :
    Answers (cache.dynamicMaterializer id cursor) DynamicMaterializer.run cursor (cache.queryDynamic id cursor) := by
  unfold queryDynamic
  rcases cache.dynamicMaterializer id cursor with ⟨e | served, cache'⟩
  · exact ⟨rfl, rfl, rfl⟩
  · exact ⟨rfl, readRows_ends _ cursor⟩

end

/-! ## Plans for dynamic rows -/

def CachedPlan.KeepsNames (p : CachedPlan) : Prop := ∀ d, p.recipe = .dynamic d → d.names = p.shape

theorem CachedPlan.dynamic_of_serves? {p : CachedPlan} {shape : RowShape} {d : DynamicMaterializer}
    (h : p.serves? .dynamic shape = some d) : p.shape = shape.names ∧ p.recipe = .dynamic d := by
  obtain ⟨hnames, hunwrap⟩ := unwrap?_of_serves? h
  refine ⟨hnames, ?_⟩
  unfold RecipeKind.dynamic at hunwrap
  cases hrecipe : p.recipe with
  | mapped type materializer => simp [hrecipe] at hunwrap
  | dynamic d' =>
    obtain rfl : d' = d := by simpa [hrecipe] using hunwrap
    rfl

theorem RowShape.resolvedNames_none (s : RowShape) : s.resolvedNames none = s.names := List.map_id _

theorem keepsNames_afterShared {types : MappedTypes} (settings : CacheConfig)
    (calls : List (RowMapper × MapperCall types)) :
    ∀ e ∈ (MapperCall.afterShared { config := settings } calls).entries, e.2.KeepsNames := by
  induction calls using List.reverseRecOn with
  | nil => intro e he; cases he
  | append_singleton calls call ih =>
    rw [MapperCall.afterShared, List.foldl_append]
    refine call.2.forall_mem_after (P := fun _ p => p.KeepsNames) ?_ ih call.1 ?_ ?_
    · intro _ p p' hagrees hp d hd
      rw [← hagrees.1]
      exact hp d (hagrees.2.trans hd)
    · intro type id shape r p _ _ _ hrecipe d hd
      cases hrecipe.symm.trans hd
    · intro id shape p hp hrecipe d hd
      cases hrecipe.symm.trans hd
      rw [hp]
      exact shape.resolvedNames_none

section
variable {γ : Type} [RowCursor γ] [OverMemory γ] {cursor : γ} {cache : PlanCache} {id : QueryIdentity}

theorem names_dynamicMaterializer (h : ∀ e ∈ cache.entries, e.2.KeepsNames) {served : Served DynamicMaterializer}
    (hserved : (cache.dynamicMaterializer id cursor).1 = .ok served) :
    served.materializer.names = (memory cursor).names := by
  unfold PlanCache.dynamicMaterializer at hserved
  cases hshape : RowShape.ofCursor cursor with
  | error e =>
    rw [cache.getOrCompile_error _ id _ hshape] at hserved
    cases hserved
  | ok shape =>
    rw [← names_ofCursor hshape]
    have hstep := cache.getOrCompile_step .dynamic id (fun shape => .ok (.compile shape none)) hshape
    generalize cache.getOrCompile .dynamic id cursor _ = result at hserved hstep
    cases hstep with
    | failed hnone he => cases he
    | compiled hnone hm =>
      cases hserved
      cases hm
      exact shape.resolvedNames_none
    | served hp hm =>
      cases hserved
      obtain ⟨hshape, hrecipe⟩ := CachedPlan.dynamic_of_serves? hm
      rw [← hshape]
      exact h _ (Keyed.mem_of_find? hp) _ hrecipe

/-- What is made of the row that a read found is that row. -/
theorem run_rowAfter {d : DynamicMaterializer} (hnames : d.names = (memory cursor).names)
    (hfull : (memory cursor).Full) {n : Nat} (hfound : FindsRow cursor n) {r : DynamicRow}
    (hrun : d.run (rowAfter cursor n) = .ok r) :
    (memory cursor).rest[n]?.map (fun row => ⟨(memory cursor).names, row⟩) = some r := by
  obtain ⟨_, row, hrow, hcurrent⟩ := hfound
  have hlength : row.length = d.names.length := by
    rw [hnames]
    exact hfull row (List.mem_of_mem_drop (List.mem_of_getElem? hrow))
  cases hvalues : DynamicMaterializer.valuesFrom (rowAfter cursor n) 0 d.names.length with
  | error e => simp [DynamicMaterializer.run, hvalues, Except.map] at hrun
  | ok vs =>
    have hread : ∀ i v, rowAfter cursor n i = .ok v → row[i]? = some v := by
      intro i v hv
      have hv' := OverMemory.value_eq _ i v hv
      unfold MemoryCursor.value at hv'
      rw [hcurrent] at hv'
      cases hget : row[i]? with
      | none => simp [hget] at hv'
      | some v' => simpa [hget] using hv'
    have hvs := values_valuesFrom hread hvalues
    rw [List.drop_zero, ← hlength, List.take_length] at hvs
    simp only [DynamicMaterializer.run, hvalues, Except.map, Except.ok.injEq] at hrun
    rw [hrow, ← hrun, hnames, hvs]
    rfl

theorem rows_queryDynamic (h : ∀ e ∈ cache.entries, e.2.KeepsNames) (hfull : (memory cursor).Full)
    {rows : List DynamicRow} (hrows : (cache.queryDynamic id cursor).1 = .ok rows) :
    rows = (memory cursor).rest.map fun row => ⟨(memory cursor).names, row⟩ := by
  obtain ⟨_, hanswer⟩ := cache.queryDynamic_answers id cursor
  cases hlook : (cache.dynamicMaterializer id cursor).1 with
  | error e =>
    rw [hlook] at hanswer
    cases hrows.symm.trans hanswer.1
  | ok served =>
    have hnames := names_dynamicMaterializer h hlook
    rw [hlook, hrows] at hanswer
    generalize (cache.queryDynamic id cursor).2.1 = cursor' at hanswer
    cases hanswer with
    | complete hmade hlength =>
      apply List.ext_getElem?
      intro i
      rw [List.getElem?_map]
      cases hget : rows[i]? with
      | none =>
        have hend : (memory cursor).rest[i]? = none := by
          rw [List.getElem?_eq_none_iff] at hget ⊢
          omega
        rw [hend]
        rfl
      | some r =>
        obtain ⟨hfound, hrun⟩ := hmade i r hget
        exact (run_rowAfter hnames hfull hfound hrun).symm

/-- A query looks up its plan first: without one it fails with the cursor as it was, and the cache is in either case
left by the look-up alone. With a plan the cursor is read to its end. Either every row that is left gives one thing, in
order, the last read finds no row and the memory is past its last row; or the first read or row that fails gives the
error, and nothing is read after it. After any calls, on any mappers over the cache, a dynamic row has the names of the
cursor, and these rows are all rows that are left, nulls included. -/
theorem queries_read_remaining_rows (id : QueryIdentity) (cursor : γ) :
    (∀ (m : RowMapper) (type : Nat) (α : Type) (mapping : Mapping α) (cache : PlanCache),
        Answers (m.materializer type mapping.info id cursor cache) (fun p => p.run mapping) cursor
          (m.query type mapping id cursor cache)) ∧
      (∀ cache : PlanCache,
        Answers (cache.dynamicMaterializer id cursor) DynamicMaterializer.run cursor (cache.queryDynamic id cursor)) ∧
      ∀ (types : MappedTypes) (settings : CacheConfig) (calls : List (RowMapper × MapperCall types)),
        let cache := MapperCall.afterShared { config := settings } calls
        (∀ served, (cache.dynamicMaterializer id cursor).1 = .ok served →
            served.materializer.names = (memory cursor).names) ∧
          ((memory cursor).Full → ∀ rows, (cache.queryDynamic id cursor).1 = .ok rows →
            rows = (memory cursor).rest.map fun row => ⟨(memory cursor).names, row⟩) := by
  refine ⟨fun m type α mapping cache => ?_, fun cache => ?_, fun types settings calls => ⟨?_, ?_⟩⟩
  · exact m.query_answers type mapping id cursor cache
  · exact cache.queryDynamic_answers id cursor
  · intro served hserved
    exact names_dynamicMaterializer (keepsNames_afterShared settings calls) hserved
  · intro hfull rows hrows
    exact rows_queryDynamic (keepsNames_afterShared settings calls) hfull hrows

end

/-- One of two rows is left, and its missing value is null. -/
theorem second_row_remains :
    let cursor := (((MemoryCursor.ofNames ["id", "name"]).withRow [.int32 1, .string "a"]).withRow [.int32 2]).read.2
    let id : QueryIdentity := { sql := "select id, name", connection := "db", target := .dynamic }
    cursor.rest = [[.int32 2, .null]] ∧
      ∃ rows, (({} : PlanCache).queryDynamic id cursor).1 = .ok rows ∧
        rows = cursor.rest.map fun row => ⟨["id", "name"], row⟩ := by
  intro cursor id
  have hfull : cursor.Full := ((MemoryCursor.full_ofNames _).withRow _).withRow _
  have hrows := ((queries_read_remaining_rows id cursor).2.2 ⟨fun _ => Record, fun _ => point.mapping⟩ {} []).2 hfull
  have hanswer : (({} : PlanCache).queryDynamic id cursor).1 = .ok [⟨["id", "name"], [.int32 2, .null]⟩] := by
    decide +kernel
  exact ⟨rfl, _, hanswer, hrows _ hanswer⟩

end SqlMapping
