import SqlMapping.Catalog.Builder
import SqlMapping.Proofs.Catalog.Table
import Mathlib.Data.List.Forall2
import Mathlib.Data.List.Induction

/-!
# Which tables are accepted, and how their columns are found

`accepted_iff_wellFormed`: whatever calls a table is put together by, it has what they add and what they set last, it
is accepted if and only if it is well formed, and then look-ups by name, the key columns and the columns of inserts and
updates are what they say.
-/

namespace SqlMapping

/-! ## What calls put together -/

namespace TableCall

def schema? : TableCall → Option String
  | .schema raw => some raw
  | _ => none

def catalog? : TableCall → Option String
  | .catalog raw => some raw
  | _ => none

def columnsAdded : TableCall → List Column
  | .column c => [c]
  | .columns cs => cs
  | _ => []

def primaryKey? : TableCall → Option Key
  | .primaryKey key => some key
  | _ => none

def uniqueKey? : TableCall → Option Key
  | .uniqueKey key => some key
  | _ => none

def index? : TableCall → Option Index
  | .index ix => some ix
  | _ => none

end TableCall

namespace Table

/-- The table has what the calls add, in their order, and of what they set the last. -/
structure Gathers (t : Table) (raw : String) (calls : List TableCall) : Prop where
  name : t.name = Identifier.parse raw
  schema : t.schema = (calls.filterMap TableCall.schema?).getLast?.map Identifier.parse
  catalog : t.catalog = (calls.filterMap TableCall.catalog?).getLast?.map Identifier.parse
  columns : t.columns = calls.flatMap TableCall.columnsAdded
  primaryKey : t.primaryKey = (calls.filterMap TableCall.primaryKey?).getLast?
  uniqueKeys : t.uniqueKeys = calls.filterMap TableCall.uniqueKey?
  indexes : t.indexes = calls.filterMap TableCall.index?

theorem ofCalls_concat (raw : String) (calls : List TableCall) (call : TableCall) :
    ofCalls raw (calls ++ [call]) = (ofCalls raw calls).extend call := by
  simp [ofCalls]

theorem Gathers.extend {t : Table} {raw : String} {calls : List TableCall} (h : t.Gathers raw calls)
    (call : TableCall) : (t.extend call).Gathers raw (calls ++ [call]) := by
  obtain ⟨hname, hschema, hcatalog, hcolumns, hprimary, hunique, hindexes⟩ := h
  cases call <;> constructor <;>
    simp [Table.extend, TableCall.schema?, TableCall.catalog?, TableCall.columnsAdded, TableCall.primaryKey?,
      TableCall.uniqueKey?, TableCall.index?, hname, hschema, hcatalog, hcolumns, hprimary, hunique, hindexes]

theorem gathers_ofCalls (raw : String) (calls : List TableCall) : (ofCalls raw calls).Gathers raw calls := by
  induction calls using List.reverseRecOn with
  | nil => exact ⟨rfl, rfl, rfl, rfl, rfl, rfl, rfl⟩
  | append_singleton calls call ih =>
    rw [ofCalls_concat]
    exact ih.extend call

/-! ## Validation -/

/-- The list of a key or an index: not empty, and each name is that of a column, in any case. -/
def Resolves (t : Table) (names : List String) : Prop :=
  names ≠ [] ∧ ∀ name ∈ names, ∃ c ∈ t.columns, sameName c.name name = true

structure WellFormed (t : Table) : Prop where
  distinct : t.columns.Pairwise fun c c' => sameName c.name c'.name = false
  identity : t.columns.countP Column.isIdentity ≤ 1
  primaryKey : ∀ key ∈ t.primaryKey, t.Resolves key.columns
  uniqueKeys : ∀ key ∈ t.uniqueKeys, t.Resolves key.columns
  indexes : ∀ index ∈ t.indexes, t.Resolves index.columns

theorem distinct_iff_pairwise (t : Table) :
    t.Distinct ↔ t.columns.Pairwise fun c c' => sameName c.name c'.name = false := by
  simp only [Distinct, List.Nodup, List.pairwise_map, ne_eq, ← sameName_iff, Bool.not_eq_true]

theorem isSome_column?_iff (t : Table) (name : String) :
    (t.column? name).isSome = true ↔ ∃ c ∈ t.columns, sameName c.name name = true := by
  simp only [column?, List.find?_isSome, Column.isNamed]

theorem named_of_column? {t : Table} {name : String} {c : Column} (h : t.column? name = some c) :
    c ∈ t.columns ∧ sameName c.name name = true := by
  unfold column? at h
  exact ⟨List.mem_of_find?_eq_some h, List.find?_some (p := fun c : Column => c.isNamed name) h⟩

theorem checkReference_eq_ok_iff (t : Table) (names : List String) :
    t.checkReference names = .ok () ↔ t.Resolves names := by
  unfold checkReference Resolves
  cases names with
  | nil => simp
  | cons name names =>
    simp only [← isSome_column?_iff]
    cases hfind : (name :: names).find? fun n => (t.column? n).isNone with
    | none => simpa [Option.isSome_iff_ne_none] using hfind
    | some missing =>
      have hmem := List.mem_of_find?_eq_some hfind
      have hmissing := List.find?_some hfind
      simp only [List.isEmpty_cons, Bool.false_eq_true, if_false, reduceCtorEq, false_iff, not_and]
      intro _ hall
      rw [← Option.not_isSome, hall missing hmem] at hmissing
      cases hmissing

theorem checkReferences_eq_ok_iff (t : Table) (lists : List (List String)) :
    t.checkReferences lists = .ok () ↔ ∀ names ∈ lists, t.Resolves names := by
  induction lists with
  | nil => simp [checkReferences]
  | cons names lists ih =>
    rw [List.forall_mem_cons, ← checkReference_eq_ok_iff, ← ih, checkReferences]
    cases t.checkReference names with
    | error e => simp
    | ok u => simp

theorem forall_mem_references (t : Table) (P : List String → Prop) :
    (∀ names ∈ t.references, P names) ↔
      (∀ key ∈ t.primaryKey, P key.columns) ∧ (∀ key ∈ t.uniqueKeys, P key.columns) ∧
        ∀ index ∈ t.indexes, P index.columns := by
  simp only [references, List.forall_mem_append, List.forall_mem_map, Option.mem_toList, Option.mem_def, and_assoc]

theorem wellFormed_iff (t : Table) :
    t.WellFormed ↔
      t.Distinct ∧ t.columns.countP Column.isIdentity ≤ 1 ∧ ∀ names ∈ t.references, t.Resolves names := by
  rw [distinct_iff_pairwise, forall_mem_references]
  refine ⟨fun h => ⟨h.distinct, h.identity, h.primaryKey, h.uniqueKeys, h.indexes⟩, ?_⟩
  rintro ⟨hdistinct, hidentity, hprimary, hunique, hindexes⟩
  exact ⟨hdistinct, hidentity, hprimary, hunique, hindexes⟩

/-- The checks stop at the first fault, so a table passes all of them or none is left to pass. -/
theorem build_eq_ok_iff (t t' : Table) : t.build = .ok t' ↔ t' = t ∧ t.WellFormed := by
  rw [wellFormed_iff, Distinct, List.countP_eq_length_filter, ← checkReferences_eq_ok_iff]
  have hnames := firstRepeated_eq_none_iff t.columns []
  unfold build
  cases hrepeated : firstRepeated [] t.columns with
  | some c =>
    rw [hrepeated] at hnames
    simp only [reduceCtorEq, List.not_mem_nil, not_false_eq_true, implies_true, true_and, false_iff] at hnames
    simp [hnames]
  | none =>
    have hdistinct := (hnames.mp hrepeated).2
    by_cases hidentity : 1 < (t.columns.filter Column.isIdentity).length
    · simp [hidentity, Nat.not_le.mpr hidentity]
    · cases hcheck : t.checkReferences t.references with
      | error e => simp [hidentity]
      | ok u => simp [hidentity, hdistinct, Nat.not_lt.mp hidentity, eq_comm]

/-! ## Look-ups -/

def keyNames (t : Table) : List String := t.primaryKey.elim [] Key.columns

structure SoundLookUps (t : Table) : Prop where
  column : ∀ c ∈ t.columns, ∀ name, foldCase name = foldCase c.name → t.column? name = some c
  key : List.Forall₂ (fun name c => c ∈ t.columns ∧ sameName c.name name = true) t.keyNames t.keyColumns
  /-- In declaration order, all columns but the identity. -/
  insert : t.insertColumns = t.identityColumn?.elim t.columns t.columns.erase
  cover : ∀ c, c ∈ t.columns ↔ c ∈ t.updateColumns ∨ c ∈ t.keyColumns ∨ t.identityColumn? = some c
  disjoint : ∀ c ∈ t.updateColumns, c ∉ t.keyColumns ∧ t.identityColumn? ≠ some c

theorem keyColumns_eq (t : Table) : t.keyColumns = t.keyNames.filterMap t.column? := by
  unfold keyColumns keyNames
  cases t.primaryKey with
  | none => rfl
  | some key => rfl

theorem isKeyColumn_iff (t : Table) (name : String) :
    t.isKeyColumn name = true ↔ ∃ n ∈ t.keyNames, sameName n name = true := by
  unfold isKeyColumn keyNames
  cases t.primaryKey with
  | none => simp
  | some key => simp [Key.contains]

theorem forall₂_filterMap {α β : Type} {f : α → Option β} {R : α → β → Prop} {xs : List α}
    (h : ∀ x ∈ xs, ∃ y, f x = some y ∧ R x y) : List.Forall₂ R xs (xs.filterMap f) := by
  induction xs with
  | nil => exact .nil
  | cons x xs ih =>
    obtain ⟨y, hy, hR⟩ := h x List.mem_cons_self
    rw [List.filterMap_cons_some hy]
    exact .cons hR (ih fun x' hx' => h x' (List.mem_cons_of_mem x hx'))

theorem filter_not_eq_erase {α : Type} [DecidableEq α] {p : α → Bool} {xs : List α} (h : xs.countP p ≤ 1) :
    xs.filter (fun x => !p x) = (xs.find? p).elim xs xs.erase := by
  induction xs with
  | nil => rfl
  | cons x xs ih =>
    cases hx : p x with
    | true =>
      have hnone : xs.countP p = 0 := by
        rw [List.countP_cons_of_pos hx] at h
        omega
      have hrest : ∀ y ∈ xs, (!p y) = true := by
        simpa [List.countP_eq_zero] using hnone
      rw [List.filter_cons_of_neg (by simp [hx]), List.find?_cons_of_pos hx, List.filter_eq_self.mpr hrest]
      simp
    | false =>
      have hx' : ¬ p x = true := by simp [hx]
      rw [List.countP_cons_of_neg hx'] at h
      rw [List.filter_cons_of_pos (by simp [hx]), List.find?_cons_of_neg hx', ih h]
      cases hfind : xs.find? p with
      | none => rfl
      | some y =>
        have hy := List.find?_some hfind
        have hne : x ≠ y := fun heq => hx' (heq ▸ hy)
        simp [List.erase_cons_tail, hne]

theorem find?_of_countP_le_one {α : Type} {p : α → Bool} {xs : List α} (h : xs.countP p ≤ 1) {x : α} (hx : x ∈ xs)
    (hp : p x = true) : xs.find? p = some x := by
  induction xs with
  | nil => cases hx
  | cons y ys ih =>
    by_cases hy : p y = true
    · rw [List.countP_cons_of_pos hy] at h
      have hnone : ys.countP p = 0 := by omega
      rw [List.find?_cons_of_pos hy]
      rcases List.mem_cons.mp hx with rfl | hx
      · rfl
      · exact absurd hp (List.countP_eq_zero.mp hnone x hx)
    · rw [List.countP_cons_of_neg hy] at h
      rw [List.find?_cons_of_neg hy]
      exact ih h ((List.mem_cons.mp hx).resolve_left fun heq => hy (heq ▸ hp))

theorem identityColumn?_eq_some_iff {t : Table} (h : t.columns.countP Column.isIdentity ≤ 1) (c : Column) :
    t.identityColumn? = some c ↔ c ∈ t.columns ∧ c.isIdentity = true :=
  ⟨fun hfind => ⟨List.mem_of_find?_eq_some hfind, List.find?_some hfind⟩,
    fun hc => find?_of_countP_le_one h hc.1 hc.2⟩

theorem mem_keyColumns_iff {t : Table} (h : t.Distinct) {c : Column} :
    c ∈ t.keyColumns ↔ c ∈ t.columns ∧ t.isKeyColumn c.name = true := by
  rw [keyColumns_eq, List.mem_filterMap, isKeyColumn_iff]
  refine ⟨?_, ?_⟩
  · rintro ⟨name, hname, hfind⟩
    obtain ⟨hc, hsame⟩ := named_of_column? hfind
    exact ⟨hc, name, hname, sameName_symm c.name name ▸ hsame⟩
  · rintro ⟨hc, name, hname, hsame⟩
    exact ⟨name, hname, column?_of_mem h hc (sameName_symm name c.name ▸ hsame)⟩

theorem keyColumns_forall₂ {t : Table} (h : ∀ key ∈ t.primaryKey, t.Resolves key.columns) :
    List.Forall₂ (fun name c => c ∈ t.columns ∧ sameName c.name name = true) t.keyNames t.keyColumns := by
  rw [keyColumns_eq]
  refine forall₂_filterMap fun name hname => ?_
  unfold keyNames at hname
  cases hkey : t.primaryKey with
  | none => rw [hkey] at hname; cases hname
  | some key =>
    rw [hkey] at hname
    have hsome := (isSome_column?_iff t name).mpr ((h key hkey).2 name hname)
    obtain ⟨c, hc⟩ := Option.isSome_iff_exists.mp hsome
    exact ⟨c, hc, named_of_column? hc⟩

theorem soundLookUps_of_wellFormed {t : Table} (h : t.WellFormed) : t.SoundLookUps := by
  have hdistinct := (distinct_iff_pairwise t).mpr h.distinct
  have hidentity := identityColumn?_eq_some_iff h.identity
  refine ⟨?_, keyColumns_forall₂ h.primaryKey, filter_not_eq_erase h.identity, ?_, ?_⟩
  · intro c hc name hname
    exact column?_of_mem hdistinct hc ((sameName_iff c.name name).mpr hname.symm)
  · intro c
    rw [hidentity, mem_keyColumns_iff hdistinct, updateColumns, List.mem_filter]
    by_cases hc : c ∈ t.columns
    · cases c.isIdentity <;> cases t.isKeyColumn c.name <;> simp [hc]
    · simp [hc]
  · intro c hc
    rw [updateColumns, List.mem_filter] at hc
    rw [ne_eq, hidentity, mem_keyColumns_iff hdistinct]
    obtain ⟨-, hc⟩ := hc
    simp only [Bool.and_eq_true, Bool.not_eq_true'] at hc
    simp [hc]

end Table

/-- Validation accepts the well-formed tables and no others, and returns them as they were put together, with what the
calls add and set last. In an accepted table a column is found by its name in any case, the key columns are those of
the key in order, inserts leave out the identity alone, and what updates leave out is the key and the identity. -/
theorem accepted_iff_wellFormed (raw : String) (calls : List TableCall) :
    (Table.ofCalls raw calls).Gathers raw calls ∧
      ((∃ t, (Table.ofCalls raw calls).build = .ok t) ↔ (Table.ofCalls raw calls).WellFormed) ∧
      ∀ t, (Table.ofCalls raw calls).build = .ok t → t = Table.ofCalls raw calls ∧ t.SoundLookUps := by
  refine ⟨Table.gathers_ofCalls raw calls, ?_⟩
  simp only [Table.build_eq_ok_iff, exists_eq_left, true_and]
  rintro t ⟨rfl, hformed⟩
  exact ⟨rfl, Table.soundLookUps_of_wellFormed hformed⟩

end SqlMapping
