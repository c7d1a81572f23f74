import SqlMapping.Proofs.Catalog.Acceptance
import SqlMapping.Dialect.BuiltIn
import SqlMapping.Statement.Data

/-!
# Statements on the row of a key

Which columns the statements on rows name, and beside which parameters. `statements_touch_keyed_row`: of an accepted
table, an insert lists all columns but the identity, an update sets those that are in the key neither, and each
condition is on the columns of the key, all of them and in its order.
-/

namespace SqlMapping

def Dialect.pairs (d : Dialect) (cs : List Column) (parameters : List String) : List String :=
  List.zipWith (fun c p => d.quote c.name ++ " = " ++ d.parameter p) cs parameters

namespace Table

structure OnKey (t : Table) (d : Dialect) (head : String) (r : Except Error Statement) : Prop where
  withoutKey : r = .error (.noPrimaryKey t.name.name) ↔ t.primaryKey = none
  withKey : t.primaryKey ≠ none → ∃ s, r = .ok s ∧ s.parameters = t.keyColumns.map Column.memberName ∧
    s.sql = head ++ " where " ++ " and ".intercalate (d.pairs t.keyColumns s.parameters)

def plainColumns (t : Table) : List Column := t.columns.filter fun c => !c.isIdentity && !t.keyColumns.contains c

structure StatementsOnKey (t : Table) (d : Dialect) : Prop where
  /-- In the order of the key, the columns that it names in any case. -/
  key : List.Forall₂ (fun name c => c ∈ t.columns ∧ sameName c.name name = true) t.keyNames t.keyColumns
  insert : let cs := t.columns.filter fun c => !c.isIdentity
    (t.insertStatement d).parameters = cs.map Column.memberName ∧
      (t.insertStatement d).sql = "insert into " ++ d.qualify t ++
        if cs = [] then " default values"
        else " (" ++ ", ".intercalate (cs.map fun c => d.quote c.name) ++ ") values (" ++
          ", ".intercalate ((t.insertStatement d).parameters.map d.parameter) ++ ")"
  updateWithoutKey : t.updateStatement d = .error (.noPrimaryKey t.name.name) ↔ t.primaryKey = none
  updateOfNothing : (∃ a, t.updateStatement d = .error (.invalidArgument a)) ↔
    t.primaryKey ≠ none ∧ ∀ c ∈ t.columns, c.isIdentity = true ∨ c ∈ t.keyColumns
  update : t.primaryKey ≠ none → (∃ c ∈ t.columns, c.isIdentity = false ∧ c ∉ t.keyColumns) →
    ∃ s, t.updateStatement d = .ok s ∧
      s.parameters = t.plainColumns.map Column.memberName ++ t.keyColumns.map Column.memberName ∧
      s.sql = "update " ++ d.qualify t ++ " set " ++
        ", ".intercalate (d.pairs t.plainColumns (s.parameters.take t.plainColumns.length)) ++ " where " ++
        " and ".intercalate (d.pairs t.keyColumns (s.parameters.drop t.plainColumns.length))
  delete : t.OnKey d ("delete from " ++ d.qualify t) (t.deleteStatement d)
  selectByKey : t.OnKey d
    ("select " ++ ", ".intercalate (t.columns.map fun c => d.quote c.name) ++ " from " ++ d.qualify t)
    (t.selectByKeyStatement d)

theorem pairs_memberNames (d : Dialect) (cs : List Column) :
    d.pairs cs (cs.map Column.memberName) = cs.map (assignment d) := by
  induction cs with
  | nil => rfl
  | cons c cs ih =>
    rw [List.map_cons, List.map_cons, ← ih]
    rfl

variable {t : Table}

theorem keyColumns_eq_nil_iff (h : t.WellFormed) : t.keyColumns = [] ↔ t.primaryKey = none := by
  have hlength := (keyColumns_forall₂ h.primaryKey).length_eq
  unfold keyNames at hlength
  cases hkey : t.primaryKey with
  | none => simp [keyColumns, hkey]
  | some key =>
    have hne := (h.primaryKey key hkey).1
    rw [hkey] at hlength
    rw [← List.length_eq_zero_iff, ← hlength]
    simp [hne]

theorem requireKey_of_none (h : t.WellFormed) (hkey : t.primaryKey = none) :
    t.requireKey = .error (.noPrimaryKey t.name.name) := by
  rw [requireKey, (keyColumns_eq_nil_iff h).mpr hkey]
  rfl

theorem requireKey_of_ne_none (h : t.WellFormed) (hkey : t.primaryKey ≠ none) : t.requireKey = .ok t.keyColumns := by
  have hne : t.keyColumns.isEmpty = false := by
    rw [List.isEmpty_eq_false_iff]
    exact mt (keyColumns_eq_nil_iff h).mp hkey
  rw [requireKey, hne]
  rfl

/-- Whether a column is in the key is decided by its name alone. -/
theorem updateColumns_eq (h : t.WellFormed) : t.updateColumns = t.plainColumns := by
  have hdistinct := (distinct_iff_pairwise t).mpr h.distinct
  refine List.filter_congr fun c hc => ?_
  have hkey : t.isKeyColumn c.name = t.keyColumns.contains c := by
    rw [Bool.eq_iff_iff, List.contains_iff_mem, mem_keyColumns_iff hdistinct]
    simp [hc]
  rw [hkey]

theorem plainColumns_eq_nil_iff (t : Table) :
    t.plainColumns = [] ↔ ∀ c ∈ t.columns, c.isIdentity = true ∨ c ∈ t.keyColumns := by
  simp [plainColumns, List.filter_eq_nil_iff, or_iff_not_imp_left]

theorem onKey_of_requireKey (h : t.WellFormed) {d : Dialect} {head : String} {r : Except Error Statement}
    (herror : ∀ e, t.requireKey = .error e → r = .error e)
    (hok : ∀ keys, t.requireKey = .ok keys →
      r = .ok ⟨head ++ " where " ++ keyCondition d keys, keys.map Column.memberName⟩) : t.OnKey d head r := by
  refine ⟨⟨fun hr => ?_, fun hkey => herror _ (requireKey_of_none h hkey)⟩, fun hkey => ?_⟩
  · by_contra hkey
    rw [hok _ (requireKey_of_ne_none h hkey)] at hr
    cases hr
  · refine ⟨_, hok _ (requireKey_of_ne_none h hkey), rfl, ?_⟩
    simp only [pairs_memberNames, keyCondition]

theorem updateStatement_of_none (h : t.WellFormed) (d : Dialect) (hkey : t.primaryKey = none) :
    t.updateStatement d = .error (.noPrimaryKey t.name.name) := by
  rw [updateStatement, requireKey_of_none h hkey]

theorem updateStatement_of_nil (h : t.WellFormed) (d : Dialect) (hkey : t.primaryKey ≠ none)
    (hnil : t.plainColumns = []) :
    t.updateStatement d = .error (.invalidArgument (.nothingToUpdate t.name.name)) := by
  simp only [updateStatement, requireKey_of_ne_none h hkey, updateColumns_eq h, hnil]
  rfl

theorem updateStatement_of_ne_nil (h : t.WellFormed) (d : Dialect) (hkey : t.primaryKey ≠ none)
    (hne : t.plainColumns ≠ []) :
    t.updateStatement d = .ok
      ⟨"update " ++ d.qualify t ++ " set " ++ ", ".intercalate (t.plainColumns.map (assignment d)) ++ " where " ++
        keyCondition d t.keyColumns, (t.plainColumns ++ t.keyColumns).map Column.memberName⟩ := by
  have hfull : t.plainColumns.isEmpty = false := List.isEmpty_eq_false_iff.mpr hne
  simp only [updateStatement, requireKey_of_ne_none h hkey, updateColumns_eq h, hfull, Bool.false_eq_true, if_false]

theorem statementsOnKey_of_wellFormed (h : t.WellFormed) (d : Dialect) : t.StatementsOnKey d where
  key := keyColumns_forall₂ h.primaryKey
  insert := by
    unfold insertStatement insertColumns
    cases t.columns.filter fun c => !c.isIdentity with
    | nil => simp [String.append_assoc]
    | cons c cs => simp [String.append_assoc]
  updateWithoutKey := by
    refine ⟨fun herror => ?_, updateStatement_of_none h d⟩
    by_contra hkey
    by_cases hnil : t.plainColumns = []
    · rw [updateStatement_of_nil h d hkey hnil] at herror
      cases herror
    · rw [updateStatement_of_ne_nil h d hkey hnil] at herror
      cases herror
  updateOfNothing := by
    rw [← plainColumns_eq_nil_iff]
    constructor
    · rintro ⟨a, herror⟩
      by_cases hkey : t.primaryKey = none
      · rw [updateStatement_of_none h d hkey] at herror
        cases herror
      · by_cases hnil : t.plainColumns = []
        · exact ⟨hkey, hnil⟩
        · rw [updateStatement_of_ne_nil h d hkey hnil] at herror
          cases herror
    · rintro ⟨hkey, hnil⟩
      exact ⟨_, updateStatement_of_nil h d hkey hnil⟩
  update := by
    rintro hkey ⟨c, hc, hidentity, hout⟩
    have hne : t.plainColumns ≠ [] := by
      rw [ne_eq, plainColumns_eq_nil_iff]
      intro hall
      obtain hid | hin := hall c hc
      · rw [hidentity] at hid
        cases hid
      · exact hout hin
    refine ⟨_, updateStatement_of_ne_nil h d hkey hne, List.map_append, ?_⟩
    simp only [List.map_append]
    rw [List.take_left' (List.length_map _), List.drop_left' (List.length_map _), pairs_memberNames, pairs_memberNames,
      keyCondition]
  delete := onKey_of_requireKey h (fun e he => by rw [deleteStatement, he]) fun keys hkeys => by
    rw [deleteStatement, hkeys]
  selectByKey := onKey_of_requireKey h (fun e he => by rw [selectByKeyStatement, he]) fun keys hkeys => by
    rw [selectByKeyStatement, hkeys]

end Table

theorem statements_touch_keyed_row {t t' : Table} (h : t.build = .ok t') (d : Dialect) : t'.StatementsOnKey d := by
  obtain ⟨rfl, hformed⟩ := (t.build_eq_ok_iff t').mp h
  exact Table.statementsOnKey_of_wellFormed hformed d

def shipments : Table :=
  { name := ⟨"shipment", false⟩
    columns := [{ name := "id", type := .identity },
      { name := "order_id", type := .int64 },
      { name := "line", type := .int32 },
      { name := "quantity", type := .int32, member := some ⟨.property, "Amount"⟩ }]
    primaryKey := some ⟨"pk_shipment", ["LINE", "order_id"]⟩ }

/-- The key is written in other case and not in the order of the columns. -/
theorem shipment_row_touched :
    shipments.build = .ok shipments ∧
      (shipments.insertStatement Dialect.sqlServer).parameters = ["order_id", "line", "Amount"] ∧
      ∃ s, shipments.updateStatement Dialect.sqlServer = .ok s ∧ s.parameters = ["Amount", "line", "order_id"] ∧
        s.sql = "update [shipment] set [quantity] = @Amount where [line] = @line and [order_id] = @order_id" := by
  have hbuild : shipments.build = .ok shipments := by decide
  have hon := statements_touch_keyed_row hbuild Dialect.sqlServer
  obtain ⟨s, hs, hparameters, hsql⟩ := hon.update (by decide)
    ⟨{ name := "quantity", type := .int32, member := some ⟨.property, "Amount"⟩ }, by decide, by decide, by decide⟩
  have hnames : s.parameters = ["Amount", "line", "order_id"] := hparameters.trans (by decide)
  rw [hnames] at hsql
  exact ⟨hbuild, hon.insert.1.trans (by decide), s, hs, hnames, hsql.trans (by decide)⟩

end SqlMapping
