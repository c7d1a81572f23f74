import SqlMapping.Proofs.Statement.Placeholders

/-!
# Parameters that a scan of a statement finds

Where all names are words, a scan of a statement on rows finds its parameters in order, with repetitions. So a
binder for the statement has the parameters that the type has members for, each once
(`statement_parameters_found`).
-/

namespace SqlMapping

/-! ## Names of a binder -/

namespace TypeInfo

def hasMember (t : TypeInfo) (name : String) : Bool := t.members.any fun m => sameName m.name name

theorem isSome_memberIndex? (t : TypeInfo) (name : String) :
    (t.memberIndex? name true).isSome = t.hasMember name := by
  unfold memberIndex?
  cases hexact : t.members.findIdx? fun m => m.name == name with
  | some i =>
    have hany : (t.members.any fun m => m.name == name) = true := by
      rw [← List.findIdx?_isSome, hexact]
      rfl
    obtain ⟨m, hm, hname⟩ := List.any_eq_true.mp hany
    have hsame : sameName m.name name = true := by rw [beq_iff_eq.mp hname]; exact sameName_refl name
    exact (List.any_eq_true.mpr ⟨m, hm, hsame⟩).symm
  | none => exact List.findIdx?_isSome

end TypeInfo

namespace ParameterBinder

variable (info : TypeInfo)

/-- Beside the names it starts with, a binder collects the first of each name that a member has. -/
theorem names_collect (names : List String) : ∀ slots : List (String × Nat),
    (collect info slots names).map Prod.fst = slots.map Prod.fst ++
      (names.filter fun n => info.hasMember n && !slots.any fun s => sameName s.1 n).eraseDupsBy sameName := by
  induction names with
  | nil => intro slots; exact (List.append_nil _).symm
  | cons name names ih =>
    intro slots
    rw [collect]
    by_cases hseen : (slots.any fun s => sameName s.1 name) = true
    · rw [if_pos hseen, ih, List.filter_cons_of_neg (by simp [hseen])]
    · rw [if_neg hseen]
      have hmember := info.isSome_memberIndex? name
      cases hindex : info.memberIndex? name true with
      | none =>
        rw [hindex] at hmember
        dsimp only
        rw [ih, List.filter_cons_of_neg (by simp [← hmember])]
      | some member =>
        rw [hindex] at hmember
        dsimp only
        -- a later name is left out if it is one of the slots or the name put in now
        rw [ih, List.filter_cons_of_pos (by simp [← hmember, hseen]), List.eraseDupsBy_cons, List.filter_filter,
          List.map_append, List.append_assoc]
        refine congrArg (fun ns : List String => slots.map Prod.fst ++ name :: ns.eraseDupsBy sameName) ?_
        refine List.filter_congr fun n _ => ?_
        rw [List.any_append, sameName_symm n name]
        cases info.hasMember n <;> simp [Bool.and_comm]

theorem names_compile (sql marker : String) :
    (compile info sql marker).names = ((placeholders sql marker).filter info.hasMember).eraseDupsBy sameName := by
  have h := names_collect info (placeholders sql marker) []
  simpa [compile, names] using h

end ParameterBinder

/-! ## Statements that assign or compare columns -/

namespace Table

variable {t : Table} {d : Dialect} {m : Char} {s : Statement} (hd : d.Marks m) (h : t.NamedByWords)
include hd h

theorem finds_assignment {c : Column} (hc : c ∈ t.columns) : Finds m (assignment d c) [c.memberName] := by
  have hname : Plain (d.quote c.name ++ " = ") := (Dialect.plain_quote hd (h.column c hc)).append (by decide)
  exact hname.append_finds hd.mark (Dialect.finds_parameter hd (h.member c hc))

theorem finds_assignments {sep : String} (hsep : Plain sep) (hne : sep.toList ≠ []) (hends : EndsWord sep.toList)
    {cs : List Column} (hcs : ∀ c ∈ cs, c ∈ t.columns) :
    Finds m (sep.intercalate (cs.map (assignment d))) (cs.map Column.memberName) :=
  finds_intercalate hd.mark hsep hne hends fun c hc => finds_assignment hd h (hcs c hc)

omit hd h in
theorem mem_columns_of_key {c : Column} (hc : c ∈ t.keyColumns) : c ∈ t.columns := by
  unfold keyColumns at hc
  split at hc
  · obtain ⟨name, -, hname⟩ := List.mem_filterMap.mp hc
    exact List.mem_of_find?_eq_some hname
  · cases hc

omit hd h in
theorem eq_of_requireKey {keys : List Column} (hkeys : t.requireKey = .ok keys) : keys = t.keyColumns := by
  unfold requireKey at hkeys
  split at hkeys
  · cases hkeys
  · exact (Except.ok.inj hkeys).symm

theorem finds_keyCondition {keys : List Column} (hkeys : t.requireKey = .ok keys) :
    Finds m (keyCondition d keys) (keys.map Column.memberName) := by
  rw [eq_of_requireKey hkeys]
  exact finds_assignments hd h (by decide) (by decide) (by decide) fun c hc => mem_columns_of_key hc

/-- A text without parameters, then the condition on the key. -/
theorem placeholders_where {keys : List Column} (hkeys : t.requireKey = .ok keys) {head : String}
    (hhead : Plain head) :
    placeholders (head ++ " where " ++ keyCondition d keys) d.marker = keys.map Column.memberName := by
  have hwhere : Plain (head ++ " where ") := hhead.append (by decide)
  exact (hwhere.append_finds hd.mark (finds_keyCondition hd h hkeys)).placeholders hd.marker

theorem placeholders_update (hs : t.updateStatement d = .ok s) : placeholders s.sql d.marker = s.parameters := by
  unfold updateStatement at hs
  split at hs
  · cases hs
  · rename_i keys hkeys
    dsimp only at hs
    split at hs
    · cases hs
    · obtain rfl := Except.ok.inj hs
      have hhead : Plain ("update " ++ d.qualify t ++ " set ") :=
        (Plain.append (by decide) (Dialect.plain_qualify hd h)).append (by decide)
      have hset : Finds m (", ".intercalate (t.updateColumns.map (assignment d)))
          (t.updateColumns.map Column.memberName) :=
        finds_assignments hd h (by decide) (by decide) (by decide) fun c hc => (List.mem_filter.mp hc).1
      have hwhere : Plain " where " := by decide
      have hkey := hwhere.append_finds hd.mark (finds_keyCondition hd h hkeys)
      have hends : EndsWord (" where " ++ keyCondition d keys).toList := by
        rw [String.toList_append]
        exact EndsWord.append (by decide) fun hnil => absurd hnil (by decide)
      have hsql := (hhead.append_finds hd.mark hset).append hkey hends
      rw [← List.map_append, ← String.append_assoc] at hsql
      exact hsql.placeholders hd.marker

theorem placeholders_delete (hs : t.deleteStatement d = .ok s) : placeholders s.sql d.marker = s.parameters := by
  unfold deleteStatement at hs
  split at hs
  · cases hs
  · rename_i keys hkeys
    obtain rfl := Except.ok.inj hs
    have hhead : Plain ("delete from " ++ d.qualify t) := Plain.append (by decide) (Dialect.plain_qualify hd h)
    exact placeholders_where hd h hkeys hhead

theorem placeholders_selectByKey (hs : t.selectByKeyStatement d = .ok s) :
    placeholders s.sql d.marker = s.parameters := by
  unfold selectByKeyStatement at hs
  split at hs
  · cases hs
  · rename_i keys hkeys
    obtain rfl := Except.ok.inj hs
    have hlist : Plain (", ".intercalate (t.columns.map fun c => d.quote c.name)) := by
      refine Plain.intercalate (by decide) fun text htext => ?_
      obtain ⟨c, hc, rfl⟩ := List.mem_map.mp htext
      exact Dialect.plain_quote hd (h.column c hc)
    have hhead : Plain ("select " ++ ", ".intercalate (t.columns.map fun c => d.quote c.name) ++ " from " ++
        d.qualify t) :=
      ((Plain.append (by decide) hlist).append (by decide)).append (Dialect.plain_qualify hd h)
    exact placeholders_where hd h hkeys hhead

end Table

/-! ## All statements on rows -/

def Table.rowStatements (t : Table) (d : Dialect) : List (Except Error Statement) :=
  [.ok (t.insertStatement d), t.updateStatement d, t.deleteStatement d, t.selectByKeyStatement d]

/-- A scan finds the parameters of a statement, each as often as it stands in the text, and a binder has those
that the type has members for, a name of other case counting as a repetition. -/
theorem statement_parameters_found {t : Table} {d : Dialect} {s : Statement} (hd : d ∈ Dialect.builtIn)
    (hnames : t.NamedByWords) (hs : .ok s ∈ t.rowStatements d) :
    placeholders s.sql d.marker = s.parameters ∧
      ∀ info : TypeInfo, (ParameterBinder.compile info s.sql d.marker).names =
        (s.parameters.filter info.hasMember).eraseDupsBy sameName := by
  obtain ⟨m, hmarks⟩ := Dialect.marks_of_builtIn hd
  have hfound : placeholders s.sql d.marker = s.parameters := by
    simp only [Table.rowStatements, List.mem_cons, List.not_mem_nil, or_false] at hs
    obtain hs | hs | hs | hs := hs
    · rw [Except.ok.inj hs]
      exact Table.placeholders_insert hmarks hnames
    · exact Table.placeholders_update hmarks hnames hs.symm
    · exact Table.placeholders_delete hmarks hnames hs.symm
    · exact Table.placeholders_selectByKey hmarks hnames hs.symm
  refine ⟨hfound, fun info => ?_⟩
  rw [ParameterBinder.names_compile, hfound]

def orderLines : Table :=
  { name := ⟨"order_line", false⟩
    columns := [{ name := "order_id", type := .int64 },
      { name := "line", type := .int32 },
      { name := "quantity", type := .int32, member := some ⟨.property, "Amount"⟩ },
      { name := "charged", type := .int32, member := some ⟨.property, "amount"⟩ }]
    primaryKey := some ⟨"pk_order_line", ["LINE", "order_id"]⟩ }

theorem orderLines_namedByWords : orderLines.NamedByWords where
  name := by decide
  schema := by decide
  catalog := by decide
  column := by decide
  member := by decide

/-- Of the parameters of an update, one repeats another in other case and one is no member. -/
theorem order_line_parameters_found :
    let line : TypeInfo :=
      { name := "Line"
        members := [⟨"AMOUNT", .primitive .int32, .property⟩, ⟨"line", .primitive .int32, .property⟩] }
    let sql := "update `order_line` set `quantity` = ?Amount, `charged` = ?amount where `line` = ?line " ++
      "and `order_id` = ?order_id"
    orderLines.updateStatement Dialect.mySql = .ok ⟨sql, ["Amount", "amount", "line", "order_id"]⟩ ∧
      placeholders sql "?" = ["Amount", "amount", "line", "order_id"] ∧
      (ParameterBinder.compile line sql "?").names = ["Amount", "line"] := by
  intro line sql
  have hd : Dialect.mySql ∈ Dialect.builtIn := by simp [Dialect.builtIn]
  have hupdate : orderLines.updateStatement Dialect.mySql =
      .ok ⟨sql, ["Amount", "amount", "line", "order_id"]⟩ := by rfl
  have hs : .ok ⟨sql, ["Amount", "amount", "line", "order_id"]⟩ ∈ orderLines.rowStatements Dialect.mySql := by
    simp [Table.rowStatements, hupdate]
  obtain ⟨hfound, hnames⟩ := statement_parameters_found hd orderLines_namedByWords hs
  exact ⟨hupdate, hfound, (hnames line).trans (by decide)⟩

end SqlMapping
