import SqlMapping.Proofs.Statement.Definitions
import SqlMapping.Statement.Data

/-!
# Identity columns and the primary key

The statement that creates a table can declare the primary key in two places, in the clause of the identity column and
behind the columns. `primary_key_declared_once`: where the dialect says truly whether its clauses declare a key, the
statement declares the key of the table once, and otherwise none but that of a clause.
`omitted_column_generated_iff`: the column that inserts leave out is defined by the clause unless the clause would
declare another key than the table has.
-/

namespace SqlMapping

def Key.IsColumn (key : Key) (c : Column) : Prop := ∃ name, key.columns = [name] ∧ sameName name c.name = true

theorem Key.isColumn_iff (key : Key) (c : Column) :
    key.IsColumn c ↔ key.columns.length = 1 ∧ key.contains c.name = true := by
  rw [List.length_eq_one_iff, IsColumn, contains]
  refine ⟨?_, ?_⟩
  · rintro ⟨name, hname, hsame⟩
    exact ⟨⟨name, hname⟩, by simp [hname, hsame]⟩
  · rintro ⟨⟨name, hname⟩, hsame⟩
    exact ⟨name, hname, by simpa [hname] using hsame⟩

/-! ## Parts of the statement -/

inductive TablePart where
  /-- A column that is defined by its identity clause. -/
  | identity (name clause : String)
  /-- Any other column. -/
  | column (definition : String)
  | primaryKey (key : Key)
  | uniqueKey (key : Key)

namespace TablePart

def text (d : Dialect) : TablePart → String
  | .identity name clause => d.quote name ++ " " ++ clause
  | .column definition => definition
  | .primaryKey key => Table.constraintName d key.name ++ "primary key (" ++ Table.quotedList d key.columns ++ ")"
  | .uniqueKey key => Table.uniqueKeyText d key

/-- The columns that the part declares to be the primary key; `declares` tells which clauses do. -/
def declaredKey? (declares : String → Bool) : TablePart → Option (List String)
  | .identity name clause => if declares clause then some [name] else none
  | .primaryKey key => some key.columns
  | .column _ | .uniqueKey _ => none

end TablePart

namespace Table

def DefinedByClause (d : Dialect) (inlineKey : Bool) (c : Column) : Prop :=
  ∀ clause : Column → Except Error String,
    columnText { d with identityClause := .custom clause } c inlineKey =
      (clause c).map fun text => d.quote c.name ++ " " ++ text

inductive PartOf (d : Dialect) (inlineKey : Bool) (c : Column) : TablePart → Prop
  | clause {clause : String} : DefinedByClause d inlineKey c → d.identityDefinition c = .ok clause →
      PartOf d inlineKey c (.identity c.name clause)
  | plain {definition : String} : ¬ DefinedByClause d inlineKey c → columnText d c inlineKey = .ok definition →
      PartOf d inlineKey c (.column definition)

def keyParts (t : Table) (d : Dialect) : List TablePart :=
  (if t.hasInlineKey d then [] else t.primaryKey.toList.map .primaryKey) ++ t.uniqueKeys.map .uniqueKey

section
variable {d : Dialect} {inlineKey : Bool} {c : Column}

theorem columnText_of_clause (hc : c.isIdentity = true) (hd : d.identityColumns = true)
    (hkey : d.identityIsKey = true → inlineKey = true) :
    columnText d c inlineKey = (d.identityDefinition c).map fun text => d.quote c.name ++ " " ++ text := by
  have hplain : ¬ (d.identityIsKey && !inlineKey) = true := by
    simp only [Bool.and_eq_true, Bool.not_eq_true', not_and]
    intro h
    simp [hkey h]
  rw [columnText, if_pos hc, identityColumnText, if_neg hplain, if_pos hd]

theorem columnText_custom (h : ¬ (c.isIdentity = true ∧ d.identityColumns = true ∧
    (d.identityIsKey = true → inlineKey = true))) (clause : IdentityClause) :
    columnText { d with identityClause := clause } c inlineKey = columnText d c inlineKey := by
  by_cases hc : c.isIdentity = true
  · rw [columnText, if_pos hc, columnText, if_pos hc, identityColumnText, identityColumnText]
    by_cases hplain : (d.identityIsKey && !inlineKey) = true
    · rw [if_pos hplain, if_pos hplain]
      rfl
    · have hd : ¬ d.identityColumns = true := by
        intro hd
        refine h ⟨hc, hd, fun hkey => ?_⟩
        simpa [hkey] using hplain
      rw [if_neg hplain, if_neg hplain, if_neg hd, if_neg hd]
      rfl
  · rw [columnText, if_neg hc, columnText, if_neg hc]
    rfl

theorem definedByClause_iff : DefinedByClause d inlineKey c ↔
    c.isIdentity = true ∧ d.identityColumns = true ∧ (d.identityIsKey = true → inlineKey = true) := by
  refine ⟨fun h => ?_, ?_⟩
  · by_contra hplain
    -- a text that the clause does not change is not that of a clause that fails and of one that does not
    have hok := h fun _ => .ok ""
    have herror := h fun _ => .error (.noPrimaryKey "")
    rw [columnText_custom hplain] at hok herror
    rw [hok] at herror
    cases herror
  · rintro ⟨hc, hd, hkey⟩ clause
    exact columnText_of_clause hc hd hkey

theorem exists_partOf {text : String} (h : columnText d c inlineKey = .ok text) :
    ∃ part, PartOf d inlineKey c part ∧ part.text d = text := by
  by_cases hclause : DefinedByClause d inlineKey c
  · obtain ⟨hc, hd, hkey⟩ := definedByClause_iff.mp hclause
    rw [columnText_of_clause hc hd hkey] at h
    obtain ⟨clause, hdefinition, rfl⟩ := exists_of_map_eq_ok h
    exact ⟨_, .clause hclause hdefinition, rfl⟩
  · exact ⟨_, .plain hclause h, rfl⟩

end

theorem exists_partsOf {d : Dialect} {inlineKey : Bool} {cs : List Column} {texts : List String}
    (h : List.Forall₂ (fun c text => columnText d c inlineKey = .ok text) cs texts) :
    ∃ parts, List.Forall₂ (PartOf d inlineKey) cs parts ∧ parts.map (TablePart.text d) = texts := by
  induction h with
  | nil => exact ⟨[], .nil, rfl⟩
  | cons htext _ ih =>
    obtain ⟨part, hpart, rfl⟩ := exists_partOf htext
    obtain ⟨parts, hparts, rfl⟩ := ih
    exact ⟨part :: parts, .cons hpart hparts, rfl⟩

theorem map_text_keyParts (t : Table) (d : Dialect) : (t.keyParts d).map (TablePart.text d) =
    t.primaryKeyTexts d (t.hasInlineKey d) ++ t.uniqueKeys.map (uniqueKeyText d) := by
  unfold keyParts primaryKeyTexts
  rw [List.map_append, List.map_map]
  congr 1
  cases t.primaryKey with
  | none => simp
  | some key => cases t.hasInlineKey d <;> rfl

theorem createStatement_parts {t : Table} {d : Dialect} {sql : String} (h : t.createStatement d = .ok sql) :
    ∃ parts, List.Forall₂ (PartOf d (t.hasInlineKey d)) t.columns parts ∧
      sql = "create table " ++ d.qualify t ++ " (" ++
        ", ".intercalate ((parts ++ t.keyParts d).map (TablePart.text d)) ++ ")" := by
  obtain ⟨definitions, hdefinitions, rfl⟩ := createStatement_eq_ok_iff.mp h
  obtain ⟨parts, hparts, rfl⟩ := exists_partsOf (columnTexts_eq_ok_iff.mp hdefinitions)
  refine ⟨parts, hparts, ?_⟩
  rw [List.map_append, map_text_keyParts, List.append_assoc]

theorem exists_mem_of_forall₂ {α β : Type} {R : α → β → Prop} {xs : List α} {ys : List β} (h : List.Forall₂ R xs ys)
    {x : α} (hx : x ∈ xs) : ∃ y ∈ ys, R x y := by
  induction h with
  | nil => cases hx
  | cons hR _ ih =>
    rcases List.mem_cons.mp hx with rfl | hx
    · exact ⟨_, List.mem_cons_self, hR⟩
    · obtain ⟨y, hy, hR⟩ := ih hx
      exact ⟨y, List.mem_cons_of_mem _ hy, hR⟩

section
variable {d : Dialect} {inlineKey : Bool} {cs : List Column} {parts : List TablePart}
  (h : List.Forall₂ (PartOf d inlineKey) cs parts) {c : Column} (hc : c ∈ cs) (hidentity : c.isIdentity = true)
include h hc hidentity

theorem identity_mem_parts_iff {clause : String} (hclause : d.identityDefinition c = .ok clause) :
    .identity c.name clause ∈ parts ↔ d.identityColumns = true ∧ (d.identityIsKey = true → inlineKey = true) := by
  refine ⟨fun hpart => ?_, fun hd => ?_⟩
  · obtain ⟨c', -, hpart⟩ := exists_mem_of_forall₂ h.flip hpart
    generalize hname : TablePart.identity c.name clause = part at hpart
    cases hpart with
    | clause hclause' => exact (definedByClause_iff.mp hclause').2
    | plain => cases hname
  · obtain ⟨part, hmem, hpart⟩ := exists_mem_of_forall₂ h hc
    cases hpart with
    | clause _ hclause' =>
      rw [hclause] at hclause'
      cases hclause'
      exact hmem
    | plain hplain => exact absurd (definedByClause_iff.mpr ⟨hidentity, hd⟩) hplain

theorem exists_plain_mem_parts (hkey : d.identityIsKey = true) (hinline : inlineKey = false) :
    ∃ type, d.typeName .identity = .ok type ∧ .column (d.quote c.name ++ " " ++ type ++ " not null") ∈ parts := by
  obtain ⟨part, hmem, hpart⟩ := exists_mem_of_forall₂ h hc
  cases hpart with
  | clause hclause =>
    have := (definedByClause_iff.mp hclause).2.2 hkey
    rw [hinline] at this
    cases this
  | plain _ htext =>
    rw [columnText, if_pos hidentity, identityColumnText, hkey, hinline] at htext
    obtain ⟨type, htype, rfl⟩ := exists_of_map_eq_ok htext
    exact ⟨type, htype, hmem⟩

end

/-! ## Declared keys -/

theorem hasInlineKey_iff (t : Table) (d : Dialect) : t.hasInlineKey d = true ↔ ∀ key, t.primaryKey = some key →
    d.identityColumns = true ∧ d.identityIsKey = true ∧ ∃ c, t.identityColumn? = some c ∧ key.IsColumn c := by
  unfold hasInlineKey
  cases t.primaryKey with
  | none => simp
  | some key =>
    cases t.identityColumn? with
    | none => simp
    | some c => simp [key.isColumn_iff c, and_assoc]

section
variable {d : Dialect} {declares : String → Bool}
  (hd : ∀ c clause, d.identityDefinition c = .ok clause → declares clause = d.identityIsKey)
include hd

theorem PartOf.declaredKey?_eq {inlineKey : Bool} {c : Column} {part : TablePart} (h : PartOf d inlineKey c part) :
    part.declaredKey? declares =
      if d.identityColumns && d.identityIsKey && inlineKey && c.isIdentity then some [c.name] else none := by
  cases h with
  | clause hclause hdefinition =>
    obtain ⟨hc, hcolumns, hkey⟩ := definedByClause_iff.mp hclause
    rw [TablePart.declaredKey?, hd c _ hdefinition, hc, hcolumns]
    cases hIsKey : d.identityIsKey with
    | false => simp
    | true => simp [hkey hIsKey]
  | plain hplain =>
    rw [definedByClause_iff] at hplain
    rw [TablePart.declaredKey?, if_neg]
    simp only [Bool.and_eq_true]
    rintro ⟨⟨⟨hcolumns, -⟩, hinline⟩, hc⟩
    exact hplain ⟨hc, hcolumns, fun _ => hinline⟩

theorem declaredKeys_parts {inlineKey : Bool} {cs : List Column} {parts : List TablePart}
    (h : List.Forall₂ (PartOf d inlineKey) cs parts) :
    parts.filterMap (TablePart.declaredKey? declares) =
      if d.identityColumns && d.identityIsKey && inlineKey then
        (cs.filter Column.isIdentity).map fun c => [c.name]
      else [] := by
  induction h with
  | nil => simp
  | @cons c part cs parts hpart _ ih =>
    rw [List.filterMap_cons, hpart.declaredKey?_eq hd, ih]
    cases d.identityColumns && d.identityIsKey && inlineKey with
    | false => simp
    | true => cases hc : c.isIdentity <;> simp [hc]

end

theorem declaredKeys_keyParts (t : Table) (d : Dialect) (declares : String → Bool) :
    (t.keyParts d).filterMap (TablePart.declaredKey? declares) =
      if t.hasInlineKey d then [] else t.primaryKey.toList.map Key.columns := by
  have hunique : (t.uniqueKeys.map TablePart.uniqueKey).filterMap (TablePart.declaredKey? declares) = [] := by
    simp [TablePart.declaredKey?]
  rw [keyParts, List.filterMap_append, hunique, List.append_nil]
  cases t.hasInlineKey d with
  | true => rfl
  | false => cases t.primaryKey <;> rfl

theorem filter_eq_toList_find? {α : Type} {p : α → Bool} {xs : List α} (h : xs.countP p ≤ 1) :
    xs.filter p = (xs.find? p).toList := by
  induction xs with
  | nil => rfl
  | cons x xs ih =>
    by_cases hx : p x = true
    · rw [List.countP_cons_of_pos hx] at h
      have hnone : xs.countP p = 0 := by omega
      rw [List.filter_cons_of_pos hx, List.find?_cons_of_pos hx, List.filter_eq_nil_iff.mpr (List.countP_eq_zero.mp hnone)]
      rfl
    · rw [List.countP_cons_of_neg hx] at h
      rw [List.filter_cons_of_neg hx, List.find?_cons_of_neg hx, ih h]

theorem WellFormed.declaredKeys {t : Table} (h : t.WellFormed) {d : Dialect} {declares : String → Bool}
    (hd : ∀ c clause, d.identityDefinition c = .ok clause → declares clause = d.identityIsKey) {parts : List TablePart}
    (hparts : List.Forall₂ (PartOf d (t.hasInlineKey d)) t.columns parts) :
    (parts ++ t.keyParts d).filterMap (TablePart.declaredKey? declares) =
      if t.hasInlineKey d then
        if d.identityColumns && d.identityIsKey then t.identityColumn?.toList.map fun c => [c.name] else []
      else t.primaryKey.toList.map Key.columns := by
  rw [List.filterMap_append, declaredKeys_parts hd hparts, declaredKeys_keyParts, filter_eq_toList_find? h.identity]
  cases t.hasInlineKey d with
  | true => simp [identityColumn?]
  | false => simp

end Table

/-! ## Identity clauses of the built-in dialects -/

def namesPrimaryKey (clause : String) : Bool := decide ("primary key".toList <:+: clause.toList)

theorem Dialect.exists_clause_of_builtIn {d : Dialect} (hd : d ∈ builtIn) (c : Column) :
    ∃ clause, d.identityDefinition c = .ok clause ∧ namesPrimaryKey clause = d.identityIsKey := by
  simp only [builtIn, List.mem_cons, List.not_mem_nil, or_false] at hd
  obtain rfl | rfl | rfl | rfl | rfl | rfl := hd
  · exact ⟨"integer generated by default as identity", rfl, by decide⟩
  · cases hwide : isWide c with
    | true => exact ⟨"bigserial", by rw [identityDefinition, hwide]; rfl, by decide⟩
    | false => exact ⟨"serial", by rw [identityDefinition, hwide]; rfl, by decide⟩
  · cases hwide : isWide c with
    | true => exact ⟨"bigint identity(1,1)", by rw [identityDefinition, hwide]; rfl, by decide⟩
    | false => exact ⟨"int identity(1,1)", by rw [identityDefinition, hwide]; rfl, by decide⟩
  · cases hwide : isWide c with
    | true => exact ⟨"bigint not null auto_increment", by rw [identityDefinition, hwide]; rfl, by decide⟩
    | false => exact ⟨"integer not null auto_increment", by rw [identityDefinition, hwide]; rfl, by decide⟩
  · exact ⟨"integer primary key autoincrement", rfl, by decide⟩
  · exact ⟨"number(10,0) generated by default as identity", rfl, by decide⟩

theorem Dialect.namesPrimaryKey_of_builtIn {d : Dialect} (hd : d ∈ builtIn) (c : Column) (clause : String)
    (h : d.identityDefinition c = .ok clause) : namesPrimaryKey clause = d.identityIsKey := by
  obtain ⟨clause', h', hnames⟩ := exists_clause_of_builtIn hd c
  rw [h] at h'
  cases h'
  exact hnames

/-! ## The statement as a whole -/

/-- Where a dialect says truly whether its identity clauses declare the primary key, the statement declares the key of
the table once, with the columns of the key. For a table without a key, it declares the identity column to be the key
if a clause does, and none otherwise. -/
theorem primary_key_declared_once {draft t : Table} {d : Dialect} {declares : String → Bool}
    (ht : draft.build = .ok t)
    (hd : ∀ c clause, d.identityDefinition c = .ok clause → declares clause = d.identityIsKey) {sql : String}
    (h : t.createStatement d = .ok sql) :
    ∃ parts, List.Forall₂ (Table.PartOf d (t.hasInlineKey d)) t.columns parts ∧
      sql = "create table " ++ d.qualify t ++ " (" ++
        ", ".intercalate ((parts ++ t.keyParts d).map (TablePart.text d)) ++ ")" ∧
      (∀ key, t.primaryKey = some key →
        ∃ names, (parts ++ t.keyParts d).filterMap (TablePart.declaredKey? declares) = [names] ∧
          List.Forall₂ (fun name name' => sameName name name' = true) names key.columns) ∧
      (t.primaryKey = none →
        (parts ++ t.keyParts d).filterMap (TablePart.declaredKey? declares) =
          if d.identityColumns && d.identityIsKey then t.identityColumn?.toList.map fun c => [c.name] else []) := by
  obtain ⟨rfl, hformed⟩ := (Table.build_eq_ok_iff draft t).mp ht
  obtain ⟨parts, hparts, hsql⟩ := Table.createStatement_parts h
  have hdeclared := hformed.declaredKeys hd hparts
  refine ⟨parts, hparts, hsql, fun key hkey => ?_, fun hnone => ?_⟩
  · cases hinline : t.hasInlineKey d with
    | false =>
      refine ⟨key.columns, ?_, List.forall₂_same.mpr fun name _ => sameName_refl name⟩
      rw [hdeclared, hinline, hkey]
      rfl
    | true =>
      obtain ⟨hcolumns, hisKey, c, hc, name, hname, hsame⟩ := (t.hasInlineKey_iff d).mp hinline key hkey
      refine ⟨[c.name], ?_, ?_⟩
      · rw [hdeclared, hinline, hcolumns, hisKey, hc]
        rfl
      · rw [hname, List.forall₂_cons, sameName_symm]
        exact ⟨hsame, .nil⟩
  · have hinline : t.hasInlineKey d = true := (t.hasInlineKey_iff d).mpr fun key hkey => by simp [hnone] at hkey
    rw [hdeclared, hinline, if_pos rfl]

def journal : Table :=
  { name := ⟨"journal", false⟩
    columns := [{ name := "id", type := .identity }, { name := "line", type := .string }]
    primaryKey := some ⟨"pk_journal", ["ID"]⟩ }

theorem journal_key_declared :
    journal.build = .ok journal ∧
      (∀ c clause, Dialect.sqlite.identityDefinition c = .ok clause →
        namesPrimaryKey clause = Dialect.sqlite.identityIsKey) ∧
      journal.createStatement Dialect.sqlite =
        .ok "create table \"journal\" (\"id\" integer primary key autoincrement, \"line\" text not null)" ∧
      ∃ parts, List.Forall₂ (Table.PartOf Dialect.sqlite true) journal.columns parts ∧
        ∃ names, (parts ++ journal.keyParts Dialect.sqlite).filterMap (TablePart.declaredKey? namesPrimaryKey) =
            [names] ∧
          List.Forall₂ (fun name name' => sameName name name' = true) names ["ID"] := by
  have hbuild : journal.build = .ok journal := by rfl
  have hd : Dialect.sqlite ∈ Dialect.builtIn := by simp [Dialect.builtIn]
  have hclause := Dialect.namesPrimaryKey_of_builtIn hd
  have hcreate : journal.createStatement Dialect.sqlite =
      .ok "create table \"journal\" (\"id\" integer primary key autoincrement, \"line\" text not null)" := by rfl
  obtain ⟨parts, hparts, -, hkey, -⟩ := primary_key_declared_once hbuild hclause hcreate
  exact ⟨hbuild, hclause, hcreate, parts, hparts, hkey _ rfl⟩

/-- In the built-in dialects that have identity columns, the column that inserts leave out is defined by its identity
clause unless the clause declares a primary key and the table has another one. Then the column is a plain one, and
nothing gives it a value. -/
theorem omitted_column_generated_iff {draft t : Table} {d : Dialect} (ht : draft.build = .ok t)
    (hd : d ∈ Dialect.builtIn) (hidentity : d.identityColumns = true) {c : Column} (hc : c ∈ t.columns)
    (homitted : c ∉ t.insertColumns) :
    ∃ clause, d.identityDefinition c = .ok clause ∧ ∀ sql, t.createStatement d = .ok sql →
      ∃ parts, List.Forall₂ (Table.PartOf d (t.hasInlineKey d)) t.columns parts ∧
        sql = "create table " ++ d.qualify t ++ " (" ++
          ", ".intercalate ((parts ++ t.keyParts d).map (TablePart.text d)) ++ ")" ∧
        (TablePart.identity c.name clause ∈ parts ↔
          (d.identityIsKey = true → ∀ key, t.primaryKey = some key → key.IsColumn c)) ∧
        (TablePart.identity c.name clause ∉ parts → ∃ type, d.typeName .identity = .ok type ∧
          TablePart.column (d.quote c.name ++ " " ++ type ++ " not null") ∈ parts) := by
  obtain ⟨rfl, hformed⟩ := (Table.build_eq_ok_iff draft t).mp ht
  have hidentity' : c.isIdentity = true := by
    simpa [Table.insertColumns, hc] using homitted
  have hfind := (Table.identityColumn?_eq_some_iff hformed.identity c).mpr ⟨hc, hidentity'⟩
  obtain ⟨clause, hclause, -⟩ := Dialect.exists_clause_of_builtIn hd c
  refine ⟨clause, hclause, fun sql h => ?_⟩
  obtain ⟨parts, hparts, hsql⟩ := Table.createStatement_parts h
  have hmem := Table.identity_mem_parts_iff hparts hc hidentity' hclause
  refine ⟨parts, hparts, hsql, ?_, fun hnot => ?_⟩
  · rw [hmem, and_iff_right hidentity]
    refine forall_congr' fun hkey => ?_
    rw [Table.hasInlineKey_iff]
    simp [hidentity, hkey, hfind]
  · rw [hmem, and_iff_right hidentity, Classical.not_imp, Bool.not_eq_true] at hnot
    exact Table.exists_plain_mem_parts hparts hc hidentity' hnot.1 hnot.2

def ledger : Table :=
  { name := ⟨"ledger", false⟩
    columns := [{ name := "id", type := .identity }, { name := "code", type := .string }]
    primaryKey := some ⟨"pk_ledger", ["id", "code"]⟩ }

/-- Another dialect than that of a clause with a key keeps the clause beside any key. -/
theorem ledger_identity_generated :
    let id : Column := { name := "id", type := .identity }
    ledger.build = .ok ledger ∧ Dialect.postgres ∈ Dialect.builtIn ∧ Dialect.postgres.identityColumns = true ∧
      id ∈ ledger.columns ∧ id ∉ ledger.insertColumns ∧
      Dialect.postgres.identityDefinition id = .ok "serial" ∧
      ∃ parts, List.Forall₂ (Table.PartOf Dialect.postgres false) ledger.columns parts ∧
        .identity "id" "serial" ∈ parts := by
  intro id
  have hbuild : ledger.build = .ok ledger := by rfl
  have hd : Dialect.postgres ∈ Dialect.builtIn := by simp [Dialect.builtIn]
  have hmem : id ∈ ledger.columns := by decide
  have homitted : id ∉ ledger.insertColumns := by decide
  have hclause : Dialect.postgres.identityDefinition id = .ok "serial" := by rfl
  obtain ⟨clause, hclause', hcreate⟩ := omitted_column_generated_iff hbuild hd rfl hmem homitted
  rw [hclause] at hclause'
  cases hclause'
  obtain ⟨parts, hparts, -, hiff, -⟩ := hcreate _ (by rfl)
  refine ⟨hbuild, hd, rfl, hmem, homitted, hclause, parts, hparts, hiff.mpr fun hkey => ?_⟩
  cases hkey

/-- Inserts leave out the identity column, which is not null and has nothing that gives it a value. -/
theorem omitted_column_not_generated :
    let id : Column := { name := "id", type := .identity }
    let code : Column := { name := "code", type := .string }
    ledger.build = .ok ledger ∧ Dialect.sqlite ∈ Dialect.builtIn ∧ Dialect.sqlite.identityColumns = true ∧
      ledger.columns = [id, code] ∧ ledger.insertColumns = [code] ∧
      ledger.insertStatement Dialect.sqlite = ⟨"insert into \"ledger\" (\"code\") values (@code)", ["code"]⟩ ∧
      Dialect.sqlite.identityDefinition id = .ok "integer primary key autoincrement" ∧
      ¬ Table.DefinedByClause Dialect.sqlite (ledger.hasInlineKey Dialect.sqlite) id ∧
      ledger.createStatement Dialect.sqlite =
        .ok ("create table \"ledger\" (\"id\" integer not null, \"code\" text not null, " ++
          "constraint \"pk_ledger\" primary key (\"id\", \"code\"))") := by
  refine ⟨by rfl, by simp [Dialect.builtIn], rfl, rfl, by decide, by decide, by rfl, ?_, by rfl⟩
  rw [Table.definedByClause_iff]
  rintro ⟨-, -, hkey⟩
  cases hkey rfl

end SqlMapping
