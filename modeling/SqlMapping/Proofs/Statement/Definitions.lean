import SqlMapping.Proofs.Catalog.Acceptance
import SqlMapping.Proofs.Dialect.Quoting
import SqlMapping.Proofs.Text.Letters
import SqlMapping.Statement.Schema
import Mathlib

/-!
# Columns of keys and indexes

Validation matches the names in a key or an index with columns in any case, and the statements on the schema quote
them as the key or the index spells them. `listed_name_defined_iff`: such a name is among those that the definitions
of the table quote if and only if, quotes taken off, it is the name of a column in the same case.
-/

namespace SqlMapping

/-! ## Names in another case -/

abbrev CaseVariants : List Char → List Char → Prop := List.Forall₂ fun c c' => c.toLower = c'.toLower

theorem caseVariants_of_sameName {a b : String} (h : sameName a b = true) : CaseVariants a.toList b.toList := by
  simp only [sameName_iff, foldCase, String.ofList_inj] at h
  rwa [← List.forall₂_eq_eq_eq, List.forall₂_map_left_iff, List.forall₂_map_right_iff] at h

theorem eq_quote_iff {q c c' : Char} (hq : q.isAlpha = false) (h : c.toLower = c'.toLower) : q = c ↔ q = c' := by
  refine ⟨?_, ?_⟩
  · rintro rfl
    exact eq_of_toLower_eq hq h
  · rintro rfl
    exact eq_of_toLower_eq hq h.symm

theorem isAlpha_quotes {p : Char × Char} (hp : p ∈ quotePairs) : p.1.isAlpha = false ∧ p.2.isAlpha = false := by
  have hall : ∀ p ∈ quotePairs, p.1.isAlpha = false ∧ p.2.isAlpha = false := by decide
  exact hall p hp

theorem CaseVariants.eq_of_replacePair {q : Char} (hq : q.isAlpha = false) (cs : List Char) : ∀ cs' : List Char,
    CaseVariants cs cs' → replacePair q q [q] cs = replacePair q q [q] cs' → cs = cs' := by
  induction cs using replacePair.induct q q with
  | case1 x y cs hpair ih =>
    -- Quotes have no case, so the other text has a doubled quote here too.
    rintro _ (_ | ⟨hx, _ | ⟨hy, hcs⟩⟩) h
    obtain ⟨rfl, rfl⟩ := hpair
    obtain rfl := eq_of_toLower_eq hq hx
    obtain rfl := eq_of_toLower_eq hq hy
    simp only [replacePair, and_self, if_true, List.singleton_append, List.cons.injEq, true_and] at h
    rw [ih _ hcs h]
  | case2 x y cs hpair ih =>
    rintro _ (_ | @⟨_, x', _, _, hx, _ | @⟨_, y', _, cs', hy, hcs⟩⟩) h
    have hpair' : ¬ (x' = q ∧ y' = q) := by
      rwa [@eq_comm _ x, @eq_comm _ y, eq_quote_iff hq hx, eq_quote_iff hq hy, @eq_comm _ q, @eq_comm _ q] at hpair
    rw [replacePair, if_neg hpair, replacePair, if_neg hpair', List.cons.injEq] at h
    rw [h.1, ih (y' :: cs') (.cons hy hcs) h.2]
  | case3 x =>
    rintro _ (_ | ⟨hx, _ | _⟩) h
    exact h
  | case4 =>
    rintro _ (_ | _) h
    rfl

theorem CaseVariants.ends {cs cs' : List Char} (h : CaseVariants cs cs') :
    (splitEnds cs = none ∧ splitEnds cs' = none) ∨
      ∃ first inner last first' inner' last', cs = first :: (inner ++ [last]) ∧
        cs' = first' :: (inner' ++ [last']) ∧ first.toLower = first'.toLower ∧ CaseVariants inner inner' ∧
        last.toLower = last'.toLower := by
  cases h with
  | nil => exact .inl ⟨rfl, rfl⟩
  | @cons first first' rest rest' hfirst hrest =>
    rcases List.eq_nil_or_concat rest' with rfl | ⟨inner', last', rfl⟩
    · cases hrest
      exact .inl ⟨rfl, rfl⟩
    · rw [List.concat_eq_append] at hrest ⊢
      have hinner := List.forall₂_take_append rest inner' [last'] hrest
      have hlast := List.forall₂_drop_append rest inner' [last'] hrest
      obtain ⟨last, _, hlast, hnil, hdrop⟩ := List.forall₂_cons_right_iff.mp hlast
      obtain rfl := List.forall₂_nil_right_iff.mp hnil
      refine .inr ⟨first, _, last, first', inner', last', ?_, rfl, hfirst, hinner, hlast⟩
      rw [← hdrop, List.take_append_drop]

theorem Identifier.name_parse (raw : String) : (Identifier.parse raw).name = (stripQuotes raw).getD raw := by
  unfold Identifier.parse
  cases stripQuotes raw with
  | none => rfl
  | some name => rfl

/-- Names in different case differ without their quotes too. -/
theorem Identifier.eq_of_name_parse {a b : String} (hsame : sameName a b = true)
    (h : (Identifier.parse a).name = (Identifier.parse b).name) : a = b := by
  rw [Identifier.name_parse, Identifier.name_parse] at h
  rcases (caseVariants_of_sameName hsame).ends with
    ⟨ha, hb⟩ | ⟨first, inner, last, first', inner', last', ha, hb, hfirst, hinner, hlast⟩
  · simpa only [stripQuotes, ha, hb, Option.getD_none] using h
  · have hquotes : (quotePairs.find? fun p => p.1 = first ∧ p.2 = last) =
        quotePairs.find? fun p => p.1 = first' ∧ p.2 = last' := by
      refine List.find?_congr fun p hp => ?_
      rw [decide_eq_decide, eq_quote_iff (isAlpha_quotes hp).1 hfirst, eq_quote_iff (isAlpha_quotes hp).2 hlast]
    rw [stripQuotes, stripQuotes, ha, hb, Dialect.splitEnds_between, Dialect.splitEnds_between] at h
    simp only [hquotes] at h
    cases hfind : quotePairs.find? fun p => p.1 = first' ∧ p.2 = last' with
    | none => simpa only [hfind, Option.map_none, Option.getD_none] using h
    | some p =>
      have hp := List.mem_of_find?_eq_some hfind
      have hends := List.find?_some hfind
      simp only [decide_eq_true_eq] at hends
      obtain rfl : first = p.1 := ((eq_quote_iff (isAlpha_quotes hp).1 hfirst).mpr hends.1).symm
      obtain rfl : last = p.2 := ((eq_quote_iff (isAlpha_quotes hp).2 hlast).mpr hends.2).symm
      simp only [hfind, Option.map_some, Option.getD_some, String.ofList_inj] at h
      have heq := hinner.eq_of_replacePair (isAlpha_quotes hp).2 inner inner' h
      rw [← String.ofList_toList (s := a), ← String.ofList_toList (s := b), ha, hb, heq, hends.1, hends.2]

namespace Dialect

theorem quoteBare_inj (d : Dialect) {name name' : String} : d.quoteBare name = d.quoteBare name' ↔ name = name' := by
  refine ⟨fun h => ?_, congrArg d.quoteBare⟩
  have hchars := congrArg String.toList h
  rw [toList_quoteBare, toList_quoteBare, List.cons.injEq, List.append_cancel_right_eq] at hchars
  have hread := congrArg (replacePair d.closeQuote d.closeQuote [d.closeQuote]) hchars.2
  rwa [replacePair_doubled, replacePair_doubled, String.toList_inj] at hread

theorem quote_eq_iff (d : Dialect) {name name' : String} :
    d.quote name = d.quote name' ↔ (Identifier.parse name).name = (Identifier.parse name').name := by
  rw [Identifier.name_parse, Identifier.name_parse]
  exact d.quoteBare_inj

end Dialect

/-! ## Clauses -/

structure ColumnList where
  head : String
  names : List String
  deriving DecidableEq

def ColumnList.text (d : Dialect) (l : ColumnList) : String :=
  l.head ++ ", ".intercalate (l.names.map d.quote) ++ ")"

namespace Table

variable (t : Table) (d : Dialect)

/-- What follows the definitions of the columns: the primary key, unless it is declared with the identity, and the
unique keys. -/
def keyLists : List ColumnList :=
  (if t.hasInlineKey d then []
    else t.primaryKey.toList.map fun key => ⟨constraintName d key.name ++ "primary key (", key.columns⟩) ++
    t.uniqueKeys.map fun key => ⟨constraintName d key.name ++ "unique (", key.columns⟩

def indexList (index : Index) : ColumnList :=
  ⟨"create " ++ (if index.unique then "unique " else "") ++ "index " ++ d.quote index.name ++ " on " ++
    d.qualify t ++ " (", index.columns⟩

/-- The text defines the column: it is its quoted name, a space and more. -/
def Defines (c : Column) (text : String) : Prop := ∃ rest, text = d.quote c.name ++ " " ++ rest

variable {t d}

theorem exists_of_map_eq_ok {x : Except Error String} {f : String → String} {text : String} (h : x.map f = .ok text) :
    ∃ s, x = .ok s ∧ f s = text := by
  cases x with
  | error e => cases h
  | ok s => exact ⟨s, rfl, Except.ok.inj h⟩

theorem identityColumnText_defines {c : Column} {inlineKey : Bool} {text : String}
    (h : identityColumnText d c inlineKey = .ok text) : Defines d c text := by
  unfold identityColumnText at h
  split_ifs at h
  · obtain ⟨ty, -, rfl⟩ := exists_of_map_eq_ok h
    exact ⟨ty ++ " not null", String.append_assoc⟩
  · obtain ⟨definition, -, rfl⟩ := exists_of_map_eq_ok h
    exact ⟨definition, rfl⟩
  · obtain ⟨ty, -, rfl⟩ := exists_of_map_eq_ok h
    exact ⟨ty ++ " not null", String.append_assoc⟩

theorem columnText_defines {c : Column} {inlineKey : Bool} {text : String} (h : columnText d c inlineKey = .ok text) :
    Defines d c text := by
  unfold columnText at h
  by_cases hidentity : c.isIdentity = true
  · rw [if_pos hidentity] at h
    exact identityColumnText_defines h
  · rw [if_neg hidentity] at h
    cases hty : d.columnType c with
    | error e => rw [hty] at h; cases h
    | ok ty =>
      cases hdefault : defaultText d c.default with
      | error e => rw [hty, hdefault] at h; cases h
      | ok default =>
        rw [hty, hdefault] at h
        cases h
        simp only [Defines, String.append_assoc]
        exact ⟨_, rfl⟩

theorem columnTexts_eq_ok_iff {inlineKey : Bool} {cs : List Column} : ∀ {texts : List String},
    columnTexts d inlineKey cs = .ok texts ↔
      List.Forall₂ (fun c text => columnText d c inlineKey = .ok text) cs texts := by
  induction cs with
  | nil =>
    intro texts
    simp [columnTexts, eq_comm]
  | cons c cs ih =>
    intro texts
    rw [columnTexts_cons_eq_ok_iff, List.forall₂_cons_left_iff]
    simp only [ih]

theorem columnTexts_define {inlineKey : Bool} {cs : List Column} {texts : List String}
    (h : columnTexts d inlineKey cs = .ok texts) : List.Forall₂ (Defines d) cs texts :=
  (columnTexts_eq_ok_iff.mp h).imp fun _ _ => columnText_defines

variable (t d)

theorem map_text_keyLists : (t.keyLists d).map (ColumnList.text d) =
    t.primaryKeyTexts d (t.hasInlineKey d) ++ t.uniqueKeys.map (uniqueKeyText d) := by
  unfold keyLists primaryKeyTexts
  rw [List.map_append, List.map_map]
  congr 1
  · cases t.primaryKey with
    | none => simp
    | some key => cases t.hasInlineKey d <;> rfl

theorem createStatement_text {t : Table} {d : Dialect} {sql : String} (h : t.createStatement d = .ok sql) :
    ∃ definitions, List.Forall₂ (Defines d) t.columns definitions ∧
      sql = "create table " ++ d.qualify t ++ " (" ++
        ", ".intercalate (definitions ++ (t.keyLists d).map (ColumnList.text d)) ++ ")" := by
  obtain ⟨definitions, hdefinitions, rfl⟩ := createStatement_eq_ok_iff.mp h
  refine ⟨definitions, columnTexts_define hdefinitions, ?_⟩
  rw [map_text_keyLists, List.append_assoc]

theorem resolves_of_mem_lists {t : Table} (h : t.WellFormed) {d : Dialect} {l : ColumnList}
    (hl : l ∈ t.keyLists d ++ t.indexes.map (t.indexList d)) : t.Resolves l.names := by
  simp only [keyLists, List.mem_append, List.mem_map] at hl
  rcases hl with (hkey | ⟨key, hkey, rfl⟩) | ⟨index, hindex, rfl⟩
  · split_ifs at hkey
    · cases hkey
    · obtain ⟨key, hmem, rfl⟩ := List.mem_map.mp hkey
      exact h.primaryKey key (Option.mem_toList.mp hmem)
  · exact h.uniqueKeys key hkey
  · exact h.indexes index hindex

end Table

/-- The statements that create an accepted table and its indexes quote names of columns in two places, in the
definitions and in the lists of the keys and indexes. Each listed name is found as that of a column, but is quoted as
the column is only if it is spelled so; it is quoted as some definition is if and only if, without the quotes they
may have, the name is that of a column in the same case. -/
theorem listed_name_defined_iff {draft t : Table} (d : Dialect) (ht : draft.build = .ok t) :
    (∀ sql, t.createStatement d = .ok sql → ∃ definitions, List.Forall₂ (Table.Defines d) t.columns definitions ∧
      sql = "create table " ++ d.qualify t ++ " (" ++
        ", ".intercalate (definitions ++ (t.keyLists d).map (ColumnList.text d)) ++ ")") ∧
      (∀ index ∈ t.indexes, t.createIndexStatement d index = (t.indexList d index).text d) ∧
      ∀ l ∈ t.keyLists d ++ t.indexes.map (t.indexList d), l.names ≠ [] ∧ ∀ name ∈ l.names,
        (∃ c ∈ t.columns, t.column? name = some c ∧ (d.quote name = d.quote c.name ↔ name = c.name)) ∧
          (d.quote name ∈ t.columns.map (fun c => d.quote c.name) ↔
            ∃ c ∈ t.columns, (Identifier.parse c.name).name = (Identifier.parse name).name) := by
  obtain ⟨rfl, hformed⟩ := (Table.build_eq_ok_iff draft t).mp ht
  refine ⟨fun sql => Table.createStatement_text, fun index _ => rfl, fun l hl => ?_⟩
  obtain ⟨hne, hnames⟩ := Table.resolves_of_mem_lists hformed hl
  refine ⟨hne, fun name hname => ⟨?_, ?_⟩⟩
  · have hsome := (t.isSome_column?_iff name).mpr (hnames name hname)
    obtain ⟨c, hc⟩ := Option.isSome_iff_exists.mp hsome
    obtain ⟨hmem, hsame⟩ := Table.named_of_column? hc
    refine ⟨c, hmem, hc, fun h => ?_, congrArg d.quote⟩
    rw [sameName_symm] at hsame
    exact Identifier.eq_of_name_parse hsame (d.quote_eq_iff.mp h)
  · simp only [List.mem_map, d.quote_eq_iff]

def invoices : Table :=
  { name := ⟨"invoice", false⟩
    columns := [{ name := "Id", type := .int32 }, { name := "Number", type := .int32 }]
    primaryKey := some ⟨"pk_invoice", ["ID"]⟩
    uniqueKeys := [⟨"uq_invoice", ["Number"]⟩] }

theorem invoices_defined :
    invoices.build = .ok invoices ∧
      Dialect.mySql.quote "ID" ∉ invoices.columns.map (fun c => Dialect.mySql.quote c.name) ∧
      Dialect.mySql.quote "Number" ∈ invoices.columns.map (fun c => Dialect.mySql.quote c.name) := by
  have hbuild : invoices.build = .ok invoices := by rfl
  obtain ⟨-, -, hlists⟩ := listed_name_defined_iff Dialect.mySql hbuild
  have hprimary := (hlists ⟨"constraint `pk_invoice` primary key (", ["ID"]⟩ (by decide)).2 "ID" (by decide)
  have hunique := (hlists ⟨"constraint `uq_invoice` unique (", ["Number"]⟩ (by decide)).2 "Number" (by decide)
  refine ⟨hbuild, ?_, ?_⟩
  · rw [hprimary.2]
    decide
  · rw [hunique.2]
    decide

/-- The table is accepted, and its primary key is on a column that the definitions do not name. -/
theorem key_in_other_case_not_defined :
    let columns : List Column := [{ name := "Id", type := .int32 }]
    let t : Table := { name := ⟨"t", false⟩, columns, primaryKey := some ⟨"pk", ["ID"]⟩ }
    t.build = .ok t ∧
      t.createStatement Dialect.ansi =
        .ok "create table \"t\" (\"Id\" integer not null, constraint \"pk\" primary key (\"ID\"))" ∧
      t.keyLists Dialect.ansi = [⟨"constraint \"pk\" primary key (", ["ID"]⟩] ∧
      Dialect.ansi.quote "ID" = "\"ID\"" ∧
      "\"ID\"" ∉ t.columns.map (fun c => Dialect.ansi.quote c.name) := by
  refine ⟨by rfl, by rfl, by decide, by decide, by decide⟩

end SqlMapping
