import SqlMapping.Proofs.Statement.Definitions

/-!
# Distinct columns of a created table

Validation compares the names of columns as they are written, and the definitions quote them without the quotes that
they are written with. `defined_names_distinct_iff`: the quoted names are distinct if and only if the names without
quotes are, and of two columns that have one name then, one at least is written quoted.
-/

namespace SqlMapping

def DistinctNames (names : List String) : Prop := names.Pairwise fun name name' => sameName name name' = false

instance (names : List String) : Decidable (DistinctNames names) :=
  inferInstanceAs (Decidable (names.Pairwise fun name name' => sameName name name' = false))

/-! ## Quoted names in small letters -/

theorem map_toLower_doubled {q : Char} (hq : q.isAlpha = false) (cs : List Char) :
    (replaceChar q [q, q] cs).map Char.toLower = replaceChar q [q, q] (cs.map Char.toLower) := by
  induction cs with
  | nil => rfl
  | cons c cs ih =>
    rw [replaceChar_cons, List.map_append, ih, List.map_cons, replaceChar_cons]
    by_cases hc : c = q
    · rw [if_pos hc, if_pos ((toLower_eq_iff hq).mpr hc), List.map_cons, List.map_singleton, toLower_of_isAlpha hq]
    · rw [if_neg hc, if_neg (mt (toLower_eq_iff hq).mp hc), List.map_singleton]

namespace Dialect

variable (d : Dialect)

theorem foldCase_quoteBare (hd : d.closeQuote.isAlpha = false) (name : String) :
    foldCase (d.quoteBare name) = { d with openQuote := d.openQuote.toLower }.quoteBare (foldCase name) := by
  rw [← String.toList_inj, toList_foldCase, toList_quoteBare, toList_quoteBare, toList_foldCase, List.map_cons,
    List.map_append, map_toLower_doubled hd, List.map_singleton, toLower_of_isAlpha hd]

/-- A letter that closes names is doubled in its own case alone, and then more names are one in any case. -/
theorem sameName_quote (hd : d.closeQuote.isAlpha = false) (name name' : String) :
    sameName (d.quote name) (d.quote name') = sameName (Identifier.parse name).name (Identifier.parse name').name := by
  rw [Bool.eq_iff_iff, sameName_iff, sameName_iff, Identifier.name_parse, Identifier.name_parse, quote, quote,
    d.foldCase_quoteBare hd, d.foldCase_quoteBare hd]
  exact quoteBare_inj _

end Dialect

/-! ## Columns that are defined -/

theorem Identifier.name_of_not_quoted {raw : String} (h : (Identifier.parse raw).quoted = false) :
    (Identifier.parse raw).name = raw := by
  unfold Identifier.parse at h ⊢
  cases hstrip : stripQuotes raw with
  | none => rfl
  | some name => rw [hstrip] at h; cases h

namespace Table

variable (t : Table)

def quotedNames (d : Dialect) : List String := t.columns.map fun c => d.quote c.name

def bareNames : List String := t.columns.map fun c => (Identifier.parse c.name).name

theorem nodup_quotedNames_iff (d : Dialect) : (t.quotedNames d).Nodup ↔ t.bareNames.Nodup := by
  simp only [quotedNames, bareNames, List.Nodup, List.pairwise_map, ne_eq, d.quote_eq_iff]

theorem distinctNames_quotedNames_iff {d : Dialect} (hd : d.closeQuote.isAlpha = false) :
    DistinctNames (t.quotedNames d) ↔ DistinctNames t.bareNames := by
  simp only [quotedNames, bareNames, DistinctNames, List.pairwise_map, d.sameName_quote hd]

theorem WellFormed.quoted_of_sameName {t : Table} (h : t.WellFormed) :
    t.columns.Pairwise fun c c' => sameName (Identifier.parse c.name).name (Identifier.parse c'.name).name = true →
      (Identifier.parse c.name).quoted = true ∨ (Identifier.parse c'.name).quoted = true := by
  refine h.distinct.imp fun {c c'} hdistinct hsame => ?_
  cases hc : (Identifier.parse c.name).quoted with
  | true => exact .inl rfl
  | false =>
    cases hc' : (Identifier.parse c'.name).quoted with
    | true => exact .inr rfl
    | false =>
      rw [Identifier.name_of_not_quoted hc, Identifier.name_of_not_quoted hc', hdistinct] at hsame
      cases hsame

end Table

/-- The statement that creates an accepted table defines each column under its quoted name. No name is defined twice
if and only if the columns are distinct without their quotes too, also in any case, unless names are closed by a
letter. Columns that are all written without quotes are distinct. -/
theorem defined_names_distinct_iff {draft t : Table} (d : Dialect) (ht : draft.build = .ok t) :
    (∀ sql, t.createStatement d = .ok sql → ∃ definitions, List.Forall₂ (Table.Defines d) t.columns definitions ∧
      sql = "create table " ++ d.qualify t ++ " (" ++
        ", ".intercalate (definitions ++ (t.keyLists d).map (ColumnList.text d)) ++ ")") ∧
      ((t.quotedNames d).Nodup ↔ t.bareNames.Nodup) ∧
      (d.closeQuote.isAlpha = false → (DistinctNames (t.quotedNames d) ↔ DistinctNames t.bareNames)) ∧
      t.columns.Pairwise fun c c' => sameName (Identifier.parse c.name).name (Identifier.parse c'.name).name = true →
        (Identifier.parse c.name).quoted = true ∨ (Identifier.parse c'.name).quoted = true := by
  obtain ⟨rfl, hformed⟩ := (Table.build_eq_ok_iff draft t).mp ht
  refine ⟨fun sql => Table.createStatement_text, t.nodup_quotedNames_iff d, ?_, hformed.quoted_of_sameName⟩
  exact fun hd => t.distinctNames_quotedNames_iff hd

/-- Doubled quotes around a name are quotes of a name that has quotes of its own. -/
theorem doubled_quotes_distinct :
    let columns : List Column := [{ name := "x", type := .int32 }, { name := "\"\"x\"\"", type := .int32 }]
    let t : Table := { name := ⟨"t", false⟩, columns }
    t.build = .ok t ∧ t.quotedNames Dialect.ansi = ["\"x\"", "\"\"\"x\"\"\""] ∧
      DistinctNames (t.quotedNames Dialect.ansi) := by
  intro columns t
  have hbuild : t.build = .ok t := by rfl
  obtain ⟨-, -, hdistinct, -⟩ := defined_names_distinct_iff Dialect.ansi hbuild
  exact ⟨hbuild, by decide, (hdistinct (by decide)).mpr (by decide)⟩

/-- The table is accepted, and its two columns are defined under one name. -/
theorem quoted_column_defined_twice :
    let columns : List Column := [{ name := "x", type := .int32 }, { name := "\"x\"", type := .int32 }]
    let t : Table := { name := ⟨"t", false⟩, columns }
    t.build = .ok t ∧
      t.createStatement Dialect.ansi = .ok "create table \"t\" (\"x\" integer not null, \"x\" integer not null)" ∧
      t.quotedNames Dialect.ansi = ["\"x\"", "\"x\""] ∧ ¬ DistinctNames (t.quotedNames Dialect.ansi) := by
  refine ⟨by rfl, by rfl, by decide, by decide⟩

end SqlMapping
