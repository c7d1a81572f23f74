import SqlMapping.Dialect.BuiltIn
import SqlMapping.Proofs.Row.Scan
import SqlMapping.Statement.Data

/-!
# Placeholders of statements

`Table.placeholders_insert`: where all names are words, a scan of an insert finds its parameters in order.
-/

namespace SqlMapping

structure Table.NamedByWords (t : Table) : Prop where
  name : IsWord t.name.name
  schema : ∀ i ∈ t.schema, IsWord i.name
  catalog : ∀ i ∈ t.catalog, IsWord i.name
  column : ∀ c ∈ t.columns, IsWord c.name
  member : ∀ c ∈ t.columns, IsWord c.memberName

namespace Dialect

/-- Parameters are marked by the character `m`, which no plain text has, quoted or not. -/
structure Marks (d : Dialect) (m : Char) : Prop where
  marker : d.marker.toList = [m]
  mark : isPlain m = false
  mark_ne : m ≠ '\x27'
  openQuote : isPlain d.openQuote = true
  closeQuote : isPlain d.closeQuote = true

theorem marks_of_builtIn {d : Dialect} (h : d ∈ builtIn) : ∃ m, d.Marks m := by
  simp only [builtIn, List.mem_cons, List.not_mem_nil, or_false] at h
  obtain rfl | rfl | rfl | rfl | rfl | rfl := h
  · exact ⟨':', rfl, rfl, by decide, rfl, rfl⟩
  · exact ⟨':', rfl, rfl, by decide, rfl, rfl⟩
  · exact ⟨'@', rfl, rfl, by decide, rfl, rfl⟩
  · exact ⟨'?', rfl, rfl, by decide, rfl, rfl⟩
  · exact ⟨'@', rfl, rfl, by decide, rfl, rfl⟩
  · exact ⟨':', rfl, rfl, by decide, rfl, rfl⟩

/-! ## Quoted names -/

theorem splitEnds_head {cs inner : List Char} {first last : Char} (h : splitEnds cs = some (first, inner, last)) :
    cs.head? = some first := by
  cases cs with
  | nil => cases h
  | cons c cs =>
    simp only [splitEnds] at h
    split at h
    · cases h
    · cases h; rfl

theorem stripQuotes_word {s : String} (h : IsWord s) : stripQuotes s = none := by
  obtain ⟨c, cs, hs, hc⟩ := h.toList_eq_cons
  rw [stripQuotes]
  split
  · rfl
  · rename_i first inner last hsplit
    have hfirst := splitEnds_head hsplit
    rw [hs] at hfirst
    cases hfirst
    have hnone : ∀ p ∈ quotePairs, isWordChar p.1 = false := by decide
    rw [Option.map_eq_none_iff, List.find?_eq_none]
    intro p hp hends
    have := hnone p hp
    rw [(of_decide_eq_true hends).1, hc] at this
    cases this

section
variable {d : Dialect} {m : Char} (hd : d.Marks m)
include hd

theorem plain_quoteBare {s : String} (h : Plain s) : Plain (d.quoteBare s) := by
  have hclose : (replaceChar d.closeQuote [d.closeQuote, d.closeQuote] s.toList).all isPlain = true := by
    rw [List.all_eq_true]
    intro c hc
    obtain ⟨c', hc', hcase⟩ := List.mem_flatMap.mp hc
    split at hcase
    · have : c = d.closeQuote := by simpa using hcase
      exact this ▸ hd.closeQuote
    · rw [List.mem_singleton.mp hcase]
      exact List.all_eq_true.mp h c' hc'
  simp [Plain, quoteBare, hclose, hd.openQuote, hd.closeQuote]

theorem plain_quote {s : String} (h : IsWord s) : Plain (d.quote s) := by
  rw [quote, stripQuotes_word h]
  exact plain_quoteBare hd h.plain

theorem plain_quoteIdentifier {i : Identifier} (h : IsWord i.name) : Plain (d.quoteIdentifier i) := by
  rw [quoteIdentifier]
  split
  · exact plain_quoteBare hd h.plain
  · exact plain_quote hd h

theorem plain_qualify {t : Table} (h : t.NamedByWords) : Plain (d.qualify t) := by
  refine Plain.intercalate (by decide) fun s hs => ?_
  obtain ⟨i, hi, rfl⟩ := List.mem_map.mp hs
  refine plain_quoteIdentifier hd ?_
  rcases List.mem_append.mp hi with hi | hi
  · rcases List.mem_append.mp hi with hi | hi
    · exact h.catalog i (Option.mem_toList.mp hi)
    · exact h.schema i (Option.mem_toList.mp hi)
  · rw [List.mem_singleton.mp hi]
    exact h.name

theorem finds_parameter {s : String} (h : IsWord s) : Finds m (d.parameter s) [s] :=
  finds_marked hd.mark hd.mark_ne hd.marker h

end

end Dialect

/-! ## Insert -/

namespace Table

variable {t : Table} {d : Dialect}

theorem mem_columns_of_insert {c : Column} (h : c ∈ t.insertColumns) : c ∈ t.columns :=
  (List.mem_filter.mp h).1

theorem parameters_insert (t : Table) (d : Dialect) :
    (t.insertStatement d).parameters = t.insertColumns.map Column.memberName := by
  rw [insertStatement]
  split
  · rename_i hempty
    rw [List.isEmpty_iff.mp hempty]
    rfl
  · rfl

theorem placeholders_insert {m : Char} (hd : d.Marks m) (h : t.NamedByWords) :
    placeholders (t.insertStatement d).sql d.marker = (t.insertStatement d).parameters := by
  have htarget := Dialect.plain_qualify hd h
  rw [insertStatement]
  split
  · have hsql : Plain ("insert into " ++ d.qualify t ++ " default values") :=
      (Plain.append (by decide) htarget).append (by decide)
    exact (hsql.finds hd.mark).placeholders hd.marker
  · have hnames : Plain (", ".intercalate (t.insertColumns.map fun c => d.quote c.name)) := by
      refine Plain.intercalate (by decide) fun s hs => ?_
      obtain ⟨c, hc, rfl⟩ := List.mem_map.mp hs
      exact Dialect.plain_quote hd (h.column c (mem_columns_of_insert hc))
    have hhead : Plain ("insert into " ++ d.qualify t ++ " (" ++
        ", ".intercalate (t.insertColumns.map fun c => d.quote c.name) ++ ") values (") :=
      ((((Plain.append (by decide) htarget).append (by decide)).append hnames).append (by decide))
    have hvalues : Finds m (", ".intercalate (t.insertColumns.map fun c => d.parameter c.memberName))
        (t.insertColumns.map Column.memberName) :=
      finds_intercalate hd.mark (by decide) (by decide) (by decide) fun c hc =>
        Dialect.finds_parameter hd (h.member c (mem_columns_of_insert hc))
    have hclose : Finds m ")" [] := Plain.finds hd.mark (by decide)
    have hsql := (hhead.append_finds hd.mark hvalues).append hclose (by decide)
    rw [List.append_nil] at hsql
    simp only [List.map_map]
    exact hsql.placeholders hd.marker

end Table

end SqlMapping
