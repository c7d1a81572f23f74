import SqlMapping.Proofs.Criteria.Literals

/-!
# Text literals

A text literal stands between apostrophes, and one inside is doubled. In MySQL a backslash makes the next character
stand for itself as well. `text_literal_reads_back`: every database has every text back from its literal, and stops
behind the last apostrophe.
-/

namespace SqlMapping

namespace Dialect

def escapesText (d : Dialect) : Bool := d.name == "mysql"

def readText (d : Dialect) (s : String) : Option (String × String) :=
  match s.toList with
  | [] => none
  | c :: cs =>
    if c = '\x27' then (readQuoted d.escapesText cs).map fun r => (String.ofList r.1, String.ofList r.2) else none

/-- Backslashes are doubled where the database takes them for escapes, and nowhere else. -/
theorem doubleBackslash_eq {d : Dialect} (h : d ∈ builtIn) : d.doubleBackslash = d.escapesText := by
  have hall : ∀ d ∈ builtIn, d.doubleBackslash = d.escapesText := by
    simp only [builtIn, List.forall_mem_cons]
    decide
  exact hall d h

theorem readText_stringLiteral {d : Dialect} (h : d.doubleBackslash = d.escapesText) (s : String) {rest : String}
    (hrest : rest.toList.head? ≠ some '\x27') : d.readText (d.stringLiteral s ++ rest) = some (s, rest) := by
  obtain ⟨cs, hcs, hread⟩ := readQuoted_stringLiteral hrest d s
  rw [h] at hread
  rw [← String.toList_append] at hcs
  simp only [readText, hcs, if_true, hread, Option.map_some, String.ofList_toList]

theorem readText_whole {d : Dialect} (hd : d ∈ builtIn) (s : String) :
    d.readText (d.stringLiteral s) = some (s, "") := by
  have h : d.readText (d.stringLiteral s ++ "") = some (s, "") :=
    readText_stringLiteral (doubleBackslash_eq hd) s (by decide)
  rwa [String.append_empty] at h

end Dialect

/-- The last apostrophe of a literal ends it, at the end of a text and before anything but one more apostrophe, and what
was read is the text that was written, so that no two texts have the same literal. -/
theorem text_literal_reads_back {d : Dialect} (hd : d ∈ Dialect.builtIn) (s : String) :
    (∀ rest : String, rest.toList.head? ≠ some '\x27' → d.readText (d.stringLiteral s ++ rest) = some (s, rest)) ∧
      d.readText (d.stringLiteral s) = some (s, "") ∧
      ∀ s' : String, d.stringLiteral s = d.stringLiteral s' → s = s' := by
  have hread : ∀ s rest : String, rest.toList.head? ≠ some '\x27' →
      d.readText (d.stringLiteral s ++ rest) = some (s, rest) :=
    fun s _ hrest => Dialect.readText_stringLiteral (Dialect.doubleBackslash_eq hd) s hrest
  have hend : ∀ s, d.readText (d.stringLiteral s) = some (s, "") := by
    intro s
    have h := hread s "" (by decide)
    rwa [String.append_empty] at h
  refine ⟨hread s, hend s, fun s' heq => ?_⟩
  have h := hend s
  rw [heq, hend s'] at h
  cases h
  rfl

/-- A backslash before an apostrophe does not set it free. -/
theorem backslash_and_apostrophe_read_back :
    Dialect.mySql.stringLiteral "\\' or 1=1 #" = "'\\\\'' or 1=1 #'" ∧
      Dialect.mySql.readText "'\\\\'' or 1=1 #'" = some ("\\' or 1=1 #", "") ∧
      Dialect.mySql.readText "'\\\\'' or 1=1 #' and id = 1" = some ("\\' or 1=1 #", " and id = 1") := by
  have hd : Dialect.mySql ∈ Dialect.builtIn := by simp [Dialect.builtIn]
  have htext : Dialect.mySql.stringLiteral "\\' or 1=1 #" = "'\\\\'' or 1=1 #'" := by decide
  obtain ⟨hread, hend, -⟩ := text_literal_reads_back hd "\\' or 1=1 #"
  rw [htext] at hread hend
  exact ⟨htext, hend, hread " and id = 1" (by decide)⟩

end SqlMapping
