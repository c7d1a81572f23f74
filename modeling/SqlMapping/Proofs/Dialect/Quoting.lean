import SqlMapping.Dialect.BuiltIn

/-!
# Quoted names

A quoted name is a delimited identifier: an opening quote, text in which a closing quote is doubled, and a closing
quote alone. `quoted_name_reads_back`: a reader of delimited identifiers has every name back and stops behind its
last quote, and so does the one that takes quotes off, whatever quotes the name holds itself.
-/

namespace SqlMapping

theorem replaceChar_cons (q x : Char) (r xs : List Char) :
    replaceChar q r (x :: xs) = (if x = q then r else [x]) ++ replaceChar q r xs := rfl

theorem replacePair_cons_of_ne {a x : Char} (h : x ≠ a) (b : Char) (r xs : List Char) :
    replacePair a b r (x :: xs) = x :: replacePair a b r xs := by
  cases xs with
  | nil => rfl
  | cons y ys => rw [replacePair, if_neg fun hboth => h hboth.1]

/-- Pairs are taken from the left and do not overlap, so a run of doubled characters is halved. -/
theorem replacePair_doubled (q : Char) (cs : List Char) :
    replacePair q q [q] (replaceChar q [q, q] cs) = cs := by
  induction cs with
  | nil => rfl
  | cons c cs ih =>
    rw [replaceChar_cons]
    by_cases hc : c = q
    · rw [if_pos hc, hc]
      show replacePair q q [q] (q :: q :: replaceChar q [q, q] cs) = q :: cs
      rw [replacePair, if_pos ⟨rfl, rfl⟩, ih]
      rfl
    · rw [if_neg hc]
      show replacePair q q [q] (c :: replaceChar q [q, q] cs) = c :: cs
      rw [replacePair_cons_of_ne hc, ih]

/-! ## Delimited identifiers -/

/-- The text before the first `q` that stands alone, with one `q` for each doubled one, and what is behind it. -/
def readDelimited (q : Char) : List Char → Option (List Char × List Char)
  | [] => none
  | [c] => if c = q then some ([], []) else none
  | c :: c' :: cs =>
    if c = q then
      if c' = q then (readDelimited q cs).map fun r => (q :: r.1, r.2) else some ([], c' :: cs)
    else (readDelimited q (c' :: cs)).map fun r => (c :: r.1, r.2)

theorem readDelimited_cons_of_ne {q c : Char} (h : c ≠ q) (cs : List Char) :
    readDelimited q (c :: cs) = (readDelimited q cs).map fun r => (c :: r.1, r.2) := by
  cases cs with
  | nil => simp [readDelimited, h]
  | cons c' cs => rw [readDelimited, if_neg h]

theorem readDelimited_of_end {q : Char} {rest : List Char} (hrest : rest.head? ≠ some q) :
    readDelimited q (q :: rest) = some ([], rest) := by
  cases rest with
  | nil => rw [readDelimited, if_pos rfl]
  | cons c rest =>
    have hc : c ≠ q := fun h => hrest (congrArg some h)
    rw [readDelimited, if_pos rfl, if_neg hc]

theorem readDelimited_doubled {q : Char} {rest : List Char} (hrest : rest.head? ≠ some q) (cs : List Char) :
    readDelimited q (replaceChar q [q, q] cs ++ q :: rest) = some (cs, rest) := by
  induction cs with
  | nil => exact readDelimited_of_end hrest
  | cons c cs ih =>
    rw [replaceChar_cons, List.append_assoc]
    by_cases hc : c = q
    · rw [if_pos hc, hc]
      show readDelimited q (q :: q :: (replaceChar q [q, q] cs ++ q :: rest)) = some (q :: cs, rest)
      rw [readDelimited, if_pos rfl, if_pos rfl, ih]
      rfl
    · rw [if_neg hc]
      show readDelimited q (c :: (replaceChar q [q, q] cs ++ q :: rest)) = some (c :: cs, rest)
      rw [readDelimited_cons_of_ne hc, ih]
      rfl

namespace Dialect

def readName (d : Dialect) (s : String) : Option (String × String) :=
  match s.toList with
  | [] => none
  | c :: cs =>
    if c = d.openQuote then
      (readDelimited d.closeQuote cs).map fun r => (String.ofList r.1, String.ofList r.2)
    else none

theorem toList_quoteBare (d : Dialect) (s : String) :
    (d.quoteBare s).toList =
      d.openQuote :: (replaceChar d.closeQuote [d.closeQuote, d.closeQuote] s.toList ++ [d.closeQuote]) := by
  simp [quoteBare]

theorem readName_quoteBare (d : Dialect) (name : String) {rest : String}
    (hrest : rest.toList.head? ≠ some d.closeQuote) :
    d.readName (d.quoteBare name ++ rest) = some (name, rest) := by
  have htext : (d.quoteBare name ++ rest).toList = d.openQuote ::
      (replaceChar d.closeQuote [d.closeQuote, d.closeQuote] name.toList ++ d.closeQuote :: rest.toList) := by
    rw [String.toList_append, toList_quoteBare, List.cons_append, List.append_assoc]
    rfl
  simp only [readName, htext, if_pos, readDelimited_doubled hrest, Option.map_some, String.ofList_toList]

/-! ## Taking quotes off -/

theorem quotes_recognised {d : Dialect} (h : d ∈ builtIn) : (d.openQuote, d.closeQuote) ∈ quotePairs := by
  have hall : ∀ d ∈ builtIn, (d.openQuote, d.closeQuote) ∈ quotePairs := by
    simp only [builtIn, List.forall_mem_cons]
    decide
  exact hall d h

theorem find?_quotePairs {p : Char × Char} (h : p ∈ quotePairs) :
    quotePairs.find? (fun q => q.1 = p.1 ∧ q.2 = p.2) = some p := by
  have hall : ∀ p ∈ quotePairs, quotePairs.find? (fun q => q.1 = p.1 ∧ q.2 = p.2) = some p := by decide
  exact hall p h

theorem splitEnds_between (first last : Char) (inner : List Char) :
    splitEnds (first :: (inner ++ [last])) = some (first, inner, last) := by
  simp [splitEnds]

variable {d : Dialect} (h : (d.openQuote, d.closeQuote) ∈ quotePairs)
include h

theorem stripQuotes_quoteBare (name : String) : stripQuotes (d.quoteBare name) = some name := by
  rw [stripQuotes, toList_quoteBare, splitEnds_between]
  simp only [find?_quotePairs h, Option.map_some, replacePair_doubled, String.ofList_toList]

theorem parse_quoteBare (name : String) : Identifier.parse (d.quoteBare name) = ⟨name, true⟩ := by
  rw [Identifier.parse, stripQuotes_quoteBare h]

/-- Quotes of any dialect are taken off before those of `d'` are put on. -/
theorem quote_quote (d' : Dialect) (name : String) : d'.quote (d.quote name) = d'.quote name := by
  have hbare : stripQuotes (d.quote name) = some ((stripQuotes name).getD name) := stripQuotes_quoteBare h _
  rw [quote, hbare]
  rfl

end Dialect

/-- A quoted name is read back, and its last character ends it, at the end of a text and before anything but one
more closing quote. Its quotes come off with nothing else, and quoting it again puts other quotes in their place. -/
theorem quoted_name_reads_back {d : Dialect} (hd : d ∈ Dialect.builtIn) (d' : Dialect) (name : String) :
    (∀ rest : String, rest.toList.head? ≠ some d.closeQuote →
      d.readName (d.quoteBare name ++ rest) = some (name, rest)) ∧
      stripQuotes (d.quoteBare name) = some name ∧
      Identifier.parse (d.quoteBare name) = ⟨name, true⟩ ∧
      d'.quote (d.quote name) = d'.quote name := by
  have hquotes := Dialect.quotes_recognised hd
  refine ⟨fun rest hrest => d.readName_quoteBare name hrest, ?_, ?_, ?_⟩
  · exact Dialect.stripQuotes_quoteBare hquotes name
  · exact Dialect.parse_quoteBare hquotes name
  · exact Dialect.quote_quote hquotes d' name

/-- A name of closing quotes does not end early, and nothing of it is lost in other quotes. -/
theorem closing_quotes_read_back :
    Dialect.sqlServer.quoteBare "a]]" = "[a]]]]]" ∧
      Dialect.sqlServer.readName "[a]]]]]" = some ("a]]", "") ∧
      Dialect.sqlServer.readName "[a]]]]] = @p" = some ("a]]", " = @p") ∧
      stripQuotes "[a]]]]]" = some "a]]" ∧
      Dialect.mySql.quote "[a]]]]]" = "`a]]`" := by
  have hd : Dialect.sqlServer ∈ Dialect.builtIn := by simp [Dialect.builtIn]
  have htext : Dialect.sqlServer.quoteBare "a]]" = "[a]]]]]" := by decide
  obtain ⟨hread, hstrip, -, hquote⟩ := quoted_name_reads_back hd Dialect.mySql "a]]"
  rw [htext] at hread hstrip
  refine ⟨htext, hread "" (by decide), hread " = @p" (by decide), hstrip, ?_⟩
  exact hquote.trans (by decide)

end SqlMapping
