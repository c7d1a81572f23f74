import SqlMapping.Proofs.Dialect.Quoting
import SqlMapping.Proofs.Row.Scan

/-!
# Quoted names under the scan

A scan for placeholders knows string literals, but no quoted names: between its quotes a name is read as any other
text (`markedWords_quoteBare`). So a name is passed over in every text exactly if its apostrophes come in pairs and
it marks no word itself (`quoted_name_opaque_iff`).
-/

namespace SqlMapping

/-! ## The scan, one character at a time -/

def literalThrough (inLiteral : Bool) (c : Char) : Bool := if c = '\x27' then !inLiteral else inLiteral

def literalAfter (inLiteral : Bool) (cs : List Char) : Bool := cs.foldl literalThrough inLiteral

/-- The words right after a marker `m` outside string literals, where no other marker is next to it. `last` is the
character before the text. -/
def markedWords (m : Char) : (last : Option Char) → (inLiteral : Bool) → List Char → List (List Char)
  | _, _, [] => []
  | last, inLiteral, c :: cs =>
    let word := cs.takeWhile isWordChar
    let found := c = m ∧ inLiteral = false ∧ last ≠ some m ∧ cs.head? ≠ some m ∧ word ≠ []
    (if found then [word] else []) ++ markedWords m (some c) (literalThrough inLiteral c) cs

section
variable {m : Char}

theorem isPrefixOf_singleton (m : Char) (cs : List Char) : [m].isPrefixOf cs = decide (cs.head? = some m) := by
  cases cs with
  | nil => rfl
  | cons c cs =>
    show (m == c && true) = decide (some c = some m)
    rw [Bool.and_true, Bool.eq_iff_iff, beq_iff_eq, decide_eq_true_iff, Option.some.injEq, eq_comm]

theorem literalThrough_of_ne {c : Char} (h : c ≠ '\x27') (inLiteral : Bool) :
    literalThrough inLiteral c = inLiteral := if_neg h

theorem markedWords_cons_of_ne {c : Char} (h : c ≠ m) (last : Option Char) (inLiteral : Bool) (cs : List Char) :
    markedWords m last inLiteral (c :: cs) = markedWords m (some c) (literalThrough inLiteral c) cs := by
  rw [markedWords, if_neg fun hfound => h hfound.1]
  rfl

theorem markedWords_in_literal (last : Option Char) (c : Char) (cs : List Char) :
    markedWords m last true (c :: cs) = markedWords m (some c) (literalThrough true c) cs := by
  rw [markedWords, if_neg fun hfound => Bool.noConfusion hfound.2.1]
  rfl

theorem scan_at_mark (hquote : m ≠ '\x27') (before cs : List Char) :
    scanPlaceholders [m] before false 0 (m :: cs) =
      (if before.head? ≠ some m ∧ cs.head? ≠ some m ∧ cs.takeWhile isWordChar ≠ [] then
        [cs.takeWhile isWordChar] else []) ++
        scanPlaceholders [m] (m :: before) false (cs.takeWhile isWordChar).length cs := by
  have hlength : 1 + (cs.takeWhile isWordChar).length - 1 = (cs.takeWhile isWordChar).length := by omega
  rw [scanPlaceholders, if_neg hquote, isPrefixOf_singleton, if_neg (by simp)]
  simp only [List.length_singleton, List.drop_succ_cons, List.drop_zero, List.reverse_singleton,
    isPrefixOf_singleton, hlength]
  by_cases hfirst : before.head? = some m
  · simp [hfirst]
  by_cases hnext : cs.head? = some m
  · simp [hnext]
  cases hword : cs.takeWhile isWordChar <;> simp [hfirst, hnext]

/-- A marker is told from words, from blanks and from the quotes of literals. -/
structure IsMark (m : Char) : Prop where
  word : isWordChar m = false
  blank : m ≠ ' '
  quote : m ≠ '\x27'

theorem scan_eq_markedWords (hm : IsMark m) (cs : List Char) : ∀ (before : List Char) (inLiteral : Bool) (skip : Nat),
    (cs.take skip).all isWordChar = true →
      scanPlaceholders [m] before inLiteral skip cs = markedWords m before.head? inLiteral cs := by
  induction cs with
  | nil => intro before inLiteral skip _; cases skip <;> rfl
  | cons c cs ih =>
    intro before inLiteral skip hskip
    cases skip with
    | succ skip =>
      -- the scan skips a word it has found, and walking over it finds nothing more
      rw [List.take_succ_cons, List.all_cons, Bool.and_eq_true] at hskip
      have hmark : c ≠ m := by rintro rfl; rw [hm.word] at hskip; cases hskip.1
      have hquote : c ≠ '\x27' := by rintro rfl; exact absurd hskip.1 (by decide)
      rw [scanPlaceholders, ih _ _ _ hskip.2, markedWords_cons_of_ne hmark, literalThrough_of_ne hquote]
      rfl
    | zero =>
      by_cases hquote : c = '\x27'
      · rw [scanPlaceholders, if_pos hquote, ih _ _ _ rfl, markedWords_cons_of_ne (hquote ▸ hm.quote.symm),
          literalThrough, if_pos hquote]
        rfl
      by_cases hmark : c = m ∧ inLiteral = false
      · obtain ⟨rfl, rfl⟩ := hmark
        have hword : (cs.take (cs.takeWhile isWordChar).length).all isWordChar = true := by
          rw [← List.prefix_iff_eq_take.mp (List.takeWhile_prefix _), List.all_takeWhile]
        rw [scan_at_mark hm.quote, ih _ _ _ hword, markedWords, literalThrough_of_ne hquote]
        simp only [true_and]
        rfl
      · have hpassed : (inLiteral || !([m].isPrefixOf (c :: cs))) = true := by
          rw [isPrefixOf_singleton]
          cases inLiteral <;> simp_all
        rw [scanPlaceholders, if_neg hquote, if_pos hpassed, ih _ _ _ rfl, markedWords, literalThrough_of_ne hquote,
          if_neg fun hfound => hmark ⟨hfound.1, hfound.2.1⟩]
        rfl

theorem placeholders_eq_markedWords (hm : IsMark m) {marker : String} (hmarker : marker.toList = [m]) (s : String) :
    placeholders s marker = (markedWords m none false s.toList).map String.ofList := by
  have hempty : ¬ marker.isEmpty = true := by
    intro he
    rw [String.isEmpty_iff.mp he] at hmarker
    cases hmarker
  rw [placeholders, if_neg hempty, hmarker, scan_eq_markedWords hm _ _ _ _ rfl]
  rfl

/-! ## Texts put together -/

theorem markedWords_last {last : Option Char} (h : last ≠ some m) (inLiteral : Bool) (cs : List Char) :
    markedWords m last inLiteral cs = markedWords m none inLiteral cs := by
  cases cs with
  | nil => rfl
  | cons c cs => simp [markedWords, h]

theorem takeWhile_endsWord {rest : List Char} (hrest : EndsWord rest) (cs : List Char) :
    (cs ++ rest).takeWhile isWordChar = cs.takeWhile isWordChar := by
  induction cs with
  | nil => exact takeWhile_word rfl hrest
  | cons c cs ih => rw [List.cons_append, List.takeWhile_cons, List.takeWhile_cons, ih]

theorem getLast?_cons_or {α : Type} (last : Option α) (x : α) (xs : List α) :
    (x :: xs).getLast?.or last = xs.getLast?.or (some x) := by
  rw [List.getLast?_cons]
  cases xs.getLast? <;> rfl

/-- Before a text that no word runs into and that does not begin with a marker, a text is scanned as if it stood
alone. Behind it, the scan goes on as outside or inside a literal. -/
theorem markedWords_append {rest : List Char} (hrest : EndsWord rest) (hmark : rest.head? ≠ some m)
    (cs : List Char) : ∀ (last : Option Char) (inLiteral : Bool),
      markedWords m last inLiteral (cs ++ rest) =
        markedWords m last inLiteral cs ++
          markedWords m (cs.getLast?.or last) (literalAfter inLiteral cs) rest := by
  induction cs with
  | nil => intro last inLiteral; rfl
  | cons c cs ih =>
    intro last inLiteral
    have hnext : (cs ++ rest).head? = some m ↔ cs.head? = some m := by
      cases cs with
      | nil => simp [hmark]
      | cons c' cs => rfl
    rw [List.cons_append, markedWords, markedWords, takeWhile_endsWord hrest, ih, getLast?_cons_or,
      List.append_assoc]
    simp only [ne_eq, hnext]
    rfl

theorem literalAfter_append (inLiteral : Bool) (cs cs' : List Char) :
    literalAfter inLiteral (cs ++ cs') = literalAfter (literalAfter inLiteral cs) cs' := List.foldl_append

/-! ## Names between quotes -/

structure IsNameQuote (m q : Char) : Prop where
  word : isWordChar q = false
  mark : q ≠ m
  quote : q ≠ '\x27'

variable {q : Char}

theorem head?_doubled (q : Char) (cs : List Char) : (replaceChar q [q, q] cs).head? = cs.head? := by
  cases cs with
  | nil => rfl
  | cons c cs =>
    rw [replaceChar_cons]
    by_cases hc : c = q
    · rw [if_pos hc, hc]
      rfl
    · rw [if_neg hc]
      rfl

theorem takeWhile_doubled (hq : isWordChar q = false) (cs : List Char) :
    (replaceChar q [q, q] cs).takeWhile isWordChar = cs.takeWhile isWordChar := by
  induction cs with
  | nil => rfl
  | cons c cs ih =>
    rw [replaceChar_cons]
    by_cases hc : c = q
    · rw [if_pos hc, hc, List.takeWhile_cons, hq]
      simp [hq]
    · rw [if_neg hc]
      show (c :: replaceChar q [q, q] cs).takeWhile isWordChar = (c :: cs).takeWhile isWordChar
      rw [List.takeWhile_cons, List.takeWhile_cons, ih]

theorem literalAfter_doubled (hq : q ≠ '\x27') (cs : List Char) : ∀ inLiteral : Bool,
    literalAfter inLiteral (replaceChar q [q, q] cs) = literalAfter inLiteral cs := by
  induction cs with
  | nil => intro inLiteral; rfl
  | cons c cs ih =>
    intro inLiteral
    rw [replaceChar_cons, literalAfter_append, ih]
    by_cases hc : c = q
    · rw [if_pos hc, hc]
      simp [literalAfter, literalThrough_of_ne hq]
    · rw [if_neg hc]
      rfl

theorem markedWords_doubled (hq : IsNameQuote m q) (cs : List Char) : ∀ (last : Option Char) (inLiteral : Bool),
    markedWords m last inLiteral (replaceChar q [q, q] cs) = markedWords m last inLiteral cs := by
  induction cs with
  | nil => intro last inLiteral; rfl
  | cons c cs ih =>
    intro last inLiteral
    rw [replaceChar_cons]
    by_cases hc : c = q
    · rw [if_pos hc, hc]
      show markedWords m last inLiteral (q :: q :: replaceChar q [q, q] cs) = markedWords m last inLiteral (q :: cs)
      rw [markedWords_cons_of_ne hq.mark, markedWords_cons_of_ne hq.mark, markedWords_cons_of_ne hq.mark,
        literalThrough_of_ne hq.quote, literalThrough_of_ne hq.quote, ih]
    · rw [if_neg hc]
      show markedWords m last inLiteral (c :: replaceChar q [q, q] cs) = markedWords m last inLiteral (c :: cs)
      rw [markedWords, markedWords, takeWhile_doubled hq.word, head?_doubled, ih]

end

namespace Dialect

structure ScanMarks (d : Dialect) (m : Char) : Prop where
  marker : d.marker.toList = [m]
  mark : IsMark m
  openQuote : IsNameQuote m d.openQuote
  closeQuote : IsNameQuote m d.closeQuote

theorem scanMarks_of_builtIn {d : Dialect} (h : d ∈ builtIn) : ∃ m, d.ScanMarks m := by
  simp only [builtIn, List.mem_cons, List.not_mem_nil, or_false] at h
  obtain rfl | rfl | rfl | rfl | rfl | rfl := h
  · refine ⟨':', rfl, ⟨?_, ?_, ?_⟩, ⟨?_, ?_, ?_⟩, ⟨?_, ?_, ?_⟩⟩ <;> decide
  · refine ⟨':', rfl, ⟨?_, ?_, ?_⟩, ⟨?_, ?_, ?_⟩, ⟨?_, ?_, ?_⟩⟩ <;> decide
  · refine ⟨'@', rfl, ⟨?_, ?_, ?_⟩, ⟨?_, ?_, ?_⟩, ⟨?_, ?_, ?_⟩⟩ <;> decide
  · refine ⟨'?', rfl, ⟨?_, ?_, ?_⟩, ⟨?_, ?_, ?_⟩, ⟨?_, ?_, ?_⟩⟩ <;> decide
  · refine ⟨'@', rfl, ⟨?_, ?_, ?_⟩, ⟨?_, ?_, ?_⟩, ⟨?_, ?_, ?_⟩⟩ <;> decide
  · refine ⟨':', rfl, ⟨?_, ?_, ?_⟩, ⟨?_, ?_, ?_⟩, ⟨?_, ?_, ?_⟩⟩ <;> decide

section
variable {d : Dialect} {m : Char} (hd : d.ScanMarks m)
include hd

theorem markedWords_quoteBare (name : String) (inLiteral : Bool) :
    markedWords m none inLiteral (d.quoteBare name).toList = markedWords m none inLiteral name.toList := by
  have hends : EndsWord [d.closeQuote] := fun c hc => Option.some.inj hc ▸ hd.closeQuote.word
  have hclose : [d.closeQuote].head? ≠ some m := fun h => hd.closeQuote.mark (Option.some.inj h)
  have hopen : some d.openQuote ≠ some m := fun h => hd.openQuote.mark (Option.some.inj h)
  rw [toList_quoteBare, markedWords_cons_of_ne hd.openQuote.mark, literalThrough_of_ne hd.openQuote.quote,
    markedWords_append hends hclose, markedWords_doubled hd.closeQuote, markedWords_cons_of_ne hd.closeQuote.mark,
    markedWords_last hopen]
  exact List.append_nil _

theorem literalAfter_quoteBare (name : String) (inLiteral : Bool) :
    literalAfter inLiteral (d.quoteBare name).toList = literalAfter inLiteral name.toList := by
  rw [toList_quoteBare, ← List.singleton_append, literalAfter_append, literalAfter_append,
    literalAfter_doubled hd.closeQuote.quote]
  simp [literalAfter, literalThrough_of_ne hd.openQuote.quote, literalThrough_of_ne hd.closeQuote.quote]

/-- Between a blank and a blank, a quoted name is read as the name would be, and what follows it as outside or inside
the literal that the name leaves. -/
theorem markedWords_around {before after : String} (hclosed : literalAfter false before.toList = false)
    (hbefore : before.toList.getLast? = some ' ') (hafter : after.toList.head? = some ' ') (name : String) :
    markedWords m none false (before ++ d.quoteBare name ++ after).toList =
      markedWords m none false before.toList ++ markedWords m none false name.toList ++
        markedWords m none (literalAfter false name.toList) after.toList := by
  obtain ⟨rest, hrest⟩ : ∃ rest, after.toList = ' ' :: rest := by
    cases h : after.toList with
    | nil => rw [h] at hafter; cases hafter
    | cons c rest => rw [h] at hafter; exact ⟨rest, by rw [Option.some.inj hafter]⟩
  have hname : EndsWord ((d.quoteBare name).toList ++ ' ' :: rest) := by
    rw [toList_quoteBare]
    exact fun c hc => Option.some.inj hc ▸ hd.openQuote.word
  have hopen : ((d.quoteBare name).toList ++ ' ' :: rest).head? ≠ some m := by
    rw [toList_quoteBare]
    exact fun h => hd.openQuote.mark (Option.some.inj h)
  have hblank : EndsWord (' ' :: rest) := fun c hc => Option.some.inj hc ▸ by decide
  have hblankMark : (' ' :: rest).head? ≠ some m := fun h => hd.mark.blank (Option.some.inj h).symm
  have hlast : (d.quoteBare name).toList.getLast? = some d.closeQuote := by
    rw [toList_quoteBare, ← List.cons_append, List.getLast?_append]
    rfl
  have hclose : some d.closeQuote ≠ some m := fun h => hd.closeQuote.mark (Option.some.inj h)
  have hblankLast : some ' ' ≠ some m := fun h => hd.mark.blank (Option.some.inj h).symm
  rw [String.toList_append, String.toList_append, hrest, List.append_assoc, markedWords_append hname hopen,
    hclosed, hbefore, Option.some_or, markedWords_last hblankLast, markedWords_append hblank hblankMark, hlast,
    Option.some_or, markedWords_last hclose, markedWords_quoteBare hd, literalAfter_quoteBare hd,
    List.append_assoc]

end

end Dialect

/-! ## Opaque names -/

def ClosesLiterals (s : String) : Prop := literalAfter false s.toList = false

instance (s : String) : Decidable (ClosesLiterals s) := inferInstanceAs (Decidable (_ = _))

section
variable {m : Char}

theorem literalAfter_of_not_mem {cs : List Char} (h : '\x27' ∉ cs) (inLiteral : Bool) :
    literalAfter inLiteral cs = inLiteral := by
  induction cs with
  | nil => rfl
  | cons c cs ih =>
    rw [List.mem_cons, not_or] at h
    show literalAfter (literalThrough inLiteral c) cs = inLiteral
    rw [literalThrough_of_ne (Ne.symm h.1), ih h.2]

theorem markedWords_of_not_mem {cs : List Char} (h : m ∉ cs) : ∀ (last : Option Char) (inLiteral : Bool),
    markedWords m last inLiteral cs = [] := by
  induction cs with
  | nil => intro last inLiteral; rfl
  | cons c cs ih =>
    intro last inLiteral
    rw [List.mem_cons, not_or] at h
    rw [markedWords_cons_of_ne (Ne.symm h.1), ih h.2]

theorem IsMark.ne_word (hm : IsMark m) : 'p' ≠ m := by
  rintro rfl
  exact absurd hm.word (by decide)

theorem markedWords_parameter (hm : IsMark m) (inLiteral : Bool) :
    markedWords m none inLiteral [' ', m, 'p'] = if inLiteral then [] else [['p']] := by
  have hblank : ' ' ≠ m := hm.blank.symm
  have hp : 'p' ≠ m := hm.ne_word
  have hword : ['p'].takeWhile isWordChar = ['p'] := by decide
  rw [markedWords_cons_of_ne hblank, literalThrough_of_ne (by decide)]
  cases inLiteral with
  | true => rw [markedWords_in_literal, markedWords_cons_of_ne hp]; rfl
  | false =>
    rw [markedWords, markedWords_cons_of_ne hp, markedWords, hword]
    simp [hblank, hp]

end

/-- A scan passes over a quoted name in every text, reading what is before it and behind it, if and only if
apostrophes in the name come in pairs and a scan of the name itself finds nothing. Names without apostrophes and
markers are of this kind. -/
theorem quoted_name_opaque_iff {d : Dialect} (hd : d ∈ Dialect.builtIn) (name : String) :
    ((∀ before after : String, ClosesLiterals before → before.toList.getLast? = some ' ' →
        after.toList.head? = some ' ' →
          placeholders (before ++ d.quoteBare name ++ after) d.marker =
            placeholders before d.marker ++ placeholders after d.marker) ↔
      ClosesLiterals name ∧ placeholders name d.marker = []) ∧
    ('\x27' ∉ name.toList → (∀ c ∈ d.marker.toList, c ∉ name.toList) →
      ClosesLiterals name ∧ placeholders name d.marker = []) := by
  obtain ⟨m, hmarks⟩ := Dialect.scanMarks_of_builtIn hd
  have hscan := placeholders_eq_markedWords hmarks.mark hmarks.marker
  refine ⟨⟨fun hopaque => ?_, ?_⟩, ?_⟩
  · have hblank : ∀ inLiteral, markedWords m none inLiteral " ".toList = [] := fun inLiteral =>
      markedWords_cons_of_ne hmarks.mark.blank.symm _ _ _
    have hname : markedWords m none false name.toList = [] := by
      have hread := hopaque " " " " rfl rfl rfl
      rw [hscan, hscan, Dialect.markedWords_around hmarks rfl rfl rfl, hblank, hblank, List.append_nil] at hread
      exact List.map_eq_nil_iff.mp hread
    refine ⟨?_, by rw [hscan, hname]; rfl⟩
    -- behind a name that leaves a literal open, a parameter is lost
    have hafter : (" " ++ d.marker ++ "p").toList = [' ', m, 'p'] := by simp [hmarks.marker]
    have hhead : (" " ++ d.marker ++ "p").toList.head? = some ' ' := by rw [hafter]; rfl
    have hread := hopaque " " (" " ++ d.marker ++ "p") rfl rfl hhead
    rw [hscan, hscan, hscan, Dialect.markedWords_around hmarks rfl rfl hhead, hafter, hblank, hname,
      markedWords_parameter hmarks.mark, markedWords_parameter hmarks.mark] at hread
    cases hcloses : literalAfter false name.toList with
    | false => exact hcloses
    | true => rw [hcloses] at hread; cases hread
  · rintro ⟨hcloses, hname⟩ before after hbefore hlast hhead
    rw [hscan] at hname
    rw [hscan, hscan, hscan, Dialect.markedWords_around hmarks hbefore hlast hhead, List.map_append, List.map_append,
      hname, hcloses, List.append_nil]
  · intro hquote hmark
    refine ⟨literalAfter_of_not_mem hquote false, ?_⟩
    rw [hscan, markedWords_of_not_mem (hmark m (hmarks.marker ▸ List.mem_singleton.mpr rfl))]
    rfl

/-- A name with a literal of its own, and a marker that a blank follows, is passed over. -/
theorem literal_in_name_passed_over :
    ClosesLiterals "a 'b' ? c" ∧ placeholders "a 'b' ? c" "?" = [] ∧
      placeholders "update t set `a 'b' ? c` = ?x where y = ?y" "?" = ["x", "y"] := by
  have hd : Dialect.mySql ∈ Dialect.builtIn := by simp [Dialect.builtIn]
  have hcloses : ClosesLiterals "a 'b' ? c" := by decide
  have hname : placeholders "a 'b' ? c" "?" = [] := by decide
  have hopaque := (quoted_name_opaque_iff hd "a 'b' ? c").1.mpr ⟨hcloses, hname⟩
  have hread := hopaque "update t set " " = ?x where y = ?y" (by decide) (by decide) (by decide)
  exact ⟨hcloses, hname, hread.trans (by decide)⟩

/-- Behind a name with one apostrophe no parameter is found, and a marker in a name marks a parameter that the
statement does not have. -/
theorem quoted_name_scanned_as_text :
    let scan (s : String) := placeholders s Dialect.ansi.marker
    ClosesLiterals "update t set " ∧
      scan ("update t set " ++ Dialect.ansi.quoteBare "it's" ++ " = :its where id = :id") = [] ∧
      scan "update t set " ++ scan " = :its where id = :id" = ["its", "id"] ∧
      ClosesLiterals "select " ∧
      scan ("select " ++ Dialect.ansi.quoteBare "a:b" ++ " from t") = ["b"] ∧
      scan "select " ++ scan " from t" = [] := by
  decide

end SqlMapping
