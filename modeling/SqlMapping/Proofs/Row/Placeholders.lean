import SqlMapping.Proofs.Row.QuotedNames
import SqlMapping.Proofs.Text.Bytes
import Mathlib.Algebra.Ring.Parity

/-!
# Where placeholders stand

The placeholders of a text are its runs of word characters that a marker marks: outside string literals, and with no
other marker next to it. `placeholders_are_marked_runs`: a scan finds exactly these runs in their order, and a scan by
bytes finds the same, cutting the text between characters only.
-/

namespace SqlMapping

/-! ## The grammar -/

/-- From this index on, the text has these characters of words, and no more on either side. -/
structure IsRun (cs : List Char) (start : Nat) (run : List Char) : Prop where
  nonempty : run ≠ []
  here : run <+: cs.drop start
  word : run.all isWordChar = true
  begins : ∀ i c, i + 1 = start → cs[i]? = some c → isWordChar c = false
  ends : ∀ c, cs[start + run.length]? = some c → isWordChar c = false

/-- At this index a marker stands outside string literals, that is behind an even number of apostrophes, and no other
marker is right before or right behind it. -/
structure MarksAt (m : Char) (cs : List Char) (i : Nat) : Prop where
  marker : cs[i]? = some m
  outside : Even ((cs.take i).count '\x27')
  before : (cs.take i).getLast? ≠ some m
  behind : (cs.drop (i + 1)).head? ≠ some m

instance (m : Char) (cs : List Char) (i : Nat) : Decidable (MarksAt m cs i) :=
  decidable_of_iff (cs[i]? = some m ∧ Even ((cs.take i).count '\x27') ∧ (cs.take i).getLast? ≠ some m ∧
      (cs.drop (i + 1)).head? ≠ some m)
    ⟨fun ⟨hmarker, houtside, hbefore, hbehind⟩ => ⟨hmarker, houtside, hbefore, hbehind⟩,
      fun h => ⟨h.marker, h.outside, h.before, h.behind⟩⟩

def wordAt (cs : List Char) (i : Nat) : List Char := (cs.drop i).takeWhile isWordChar

theorem getElem?_length_append (cs cs' : List Char) : (cs ++ cs')[cs.length]? = cs'.head? := by
  rw [List.getElem?_append_right (Nat.le_refl _), Nat.sub_self, List.head?_eq_getElem?]

/-- Behind a character that belongs to no word, the run is what can be read there. -/
theorem isRun_iff {m : Char} (hm : isWordChar m = false) {cs : List Char} {i : Nat} (hi : cs[i]? = some m)
    (run : List Char) : IsRun cs (i + 1) run ↔ run ≠ [] ∧ run = wordAt cs (i + 1) := by
  constructor
  · intro h
    obtain ⟨rest, hrest⟩ := h.here
    have hends : EndsWord rest := by
      intro c hc
      refine h.ends c ?_
      rw [← List.getElem?_drop, ← hrest, getElem?_length_append]
      exact hc
    refine ⟨h.nonempty, ?_⟩
    rw [wordAt, ← hrest, takeWhile_word h.word hends]
  · rintro ⟨hne, hrun⟩
    have hrest : run ++ (cs.drop (i + 1)).dropWhile isWordChar = cs.drop (i + 1) := by
      rw [hrun, wordAt, List.takeWhile_append_dropWhile]
    refine ⟨hne, ⟨_, hrest⟩, by rw [hrun, wordAt, List.all_takeWhile], ?_, ?_⟩
    · intro j c hj hc
      rw [Nat.succ.inj hj, hi] at hc
      rwa [← Option.some.inj hc]
    · intro c hc
      rw [← List.getElem?_drop, ← hrest, getElem?_length_append] at hc
      have hnot := List.head?_dropWhile_not isWordChar (cs.drop (i + 1))
      rw [hc] at hnot
      exact hnot

theorem literalAfter_iff (cs : List Char) : ∀ inLiteral : Bool,
    literalAfter inLiteral cs = false ↔ (inLiteral = false ↔ Even (cs.count '\x27')) := by
  induction cs with
  | nil => intro inLiteral; simp [literalAfter]
  | cons c cs ih =>
    intro inLiteral
    show literalAfter (literalThrough inLiteral c) cs = false ↔ _
    rw [ih, literalThrough, List.count_cons]
    by_cases hc : c = '\x27'
    · cases inLiteral <;> simp [hc, Nat.even_add_one]
    · simp [hc]

theorem marksAt_length (m c : Char) (before cs : List Char) : MarksAt m (before ++ c :: cs) before.length ↔
    c = m ∧ literalAfter false before = false ∧ before.getLast? ≠ some m ∧ cs.head? ≠ some m := by
  have hmarker : (before ++ c :: cs)[before.length]? = some c := getElem?_length_append _ _
  have hbefore : (before ++ c :: cs).take before.length = before := List.take_left
  have hbehind : (before ++ c :: cs).drop (before.length + 1) = cs := by simp
  have houtside : literalAfter false before = false ↔ Even (before.count '\x27') := by simp [literalAfter_iff]
  rw [houtside]
  constructor
  · intro h
    have hc := h.marker
    rw [hmarker] at hc
    exact ⟨Option.some.inj hc, hbefore ▸ h.outside, hbefore ▸ h.before, hbehind ▸ h.behind⟩
  · rintro ⟨rfl, hcount, hlast, hnext⟩
    exact ⟨hmarker, by rwa [hbefore], by rwa [hbefore], by rwa [hbehind]⟩

def marks (m : Char) (cs : List Char) (start count : Nat) : List Nat :=
  (List.range' start count).filter fun i => MarksAt m cs i ∧ wordAt cs (i + 1) ≠ []

theorem marks_succ (m : Char) (cs : List Char) (start count : Nat) : marks m cs start (count + 1) =
    (if MarksAt m cs start ∧ wordAt cs (start + 1) ≠ [] then [start] else []) ++ marks m cs (start + 1) count := by
  rw [marks, List.range'_succ, List.filter_cons, marks]
  by_cases h : MarksAt m cs start ∧ wordAt cs (start + 1) ≠ [] <;> simp [h]

/-- A scan that has come to an index finds the runs that are marked from there on. -/
theorem markedWords_eq_marks (m : Char) (cs : List Char) : ∀ before : List Char,
    markedWords m before.getLast? (literalAfter false before) cs =
      (marks m (before ++ cs) before.length cs.length).map fun i => wordAt (before ++ cs) (i + 1) := by
  induction cs with
  | nil => intro before; rfl
  | cons c cs ih =>
    intro before
    have hword : wordAt (before ++ c :: cs) (before.length + 1) = cs.takeWhile isWordChar := by simp [wordAt]
    have hnext := ih (before ++ [c])
    rw [literalAfter_append, List.getLast?_concat, List.append_assoc, List.singleton_append,
      List.length_append, List.length_singleton] at hnext
    rw [markedWords]
    show _ ++ markedWords m (some c) (literalAfter (literalAfter false before) [c]) cs = _
    rw [hnext, List.length_cons, marks_succ, List.map_append, apply_ite (List.map _)]
    simp only [marksAt_length, List.map_cons, List.map_nil, hword, and_assoc]

/-! ## The scan by bytes -/

/-- The scan from an offset in bytes on. Where nothing is found it goes on by one byte, also inside a character. For a
marker and its word it cuts the text; a cut inside a character would leave no result. -/
def scanBytes (sql marker : String) (inLiteral : Bool) (offset : Nat) : Option (List String) :=
  if h : offset < (bytesOf sql).length then
    if (bytesOf sql)[offset] = 0x27 then scanBytes sql marker (!inLiteral) (offset + 1)
    else if inLiteral || !(bytesOf marker).isPrefixOf ((bytesOf sql).drop offset) then
      scanBytes sql marker inLiteral (offset + 1)
    else do
      let (before, _) ← cut? sql offset
      let (_, rest) ← cut? sql (offset + (bytesOf marker).length)
      let size := (bytesOf (String.ofList (rest.toList.takeWhile isWordChar))).length
      let (word, _) ← cut? rest size
      let found ← scanBytes sql marker false (max (offset + (bytesOf marker).length + size) (offset + 1))
      let doubled := marker.toList.isPrefixOf rest.toList || marker.toList.isSuffixOf before.toList
      pure (if doubled || word.isEmpty then found else word :: found)
  else some []
termination_by (bytesOf sql).length - offset

section
variable {sql marker : String} {inLiteral : Bool} {passed rest : List UInt8} {b k : UInt8}

theorem scanBytes_end (h : bytesOf sql = passed) : scanBytes sql marker inLiteral passed.length = some [] := by
  rw [scanBytes, dif_neg (by rw [h]; exact Nat.lt_irrefl _)]

theorem byte_at_length (h : bytesOf sql = passed ++ b :: rest) :
    ∃ hlt : passed.length < (bytesOf sql).length, (bytesOf sql)[passed.length] = b ∧
      (bytesOf sql).drop passed.length = b :: rest := by
  simp [h]

theorem scanBytes_quote (h : bytesOf sql = passed ++ 0x27 :: rest) :
    scanBytes sql marker inLiteral passed.length = scanBytes sql marker (!inLiteral) (passed.length + 1) := by
  obtain ⟨hlt, hget, -⟩ := byte_at_length h
  rw [scanBytes, dif_pos hlt, if_pos hget]

theorem scanBytes_pass (hmarker : bytesOf marker = [k]) (h : bytesOf sql = passed ++ b :: rest) (hquote : b ≠ 0x27)
    (hb : inLiteral = true ∨ b ≠ k) :
    scanBytes sql marker inLiteral passed.length = scanBytes sql marker inLiteral (passed.length + 1) := by
  obtain ⟨hlt, hget, hdrop⟩ := byte_at_length h
  have hpassed : (inLiteral || !(bytesOf marker).isPrefixOf ((bytesOf sql).drop passed.length)) = true := by
    rw [hmarker, hdrop]
    cases hb with
    | inl hb => simp [hb]
    | inr hb => simp [List.isPrefixOf, Ne.symm hb]
  rw [scanBytes, dif_pos hlt, if_neg (hget ▸ hquote), if_pos hpassed]

/-- Bytes that are neither an apostrophe's nor, outside literals, the marker's are passed over. -/
theorem scanBytes_passAll (hmarker : bytesOf marker = [k]) (bs : List UInt8)
    (hbs : ∀ b ∈ bs, b ≠ 0x27 ∧ (inLiteral = true ∨ b ≠ k)) : ∀ passed : List UInt8,
      bytesOf sql = passed ++ (bs ++ rest) →
        scanBytes sql marker inLiteral passed.length = scanBytes sql marker inLiteral (passed ++ bs).length := by
  induction bs with
  | nil => intro passed _; rw [List.append_nil]
  | cons b bs ih =>
    intro passed h
    obtain ⟨hquote, hb⟩ := hbs b List.mem_cons_self
    have hnext := ih (fun b' hb' => hbs b' (List.mem_cons_of_mem b hb')) (passed ++ [b]) (by simp [h])
    rw [List.length_append, List.length_singleton, List.append_assoc, List.singleton_append] at hnext
    rw [scanBytes_pass hmarker h hquote hb, hnext]

end

section
variable {m : Char} {marker : String} {k : UInt8}

/-- At a marker outside literals all cuts are between characters, and the scan goes on behind the word. -/
theorem scanBytes_marker (hmarker : marker.toList = [m]) (hk : String.utf8EncodeChar m = [k]) (hquote : k ≠ 0x27)
    (before cs : List Char) :
    scanBytes (String.ofList (before ++ m :: cs)) marker false (bytesOf (String.ofList before)).length =
      (scanBytes (String.ofList (before ++ m :: cs)) marker false
        (bytesOf (String.ofList (before ++ m :: cs.takeWhile isWordChar))).length).map fun found =>
          (if before.getLast? ≠ some m ∧ cs.head? ≠ some m ∧ cs.takeWhile isWordChar ≠ [] then
            [String.ofList (cs.takeWhile isWordChar)] else []) ++ found := by
  have hbyte : bytesOf marker = [k] := by
    rw [← String.ofList_toList (s := marker), hmarker, bytesOf_ofList, List.flatMap_singleton, hk]
  have hbytes : bytesOf (String.ofList (before ++ m :: cs)) =
      bytesOf (String.ofList before) ++ k :: bytesOf (String.ofList cs) := by
    rw [bytesOf_append, bytesOf_cons, hk, List.singleton_append]
  obtain ⟨hlt, hget, hdrop⟩ := byte_at_length hbytes
  have hmarked : (false || !(bytesOf marker).isPrefixOf
      ((bytesOf (String.ofList (before ++ m :: cs))).drop (bytesOf (String.ofList before)).length)) = false := by
    rw [hbyte, hdrop]
    simp [List.isPrefixOf]
  have hbehind : cut? (String.ofList (before ++ m :: cs)) ((bytesOf (String.ofList before)).length + 1) =
      some (String.ofList (before ++ [m]), String.ofList cs) := by
    have hcut := cut?_append (before ++ [m]) cs
    rwa [bytesOf_concat, hk, List.length_append, List.length_singleton, List.append_assoc] at hcut
  have hword : cut? (String.ofList cs) (bytesOf (String.ofList (cs.takeWhile isWordChar))).length =
      some (String.ofList (cs.takeWhile isWordChar), String.ofList (cs.dropWhile isWordChar)) := by
    have hcut := cut?_append (cs.takeWhile isWordChar) (cs.dropWhile isWordChar)
    rwa [List.takeWhile_append_dropWhile] at hcut
  have hstop : max ((bytesOf (String.ofList before)).length + 1 +
        (bytesOf (String.ofList (cs.takeWhile isWordChar))).length) ((bytesOf (String.ofList before)).length + 1) =
      (bytesOf (String.ofList (before ++ m :: cs.takeWhile isWordChar))).length := by
    rw [bytesOf_append, bytesOf_cons, hk, List.length_append, List.length_append, List.length_singleton]
    omega
  have hlast : [m].isSuffixOf before = decide (before.getLast? = some m) := by
    rw [List.isSuffixOf, List.reverse_singleton, isPrefixOf_singleton, List.head?_reverse]
  rw [scanBytes, dif_pos hlt, if_neg (hget ▸ hquote), hmarked, if_neg Bool.false_ne_true, cut?_append, hbyte,
    List.length_singleton, hbehind]
  simp only [Option.bind_eq_bind, Option.bind_some, String.toList_ofList, hword, hstop, hmarker, hlast,
    isPrefixOf_singleton]
  rw [Option.map_eq_bind]
  refine congrArg _ (funext fun found => ?_)
  by_cases hnext : cs.head? = some m
  · simp [hnext]
  by_cases hfirst : before.getLast? = some m
  · simp [hfirst]
  by_cases hnone : cs.takeWhile isWordChar = [] <;> simp [hnext, hfirst, hnone]

/-- No word is marked inside a word. -/
theorem markedWords_word (hm : IsMark m) {word : List Char} (hword : word.all isWordChar = true) (rest : List Char) :
    ∀ (last : Option Char) (inLiteral : Bool), markedWords m last inLiteral (word ++ rest) =
      markedWords m (word.getLast?.or last) inLiteral rest := by
  induction word with
  | nil => intro last inLiteral; rfl
  | cons c word ih =>
    intro last inLiteral
    rw [List.all_cons, Bool.and_eq_true] at hword
    have hmark : c ≠ m := by rintro rfl; rw [hm.word] at hword; cases hword.1
    have hquote : c ≠ '\x27' := by rintro rfl; exact absurd hword.1 (by decide)
    rw [List.cons_append, markedWords_cons_of_ne hmark, literalThrough_of_ne hquote, ih hword.2,
      getLast?_cons_or]

theorem markedWords_marker (hm : IsMark m) (last : Option Char) (cs : List Char) :
    markedWords m last false (m :: cs) =
      (if last ≠ some m ∧ cs.head? ≠ some m ∧ cs.takeWhile isWordChar ≠ [] then [cs.takeWhile isWordChar] else []) ++
        markedWords m (m :: cs.takeWhile isWordChar).getLast? false (cs.dropWhile isWordChar) := by
  have hskip : markedWords m (some m) false cs =
      markedWords m (m :: cs.takeWhile isWordChar).getLast? false (cs.dropWhile isWordChar) := by
    have hall : (cs.takeWhile isWordChar).all isWordChar = true := List.all_takeWhile
    have hword := markedWords_word hm hall (cs.dropWhile isWordChar) (some m) false
    rwa [List.takeWhile_append_dropWhile, ← getLast?_cons_or none, Option.or_none] at hword
  rw [markedWords, literalThrough_of_ne hm.quote, hskip]
  simp only [true_and]

/-- By bytes the same words are found as by characters. -/
theorem scanBytes_eq (hm : IsMark m) (hmarker : marker.toList = [m]) (hk : String.utf8EncodeChar m = [k])
    (hascii : k < 128) (cs : List Char) : ∀ (before : List Char) (inLiteral : Bool),
      scanBytes (String.ofList (before ++ cs)) marker inLiteral (bytesOf (String.ofList before)).length =
        some ((markedWords m before.getLast? inLiteral cs).map String.ofList) := by
  have hbyte : bytesOf marker = [k] := by
    rw [← String.ofList_toList (s := marker), hmarker, bytesOf_ofList, List.flatMap_singleton, hk]
  have hquote : k ≠ 0x27 := by
    rintro rfl
    exact hm.quote (eq_of_mem_utf8EncodeChar (a := '\x27') (by decide) hascii (by simp [hk]))
  -- a marker is left together with its word, so the induction is on the length of what is to be read
  induction hlength : cs.length using Nat.strongRecOn generalizing cs with
  | _ n ih =>
    intro before inLiteral
    cases cs with
    | nil => exact scanBytes_end (by rw [List.append_nil])
    | cons c cs =>
      have hbytes : bytesOf (String.ofList (before ++ c :: cs)) =
          bytesOf (String.ofList before) ++ (String.utf8EncodeChar c ++ bytesOf (String.ofList cs)) := by
        rw [bytesOf_append, bytesOf_cons]
      have hnext : ∀ inLiteral : Bool, scanBytes (String.ofList (before ++ c :: cs)) marker inLiteral
          (bytesOf (String.ofList before) ++ String.utf8EncodeChar c).length =
            some ((markedWords m (some c) inLiteral cs).map String.ofList) := by
        intro inLiteral
        have hrest := ih cs.length (by simp [← hlength]) cs rfl (before ++ [c]) inLiteral
        rwa [List.append_assoc, List.getLast?_concat, bytesOf_concat] at hrest
      by_cases hc : c = '\x27'
      · subst hc
        rw [scanBytes_quote hbytes, markedWords_cons_of_ne hm.quote.symm]
        have hrest := hnext (!inLiteral)
        rwa [List.length_append] at hrest
      by_cases hmark : c = m ∧ inLiteral = false
      · obtain ⟨rfl, rfl⟩ := hmark
        have hshorter : (cs.dropWhile isWordChar).length < n := by
          have hle := (List.dropWhile_suffix isWordChar (l := cs)).length_le
          rw [List.length_cons] at hlength
          omega
        have hrest := ih _ hshorter (cs.dropWhile isWordChar) rfl (before ++ c :: cs.takeWhile isWordChar) false
        rw [List.append_assoc, List.cons_append, List.takeWhile_append_dropWhile, List.getLast?_append,
          List.getLast?_cons, Option.some_or, ← List.getLast?_cons] at hrest
        rw [scanBytes_marker hmarker hk hquote, hrest, markedWords_marker hm, Option.map_some, List.map_append,
          apply_ite (List.map _)]
        rfl
      · have hpassed : ∀ b ∈ String.utf8EncodeChar c, b ≠ 0x27 ∧ (inLiteral = true ∨ b ≠ k) := by
          intro b hb
          constructor
          · rintro rfl
            exact hc (eq_of_mem_utf8EncodeChar (by decide) (by decide) hb)
          · cases inLiteral with
            | true => exact .inl rfl
            | false =>
              refine .inr ?_
              rintro rfl
              exact hmark ⟨eq_of_mem_utf8EncodeChar hk hascii hb, rfl⟩
        rw [scanBytes_passAll hbyte _ hpassed _ hbytes, hnext, markedWords, literalThrough_of_ne hc,
          if_neg fun hfound => hmark ⟨hfound.1, hfound.2.1⟩, List.nil_append]

end

/-! ## The placeholders of a text -/

theorem isMark_and_byte {m : Char} (hm : m = ':' ∨ m = '@' ∨ m = '?') :
    IsMark m ∧ ∃ k, String.utf8EncodeChar m = [k] ∧ k < 128 := by
  obtain rfl | rfl | rfl := hm <;> refine ⟨⟨?_, ?_, ?_⟩, _, rfl, ?_⟩ <;> decide

/-- For each marker of a built-in dialect and every text, the scan by bytes comes to an end without a cut inside a
character. It finds the placeholders, which are, in the order of their places, exactly the longest runs of word
characters that stand right behind a marker which is outside literals and next to no other. -/
theorem placeholders_are_marked_runs {m : Char} (hm : m = ':' ∨ m = '@' ∨ m = '?') (sql : String) :
    scanBytes sql (String.singleton m) false 0 = some (placeholders sql (String.singleton m)) ∧
      ∃ places : List (Nat × List Char), places.Pairwise (fun p q => p.1 < q.1) ∧
        (∀ start run, (start, run) ∈ places ↔
          IsRun sql.toList start run ∧ ∃ i, start = i + 1 ∧ MarksAt m sql.toList i) ∧
        placeholders sql (String.singleton m) = places.map fun p => String.ofList p.2 := by
  obtain ⟨hmark, k, hk, hascii⟩ := isMark_and_byte hm
  have hmarker : (String.singleton m).toList = [m] := String.toList_singleton m
  have hfound := placeholders_eq_markedWords hmark hmarker sql
  have hmarks := markedWords_eq_marks m sql.toList []
  have hbytes := scanBytes_eq hmark hmarker hk hascii sql.toList [] false
  rw [List.nil_append, String.ofList_toList] at hbytes
  refine ⟨hbytes.trans (by rw [hfound]; rfl),
    (marks m sql.toList 0 sql.toList.length).map fun i => (i + 1, wordAt sql.toList (i + 1)), ?_, ?_, ?_⟩
  · have hrange : (List.range' 0 sql.toList.length).Pairwise (· < ·) := List.pairwise_lt_range'
    rw [List.pairwise_map]
    exact (hrange.filter _).imp fun hlt => Nat.succ_lt_succ hlt
  · intro start run
    simp only [List.mem_map, marks, List.mem_filter, List.mem_range'_1, decide_eq_true_eq, Prod.mk.injEq]
    constructor
    · rintro ⟨i, ⟨-, hi, hne⟩, rfl, rfl⟩
      exact ⟨(isRun_iff hmark.word hi.marker _).mpr ⟨hne, rfl⟩, i, rfl, hi⟩
    · rintro ⟨hrun, i, rfl, hi⟩
      obtain ⟨hne, rfl⟩ := (isRun_iff hmark.word hi.marker run).mp hrun
      have hlt : i < sql.toList.length := (List.getElem?_eq_some_iff.mp hi.marker).1
      exact ⟨i, ⟨⟨Nat.zero_le i, by omega⟩, hi, hne⟩, rfl, rfl⟩
  · rw [hfound, List.map_map]
    show (markedWords m ([] : List Char).getLast? (literalAfter false []) sql.toList).map String.ofList = _
    rw [hmarks, List.map_map]
    rfl

/-- Behind characters of several bytes, in a literal, at a cast and at both ends of the text. -/
theorem parameters_between_letters :
    let sql := ":a = é:né and y = '::skip' or b = ?:b_1::int, ':':t"
    scanBytes sql (String.singleton ':') false 0 = some ["a", "n", "b_1", "t"] ∧
      ∃ places : List (Nat × List Char), (7, ['n']) ∈ places ∧ places.map (fun p => String.ofList p.2) =
        ["a", "n", "b_1", "t"] := by
  intro sql
  have hfound : placeholders sql (String.singleton ':') = ["a", "n", "b_1", "t"] := by decide
  obtain ⟨hbytes, places, -, hplaces, hnames⟩ := placeholders_are_marked_runs (m := ':') (.inl rfl) sql
  rw [hfound] at hbytes hnames
  have hmarks : MarksAt ':' sql.toList 6 := by decide
  have hrun : IsRun sql.toList 7 ['n'] := (isRun_iff (by decide) hmarks.marker _).mpr (by decide)
  exact ⟨hbytes, places, (hplaces 7 ['n']).mpr ⟨hrun, 6, rfl, hmarks⟩, hnames.symm⟩

end SqlMapping
