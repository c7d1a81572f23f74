import SqlMapping.Row.Binder

/-!
# Texts that are scanned for placeholders

`Finds m s words`: wherever the text `s` stands, a scan for the marker `m` finds these words in it. Plain
text holds none, a marked word holds itself, and texts are put together where no word runs on.
-/

namespace SqlMapping

def IsWord (s : String) : Prop := s ≠ "" ∧ s.toList.all isWordChar = true

/-- Characters that neither begin a literal nor mark a parameter in any built-in dialect. -/
def isPlain (c : Char) : Bool := c != '\x27' && c != ':' && c != '@' && c != '?'

def Plain (s : String) : Prop := s.toList.all isPlain = true

instance (s : String) : Decidable (IsWord s) := inferInstanceAs (Decidable (_ ∧ _))

instance (s : String) : Decidable (Plain s) := inferInstanceAs (Decidable (_ = _))

def EndsWord (cs : List Char) : Prop := ∀ c ∈ cs.head?, isWordChar c = false

instance : (cs : List Char) → Decidable (EndsWord cs)
  | [] => isTrue (by simp [EndsWord])
  | c :: _ => decidable_of_iff (isWordChar c = false) (by simp [EndsWord])

theorem EndsWord.append {cs cs' : List Char} (h : EndsWord cs) (h' : cs = [] → EndsWord cs') :
    EndsWord (cs ++ cs') := by
  cases cs with
  | nil => exact h' rfl
  | cons c cs => exact h

theorem isPlain_of_isWordChar {c : Char} (h : isWordChar c = true) : isPlain c = true := by
  simp only [isPlain, Bool.and_eq_true, bne_iff_ne, ne_eq]
  refine ⟨⟨⟨?_, ?_⟩, ?_⟩, ?_⟩ <;> rintro rfl <;> revert h <;> decide

theorem IsWord.plain {s : String} (h : IsWord s) : Plain s :=
  List.all_eq_true.mpr fun c hc => isPlain_of_isWordChar (List.all_eq_true.mp h.2 c hc)

theorem IsWord.toList_eq_cons {s : String} (h : IsWord s) :
    ∃ c cs, s.toList = c :: cs ∧ isWordChar c = true := by
  cases hs : s.toList with
  | nil => exact absurd (String.toList_eq_nil_iff.mp hs) h.1
  | cons c cs => exact ⟨c, cs, rfl, List.all_eq_true.mp h.2 c (by simp [hs])⟩

theorem Plain.append {s t : String} (h : Plain s) (h' : Plain t) : Plain (s ++ t) := by
  simp only [Plain, String.toList_append, List.all_append, Bool.and_eq_true] at *
  exact ⟨h, h'⟩

theorem Plain.intercalate {sep : String} (hsep : Plain sep) : ∀ {ts : List String}, (∀ t ∈ ts, Plain t) →
    Plain (sep.intercalate ts)
  | [], _ => by rw [String.intercalate_nil]; decide
  | [t], h => by rw [String.intercalate_singleton]; exact h t List.mem_cons_self
  | t :: u :: ts, h => by
    rw [String.intercalate_cons_cons]
    exact ((h t List.mem_cons_self).append hsep).append
      (hsep.intercalate fun t ht => h t (List.mem_cons_of_mem _ ht))

/-! ## Steps of the scan -/

section
variable {m : Char} {before rest : List Char}

theorem scan_skip (marker : List Char) (inLiteral : Bool) (cs rest : List Char) : ∀ before : List Char,
    scanPlaceholders marker before inLiteral cs.length (cs ++ rest) =
      scanPlaceholders marker (cs.reverse ++ before) inLiteral 0 rest := by
  induction cs with
  | nil => intro before; rfl
  | cons c cs ih =>
    intro before
    rw [List.cons_append, List.length_cons, scanPlaceholders, ih, List.reverse_cons, List.append_assoc]
    rfl

theorem scan_plain (hm : isPlain m = false) {cs : List Char} (h : cs.all isPlain = true) :
    ∀ before rest : List Char, scanPlaceholders [m] before false 0 (cs ++ rest) =
      scanPlaceholders [m] (cs.reverse ++ before) false 0 rest := by
  induction cs with
  | nil => intro before rest; rfl
  | cons c cs ih =>
    intro before rest
    simp only [List.all_cons, Bool.and_eq_true] at h
    have hquote : c ≠ '\x27' := by rintro rfl; exact absurd h.1 (by decide)
    have hmark : m ≠ c := by rintro rfl; rw [hm] at h; cases h.1
    have hprefix : [m].isPrefixOf (c :: (cs ++ rest)) = false := by simp [List.isPrefixOf, hmark]
    rw [List.cons_append, scanPlaceholders, if_neg hquote, hprefix, if_pos (by rfl), ih h.2, List.reverse_cons,
      List.append_assoc]
    rfl

theorem takeWhile_word {word rest : List Char} (h : word.all isWordChar = true) (hrest : EndsWord rest) :
    (word ++ rest).takeWhile isWordChar = word := by
  rw [List.takeWhile_append_of_pos (List.all_eq_true.mp h)]
  cases rest with
  | nil => simp
  | cons c rest =>
    have hc : isWordChar c = false := hrest c rfl
    rw [List.takeWhile_cons, hc]
    exact List.append_nil word

theorem scan_marked (hm : isPlain m = false) (hquote : m ≠ '\x27') {c : Char} {cs : List Char}
    (hword : (c :: cs).all isWordChar = true) (hbefore : before.head? ≠ some m) (hrest : EndsWord rest) :
    scanPlaceholders [m] before false 0 (m :: (c :: cs ++ rest)) =
      (c :: cs) :: scanPlaceholders [m] ((c :: cs).reverse ++ m :: before) false 0 rest := by
  have hc : m ≠ c := by
    rintro rfl
    simp only [List.all_cons, Bool.and_eq_true] at hword
    rw [isPlain_of_isWordChar hword.1] at hm
    cases hm
  have hafter : [m].isPrefixOf (c :: cs ++ rest) = false := by simp [List.isPrefixOf, hc]
  have hdoubled : [m].reverse.isPrefixOf before = false := by
    cases before with
    | nil => rfl
    | cons b before => simp at hbefore; simp [List.isPrefixOf, Ne.symm hbefore]
  have hskip : [m].length + (c :: cs).length - 1 = (c :: cs).length := by simp
  have hself : [m].isPrefixOf (m :: (c :: cs ++ rest)) = true := by simp [List.isPrefixOf]
  rw [scanPlaceholders, if_neg hquote, hself, if_neg (by simp)]
  simp only [List.length_singleton, List.drop_succ_cons, List.drop_zero, takeWhile_word hword hrest, hafter,
    hdoubled]
  rw [List.length_singleton] at hskip
  rw [hskip, scan_skip]
  rfl

end

/-! ## Texts put together -/

/-- Between any texts, if no marker stands right before and the last word ends, a scan for the marker
finds these words. The text does not end with the marker. -/
structure Finds (m : Char) (s : String) (words : List String) : Prop where
  last : s.toList.getLast? ≠ some m
  scan : ∀ before rest : List Char, before.head? ≠ some m → EndsWord rest →
    scanPlaceholders [m] before false 0 (s.toList ++ rest) =
      words.map String.toList ++ scanPlaceholders [m] (s.toList.reverse ++ before) false 0 rest

section
variable {m : Char} {s t : String} {words words' : List String}

theorem getLast?_of_plain (hm : isPlain m = false) (h : Plain s) : s.toList.getLast? ≠ some m := by
  intro hlast
  have := List.all_eq_true.mp h m (List.mem_of_getLast? hlast)
  rw [hm] at this
  cases this

theorem getLast?_append_ne (hs : s.toList.getLast? ≠ some m) (ht : t.toList.getLast? ≠ some m) :
    (s ++ t).toList.getLast? ≠ some m := by
  rw [String.toList_append, List.getLast?_append]
  cases hlast : t.toList.getLast? with
  | none => exact hs
  | some c => rw [← hlast]; simpa [hlast] using ht

theorem Plain.finds (hm : isPlain m = false) (h : Plain s) : Finds m s [] where
  last := getLast?_of_plain hm h
  scan before rest _ _ := scan_plain hm h before rest

theorem finds_marked (hm : isPlain m = false) (hquote : m ≠ '\x27') {marker : String}
    (hmarker : marker.toList = [m]) (h : IsWord s) : Finds m (marker ++ s) [s] := by
  obtain ⟨c, cs, hs, hc⟩ := h.toList_eq_cons
  have htext : (marker ++ s).toList = m :: c :: cs := by rw [String.toList_append, hmarker, hs]; rfl
  refine ⟨?_, ?_⟩
  · rw [htext, List.getLast?_cons_cons, ← hs]
    exact getLast?_of_plain hm h.plain
  · intro before rest hbefore hrest
    rw [htext, List.cons_append, scan_marked hm hquote (hs ▸ h.2) hbefore hrest]
    simp [hs]

theorem Finds.head?_ne (h : Finds m s words) {before : List Char} (hbefore : before.head? ≠ some m) :
    (s.toList.reverse ++ before).head? ≠ some m := by
  rw [List.head?_append, List.head?_reverse]
  cases hlast : s.toList.getLast? with
  | none => exact hbefore
  | some c => rw [← hlast]; simpa [hlast] using h.last

theorem Finds.append (h : Finds m s words) (h' : Finds m t words') (hends : EndsWord t.toList) :
    Finds m (s ++ t) (words ++ words') where
  last := getLast?_append_ne h.last h'.last
  scan before rest hbefore hrest := by
    have hnext : EndsWord (t.toList ++ rest) := hends.append fun _ => hrest
    rw [String.toList_append, List.append_assoc, h.scan before _ hbefore hnext,
      h'.scan _ rest (h.head?_ne hbefore) hrest, List.map_append, List.append_assoc, List.reverse_append,
      List.append_assoc]

/-- A word may run on after plain text, for nothing in it is marked. -/
theorem Plain.append_finds (hm : isPlain m = false) (h : Plain s) (h' : Finds m t words) :
    Finds m (s ++ t) words where
  last := getLast?_append_ne (getLast?_of_plain hm h) h'.last
  scan before rest hbefore hrest := by
    rw [String.toList_append, List.append_assoc, scan_plain hm h,
      h'.scan _ rest ((h.finds hm).head?_ne hbefore) hrest, List.reverse_append, List.append_assoc]

theorem finds_intercalate {α : Type} (hm : isPlain m = false) {sep : String} (hsep : Plain sep)
    (hne : sep.toList ≠ []) (hends : EndsWord sep.toList) {text word : α → String} :
    ∀ {xs : List α}, (∀ x ∈ xs, Finds m (text x) [word x]) →
      Finds m (sep.intercalate (xs.map text)) (xs.map word)
  | [], _ => by
    rw [List.map_nil, String.intercalate_nil]
    exact Plain.finds hm (by decide)
  | [x], h => by
    rw [List.map_singleton, String.intercalate_singleton]
    exact h x List.mem_cons_self
  | x :: y :: xs, h => by
    have hrest := finds_intercalate hm hsep hne hends fun z hz => h z (List.mem_cons_of_mem x hz)
    rw [List.map_cons, List.map_cons, String.intercalate_cons_cons, String.append_assoc]
    refine (h x List.mem_cons_self).append (hsep.append_finds hm hrest) ?_
    rw [String.toList_append]
    exact hends.append fun hnil => absurd hnil hne

theorem Finds.placeholders {marker : String} (hmarker : marker.toList = [m]) (h : Finds m s words) :
    placeholders s marker = words := by
  have hempty : marker.isEmpty = false := by
    cases he : marker.isEmpty with
    | false => rfl
    | true => rw [String.isEmpty_iff.mp he] at hmarker; cases hmarker
  have hscan := h.scan [] [] (by simp) (by intro c hc; cases hc)
  rw [List.append_nil] at hscan
  rw [SqlMapping.placeholders, hempty, hmarker, if_neg (by simp), hscan, scanPlaceholders, List.append_nil]
  simp

end

end SqlMapping
