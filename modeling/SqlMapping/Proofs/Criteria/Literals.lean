import SqlMapping.Proofs.Criteria.Spelling
import SqlMapping.Proofs.Text.Digits
import Mathlib.Data.List.TakeWhile

/-!
# Literals

A literal is null, a boolean, a number with an optional sign, text between apostrophes or a binary literal, and
`Dialect.readLiteral` takes one from the front of a text. `readLiteral_literal`: before a blank, a comma, a closing
parenthesis or the end, it takes what a value is spelled as, all of it and no more, if a decimal is a number.
-/

namespace SqlMapping

/-! ## Readers -/

abbrev TextReader := List Char → Option (List Char)

def skip : List Char → TextReader
  | [], cs => some cs
  | _ :: _, [] => none
  | w :: ws, c :: cs => if c = w then skip ws cs else none

def readWord (word : String) : TextReader := fun cs =>
  (skip word.toList cs).filter fun rest => !rest.head?.any isWordChar

def skipSign : List Char → List Char
  | [] => []
  | c :: cs => if c = '+' ∨ c = '-' then cs else c :: cs

def readDigits : TextReader := fun cs =>
  if cs.head?.any Char.isDigit then some (cs.dropWhile Char.isDigit) else none

def skipFraction : List Char → List Char
  | [] => []
  | c :: cs => if c = '.' then cs.dropWhile Char.isDigit else c :: cs

def readMantissa : TextReader := fun cs =>
  match readDigits cs with
  | some rest => some (skipFraction rest)
  | none => (skip ['.'] cs).bind readDigits

def skipExponent : List Char → List Char
  | [] => []
  | c :: cs => if c = 'e' ∨ c = 'E' then (readDigits (skipSign cs)).getD (c :: cs) else c :: cs

def readNumeral : TextReader := fun cs => (readMantissa (skipSign cs)).map skipExponent

/-- The text up to the apostrophe that closes it, and what is behind. A doubled apostrophe stands for one, and where
there are escapes a backslash makes any character stand for itself. -/
def readQuoted (escapes : Bool) : List Char → Option (List Char × List Char)
  | [] => none
  | [c] => if c = '\x27' then some ([], []) else none
  | c :: c' :: cs =>
    if c = '\x27' then
      if c' = '\x27' then (readQuoted escapes cs).map fun r => (c' :: r.1, r.2) else some ([], c' :: cs)
    else if escapes = true ∧ c = '\\' then (readQuoted escapes cs).map fun r => (c' :: r.1, r.2)
    else (readQuoted escapes (c' :: cs)).map fun r => (c :: r.1, r.2)

def isHexDigit (c : Char) : Bool := (Hex.digitValue? c).isSome

inductive LiteralForm where
  | null
  | boolean
  | numeral
  | string
  | binary
  deriving DecidableEq

namespace Dialect

variable (d : Dialect)

def readForm : LiteralForm → TextReader
  | .null => readWord "null"
  | .boolean => fun cs => readWord d.trueLiteral cs <|> readWord d.falseLiteral cs
  | .numeral => readNumeral
  | .string => fun cs => ((skip ['\x27'] cs).bind (readQuoted d.doubleBackslash)).map Prod.snd
  | .binary => fun cs => (skip d.binaryOpen.toList cs).bind fun cs =>
    skip d.binaryClose.toList (cs.dropWhile isHexDigit)

/-- Takes a literal of the first form that there is. A binary literal may begin as a string or a number does. -/
def readLiteral : TextReader := fun cs =>
  [.binary, .string, .numeral, .boolean, .null].findSome? fun form => d.readForm form cs

end Dialect

def Value.form : Value → LiteralForm
  | .null => .null
  | .bool _ => .boolean
  | .int8 _ | .int16 _ | .int32 _ | .int64 _ | .uint8 _ | .single _ | .double _ | .decimal _ => .numeral
  | .string _ | .timestamp _ | .uuid _ => .string
  | .bytes _ => .binary

/-! ## Taking what is before a rest -/

theorem skip_append (ws cs : List Char) : skip ws (ws ++ cs) = some cs := by
  induction ws with
  | nil => rfl
  | cons w ws ih => rw [List.cons_append, skip, if_pos rfl, ih]

theorem eq_append_of_skip {ws rest : List Char} : ∀ {cs : List Char}, skip ws cs = some rest → cs = ws ++ rest := by
  induction ws with
  | nil => intro cs h; exact Option.some.inj h
  | cons w ws ih =>
    rintro (_ | ⟨c, cs⟩) h
    · cases h
    · rw [skip] at h
      split at h
      · rename_i hc
        rw [hc, ih h, List.cons_append]
      · cases h

theorem EndsOperand.eq_nil_or_cons {rest : List Char} (h : EndsOperand rest) :
    rest = [] ∨ ∃ c cs, rest = c :: cs ∧ (c = ' ' ∨ c = ')' ∨ c = ',') := by
  cases rest with
  | nil => exact .inl rfl
  | cons c cs => exact .inr ⟨c, cs, rfl, by simpa using h c rfl⟩

section
variable {rest : List Char} (hrest : EndsOperand rest)
include hrest

theorem skipSign_append (cs : List Char) : skipSign (cs ++ rest) = skipSign cs ++ rest := by
  cases cs with
  | nil => obtain rfl | ⟨c, cs, rfl, rfl | rfl | rfl⟩ := hrest.eq_nil_or_cons <;> rfl
  | cons c cs =>
    rw [List.cons_append, skipSign, skipSign]
    split <;> rfl

theorem dropWhile_isDigit_append (cs : List Char) :
    (cs ++ rest).dropWhile Char.isDigit = cs.dropWhile Char.isDigit ++ rest := by
  have hdrop : rest.dropWhile Char.isDigit = rest := by
    obtain rfl | ⟨c, cs, rfl, rfl | rfl | rfl⟩ := hrest.eq_nil_or_cons <;> rfl
  rw [List.dropWhile_append, hdrop]
  split
  · rename_i hnil
    rw [List.isEmpty_iff.mp hnil, List.nil_append]
  · rfl

theorem readDigits_append (cs : List Char) : readDigits (cs ++ rest) = (readDigits cs).map (· ++ rest) := by
  cases cs with
  | nil => obtain rfl | ⟨c, cs, rfl, rfl | rfl | rfl⟩ := hrest.eq_nil_or_cons <;> rfl
  | cons c cs =>
    rw [readDigits, readDigits, dropWhile_isDigit_append hrest, List.cons_append, List.head?_cons, List.head?_cons]
    split <;> rfl

theorem skipFraction_append (cs : List Char) : skipFraction (cs ++ rest) = skipFraction cs ++ rest := by
  cases cs with
  | nil => obtain rfl | ⟨c, cs, rfl, rfl | rfl | rfl⟩ := hrest.eq_nil_or_cons <;> rfl
  | cons c cs =>
    rw [List.cons_append, skipFraction, skipFraction, dropWhile_isDigit_append hrest]
    split <;> rfl

theorem readMantissa_append (cs : List Char) : readMantissa (cs ++ rest) = (readMantissa cs).map (· ++ rest) := by
  rw [readMantissa, readMantissa, readDigits_append hrest]
  cases readDigits cs with
  | some more => exact congrArg some (skipFraction_append hrest more)
  | none =>
    cases cs with
    | nil => obtain rfl | ⟨c, cs, rfl, rfl | rfl | rfl⟩ := hrest.eq_nil_or_cons <;> rfl
    | cons c cs =>
      simp only [List.cons_append, skip, Option.map_none]
      split
      · exact readDigits_append hrest cs
      · rfl

theorem skipExponent_append (cs : List Char) : skipExponent (cs ++ rest) = skipExponent cs ++ rest := by
  cases cs with
  | nil => obtain rfl | ⟨c, cs, rfl, rfl | rfl | rfl⟩ := hrest.eq_nil_or_cons <;> rfl
  | cons c cs =>
    rw [List.cons_append, skipExponent, skipExponent, skipSign_append hrest, readDigits_append hrest]
    split
    · cases readDigits (skipSign cs) <;> rfl
    · rfl

theorem readNumeral_append (cs : List Char) : readNumeral (cs ++ rest) = (readNumeral cs).map (· ++ rest) := by
  rw [readNumeral, readNumeral, skipSign_append hrest, readMantissa_append hrest, Option.map_map, Option.map_map]
  refine Option.map_congr fun more _ => ?_
  exact skipExponent_append hrest more

end

/-! ## Numbers -/

def IsDigits (cs : List Char) : Prop := cs ≠ [] ∧ ∀ c ∈ cs, c.isDigit = true

def IsNumeral (s : String) : Prop := readNumeral s.toList = some []

/-- A decimal is spelled as the text it holds, which is to be a number. -/
def Value.ProperDecimal (v : Value) : Prop := ∀ s, v = .decimal s → IsNumeral s

theorem isDigits_toString (n : Nat) : IsDigits (toString n).toList := by
  have hdigits : (toString n).toList = Nat.toDigits 10 n := Nat.toList_repr
  rw [hdigits]
  exact ⟨Nat.toDigits_ne_nil, isDigit_toDigits n⟩

theorem IsDigits.append {cs cs' : List Char} (h : IsDigits cs) (h' : ∀ c ∈ cs', c.isDigit = true) :
    IsDigits (cs ++ cs') :=
  ⟨fun hnil => h.1 (List.append_eq_nil_iff.mp hnil).1, List.forall_mem_append.mpr ⟨h.2, h'⟩⟩

section
variable {cs : List Char} (h : IsDigits cs)
include h

theorem IsDigits.eq_cons : ∃ c cs', cs = c :: cs' ∧ c.isDigit = true := by
  cases cs with
  | nil => exact absurd rfl h.1
  | cons c cs' => exact ⟨c, cs', rfl, h.2 c List.mem_cons_self⟩

theorem readDigits_of_isDigits (rest : List Char) : readDigits (cs ++ rest) = some (rest.dropWhile Char.isDigit) := by
  obtain ⟨c, cs', hcs, hc⟩ := h.eq_cons
  rw [readDigits, List.dropWhile_append_of_pos h.2, if_pos (by simp [hcs, hc])]

theorem skipSign_of_isDigits (rest : List Char) : skipSign (cs ++ rest) = cs ++ rest := by
  obtain ⟨c, cs', rfl, hc⟩ := h.eq_cons
  have hsign : ¬ (c = '+' ∨ c = '-') := by
    rintro (rfl | rfl) <;> cases hc
  rw [List.cons_append, skipSign, if_neg hsign]

theorem readNumeral_of_isDigits : readNumeral cs = some [] := by
  have hdigits := readDigits_of_isDigits h []
  have hsign := skipSign_of_isDigits h []
  rw [List.append_nil] at hdigits hsign
  rw [readNumeral, hsign, readMantissa, hdigits]
  rfl

theorem readNumeral_of_fraction {fraction : List Char} (hfraction : ∀ c ∈ fraction, c.isDigit = true) :
    readNumeral (cs ++ '.' :: fraction) = some [] := by
  have hpoint : ('.' :: fraction).dropWhile Char.isDigit = '.' :: fraction := rfl
  have hrest : fraction.dropWhile Char.isDigit = [] := List.dropWhile_eq_nil_iff.mpr hfraction
  rw [readNumeral, skipSign_of_isDigits h, readMantissa, readDigits_of_isDigits h, hpoint]
  simp only [skipFraction, if_pos, hrest, Option.map_some, skipExponent]

end

structure IsMagnitude (s : String) : Prop where
  head : ∃ c cs, s.toList = c :: cs ∧ c.isDigit = true
  numeral : IsNumeral s

theorem isMagnitude_of_isDigits {s : String} (h : IsDigits s.toList) : IsMagnitude s :=
  ⟨h.eq_cons, readNumeral_of_isDigits h⟩

theorem isMagnitude_of_fraction {s : String} {whole fraction : List Char} (hs : s.toList = whole ++ '.' :: fraction)
    (hwhole : IsDigits whole) (hfraction : ∀ c ∈ fraction, c.isDigit = true) : IsMagnitude s := by
  obtain ⟨c, cs, rfl, hc⟩ := hwhole.eq_cons
  refine ⟨⟨c, cs ++ '.' :: fraction, hs, hc⟩, ?_⟩
  rw [IsNumeral, hs]
  exact readNumeral_of_fraction hwhole hfraction

theorem IsMagnitude.signed {s : String} (h : IsMagnitude s) (negative : Bool) :
    IsNumeral ((if negative then "-" else "") ++ s) := by
  cases negative with
  | false =>
    rw [if_neg (by decide), String.empty_append]
    exact h.numeral
  | true =>
    obtain ⟨⟨c, cs, hs, hc⟩, hnumeral⟩ := h
    have hsign : ¬ (c = '+' ∨ c = '-') := by
      rintro (rfl | rfl) <;> cases hc
    rw [IsNumeral, readNumeral, hs, skipSign, if_neg hsign] at hnumeral
    rw [IsNumeral, readNumeral, if_pos rfl, String.toList_append, hs]
    exact hnumeral

theorem isMagnitude_nat (n : Nat) : IsMagnitude (toString n) := isMagnitude_of_isDigits (isDigits_toString n)

theorem isNumeral_int (n : Int) : IsNumeral (toString n) := by
  cases n with
  | ofNat n => exact (isMagnitude_nat n).numeral
  | negSucc n => exact (isMagnitude_nat (n + 1)).signed true

theorem isMagnitude_positional (d : DecimalDigits) : IsMagnitude (d.positional false) := by
  have hdigits := isDigits_toString d.digits
  simp only [DecimalDigits.positional]
  generalize toString d.digits = ds at hdigits
  split
  · refine isMagnitude_of_isDigits ?_
    rw [if_neg (by decide), String.append_empty, String.toList_append, toList_pushn]
    exact hdigits.append fun c hc => isDigit_of_mem_zeros (List.nil_append _ ▸ hc)
  split
  · rename_i _ hpoint
    have htext : ("." : String).toList = ['.'] := rfl
    have hwhole : IsDigits (ds.toList.take (ds.length + d.exponent).toNat) := by
      refine ⟨?_, fun c hc => hdigits.2 c (List.mem_of_mem_take hc)⟩
      have hne := hdigits.1
      simp only [ne_eq, List.take_eq_nil_iff, not_or]
      exact ⟨by omega, hne⟩
    have hfraction : ∀ c ∈ ds.toList.drop (ds.length + d.exponent).toNat, c.isDigit = true :=
      fun c hc => hdigits.2 c (List.mem_of_mem_drop hc)
    refine isMagnitude_of_fraction ?_ hwhole hfraction
    simp only [String.toList_append, String.toList_ofList, htext, List.append_assoc, List.singleton_append]
  · have hwhole : IsDigits ['0'] := ⟨by simp, by simp⟩
    have hfraction : ∀ c ∈ List.replicate (-(ds.length + d.exponent)).toNat '0' ++ ds.toList, c.isDigit = true :=
      List.forall_mem_append.mpr ⟨fun c hc => isDigit_of_mem_zeros hc, hdigits.2⟩
    refine isMagnitude_of_fraction ?_ hwhole hfraction
    simp [toList_pushn]

theorem isNumeral_finite (f : FloatFormat) {x : FloatValue} (hx : x.isFinite = true) :
    IsNumeral (f.text .plain x) := by
  cases x with
  | notANumber | infinite _ => cases hx
  | finite negative m q =>
    refine IsMagnitude.signed ?_ negative
    rw [FloatFormat.magnitudeText]
    split
    · exact isMagnitude_nat 0
    · exact isMagnitude_positional _

/-! ## Text and bytes -/

theorem readQuoted_cons_of_ne {escapes : Bool} {c : Char} (hquote : c ≠ '\x27')
    (hescape : ¬ (escapes = true ∧ c = '\\')) (cs : List Char) : readQuoted escapes (c :: cs) = (readQuoted escapes cs).map fun r => (c :: r.1, r.2) := by
  cases cs with
  | nil => simp [readQuoted, hquote]
  | cons c' cs => rw [readQuoted, if_neg hquote, if_neg hescape]

theorem readQuoted_of_end {escapes : Bool} {rest : List Char} (hrest : rest.head? ≠ some '\x27') :
    readQuoted escapes ('\x27' :: rest) = some ([], rest) := by
  cases rest with
  | nil => rw [readQuoted, if_pos rfl]
  | cons c rest =>
    have hc : c ≠ '\x27' := fun h => hrest (congrArg some h)
    rw [readQuoted, if_pos rfl, if_neg hc]

section
variable {rest : List Char} (hrest : rest.head? ≠ some '\x27')
include hrest

theorem readQuoted_plain (cs : List Char) :
    readQuoted false (replaceChar '\x27' ['\x27', '\x27'] cs ++ '\x27' :: rest) = some (cs, rest) := by
  induction cs with
  | nil => exact readQuoted_of_end hrest
  | cons c cs ih =>
    rw [replaceChar_cons, List.append_assoc]
    by_cases hc : c = '\x27'
    · rw [if_pos hc, hc, List.cons_append, List.cons_append, List.nil_append, readQuoted, if_pos rfl, if_pos rfl, ih]
      rfl
    · rw [if_neg hc, List.singleton_append, readQuoted_cons_of_ne hc (by simp), ih]
      rfl

theorem readQuoted_escaped (cs : List Char) :
    readQuoted true (replaceChar '\x27' ['\x27', '\x27'] (replaceChar '\\' ['\\', '\\'] cs) ++ '\x27' :: rest) =
      some (cs, rest) := by
  induction cs with
  | nil => exact readQuoted_of_end hrest
  | cons c cs ih =>
    rw [replaceChar_cons]
    by_cases hescape : c = '\\'
    · -- Written twice, the first backslash escapes the second, and no apostrophe behind them.
      have hquote : ¬ '\\' = '\x27' := by decide
      rw [if_pos hescape, hescape, List.cons_append, List.singleton_append, replaceChar_cons, if_neg hquote,
        List.singleton_append, replaceChar_cons, if_neg hquote, List.singleton_append, List.cons_append,
        List.cons_append, readQuoted, if_neg hquote, if_pos ⟨rfl, rfl⟩, ih]
      rfl
    rw [if_neg hescape, List.singleton_append, replaceChar_cons, List.append_assoc]
    by_cases hc : c = '\x27'
    · rw [if_pos hc, hc, List.cons_append, List.cons_append, List.nil_append, readQuoted, if_pos rfl, if_pos rfl, ih]
      rfl
    · rw [if_neg hc, List.singleton_append, readQuoted_cons_of_ne hc (by simp [hescape]), ih]
      rfl

theorem readQuoted_stringLiteral (d : Dialect) (s : String) :
    ∃ cs, (d.stringLiteral s).toList ++ rest = '\x27' :: cs ∧
      readQuoted d.doubleBackslash cs = some (s.toList, rest) := by
  rw [Dialect.stringLiteral, String.toList_ofList, List.cons_append, List.append_assoc]
  refine ⟨_, rfl, ?_⟩
  cases d.doubleBackslash with
  | true => exact readQuoted_escaped hrest s.toList
  | false => exact readQuoted_plain hrest s.toList

end

theorem replaceChar_eq_self {a : Char} {cs : List Char} (h : a ∉ cs) (r : List Char) : replaceChar a r cs = cs := by
  induction cs with
  | nil => rfl
  | cons c cs ih =>
    rw [List.mem_cons, not_or] at h
    rw [replaceChar_cons, if_neg (Ne.symm h.1), ih h.2, List.singleton_append]

theorem stringLiteral_eq {s : String} (hquote : '\x27' ∉ s.toList) (hescape : '\\' ∉ s.toList) (d : Dialect) :
    d.stringLiteral s = "'" ++ s ++ "'" := by
  apply String.ext
  simp only [Dialect.stringLiteral, replaceChar_eq_self hescape, ite_self, replaceChar_eq_self hquote,
    String.toList_ofList, String.toList_append]
  rfl

def isMomentChar (c : Char) : Bool := c.isDigit || ['-', '+', ' ', ':', '.'].contains c

def MomentText (s : String) : Prop := s.toList.all isMomentChar = true

instance (s : String) : Decidable (MomentText s) := inferInstanceAs (Decidable (_ = _))

theorem MomentText.append {s t : String} (hs : MomentText s) (ht : MomentText t) : MomentText (s ++ t) := by
  simp only [MomentText, String.toList_append, List.all_append, Bool.and_eq_true] at *
  exact ⟨hs, ht⟩

theorem momentText_padded (width n : Nat) : MomentText (padded width n) := by
  refine List.all_eq_true.mpr fun c hc => ?_
  rw [isMomentChar, isDigit_padded width n c hc, Bool.true_or]

theorem momentText_yearText (y : Int) : MomentText (Moment.yearText y) := by
  unfold Moment.yearText
  split
  · exact momentText_padded 4 _
  · refine MomentText.append ?_ (momentText_padded 4 _)
    split <;> decide

theorem momentText_spaced (m : Moment) : MomentText m.spaced := by
  have hdate : MomentText (Moment.dateText m.date) := by
    have hyear := momentText_yearText m.date.year
    exact (((hyear.append (by decide)).append (momentText_padded 2 _)).append (by decide)).append
      (momentText_padded 2 _)
  have htime : MomentText (Moment.timeText m.second) :=
    ((((momentText_padded 2 _).append (by decide)).append (momentText_padded 2 _)).append (by decide)).append
      (momentText_padded 2 _)
  exact (((hdate.append (by decide)).append htime).append (by decide)).append (momentText_padded 6 _)

theorem MomentText.not_mem {s : String} (h : MomentText s) {c : Char} (hc : isMomentChar c = false) :
    c ∉ s.toList := by
  intro hmem
  rw [List.all_eq_true.mp h c hmem] at hc
  cases hc

theorem isHexDigit_encodeByte (b : UInt8) : ∀ c ∈ Hex.encodeByte b, isHexDigit c = true := by
  have hall : ∀ n < 16, isHexDigit (Hex.digit n) = true := by decide
  have hb := b.toNat_lt
  simp only [Hex.encodeByte, List.forall_mem_cons]
  exact ⟨hall _ (by omega), hall _ (by omega), by simp⟩

theorem isHexDigit_encode (bs : List UInt8) : ∀ c ∈ (Hex.encode bs).toList, isHexDigit c = true := by
  intro c hc
  rw [Hex.encode, String.toList_ofList, Hex.encodeChars, List.mem_flatMap] at hc
  obtain ⟨b, _, hb⟩ := hc
  exact isHexDigit_encodeByte b c hb

/-! ## Literals of values -/

theorem readWord_append {word : String} {rest : List Char} (hrest : EndsOperand rest) :
    readWord word (word.toList ++ rest) = some rest := by
  have hends : (!rest.head?.any isWordChar) = true := by
    obtain rfl | ⟨c, cs, rfl, rfl | rfl | rfl⟩ := hrest.eq_nil_or_cons <;> rfl
  rw [readWord, skip_append, Option.filter_some, if_pos hends]

theorem skip_eq_none {w c : Char} (h : c ≠ w) (ws cs : List Char) : skip (w :: ws) (c :: cs) = none := by
  rw [skip, if_neg h]

theorem readNumeral_eq_none {c : Char} (hc : isMomentChar c = false) (cs : List Char) :
    readNumeral (c :: cs) = none := by
  simp only [isMomentChar, Bool.or_eq_false_iff, List.contains_eq_mem, decide_eq_false_iff_not, List.mem_cons,
    not_or] at hc
  obtain ⟨hdigit, hminus, hplus, -, -, hpoint, -⟩ := hc
  have hdigits : readDigits (c :: cs) = none := by
    rw [readDigits, List.head?_cons, Option.any_some, hdigit, if_neg (by decide)]
  rw [readNumeral, skipSign, if_neg (by simp [hplus, hminus]), readMantissa, hdigits]
  simp only [skip_eq_none hpoint, Option.bind_none, Option.map_none]

namespace Dialect

structure SpellsLiterals (d : Dialect) : Prop where
  booleans : (d.trueLiteral = "true" ∧ d.falseLiteral = "false") ∨ (d.trueLiteral = "1" ∧ d.falseLiteral = "0")
  binary : (d.binaryOpen = "X'" ∧ d.binaryClose = "'") ∨ (d.binaryOpen = "0x" ∧ d.binaryClose = "") ∨
    (d.binaryOpen = "hextoraw('" ∧ d.binaryClose = "')") ∨
    (d.binaryOpen = "'\\x" ∧ d.binaryClose = "'::bytea" ∧ d.doubleBackslash = false)

theorem spellsLiterals_of_builtIn {d : Dialect} (h : d ∈ builtIn) : d.SpellsLiterals := by
  simp only [builtIn, List.mem_cons, List.not_mem_nil, or_false] at h
  obtain rfl | rfl | rfl | rfl | rfl | rfl := h <;> exact ⟨by decide, by decide⟩

section
variable {d : Dialect} {rest : List Char} (hd : d.SpellsLiterals) (hrest : EndsOperand rest)

include hd hrest in
theorem readForm_binaryLiteral (bs : List UInt8) :
    d.readForm .binary ((d.binaryLiteral bs).toList ++ rest) = some rest := by
  have hclose : (d.binaryClose.toList ++ rest).dropWhile isHexDigit = d.binaryClose.toList ++ rest := by
    rcases hd.binary with ⟨-, h⟩ | ⟨-, h⟩ | ⟨-, h⟩ | ⟨-, h, -⟩ <;> rw [h]
    · rfl
    · obtain rfl | ⟨c, cs, rfl, rfl | rfl | rfl⟩ := hrest.eq_nil_or_cons <;> rfl
    · rfl
    · rfl
  have hhex : ((Hex.encode bs).toList ++ (d.binaryClose.toList ++ rest)).dropWhile isHexDigit =
      d.binaryClose.toList ++ rest := by
    rw [List.dropWhile_append_of_pos (isHexDigit_encode bs), hclose]
  simp only [readForm, binaryLiteral, String.toList_append, List.append_assoc, skip_append, Option.bind_some, hhex]

include hrest in
theorem readForm_stringLiteral (s : String) :
    d.readForm .string ((d.stringLiteral s).toList ++ rest) = some rest := by
  have hquote : rest.head? ≠ some '\x27' := fun h => by simpa using hrest _ h
  obtain ⟨cs, hcs, hread⟩ := readQuoted_stringLiteral hquote d s
  simp only [readForm, hcs, skip, if_pos, Option.bind_some, hread, Option.map_some]

include hd hrest in
theorem readForm_booleanLiteral (b : Bool) :
    d.readForm .boolean ((d.booleanLiteral b).toList ++ rest) = some rest := by
  cases b with
  | true =>
    show (readWord d.trueLiteral _ <|> _) = _
    rw [booleanLiteral, if_pos rfl, readWord_append hrest]
    rfl
  | false =>
    have hfirst : readWord d.trueLiteral (d.falseLiteral.toList ++ rest) = none := by
      rcases hd.booleans with ⟨htrue, hfalse⟩ | ⟨htrue, hfalse⟩ <;> rw [htrue, hfalse] <;> rfl
    show (readWord d.trueLiteral _ <|> readWord d.falseLiteral _) = _
    rw [booleanLiteral, if_neg (by decide), hfirst, readWord_append hrest]
    rfl

end

theorem finiteLiteral_eq_ok {finite : Bool} {s text : String} (h : finiteLiteral finite s = .ok text) :
    finite = true ∧ s = text := by
  unfold finiteLiteral at h
  split at h
  · exact ⟨‹_›, Except.ok.inj h⟩
  · cases h

theorem isNumeral_literal {d : Dialect} {v : Value} {text : String} (hv : v.ProperDecimal)
    (hform : v.form = .numeral) (h : d.literal v = .ok text) : IsNumeral text := by
  cases v with
  | null | bool _ | string _ | bytes _ | timestamp _ | uuid _ => cases hform
  | int8 n | int16 n | int32 n | int64 n => exact Except.ok.inj h ▸ isNumeral_int n.toInt
  | uint8 n => exact Except.ok.inj h ▸ (isMagnitude_nat n.toNat).numeral
  | single x =>
    obtain ⟨hfinite, rfl⟩ := finiteLiteral_eq_ok h
    exact isNumeral_finite _ hfinite
  | double x =>
    obtain ⟨hfinite, rfl⟩ := finiteLiteral_eq_ok h
    exact isNumeral_finite _ hfinite
  | decimal s => exact Except.ok.inj h ▸ hv s rfl

theorem exists_stringLiteral {d : Dialect} {v : Value} {text : String} (hform : v.form = .string)
    (h : d.literal v = .ok text) : ∃ s, text = d.stringLiteral s := by
  cases v with
  | string s => exact ⟨s, (Except.ok.inj h).symm⟩
  | uuid u => exact ⟨u.hyphenated, (Except.ok.inj h).symm⟩
  | timestamp t =>
    -- A moment has neither apostrophes nor backslashes, so its text would be spelled as it is.
    simp only [literal, momentLiteral] at h
    split at h
    · rename_i m _
      have hchars := momentText_spaced m
      refine ⟨m.spaced, ?_⟩
      rw [stringLiteral_eq (hchars.not_mem (by decide)) (hchars.not_mem (by decide)), Except.ok.inj h]
    · cases h
  | _ => cases hform

theorem readForm_literal {d : Dialect} (hd : d.SpellsLiterals) {v : Value} {text : String}
    (hv : v.ProperDecimal) (h : d.literal v = .ok text) {rest : List Char}
    (hrest : EndsOperand rest) : d.readForm v.form (text.toList ++ rest) = some rest := by
  have hnumeral (hform : v.form = .numeral) : IsNumeral text := isNumeral_literal hv hform h
  have hstring (hform : v.form = .string) : ∃ s, text = d.stringLiteral s := exists_stringLiteral hform h
  cases v with
  | null => exact Except.ok.inj h ▸ readWord_append hrest
  | bool b => exact Except.ok.inj h ▸ readForm_booleanLiteral hd hrest b
  | bytes bs => exact Except.ok.inj h ▸ readForm_binaryLiteral hd hrest bs
  | string _ | timestamp _ | uuid _ =>
    obtain ⟨s, rfl⟩ := hstring rfl
    exact readForm_stringLiteral hrest s
  | _ =>
    have htext : readNumeral text.toList = some [] := hnumeral rfl
    show readNumeral _ = _
    rw [readNumeral_append hrest, htext]
    rfl

/-- The literal of a value is one of its form, with nothing behind it, but for that of a decimal that is no number. -/
theorem readForm_literal_iff {d : Dialect} (hd : d.SpellsLiterals) {v : Value} {text : String}
    (h : d.literal v = .ok text) : d.readForm v.form text.toList = some [] ↔ v.ProperDecimal := by
  refine ⟨?_, fun hv => ?_⟩
  · rintro hread s rfl
    obtain rfl := Except.ok.inj h
    exact hread
  · have hend : EndsOperand [] := by simp [EndsOperand]
    simpa only [List.append_nil] using readForm_literal hd hv h hend

/-! ## Which form is taken -/

theorem eq_of_readForm_binary {d : Dialect} {cs rest : List Char} (h : d.readForm .binary cs = some rest) :
    ∃ digits, (∀ c ∈ digits, isHexDigit c = true) ∧
      cs = d.binaryOpen.toList ++ (digits ++ (d.binaryClose.toList ++ rest)) := by
  obtain ⟨more, hopen, hclose⟩ := Option.bind_eq_some_iff.mp h
  refine ⟨more.takeWhile isHexDigit, fun c hc => List.mem_takeWhile_imp hc, ?_⟩
  rw [eq_append_of_skip hopen, ← eq_append_of_skip hclose, List.takeWhile_append_dropWhile]

theorem readForm_string_eq_none {d : Dialect} {c : Char} (hc : c ≠ '\x27') (cs : List Char) :
    d.readForm .string (c :: cs) = none := by
  simp only [readForm, skip_eq_none hc, Option.bind_none, Option.map_none]

theorem readForm_binary_eq_none {d : Dialect} (hd : d.SpellsLiterals) {c : Char} (hc : c ∉ ['X', '0', 'h', '\x27'])
    (cs : List Char) : d.readForm .binary (c :: cs) = none := by
  have hopen : skip d.binaryOpen.toList (c :: cs) = none := by
    simp only [List.mem_cons, List.not_mem_nil, or_false, not_or] at hc
    rcases hd.binary with ⟨h, -⟩ | ⟨h, -⟩ | ⟨h, -⟩ | ⟨h, -, -⟩ <;> rw [h]
    · exact skip_eq_none hc.1 _ cs
    · exact skip_eq_none hc.2.1 _ cs
    · exact skip_eq_none hc.2.2.1 _ cs
    · exact skip_eq_none hc.2.2.2 _ cs
  simp only [readForm, hopen, Option.bind_none]

section
variable {d : Dialect} {cs rest : List Char} (hd : d.SpellsLiterals) (hrest : EndsOperand rest)
include hd hrest

theorem readForm_binary_of_string (h : d.readForm .string cs = some rest) : d.readForm .binary cs = none := by
  cases hbinary : d.readForm .binary cs with
  | none => rfl
  | some rest' =>
    obtain ⟨digits, hdigits, rfl⟩ := eq_of_readForm_binary hbinary
    rcases hd.binary with ⟨hopen, -⟩ | ⟨hopen, -⟩ | ⟨hopen, -⟩ | ⟨hopen, hclose, hescapes⟩
    · rw [hopen] at h; cases h
    · rw [hopen] at h; cases h
    · rw [hopen] at h; cases h
    · -- The literal begins as a string does, but a cast follows the apostrophe that closes it.
      have hquote : '\x27' ∉ '\\' :: 'x' :: digits := by
        intro hmem
        simp only [List.mem_cons, Char.reduceEq, false_or] at hmem
        cases hdigits _ hmem
      have hclosed : ("::bytea".toList ++ rest').head? ≠ some '\x27' := by simp
      have hread := readQuoted_plain hclosed ('\\' :: 'x' :: digits)
      rw [replaceChar_eq_self hquote] at hread
      have hstring : d.readForm .string (d.binaryOpen.toList ++ (digits ++ (d.binaryClose.toList ++ rest'))) =
          some ("::bytea".toList ++ rest') := by
        rw [hopen, hclose, readForm, hescapes]
        exact congrArg (Option.map Prod.snd) hread
      rw [hstring] at h
      have hcolon := hrest ':' (Option.some.inj h ▸ rfl)
      simp at hcolon

theorem readForm_of_numeral (h : readNumeral cs = some rest) :
    d.readForm .binary cs = none ∧ d.readForm .string cs = none := by
  refine ⟨?_, ?_⟩
  · cases hbinary : d.readForm .binary cs with
    | none => rfl
    | some rest' =>
      obtain ⟨digits, hdigits, rfl⟩ := eq_of_readForm_binary hbinary
      rcases hd.binary with ⟨hopen, -⟩ | ⟨hopen, -⟩ | ⟨hopen, -⟩ | ⟨hopen, -, -⟩ <;> rw [hopen] at h
      · cases (readNumeral_eq_none (by decide) _).symm.trans h
      · -- The number is the zero that the literal begins with, and the text goes on behind it.
        have hx := hrest 'x' (Option.some.inj h ▸ rfl)
        simp at hx
      · cases (readNumeral_eq_none (by decide) _).symm.trans h
      · cases (readNumeral_eq_none (by decide) _).symm.trans h
  · cases cs with
    | nil => cases h
    | cons c cs =>
      have hc : c ≠ '\x27' := by
        rintro rfl
        cases (readNumeral_eq_none (by decide) _).symm.trans h
      exact readForm_string_eq_none hc cs

end

/-- Nothing but null and the booleans that are words begins with their letters. -/
theorem readForm_of_word {d : Dialect} (hd : d.SpellsLiterals) {c : Char} (hc : c ∈ ['n', 't', 'f'])
    (cs : List Char) : d.readForm .binary (c :: cs) = none ∧ d.readForm .string (c :: cs) = none ∧
      d.readForm .numeral (c :: cs) = none := by
  obtain ⟨hbinary, hquote, hchar⟩ : c ∉ ['X', '0', 'h', '\x27'] ∧ c ≠ '\x27' ∧ isMomentChar c = false := by
    simp only [List.mem_cons, List.not_mem_nil, or_false] at hc
    rcases hc with rfl | rfl | rfl <;> decide
  exact ⟨readForm_binary_eq_none hd hbinary cs, readForm_string_eq_none hquote cs, readNumeral_eq_none hchar cs⟩

/-- The literal of a value is taken with no other form taken for its own. -/
theorem readLiteral_literal {d : Dialect} (hd : d.SpellsLiterals) {v : Value} {text : String}
    (hv : v.ProperDecimal) (h : d.literal v = .ok text) {rest : List Char}
    (hrest : EndsOperand rest) : d.readLiteral (text.toList ++ rest) = some rest := by
  have hread := readForm_literal hd hv h hrest
  have hnumeral (hcs : d.readForm .numeral (text.toList ++ rest) = some rest) :
      d.readLiteral (text.toList ++ rest) = some rest := by
    obtain ⟨hbinary, hstring⟩ := readForm_of_numeral hd hrest hcs
    simp only [readLiteral, List.findSome?_cons, hbinary, hstring, hcs]
  have hword (c : Char) (cs : List Char) (hcs : text.toList = c :: cs) (hc : c ∈ ['n', 't', 'f'])
      (hlast : v.form = .boolean ∨ v.form = .null ∧ d.readForm .boolean (c :: (cs ++ rest)) = none) :
      d.readLiteral (text.toList ++ rest) = some rest := by
    obtain ⟨hbinary, hstring, hnumber⟩ := readForm_of_word hd hc (cs ++ rest)
    rw [hcs, List.cons_append] at hread ⊢
    rcases hlast with hform | ⟨hform, hboolean⟩ <;> rw [hform] at hread
    · simp only [readLiteral, List.findSome?_cons, hbinary, hstring, hnumber, hread]
    · simp only [readLiteral, List.findSome?_cons, hbinary, hstring, hnumber, hboolean, hread]
  cases v with
  | null =>
    obtain rfl := Except.ok.inj h
    refine hword 'n' ['u', 'l', 'l'] rfl (by decide) (.inr ⟨rfl, ?_⟩)
    rcases hd.booleans with ⟨htrue, hfalse⟩ | ⟨htrue, hfalse⟩ <;> rw [readForm, htrue, hfalse] <;> rfl
  | bool b =>
    obtain rfl := Except.ok.inj h
    have hform : (Value.bool b).form = .boolean := rfl
    rcases hd.booleans with ⟨htrue, hfalse⟩ | ⟨htrue, hfalse⟩
    · cases b with
      | true => exact hword 't' ['r', 'u', 'e'] (by simp [booleanLiteral, htrue]) (by decide) (.inl hform)
      | false => exact hword 'f' ['a', 'l', 's', 'e'] (by simp [booleanLiteral, hfalse]) (by decide) (.inl hform)
    · have hdigit : IsNumeral (d.booleanLiteral b) := by
        cases b <;> simp only [booleanLiteral, htrue, hfalse] <;> rfl
      refine hnumeral ?_
      rw [readForm, readNumeral_append hrest, hdigit]
      rfl
  | bytes bs =>
    have hbytes : d.readForm .binary (text.toList ++ rest) = some rest := hread
    simp only [readLiteral, List.findSome?_cons, hbytes]
  | string _ | timestamp _ | uuid _ =>
    have hstring : d.readForm .string (text.toList ++ rest) = some rest := hread
    have hbinary := readForm_binary_of_string hd hrest hstring
    simp only [readLiteral, List.findSome?_cons, hbinary, hstring]
  | _ => exact hnumeral hread

end Dialect

end SqlMapping
