import SqlMapping.Proofs.Criteria.Registration
import SqlMapping.Proofs.Dialect.Quoting
import SqlMapping.Proofs.Statement.Placeholders

/-!
# Tokens and their spelling

The text of a condition is a list of tokens: keywords with the blanks around them, quoted names, and
parameters. `spell_inj`: in a built-in dialect, a list of tokens can be had back from its text, where
names and parameters stand before a blank, a comma, a closing parenthesis or the end.
-/

namespace SqlMapping

inductive Keyword where
  | opening
  | closing
  | comma
  | null
  | negation
  | truth (b : Bool)
  | junctor (op : LogicalOp)
  | compare (op : CompareOp)
  | nullTest (negated : Bool)
  | between
  | member (negated : Bool)
  deriving DecidableEq

namespace Keyword

def text (parenthesized : Bool) : Keyword → String
  | .opening => "("
  | .closing => ")"
  | .comma => ", "
  | .null => "null"
  | .negation => if parenthesized then "not (" else "not "
  | .truth b => if b then "1=1" else "1=0"
  | .junctor op => " " ++ op.sql ++ " "
  | .compare op => " " ++ op.sql ++ " "
  | .nullTest negated => if negated then " is not null" else " is null"
  | .between => " between "
  | .member negated => if negated then " not in (" else " in ("

def all : List Keyword :=
  [.opening, .closing, .comma, .null, .negation, .truth true, .truth false, .junctor .and, .junctor .or,
    .compare .eq, .compare .ne, .compare .lt, .compare .le, .compare .gt, .compare .ge, .nullTest true,
    .nullTest false, .between, .member true, .member false]

theorem mem_all (k : Keyword) : k ∈ all := by
  cases k with
  | truth b => cases b <;> decide
  | junctor op => cases op <;> decide
  | compare op => cases op <;> decide
  | nullTest negated => cases negated <;> decide
  | member negated => cases negated <;> decide
  | _ => decide

theorem prefix_free (parenthesized : Bool) {k k' : Keyword}
    (h : (k.text parenthesized).toList <+: (k'.text parenthesized).toList) : k = k' := by
  have hall : ∀ p : Bool, ∀ k ∈ all, ∀ k' ∈ all, (k.text p).toList <+: (k'.text p).toList → k = k' := by decide
  exact hall parenthesized k k.mem_all k' k'.mem_all h

def heads : List Char := [' ', '(', ')', ',', 'n', '1']

theorem exists_head (parenthesized : Bool) (k : Keyword) :
    ∃ c ∈ heads, (k.text parenthesized).toList.head? = some c := by
  have hall : ∀ p : Bool, ∀ k ∈ all, ((k.text p).toList.head?.any heads.contains) = true := by decide
  obtain ⟨c, hhead, hc⟩ := (Option.any_eq_true _ _).mp (hall parenthesized k k.mem_all)
  exact ⟨c, List.contains_iff_mem.mp hc, hhead⟩

def follows : Keyword → Bool
  | .closing | .comma | .junctor _ | .compare _ | .nullTest _ | .between | .member _ => true
  | .opening | .null | .negation | .truth _ => false

end Keyword

inductive Token where
  | word (k : Keyword)
  | qualifier (name : String)
  | name (name : String)
  | parameter (n : Nat)
  deriving DecidableEq

namespace Token

def spelling (d : Dialect) : Token → String
  | .word k => k.text d.parenthesizeNot
  | .qualifier s => d.quoteBare s ++ "."
  | .name s => d.quoteBare s
  | .parameter n => d.parameter (generatedName n)

def isOperand : Token → Bool
  | .name _ | .parameter _ => true
  | .word _ | .qualifier _ => false

def follows : Token → Bool
  | .word k => k.follows
  | .qualifier _ | .name _ | .parameter _ => false

end Token

def spell (d : Dialect) : List Token → String
  | [] => ""
  | t :: ts => t.spelling d ++ spell d ts

theorem spell_append (d : Dialect) (ts us : List Token) : spell d (ts ++ us) = spell d ts ++ spell d us := by
  induction ts with
  | nil => simp [spell]
  | cons t ts ih => simp [spell, ih, String.append_assoc]

def Spaced : List Token → Prop
  | [] => True
  | t :: ts => (t.isOperand = true → ∀ u ∈ ts.head?, u.follows = true) ∧ Spaced ts

/-! ## Names, parameters and what is behind them -/

def EndsOperand (cs : List Char) : Prop := ∀ c ∈ cs.head?, c ∈ [' ', ')', ',']

theorem EndsOperand.endsWord {cs : List Char} (h : EndsOperand cs) : EndsWord cs := by
  have hword : [' ', ')', ','].all (fun c => !isWordChar c) = true := by decide
  intro c hc
  simpa using List.all_eq_true.mp hword c (h c hc)

theorem endsOperand_spell {d : Dialect} {ts : List Token} (h : ∀ t ∈ ts.head?, t.follows = true) :
    EndsOperand (spell d ts).toList := by
  have hall : ∀ p : Bool, ∀ k ∈ Keyword.all, k.follows = true →
      ((k.text p).toList.head?.all [' ', ')', ','].contains) = true := by
    decide
  cases ts with
  | nil => simp [EndsOperand, spell]
  | cons t ts =>
    have ht := h t rfl
    cases t with
    | word k =>
      intro c hc
      obtain ⟨first, _, hfirst⟩ := k.exists_head d.parenthesizeNot
      have hk := hall d.parenthesizeNot k k.mem_all ht
      rw [hfirst] at hk
      simp only [spell, Token.spelling, String.toList_append, List.head?_append, hfirst, Option.some_or] at hc
      rw [← Option.some.inj hc]
      exact List.contains_iff_mem.mp hk
    | qualifier _ | name _ | parameter _ => cases ht

theorem generatedName_all (n : Nat) : (generatedName n).toList.all isWordChar = true := by
  have hdigits : ∀ c ∈ Nat.toDigits 10 n, isWordChar c = true := by
    intro c hc
    have hdigit := Nat.isDigit_of_mem_toDigits (by decide) (by decide) hc
    simp [isWordChar, Char.isAlphanum, hdigit]
  have hname : (generatedName n).toList = 'p' :: '_' :: Nat.toDigits 10 n := by
    simp [generatedName]
  rw [hname, List.all_cons, List.all_cons, List.all_eq_true.mpr hdigits]
  rfl

theorem word_unique {word word' rest rest' : List Char} (hword : word.all isWordChar = true)
    (hword' : word'.all isWordChar = true) (hrest : EndsWord rest) (hrest' : EndsWord rest')
    (h : word ++ rest = word' ++ rest') : word = word' ∧ rest = rest' := by
  have heq : word = word' := by
    have := congrArg (List.takeWhile isWordChar) h
    rwa [takeWhile_word hword hrest, takeWhile_word hword' hrest'] at this
  subst heq
  exact ⟨rfl, List.append_cancel_left h⟩

/-! ## One token before a rest -/

structure Dialect.TellsTokens (d : Dialect) (m : Char) : Prop where
  marker : d.marker.toList = [m]
  mark_head : m ∉ Keyword.heads
  quote_head : d.openQuote ∉ Keyword.heads
  quote_ne_mark : d.openQuote ≠ m
  closes : d.closeQuote ∉ ['.', ' ', ')', ',']

theorem Dialect.tellsTokens_of_builtIn {d : Dialect} (h : d ∈ builtIn) : ∃ m, d.TellsTokens m := by
  simp only [builtIn, List.mem_cons, List.not_mem_nil, or_false] at h
  obtain rfl | rfl | rfl | rfl | rfl | rfl := h
  · exact ⟨':', rfl, by decide, by decide, by decide, by decide⟩
  · exact ⟨':', rfl, by decide, by decide, by decide, by decide⟩
  · exact ⟨'@', rfl, by decide, by decide, by decide, by decide⟩
  · exact ⟨'?', rfl, by decide, by decide, by decide, by decide⟩
  · exact ⟨'@', rfl, by decide, by decide, by decide, by decide⟩
  · exact ⟨':', rfl, by decide, by decide, by decide, by decide⟩

variable {d : Dialect}

theorem quoteBare_unique {s s' : String} {rest rest' : List Char} (hrest : rest.head? ≠ some d.closeQuote)
    (hrest' : rest'.head? ≠ some d.closeQuote)
    (h : (d.quoteBare s).toList ++ rest = (d.quoteBare s').toList ++ rest') : s = s' ∧ rest = rest' := by
  simp only [Dialect.toList_quoteBare, List.cons_append, List.append_assoc, List.nil_append, List.cons.injEq,
    true_and] at h
  -- both sides are read back from the one text
  have hread := congrArg (readDelimited d.closeQuote) h
  rw [readDelimited_doubled hrest, readDelimited_doubled hrest', Option.some.injEq, Prod.mk.injEq] at hread
  exact ⟨String.toList_inj.mp hread.1, hread.2⟩

theorem text_unique {p : Bool} {k k' : Keyword} {rest rest' : List Char}
    (h : (k.text p).toList ++ rest = (k'.text p).toList ++ rest') : k = k' ∧ rest = rest' := by
  have heq : k = k' := by
    rcases List.prefix_or_prefix_of_prefix (List.prefix_append _ rest) (h ▸ List.prefix_append _ rest') with hk | hk
    · exact Keyword.prefix_free _ hk
    · exact (Keyword.prefix_free _ hk).symm
  subst heq
  exact ⟨rfl, List.append_cancel_left h⟩

def Token.BeginsWith (d : Dialect) (m c : Char) : Token → Prop
  | .word _ => c ∈ Keyword.heads
  | .qualifier _ | .name _ => c = d.openQuote
  | .parameter _ => c = m

section
variable {m : Char} (hd : d.TellsTokens m)
include hd

theorem EndsOperand.head?_ne_closeQuote {cs : List Char} (h : EndsOperand cs) : cs.head? ≠ some d.closeQuote :=
  fun hc => hd.closes (List.mem_cons_of_mem '.' (h _ hc))

theorem Token.exists_beginsWith (t : Token) : ∃ c, (t.spelling d).toList.head? = some c ∧ t.BeginsWith d m c := by
  cases t with
  | word k =>
    obtain ⟨c, hc, hhead⟩ := k.exists_head d.parenthesizeNot
    exact ⟨c, hhead, hc⟩
  | qualifier s => exact ⟨d.openQuote, by simp [spelling, Dialect.toList_quoteBare], rfl⟩
  | name s => exact ⟨d.openQuote, by simp [spelling, Dialect.toList_quoteBare], rfl⟩
  | parameter n => exact ⟨m, by simp [spelling, Dialect.parameter, hd.marker], rfl⟩

theorem Dialect.TellsTokens.dot_ne_closeQuote (cs : List Char) : ('.' :: cs).head? ≠ some d.closeQuote :=
  fun hc => hd.closes (Option.some.inj hc ▸ List.mem_cons_self)

/-- A name that ends is no qualifier, which a dot follows. -/
theorem quoteBare_ne_qualifier {s s' : String} {rest rest' : List Char} (hrest : EndsOperand rest) :
    (d.quoteBare s).toList ++ rest ≠ (d.quoteBare s').toList ++ '.' :: rest' := by
  intro h
  obtain ⟨_, rfl⟩ := quoteBare_unique (hrest.head?_ne_closeQuote hd) (hd.dot_ne_closeQuote rest') h
  exact absurd (hrest '.' rfl) (by decide)

/-- A token can be had back from a text that it begins. -/
theorem spelling_unique {t t' : Token} {rest rest' : List Char} (hrest : t.isOperand = true → EndsOperand rest)
    (hrest' : t'.isOperand = true → EndsOperand rest')
    (h : (t.spelling d).toList ++ rest = (t'.spelling d).toList ++ rest') : t = t' ∧ rest = rest' := by
  obtain ⟨c, hc, hbegins⟩ := t.exists_beginsWith hd
  obtain ⟨c', hc', hbegins'⟩ := t'.exists_beginsWith hd
  have hsame : c = c' := by
    have := congrArg List.head? h
    rw [List.head?_append, List.head?_append, hc, hc'] at this
    exact Option.some.inj this
  subst hsame
  -- tokens that begin differently are ruled out by their first character
  cases t with
  | word k =>
    cases t' with
    | word k' =>
      obtain ⟨rfl, hrests⟩ := text_unique h
      exact ⟨rfl, hrests⟩
    | qualifier _ | name _ => exact absurd (hbegins' ▸ hbegins) hd.quote_head
    | parameter _ => exact absurd (hbegins' ▸ hbegins) hd.mark_head
  | parameter n =>
    cases t' with
    | word _ => exact absurd (hbegins ▸ hbegins') hd.mark_head
    | qualifier _ | name _ => exact absurd (hbegins'.symm.trans hbegins) hd.quote_ne_mark
    | parameter n' =>
      simp only [Token.spelling, Dialect.parameter, String.toList_append, List.append_assoc] at h
      have h := List.append_cancel_left h
      obtain ⟨hname, hrests⟩ := word_unique (generatedName_all n) (generatedName_all n') (hrest rfl).endsWord
        (hrest' rfl).endsWord h
      exact ⟨by rw [generatedName_inj.mp (String.toList_inj.mp hname)], hrests⟩
  | name s =>
    cases t' with
    | word _ => exact absurd (hbegins ▸ hbegins') hd.quote_head
    | parameter _ => exact absurd (hbegins.symm.trans hbegins') hd.quote_ne_mark
    | name s' =>
      obtain ⟨rfl, hrests⟩ := quoteBare_unique ((hrest rfl).head?_ne_closeQuote hd)
        ((hrest' rfl).head?_ne_closeQuote hd) h
      exact ⟨rfl, hrests⟩
    | qualifier s' =>
      simp only [Token.spelling, String.toList_append, List.append_assoc] at h
      exact absurd h (quoteBare_ne_qualifier hd (hrest rfl))
  | qualifier s =>
    cases t' with
    | word _ => exact absurd (hbegins ▸ hbegins') hd.quote_head
    | parameter _ => exact absurd (hbegins.symm.trans hbegins') hd.quote_ne_mark
    | name s' =>
      simp only [Token.spelling, String.toList_append, List.append_assoc] at h
      exact absurd h.symm (quoteBare_ne_qualifier hd (hrest' rfl))
    | qualifier s' =>
      simp only [Token.spelling, String.toList_append, List.append_assoc] at h
      obtain ⟨rfl, hrests⟩ := quoteBare_unique (hd.dot_ne_closeQuote rest) (hd.dot_ne_closeQuote rest') h
      exact ⟨rfl, (List.cons.inj hrests).2⟩

theorem spell_cons_ne (t : Token) (ts : List Token) : spell d (t :: ts) ≠ "" := by
  intro h
  obtain ⟨c, hc, _⟩ := t.exists_beginsWith hd
  have := congrArg (fun s => s.toList.head?) h
  simp [spell, List.head?_append, hc] at this

theorem spell_inj {ts ts' : List Token} (hts : Spaced ts) (hts' : Spaced ts') (h : spell d ts = spell d ts') :
    ts = ts' := by
  induction ts generalizing ts' with
  | nil =>
    cases ts' with
    | nil => rfl
    | cons t' ts' => exact absurd h.symm (spell_cons_ne hd t' ts')
  | cons t ts ih =>
    cases ts' with
    | nil => exact absurd h (spell_cons_ne hd t ts)
    | cons t' ts' =>
      simp only [spell, ← String.toList_inj, String.toList_append] at h
      obtain ⟨rfl, hrests⟩ := spelling_unique hd (fun ht => endsOperand_spell (hts.1 ht))
        (fun ht => endsOperand_spell (hts'.1 ht)) h
      rw [ih hts.2 hts'.2 (String.toList_inj.mp hrests)]

end

end SqlMapping
