import SqlMapping.Proofs.Criteria.Literals
import SqlMapping.Proofs.Number.Numerals

/-!
# Numerals of SQL as decimals

`exists_readDecimal_of_isNumeral`: a numeral of SQL, and so the text of a finite number, denotes a number when it is
read as a decimal.
-/

namespace SqlMapping

theorem takeSign_snd (cs : List Char) : (takeSign cs).2 = skipSign cs := by
  cases cs with
  | nil => rfl
  | cons c cs =>
    by_cases hminus : c = '-'
    · rw [hminus]
      rfl
    · by_cases hplus : c = '+'
      · rw [hplus]
        rfl
      · simp [takeSign, skipSign, hminus, hplus]

theorem readDigits_eq_some {cs rest : List Char} (h : readDigits cs = some rest) :
    cs.takeWhile Char.isDigit ≠ [] ∧ cs.dropWhile Char.isDigit = rest := by
  obtain ⟨hhead, hrest⟩ := Option.ite_none_right_eq_some.mp h
  refine ⟨?_, Option.some.inj hrest⟩
  cases cs with
  | nil => cases hhead
  | cons c cs =>
    rw [List.takeWhile_cons_of_pos (by simpa using hhead)]
    exact List.cons_ne_nil _ _

theorem isSome_readNat {cs : List Char} (h : readDigits cs = some []) : (readNat cs).isSome = true := by
  obtain ⟨hne, hdrop⟩ := readDigits_eq_some h
  have hall : cs.all Char.isDigit = true := List.all_eq_true.mpr (List.dropWhile_eq_nil_iff.mp hdrop)
  have hcs : cs ≠ [] := by rintro rfl; exact hne rfl
  rw [readNat, if_pos ⟨hcs, hall⟩]
  rfl

theorem isSome_readExponent {cs : List Char} (h : skipExponent cs = []) : (readExponent cs).isSome = true := by
  cases cs with
  | nil => rfl
  | cons c cs =>
    rw [skipExponent] at h
    split at h
    · rename_i hmark
      cases hdigits : readDigits (skipSign cs) with
      | none => rw [hdigits] at h; cases h
      | some rest =>
        obtain rfl : rest = [] := by rwa [hdigits] at h
        rw [← takeSign_snd] at hdigits
        obtain ⟨n, hn⟩ := Option.isSome_iff_exists.mp (isSome_readNat hdigits)
        rw [readExponent, if_pos hmark]
        simp [hn]
    · cases h

theorem isSome_readUnsignedDecimal {cs rest : List Char} (h : readMantissa cs = some rest)
    (hrest : skipExponent rest = []) : (readUnsignedDecimal cs).isSome = true := by
  have hexponent := isSome_readExponent hrest
  unfold readMantissa at h
  unfold readUnsignedDecimal
  dsimp only
  split at h
  · -- digits come first, and a fraction may follow
    rename_i more hdigits
    obtain ⟨hne, hdrop⟩ := readDigits_eq_some hdigits
    obtain rfl := Option.some.inj h
    rw [hdrop]
    split
    · rw [if_neg (fun hnone => hne (List.isEmpty_iff.mp hnone.1)), Option.isSome_map]
      exact hexponent
    · rename_i hpoint
      have hskip : skipFraction more = more := by
        cases more with
        | nil => rfl
        | cons c more => exact if_neg fun hc => hpoint more (by rw [hc])
      rw [if_neg (fun hnone => hne (List.isEmpty_iff.mp hnone.1)), Option.isSome_map]
      rwa [hskip] at hexponent
  · -- a point comes first, and digits follow
    obtain ⟨more, hskip, hdigits⟩ := Option.bind_eq_some_iff.mp h
    obtain rfl := eq_append_of_skip hskip
    obtain ⟨hne, rfl⟩ := readDigits_eq_some hdigits
    have hdrop : (['.'] ++ more).dropWhile Char.isDigit = '.' :: more := rfl
    rw [hdrop]
    rw [if_neg (fun hnone => hne (List.isEmpty_iff.mp hnone.2)), Option.isSome_map]
    exact hexponent

theorem toLower_ne_of_isNumeralChar {c : Char} (h : isNumeralChar c = true) : c.toLower ≠ 'n' ∧ c.toLower ≠ 'i' := by
  simp only [isNumeralChar, Bool.or_eq_true, List.contains_iff_mem, List.mem_cons, List.not_mem_nil, or_false] at h
  obtain h | rfl | rfl | rfl | rfl | rfl := h
  · rw [toLower_of_isDigit h]
    constructor <;> rintro rfl <;> cases h
  all_goals decide

/-- A numeral is none of the words that are read as decimals. -/
theorem exists_readDecimal_of_isNumeral {s : String} (h : IsNumeral s) :
    ∃ negative d e, readDecimal s = some (.number negative d e) := by
  obtain ⟨rest, hmantissa, hrest⟩ := Option.map_eq_some_iff.mp h
  rw [← takeSign_snd] at hmantissa
  obtain ⟨⟨d, e⟩, hread⟩ := Option.isSome_iff_exists.mp (isSome_readUnsignedDecimal hmantissa hrest)
  refine ⟨(takeSign s.toList).1, d, e, ?_⟩
  have hword : ∀ {c : Char} {word : List Char}, c = 'n' ∨ c = 'i' →
      (takeSign s.toList).2.map Char.toLower ≠ c :: word := by
    intro c word hc heq
    obtain ⟨d, ds, hbody, hd, -⟩ := List.map_eq_cons_iff.mp heq
    have hchar : isNumeralChar d = true :=
      isNumeralChar_of_readUnsignedDecimal hread d (by rw [hbody]; exact List.mem_cons_self)
    obtain ⟨hn, hi⟩ := toLower_ne_of_isNumeralChar hchar
    rw [hd] at hn hi
    exact hc.elim hn hi
  unfold readDecimal readDecimalChars
  dsimp only
  rw [if_neg (hword (.inl rfl)), if_neg (not_or.mpr ⟨hword (.inr rfl), hword (.inr rfl)⟩), hread]
  rfl

end SqlMapping
