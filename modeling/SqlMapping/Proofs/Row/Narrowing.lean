import SqlMapping.Proofs.Number.Numerals
import SqlMapping.Proofs.Number.Rounding
import SqlMapping.Proofs.Row.Conversion

/-!
# Narrowing to an integer

A number that is converted to an integral kind becomes the nearest integer, halves away from zero, or the conversion
fails. `narrowed_exactly_iff` says when: a decimal that is no integer numeral is rounded from the nearest double, and
the least integer above the 64-bit ones is taken for the greatest of them.
-/

namespace SqlMapping

/-! ## Integral kinds -/

def Kind.Holds : Kind → ℤ → Prop
  | .int8, n => -2 ^ 7 ≤ n ∧ n < 2 ^ 7
  | .int16, n => -2 ^ 15 ≤ n ∧ n < 2 ^ 15
  | .int32, n => -2 ^ 31 ≤ n ∧ n < 2 ^ 31
  | .int64, n => -2 ^ 63 ≤ n ∧ n < 2 ^ 63
  | .uint8, n => 0 ≤ n ∧ n < 2 ^ 8
  | _, _ => False

/-- What conversion to an integral kind makes of a number whose nearest integer is `n`. -/
structure Kind.Yields (k : Kind) (n : ℤ) (r : Option Value) : Prop where
  inRange : k.Holds n → ∃ w, r = some w ∧ w.kind = k ∧ w.integer? = some n
  outOfRange : ¬ k.Holds n → r = none

/-- The same integer, or two that the kind does not have. -/
def Kind.Alike (k : Kind) (n n' : ℤ) : Prop := n = n' ∨ ¬ k.Holds n ∧ ¬ k.Holds n'

namespace Kind

variable {k : Kind} {n n' : ℤ}

theorem int64_of_holds (h : k.Holds n) : int64Min ≤ n ∧ n ≤ int64Max := by
  simp only [int64Min, int64Max]
  cases k <;> simp only [Holds] at h <;> omega

theorem Yields.iff_alike {r : Option Value} (h : k.Yields n r) : k.Yields n' r ↔ k.Alike n' n := by
  constructor
  · intro h'
    by_cases hn : k.Holds n
    · obtain ⟨w, rfl, -, hw⟩ := h.inRange hn
      by_cases hn' : k.Holds n'
      · obtain ⟨w', hw', -, hinteger⟩ := h'.inRange hn'
        cases hw'
        exact .inl (Option.some.inj (hinteger.symm.trans hw))
      · cases h'.outOfRange hn'
    · obtain rfl := h.outOfRange hn
      refine .inr ⟨fun hn' => ?_, hn⟩
      obtain ⟨w, hw, -⟩ := h'.inRange hn'
      cases hw
  · rintro (rfl | ⟨hn', hn⟩)
    · exact h
    · exact ⟨fun h => absurd h hn', fun _ => h.outOfRange hn⟩

theorem yields_ite {w : Value} {P : Prop} [Decidable P] (hP : P ↔ k.Holds n)
    (hw : k.Holds n → w.kind = k ∧ w.integer? = some n) : k.Yields n (if P then some w else none) where
  inRange h := ⟨w, if_pos (hP.mpr h), hw h⟩
  outOfRange h := if_neg (mt hP.mp h)

theorem yields_ofInteger? (hk : k.isIntegral = true) (hmin : int64Min ≤ n) (hmax : n ≤ int64Max) :
    k.Yields n (Value.ofInteger? k n) := by
  simp only [int64Min, int64Max] at hmin hmax
  cases k with
  | int8 =>
    exact yields_ite (by simp only [Holds]; omega) fun h =>
      ⟨rfl, congrArg some (Int8.toInt_ofInt_of_le h.1 h.2)⟩
  | int16 =>
    exact yields_ite (by simp only [Holds]; omega) fun h =>
      ⟨rfl, congrArg some (Int16.toInt_ofInt_of_le h.1 h.2)⟩
  | int32 =>
    exact yields_ite (by simp only [Holds]; omega) fun h =>
      ⟨rfl, congrArg some (Int32.toInt_ofInt_of_le h.1 h.2)⟩
  | int64 =>
    refine ⟨fun h => ⟨_, rfl, rfl, congrArg some (Int64.toInt_ofInt_of_le h.1 h.2)⟩, fun h => absurd ?_ h⟩
    simp only [Holds]
    omega
  | uint8 =>
    refine yields_ite (by simp only [Holds]; omega) fun h => ⟨rfl, ?_⟩
    simp only [Holds] at h
    simp only [Value.integer?, UInt8.toNat_ofNat']
    congr 1
    omega
  | _ => cases hk

end Kind

/-! ## From doubles -/

/-- The greatest 64-bit integer in the place of the next one. -/
def saturated (n : ℤ) : ℤ := if n = int64Max + 1 then int64Max else n

theorem Double.toInt64?_of_rational {x : Double} {q : ℚ} (h : x.value.rational? = some q) :
    x.toInt64? =
      if int64Min ≤ nearestAway q ∧ nearestAway q ≤ int64Max + 1 then some (saturated (nearestAway q)) else none := by
  have hmin : ∀ n : ℤ, n ≤ int64Max + 1 → min n int64Max = saturated n := by
    intro n hn
    unfold saturated
    split <;> omega
  unfold toInt64?
  cases hx : x.value with
  | notANumber | infinite _ =>
    rw [hx] at h
    cases h
  | finite negative m e =>
    rw [hx] at h
    obtain rfl : signed negative (m * 2 ^ e) = q := Option.some.inj h
    rw [nearestAway_signed negative (by positivity), ← FloatValue.roundHalfAway_eq]
    exact ite_congr rfl (fun h => congrArg some (hmin _ h.2)) fun _ => rfl

theorem Double.toInt64?_of_none {x : Double} (h : x.value.rational? = none) : x.toInt64? = none := by
  unfold toInt64?
  cases hx : x.value with
  | notANumber | infinite _ => rfl
  | finite negative m e =>
    rw [hx] at h
    cases h

theorem Kind.yields_toInt64? {k : Kind} (hk : k.isIntegral = true) {x : Double} {q : ℚ}
    (h : x.value.rational? = some q) :
    k.Yields (saturated (nearestAway q)) (x.toInt64?.bind (Value.ofInteger? k)) := by
  rw [Double.toInt64?_of_rational h]
  split
  · rename_i hrange
    refine yields_ofInteger? hk ?_ ?_ <;>
      · unfold saturated
        split <;> simp only [int64Min, int64Max] at * <;> omega
  · rename_i hrange
    refine ⟨fun hholds => absurd (int64_of_holds hholds) fun hbounds => hrange ?_, fun _ => rfl⟩
    unfold saturated at hbounds
    split at hbounds
    · rename_i heq
      rw [heq]
      decide
    · omega

/-! ## What is rounded -/

namespace Value

def numeral? : Value → Option String
  | .decimal t => some t
  | .string t => some (trimBlanks t)
  | _ => none

def rational? (v : Value) : Option ℚ :=
  match v with
  | .single x => x.value.rational?
  | .double x => x.value.rational?
  | .decimal t => (readDecimal t).bind DecimalValue.rational?
  | .string t => (readDecimal (trimBlanks t)).bind DecimalValue.rational?
  | v => v.integer?.map Int.cast

/-- The double in the place of a numeral, unless it is that of a 64-bit integer. -/
def standIn? (t : String) : Option Double := if (readInt64 t).isSome then none else Double.read t

/-- The number that is rounded in the place of `q`: that of the double, where one stands in and is finite. -/
def rounded (v : Value) (q : ℚ) : ℚ := ((v.numeral?.bind standIn?).bind (·.value.rational?)).getD q

end Value

/-! ## From numerals -/

theorem mem_int64_of_readInt64 {t : String} {n : ℤ} (h : readInt64 t = some n) : int64Min ≤ n ∧ n ≤ int64Max := by
  obtain ⟨-, hrange⟩ := Option.filter_eq_some_iff.mp h
  simpa using hrange

theorem toInt_ofInt_of_readInt64 {t : String} {n : ℤ} (h : readInt64 t = some n) : (Int64.ofInt n).toInt = n := by
  obtain ⟨hmin, hmax⟩ := mem_int64_of_readInt64 h
  simp only [int64Min, int64Max] at hmin hmax
  exact Int64.toInt_ofInt_of_le (by omega) (by omega)

theorem rational?_of_readInt64 {t : String} {n : ℤ} (h : readInt64 t = some n) :
    (readDecimal t).bind DecimalValue.rational? = some (n : ℚ) := by
  obtain ⟨hread, -⟩ := Option.filter_eq_some_iff.mp h
  obtain ⟨negative, d, hd, rfl⟩ := readDecimalChars_of_readSigned hread
  rw [readDecimal, hd]
  cases negative <;> simp [DecimalValue.rational?, signed]

theorem exists_of_rational? {t : String} {q : ℚ} (h : (readDecimal t).bind DecimalValue.rational? = some q) :
    ∃ negative d e, readDecimal t = some (.number negative d e) ∧ q = signed negative (d * 10 ^ e) := by
  obtain ⟨x, hx, hq⟩ := Option.bind_eq_some_iff.mp h
  cases x with
  | notANumber | infinite _ => cases hq
  | number negative d e => exact ⟨negative, d, e, hx, (Option.some.inj hq).symm⟩

/-- A numeral is that of a 64-bit integer and is read as it is, or it is read as a double. -/
theorem numeral_cases {t : String} {q : ℚ} (h : (readDecimal t).bind DecimalValue.rational? = some q) :
    (∃ n : ℤ, readInt64 t = some n ∧ q = n) ∨
      ∃ negative d e, readInt64 t = none ∧ readDecimal t = some (.number negative d e) ∧
        Double.read t = some (Double.ofDecimal negative d e) ∧ q = signed negative (d * 10 ^ e) := by
  cases hread : readInt64 t with
  | some n => exact .inl ⟨n, rfl, Option.some.inj (h.symm.trans (rational?_of_readInt64 hread))⟩
  | none =>
    obtain ⟨negative, d, e, hd, rfl⟩ := exists_of_rational? h
    exact .inr ⟨negative, d, e, rfl, hd, by rw [Double.read, hd]; rfl, rfl⟩

theorem Kind.not_holds_of_le {k : Kind} {negative : Bool} {x : ℚ} (hx : 2 ^ 64 ≤ x) :
    ¬ k.Holds (saturated (nearestAway (signed negative x))) := by
  have hfloor : (2 : ℤ) ^ 64 ≤ ⌊x + 1 / 2⌋ := Int.le_floor.mpr (by push_cast; linarith)
  have hbeyond : nearestAway (signed negative x) < int64Min ∨ int64Max + 1 < nearestAway (signed negative x) := by
    rw [nearestAway_signed negative (by linarith)]
    simp only [int64Min, int64Max]
    cases negative <;> simp only [if_true, Bool.false_eq_true, if_false] <;> omega
  intro h
  have hbounds := int64_of_holds h
  unfold saturated at hbounds
  split at hbounds <;> omega

def narrowNumeral? (t : String) (k : Kind) : Option Value :=
  match readInt64 t with
  | some n => Value.ofInteger? k n
  | none => (Double.read t).bind fun x => x.toInt64?.bind (Value.ofInteger? k)

theorem saturated_of_le {n : ℤ} (h : n ≤ int64Max) : saturated n = n := if_neg (by omega)

theorem Kind.yields_narrowNumeral? {k : Kind} (hk : k.isIntegral = true) {v : Value} {t : String} {q : ℚ}
    (ht : v.numeral? = some t) (hq : (readDecimal t).bind DecimalValue.rational? = some q) :
    k.Yields (saturated (nearestAway (v.rounded q))) (narrowNumeral? t k) := by
  unfold narrowNumeral? Value.rounded
  rw [ht, Option.bind_some, Value.standIn?]
  obtain ⟨n, hread, rfl⟩ | ⟨negative, d, e, hread, -, hx, rfl⟩ := numeral_cases hq
  · obtain ⟨hmin, hmax⟩ := mem_int64_of_readInt64 hread
    simpa [hread, nearestAway_intCast, saturated_of_le hmax] using yields_ofInteger? hk hmin hmax
  · simp only [hread, hx, Option.isSome_none, Bool.false_eq_true, if_false, Option.bind_some]
    obtain ⟨y, hy, -⟩ | ⟨hinfinite, hbeyond⟩ := Double.rational?_ofDecimal negative d e
    · rw [hy]
      exact yields_toInt64? hk hy
    · have hnone : (Double.ofDecimal negative d e).value.rational? = none := by rw [hinfinite]; rfl
      rw [hnone, Double.toInt64?_of_none hnone]
      have hlarge : (2 : ℚ) ^ 64 ≤ d * 10 ^ e := (pow_le_pow_right₀ one_le_two (by decide)).trans hbeyond
      exact ⟨fun h => absurd h (not_holds_of_le hlarge), fun _ => rfl⟩

/-! ## From values -/

namespace Value

variable {v : Value} {k : Kind}

theorem toKind?_of_isNumeric (hk : k.isIntegral = true) (hv : v.kind.isNumeric = true) :
    v.toKind? k = v.nearestInteger?.bind (ofInteger? k) := by
  have hnumeric : v.toNumeric? k = v.nearestInteger?.bind (ofInteger? k) := if_pos hk
  have hk' : k.isNumeric = true := by cases k <;> cases hk <;> rfl
  unfold toKind?
  by_cases hkind : v.kind = k
  · subst hkind
    rw [if_pos rfl, ← hnumeric, toNumeric?_kind hk]
  · rw [if_neg hkind, hk', hv, Bool.and_self, if_pos rfl, hnumeric]

theorem mem_int64_of_integer? {n : ℤ} (h : v.integer? = some n) : int64Min ≤ n ∧ n ≤ int64Max := by
  simp only [int64Min, int64Max]
  cases v with
  | int8 x | int16 x | int32 x | int64 x =>
    cases h
    have hmin := x.le_toInt
    have hmax := x.toInt_lt
    omega
  | uint8 x =>
    cases h
    have hmax := x.toNat_lt
    omega
  | _ => cases h

theorem yields_of_integer? {n : ℤ} (hk : k.isIntegral = true) (h : v.integer? = some n) :
    k.Yields n (v.toKind? k) := by
  obtain ⟨hmin, hmax⟩ := mem_int64_of_integer? h
  have hv : v.kind.isNumeric = true := by cases v <;> first | rfl | cases h
  have hnearest : v.nearestInteger? = some n := by simp only [nearestInteger?, h]
  rw [toKind?_of_isNumeric hk hv, hnearest]
  exact Kind.yields_ofInteger? hk hmin hmax

theorem toKind?_decimal {t : String} {q : ℚ} (hk : k.isIntegral = true) (h : (decimal t).rational? = some q) :
    (decimal t).toKind? k = narrowNumeral? t k := by
  obtain ⟨_, _, _, hd, -⟩ := exists_of_rational? h
  rw [toKind?_of_isNumeric hk rfl]
  unfold nearestInteger? narrowNumeral?
  simp only [integer?, trimBlanks_of_readDecimal hd]
  cases readInt64 t with
  | some n => rfl
  | none => exact Option.bind_assoc ..

theorem toKind?_string_eq_readNumeric? {t : String} (hk : k.isNumeric = true) :
    (string t).toKind? k = readNumeric? t k := by
  unfold toKind? convertAcross?
  cases k <;> cases hk <;> simp [kind, Kind.isNumeric, Kind.isIntegral]

theorem toKind?_string {t : String} (hk : k.isIntegral = true) :
    (string t).toKind? k = narrowNumeral? (trimBlanks t) k := by
  have hk' : k.isNumeric = true := by cases k <;> cases hk <;> rfl
  have hdecimal : k ≠ .decimal := by rintro rfl; cases hk
  have hnumeric : ∀ w : Value, w.toNumeric? k = w.nearestInteger?.bind (ofInteger? k) := fun w => if_pos hk
  rw [toKind?_string_eq_readNumeric? hk']
  unfold readNumeric? narrowNumeral?
  dsimp only
  cases hread : readInt64 (trimBlanks t) with
  | some n => simp only [hnumeric, nearestInteger?, integer?, toInt_ofInt_of_readInt64 hread, Option.bind_some]
  | none => simp only [if_neg hdecimal, hnumeric, nearestInteger?, integer?, double?, Option.bind_some]

/-- Conversion rounds what `rounded` says, and takes the integer above the 64-bit ones for the greatest of them. -/
theorem yields_convert? {q : ℚ} (hq : v.rational? = some q) (hk : k.isIntegral = true) :
    k.Yields (saturated (nearestAway (v.rounded q))) ((MemberType.primitive k).convert? v) := by
  have hnull : v ≠ null := by rintro rfl; cases hq
  rw [MemberType.convert?_primitive hnull]
  have hinteger : ∀ n : ℤ, v.integer? = some n → v.numeral? = none → (n : ℚ) = q →
      k.Yields (saturated (nearestAway (v.rounded q))) (v.toKind? k) := by
    rintro n hn hnone rfl
    rw [rounded, hnone, Option.bind_none, Option.bind_none, Option.getD_none, nearestAway_intCast,
      saturated_of_le (mem_int64_of_integer? hn).2]
    exact yields_of_integer? hk hn
  cases v with
  | int8 n | int16 n | int32 n | int64 n | uint8 n => exact hinteger _ rfl rfl (Option.some.inj hq)
  | single x =>
    rw [toKind?_of_isNumeric hk rfl]
    exact Kind.yields_toInt64? hk (x.rational?_toDouble.trans hq)
  | double x =>
    rw [toKind?_of_isNumeric hk rfl]
    exact Kind.yields_toInt64? hk hq
  | decimal t =>
    rw [toKind?_decimal hk hq]
    exact Kind.yields_narrowNumeral? hk rfl hq
  | string t =>
    rw [toKind?_string hk]
    exact Kind.yields_narrowNumeral? hk rfl hq
  | _ => cases hq

end Value

/-! ## What stands in for a numeral -/

theorem Value.rational?_of_numeral? {v : Value} {t : String} (h : v.numeral? = some t) :
    v.rational? = (readDecimal t).bind DecimalValue.rational? := by
  cases v <;> cases h <;> rfl

/-- A number is rounded as it is, or from a double that is off by at most a half of its last digit. -/
theorem Value.rounded_cases {v : Value} {q : ℚ} (hq : v.rational? = some q) :
    v.rounded q = q ∨
      ∃ t negative d e y, v.numeral? = some t ∧ readInt64 t = none ∧ readDecimal t = some (.number negative d e) ∧
        q = signed negative (d * 10 ^ e) ∧ v.rounded q = signed negative y ∧
        (Double.ofDecimal negative d e).value.rational? = some (signed negative y) ∧
        |y - d * 10 ^ e| ≤ d * 10 ^ e / 2 ^ 53 + 1 / 2 ^ 1075 := by
  unfold rounded
  cases ht : v.numeral? with
  | none => exact .inl rfl
  | some t =>
    rw [rational?_of_numeral? ht] at hq
    rw [Option.bind_some, standIn?]
    obtain ⟨n, hread, rfl⟩ | ⟨negative, d, e, hread, hd, hx, rfl⟩ := numeral_cases hq
    · rw [hread]
      exact .inl rfl
    · simp only [hread, hx, Option.isSome_none, Bool.false_eq_true, if_false, Option.bind_some]
      obtain ⟨y, hy, herror⟩ | ⟨hinfinite, -⟩ := Double.rational?_ofDecimal negative d e
      · exact .inr ⟨t, negative, d, e, y, rfl, hread, hd, rfl, by rw [hy]; rfl, hy, herror⟩
      · rw [hinfinite]
        exact .inl rfl

theorem Value.abs_rounded_sub_le {v : Value} {q : ℚ} (hq : v.rational? = some q) :
    |v.rounded q - q| ≤ |q| / 2 ^ 53 + 1 / 2 ^ 1075 := by
  obtain heq | ⟨_, negative, d, e, y, -, -, -, rfl, hy, -, herror⟩ := rounded_cases hq
  · rw [heq, sub_self, abs_zero]
    positivity
  · rw [hy, signed_sub, abs_signed, abs_signed, abs_of_nonneg (show (0 : ℚ) ≤ d * 10 ^ e by positivity)]
    exact herror

theorem Value.rounded_of_represents {v : Value} {q : ℚ} (hq : v.rational? = some q)
    (hr : FloatFormat.double.Represents |q|) : v.rounded q = q := by
  obtain heq | ⟨_, negative, d, e, y, -, -, -, rfl, hy, hx, -⟩ := rounded_cases hq
  · exact heq
  · rw [abs_signed, abs_of_nonneg (by positivity)] at hr
    rw [hy, ← Option.some_inj, ← hx, Double.rational?_ofDecimal_of_represents hr]

theorem Value.nearestAway_rounded {v : Value} {t : String} {negative : Bool} {d : ℕ} {e : ℤ} {q : ℚ}
    (hq : v.rational? = some q) (ht : v.numeral? = some t) (hread : readDecimal t = some (.number negative d e))
    (hd : d < 10 ^ 15) (he : e ≤ 0) : nearestAway (v.rounded q) = nearestAway q := by
  obtain heq | ⟨t', negative', d', e', y, ht', -, hread', rfl, hy, -, herror⟩ := rounded_cases hq
  · rw [heq]
  obtain rfl : t = t' := Option.some.inj (ht.symm.trans ht')
  cases hread.symm.trans hread'
  obtain ⟨j, hj⟩ := Int.eq_ofNat_of_zero_le (a := -e) (by omega)
  obtain rfl : e = -j := by omega
  have hratio : (d : ℚ) * 10 ^ (-(j : ℤ)) = d / 10 ^ j := by rw [zpow_neg, zpow_natCast, div_eq_mul_inv]
  by_cases hr : FloatFormat.double.Represents (d / 10 ^ j)
  · rw [rounded_of_represents hq]
    rwa [abs_signed, hratio, abs_of_nonneg (by positivity)]
  · rw [hratio] at herror hy ⊢
    have hlt := abs_sub_floor_lt hd
      (one_div_le_one_div_of_le (by positivity) (pow_le_pow_right₀ one_le_two (by decide))) herror hr
    rw [hy, nearestAway_signed negative (show (0 : ℚ) ≤ d / 10 ^ j by positivity), nearestAway_eq_iff]
    left
    cases negative with
    | false => simpa [signed] using hlt
    | true =>
      rw [signed, if_pos rfl, if_pos rfl, Int.cast_neg, neg_sub_neg, abs_sub_comm]
      exact hlt

/-! ## Narrowing -/

/-- Narrowing to an integral kind gives the nearest integer or fails, exactly if the number that is rounded leads to it.
That is the number itself, of all values but texts that are no 64-bit integer numerals, and of those that some double
denotes; of the other texts it is off by at most a half of the last digit of a double, which leaves the nearest integer
of decimals with up to fifteen digits. -/
theorem narrowed_exactly_iff {v : Value} {k : Kind} {q : ℚ} (hq : v.rational? = some q) (hk : k.isIntegral = true) :
    (k.Yields (nearestAway q) ((MemberType.primitive k).convert? v) ↔
        k.Alike (nearestAway q) (saturated (nearestAway (v.rounded q)))) ∧
      ((∀ t, v.numeral? = some t → (readInt64 t).isSome = true) → v.rounded q = q) ∧
      ((∃ x : Double, x.value.rational? = some q) → v.rounded q = q) ∧
      |v.rounded q - q| ≤ |q| / 2 ^ 53 + 1 / 2 ^ 1075 ∧
      ∀ t negative d e, v.numeral? = some t → readDecimal t = some (.number negative d e) → d < 10 ^ 15 → e ≤ 0 →
        nearestAway (v.rounded q) = nearestAway q := by
  refine ⟨(Value.yields_convert? hq hk).iff_alike, fun hnumeral => ?_, ?_, Value.abs_rounded_sub_le hq, ?_⟩
  · obtain heq | ⟨t, _, _, _, _, ht, hread, -⟩ := Value.rounded_cases hq
    · exact heq
    · have := hnumeral t ht
      rw [hread] at this
      cases this
  · rintro ⟨x, hx⟩
    exact Value.rounded_of_represents hq (Double.represents_of_value hx)
  · intro t negative d e ht hread hd he
    exact Value.nearestAway_rounded hq ht hread hd he

theorem half_narrowed_away_from_zero :
    (Value.decimal "-12.5").rational? = some (-25 / 2) ∧ Kind.int8.isIntegral = true ∧
      Kind.int8.Yields (-13) ((MemberType.primitive .int8).convert? (.decimal "-12.5")) := by
  have hread : readDecimal "-12.5" = some (.number true 125 (-1)) := by decide
  have hq : (Value.decimal "-12.5").rational? = some (-25 / 2) := by
    simp only [Value.rational?, hread, Option.bind_some, DecimalValue.rational?, signed]
    norm_num
  have hnearest : nearestAway (-25 / 2) = -13 := nearestAway_eq_iff.mpr (.inr (by norm_num))
  obtain ⟨hiff, -, -, -, hdigits⟩ := @narrowed_exactly_iff _ .int8 _ hq rfl
  rw [hdigits _ _ _ _ rfl hread (by decide) (by decide), hnearest] at hiff
  exact ⟨hq, rfl, hiff.mpr (.inl rfl)⟩

/-- The double above the 64-bit integers is taken for the greatest of them, and a decimal below a half is rounded up. -/
theorem narrowing_not_exact :
    ((Value.double ⟨0x43e0000000000000⟩).rational? = some (2 ^ 63) ∧
      ¬ Kind.int64.Yields (nearestAway (2 ^ 63))
        ((MemberType.primitive .int64).convert? (.double ⟨0x43e0000000000000⟩))) ∧
    (Value.decimal "0.49999999999999999999").rational? = some (49999999999999999999 / 10 ^ 20) ∧
      ¬ Kind.int32.Yields (nearestAway (49999999999999999999 / 10 ^ 20))
        ((MemberType.primitive .int32).convert? (.decimal "0.49999999999999999999")) := by
  refine ⟨⟨?_, fun h => ?_⟩, ?_, fun h => ?_⟩
  · have hvalue : (⟨0x43e0000000000000⟩ : Double).value = .finite false (2 ^ 52) 11 := by decide
    simp only [Value.rational?, hvalue, FloatValue.rational?, signed]
    norm_num
  · have hnearest : nearestAway (2 ^ 63) = 2 ^ 63 := nearestAway_eq_iff.mpr (.inl (by norm_num))
    have := h.outOfRange (by rw [hnearest]; simp [Kind.Holds])
    exact absurd this (by decide)
  · have hread : readDecimal "0.49999999999999999999" = some (.number false 49999999999999999999 (-20)) := by decide
    simp only [Value.rational?, hread, Option.bind_some, DecimalValue.rational?, signed]
    norm_num
  · have hnearest : nearestAway (49999999999999999999 / 10 ^ 20) = 0 := nearestAway_eq_iff.mpr (.inl (by norm_num))
    obtain ⟨w, hw, -, hn⟩ := h.inRange (by rw [hnearest]; simp [Kind.Holds])
    have hone : (MemberType.primitive .int32).convert? (.decimal "0.49999999999999999999") = some (.int32 1) := by decide
    rw [hnearest] at hn
    cases hone.symm.trans hw
    exact absurd hn (by decide)

end SqlMapping
