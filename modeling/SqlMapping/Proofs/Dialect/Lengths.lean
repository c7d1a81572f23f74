import SqlMapping.Proofs.Dialect.Quoting
import SqlMapping.Proofs.Json.Integers

/-!
# Declared lengths

A type may carry a length, as a number in parentheses behind its name. `declared_length_kept_iff`: the type of a column
carries the length that was declared, or a smaller one if none of the capacities that the dialect has for it is enough.
-/

namespace SqlMapping

/-! ## The length of a type -/

/-- Digits between the parentheses of a type, with nothing behind them. -/
def carriedLength? (type : String) : Option Nat :=
  match type.toList.dropWhile (· ≠ '(') with
  | [] => none
  | _ :: cs => if cs.getLast? = some ')' then readNat cs.dropLast else none

def HasLengthPlace (template : String) : Prop :=
  template.toList.dropWhile (· ≠ '(') = ['(', '$', 'l', ')'] ∧ '$' ∉ template.toList.takeWhile (· ≠ '(')

instance (template : String) : Decidable (HasLengthPlace template) := inferInstanceAs (Decidable (_ ∧ _))

theorem replacePair_append {a : Char} {cs : List Char} (h : a ∉ cs) (b : Char) (r rest : List Char) :
    replacePair a b r (cs ++ rest) = cs ++ replacePair a b r rest := by
  induction cs with
  | nil => rfl
  | cons c cs ih =>
    rw [List.mem_cons, not_or] at h
    rw [List.cons_append, replacePair_cons_of_ne (Ne.symm h.1), ih h.2, List.cons_append]

theorem replacePair_eq_self {a : Char} {cs : List Char} (h : a ∉ cs) (b : Char) (r : List Char) :
    replacePair a b r cs = cs := by
  have happend := replacePair_append h b r []
  rwa [List.append_nil, replacePair, List.append_nil] at happend

theorem fillTypeName_eq_self {template : String} (h : '$' ∉ template.toList) (length precision scale : Nat) :
    fillTypeName template length precision scale = template := by
  simp only [fillTypeName, replacePair_eq_self h, String.ofList_toList]

theorem carriedLength?_fillTypeName {template : String} (h : HasLengthPlace template) (length precision scale : Nat) :
    carriedLength? (fillTypeName template length precision scale) = some length := by
  obtain ⟨hplace, hname⟩ := h
  set name := template.toList.takeWhile (· ≠ '(') with hname'
  have hparen : ∀ c ∈ name, decide (c ≠ '(') = true := by
    intro c hc
    rw [hname'] at hc
    have hne := List.mem_takeWhile_imp hc
    exact hne
  have htemplate : template.toList = name ++ ['(', '$', 'l', ')'] := by
    rw [← hplace, hname', List.takeWhile_append_dropWhile]
  have hdigits : '$' ∉ Nat.toDigits 10 length := fun hmem => by
    have := isDigit_toDigits length '$' hmem
    cases this
  have hfilled : replacePair '$' 'l' (toString length).toList template.toList =
      name ++ '(' :: (Nat.toDigits 10 length ++ [')']) := by
    rw [htemplate, replacePair_append hname, show (toString length).toList = Nat.toDigits 10 length from Nat.toList_repr]
    rfl
  have hnone : '$' ∉ name ++ '(' :: (Nat.toDigits 10 length ++ [')']) := by simp [hname, hdigits]
  simp only [carriedLength?, fillTypeName, hfilled, replacePair_eq_self hnone, String.toList_ofList,
    List.dropWhile_append_of_pos hparen]
  rw [List.dropWhile_cons_of_neg (by decide)]
  simp only [List.getLast?_concat, List.dropLast_concat, if_true, readNat_toDigits]

/-! ## Capacities -/

def DbType.measured : List DbType := [.ansiString, .ansiStringFixedLength, .string, .stringFixedLength, .binary]

namespace Dialect

def HasCapacity (d : Dialect) (type : DbType) (length : Nat) : Prop :=
  ∃ p ∈ (d.types.entry type).sized, length ≤ p.1

/-- The names for the lengths of a type hold their place, or carry none. The default carries none that is greater than
all capacities, and none at all where types are not sized. -/
def NamesLengths (d : Dialect) (type : DbType) : Prop :=
  (∀ p ∈ (d.types.entry type).sized,
      HasLengthPlace p.2 ∨ '$' ∉ p.2.toList ∧ carriedLength? p.2 = none) ∧
    ∃ t ∈ d.types.get? type, '$' ∉ t.toList ∧
      ∀ l ∈ carriedLength? t, d.sizedTypes = true ∧ ∃ p ∈ (d.types.entry type).sized, l ≤ p.1

instance (d : Dialect) (type : DbType) : Decidable (d.NamesLengths type) := inferInstanceAs (Decidable (_ ∧ _))

theorem namesLengths_of_builtIn {d : Dialect} (hd : d ∈ builtIn) {type : DbType} (h : type ∈ DbType.measured) :
    d.NamesLengths type := by
  have hall : ∀ d ∈ builtIn, ∀ type ∈ DbType.measured, d.NamesLengths type := by
    simp only [builtIn, List.forall_mem_cons]
    decide
  exact hall d hd type h

variable {d : Dialect} {type : DbType}

theorem template?_of_hasCapacity {n : Nat} (h : d.HasCapacity type n) :
    ∃ p ∈ (d.types.entry type).sized, d.types.template? type n = some p.2 := by
  obtain ⟨p, hp, hle⟩ := h
  have hfound : ((d.types.entry type).sized.find? fun c => n ≤ c.1).isSome = true :=
    List.find?_isSome.mpr ⟨p, hp, decide_eq_true hle⟩
  obtain ⟨p, hp⟩ := Option.isSome_iff_exists.mp hfound
  exact ⟨p, List.mem_of_find?_eq_some hp, by rw [TypeNames.template?, hp]⟩

theorem template?_of_not_hasCapacity {n : Nat} (h : ¬ d.HasCapacity type n) :
    d.types.template? type n = d.types.get? type := by
  have hnone : ((d.types.entry type).sized.find? fun c => n ≤ c.1) = none :=
    List.find?_eq_none.mpr fun p hp hle => h ⟨p, hp, of_decide_eq_true hle⟩
  rw [TypeNames.template?, hnone]

/-- A sized name carries the length, if there is capacity for it, or none; otherwise the name is the default. -/
theorem sizedTypeName_of_namesLengths (h : d.NamesLengths type) (length precision scale : Nat) :
    ∃ text, d.sizedTypeName type length precision scale = .ok text ∧
      (d.sizedTypes = true → d.HasCapacity type length → ∀ l ∈ carriedLength? text, l = length) ∧
      (d.sizedTypes = false ∨ ¬ d.HasCapacity type length → d.types.get? type = some text) := by
  obtain ⟨hsized, t, ht, hplain, -⟩ := h
  unfold sizedTypeName
  cases hunsized : d.sizedTypes with
  | false => exact ⟨t, by simp [typeName, orUnregistered, Option.mem_def.mp ht], by simp, fun _ => ht⟩
  | true =>
    rw [if_pos rfl, TypeNames.getSized?]
    by_cases hcapacity : d.HasCapacity type length
    · obtain ⟨p, hp, htemplate⟩ := template?_of_hasCapacity hcapacity
      refine ⟨fillTypeName p.2 length precision scale, by rw [htemplate]; rfl, fun _ _ l hl => ?_, by simp [hcapacity]⟩
      obtain hplace | ⟨hname, hnone⟩ := hsized p hp
      · rw [carriedLength?_fillTypeName hplace] at hl
        exact (Option.some.inj hl).symm
      · rw [fillTypeName_eq_self hname, hnone] at hl
        cases hl
    · refine ⟨t, ?_, fun _ h => absurd h hcapacity, fun _ => ht⟩
      rw [template?_of_not_hasCapacity hcapacity, Option.mem_def.mp ht, Option.map_some, fillTypeName_eq_self hplain]
      rfl

end Dialect

/-- Every declared length has a type. If that carries a length, it is the one that was declared, where the dialect has
capacity for it, and otherwise that of the default name of the type, which is smaller. -/
theorem declared_length_kept_iff {d : Dialect} (hd : d ∈ Dialect.builtIn) {c : Column}
    (hc : c.type ∈ DbType.measured) {n : Nat} (hn : c.length = some n) :
    ∃ text, d.columnType c = .ok text ∧ ∀ l, carriedLength? text = some l →
      (n ≤ l ↔ d.HasCapacity c.type n) ∧ (d.HasCapacity c.type n → l = n) ∧
        (¬ d.HasCapacity c.type n → d.types.get? c.type = some text) := by
  have hnames := Dialect.namesLengths_of_builtIn hd hc
  obtain ⟨text, htext, hcarried, hdefault⟩ := Dialect.sizedTypeName_of_namesLengths hnames n
    (c.precision.getD defaultPrecision) (c.scale.getD defaultScale)
  have hcolumn : d.columnType c = .ok text := by rw [← htext]; simp [Dialect.columnType, hn]
  refine ⟨text, hcolumn, fun l hl => ?_⟩
  -- the length of a default is within some capacity, and there is none where types are not sized
  have hbound : d.types.get? c.type = some text →
      d.sizedTypes = true ∧ ∃ p ∈ (d.types.entry c.type).sized, l ≤ p.1 := by
    obtain ⟨-, t, ht, -, hlimit⟩ := hnames
    intro hget
    obtain rfl : t = text := Option.some.inj (ht.symm.trans hget)
    exact hlimit l hl
  have hsized : d.sizedTypes = true := by
    by_contra h
    have h := eq_false_of_ne_true h
    rw [(hbound (hdefault (.inl h))).1] at h
    cases h
  refine ⟨⟨fun hle => ?_, fun h => (hcarried hsized h l hl).ge⟩, fun h => hcarried hsized h l hl,
    fun h => hdefault (.inr h)⟩
  by_contra h
  obtain ⟨-, p, hp, hlp⟩ := hbound (hdefault (.inr h))
  exact h ⟨p, hp, hle.trans hlp⟩

theorem greatest_capacity_kept :
    Dialect.oracle.columnType { name := "note", type := .string, length := some 2000 } = .ok "nvarchar2(2000)" ∧
      carriedLength? "nvarchar2(2000)" = some 2000 ∧ Dialect.oracle.HasCapacity .string 2000 := by
  have hd : Dialect.oracle ∈ Dialect.builtIn := by simp [Dialect.builtIn]
  have htype : DbType.string ∈ DbType.measured := by decide
  have htext : Dialect.oracle.columnType { name := "note", type := .string, length := some 2000 } =
      .ok "nvarchar2(2000)" := by decide
  have hlength : carriedLength? "nvarchar2(2000)" = some 2000 := by decide
  obtain ⟨text, htext', hkept⟩ :=
    declared_length_kept_iff hd (c := { name := "note", type := .string, length := some 2000 }) htype rfl
  cases htext'.symm.trans htext
  exact ⟨htext, hlength, (hkept 2000 hlength).1.mp le_rfl⟩

/-- Above all capacities for a type, the length of its default stands in the place of the one that was declared. -/
theorem length_above_capacities_narrowed :
    Dialect.ansi.columnType { name := "code", type := .ansiStringFixedLength, length := some 256 } = .ok "char(255)" ∧
      carriedLength? "char(255)" = some 255 ∧ ¬ 256 ≤ 255 := by decide

end SqlMapping
