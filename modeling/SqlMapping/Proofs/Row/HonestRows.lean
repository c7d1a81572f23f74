import SqlMapping.Proofs.Row.Conformance
import SqlMapping.Proofs.Row.Constructors

/-!
# Rows that keep to their shape

Where columns are passed to a constructor, its parameters accept their kinds. So in a row whose values are null or of
the kinds reported, every value can be converted, unless text has to name a variant of an enumeration
(`honest_rows_convert`). Values that are not null are not changed.
-/

namespace SqlMapping

def RowShape.Honest (shape : RowShape) (row : RowReader) : Prop :=
  ∀ i column, shape.columns[i]? = some column →
    ∃ k v, column.2 = some k ∧ row i = .ok v ∧ (v = .null ∨ v.kind = k)

namespace MemberType

def TakesNames (t : MemberType) (k : Kind) : Prop := k = .string ∧ ∃ e, t.core = .enum e

/-- A kind that is accepted is the declared one, but for null and for names of variants. -/
theorem holds_of_accepts {v : Value} (hv : v ≠ .null) : ∀ {t : MemberType}, t.IntegralEnums →
    t.accepts (some v.kind) = true → t.Holds v ∨ t.TakesNames v.kind
  | .any, _, _ => .inl trivial
  | .binary, _, h => .inl (beq_iff_eq.mp h)
  | .primitive _, _, h => .inl (beq_iff_eq.mp h).symm
  | .enum e, ht, h => by
    rcases Bool.or_eq_true_iff.mp h with hk | hk
    · exact .inl ⟨ht, beq_iff_eq.mp hk⟩
    · exact .inr ⟨beq_iff_eq.mp hk, e, rfl⟩
  | .nullable inner, ht, h => by
    rcases Bool.or_eq_true_iff.mp h with hk | hk
    · exact absurd ((Value.kind_eq_null_iff v).mp (beq_iff_eq.mp hk)) hv
    · exact holds_of_accepts hv (t := inner) ht hk

end MemberType

/-! ## Arguments -/

namespace Materializer

variable {row : RowReader} {typeName : String}

/-- Each argument is what its binding reads. -/
theorem reads_of_arguments {bs : List ColumnBinding} : ∀ {args : List Value},
    arguments row typeName bs = .ok args →
      args.length = bs.length ∧ ∀ (i : Nat) (b : ColumnBinding), bs[i]? = some b →
        ∃ w, args[i]? = some w ∧ b.read row typeName = .ok w := by
  induction bs with
  | nil =>
    intro args h
    cases h
    exact ⟨rfl, fun i b hb => by simp at hb⟩
  | cons b bs ih =>
    intro args h
    rw [arguments] at h
    cases hread : b.read row typeName with
    | error e => simp [hread] at h
    | ok w =>
      cases hrest : arguments row typeName bs with
      | error e => simp [hread, hrest] at h
      | ok ws =>
        simp only [hread, hrest, Except.ok.injEq] at h
        obtain ⟨hlength, hreads⟩ := ih hrest
        subst h
        refine ⟨by simp [hlength], fun i b' hb' => ?_⟩
        cases i with
        | zero =>
          cases hb'
          exact ⟨w, rfl, hread⟩
        | succ i => exact hreads i b' hb'

theorem exists_of_arguments_error {e : Error} {bs : List ColumnBinding}
    (h : arguments row typeName bs = .error e) : ∃ b ∈ bs, b.read row typeName = .error e := by
  induction bs with
  | nil => cases h
  | cons b bs ih =>
    rw [arguments] at h
    cases hread : b.read row typeName with
    | error e' =>
      simp only [hread, Except.error.injEq] at h
      exact ⟨b, List.mem_cons_self, h ▸ hread⟩
    | ok w =>
      cases hrest : arguments row typeName bs with
      | error e' =>
        simp only [hread, hrest, Except.error.injEq] at h
        obtain ⟨b', hb', hread'⟩ := ih (h ▸ hrest)
        exact ⟨b', List.mem_cons_of_mem b hb', hread'⟩
      | ok ws => simp [hread, hrest] at h

end Materializer

/-! ## Parameters -/

/-- What is read for a parameter that accepts the kind: the converted value, which is the same unless it is null or
names a variant. Or text is read that names none. -/
theorem ColumnBinding.read_cases {b : ColumnBinding} (hb : b.type.IntegralEnums) {k : Kind}
    (haccepts : b.type.accepts (some k) = true) {row : RowReader} {v : Value} (hv : row b.ordinal = .ok v)
    (hkind : v = .null ∨ v.kind = k) (typeName : String) :
    (∃ w, b.read row typeName = .ok w ∧ b.type.convert? v = some w ∧
        (v ≠ .null → ¬ b.type.TakesNames v.kind → w = v)) ∨
      (k = .string ∧ ∃ text, v = .string text ∧ b.type.TakesNames .string ∧ b.type.convert? v = none ∧
        b.read row typeName = .error (.conversion ⟨typeName, b.member, b.column, .string, b.type.display⟩)) := by
  cases hconvert : b.type.convert? v with
  | some w =>
    refine .inl ⟨w, by simp [read, hv, hconvert], rfl, fun hnull hnames => ?_⟩
    obtain rfl := hkind.resolve_left hnull
    have hholds := (MemberType.holds_of_accepts hnull hb haccepts).resolve_right hnames
    rw [MemberType.convert?_of_conforms (.inl hholds)] at hconvert
    exact (Option.some.inj hconvert).symm
  | none =>
    have hnull : v ≠ .null := by
      rintro rfl
      cases hconvert
    obtain rfl := hkind.resolve_left hnull
    rcases MemberType.holds_of_accepts hnull hb haccepts with hholds | ⟨hstring, hnames⟩
    · rw [MemberType.convert?_of_conforms (.inl hholds)] at hconvert
      cases hconvert
    · cases v with
      | string text =>
        exact .inr ⟨rfl, text, rfl, ⟨rfl, hnames⟩, rfl, by simp [read, hv, hconvert, Value.kind]⟩
      | _ => cases hstring

theorem TypeInfo.getElem?_parameterBindings (parameters : List Parameter) (columns : List String) (i : Nat) :
    (parameterBindings parameters columns)[i]? =
      ((parameters.zip columns)[i]?).map fun x => ⟨i, x.2, i, x.1.name, x.1.type⟩ := by
  rw [parameterBindings, indexed_eq, List.getElem?_map, List.getElem?_map, List.getElem?_zipIdx]
  cases (parameters.zip columns)[i]? with
  | none => rfl
  | some x => simp

namespace Constructor

variable {c : Constructor} {shape : RowShape} {table : Option Table}

/-- Of a constructor that fits, each parameter is bound to a column whose kind it accepts. -/
theorem Fits.binding (h : c.Fits shape table) {i : Nat} {q : Parameter} (hq : c.parameters[i]? = some q) :
    ∃ column, shape.columns[i]? = some column ∧ q.type.accepts column.2 = true ∧
      (TypeInfo.parameterBindings c.parameters shape.names)[i]? = some ⟨i, column.1, i, q.name, q.type⟩ := by
  have hlt : i < shape.columns.length := h.length_eq ▸ (List.getElem?_eq_some_iff.mp hq).1
  have hcolumn : shape.columns[i]? = some shape.columns[i] := List.getElem?_eq_getElem hlt
  have hmem : (q, shape.columns[i]) ∈ c.parameters.zip shape.columns :=
    List.mem_of_getElem? (List.getElem?_zip_eq_some.mpr ⟨hq, hcolumn⟩)
  refine ⟨shape.columns[i], hcolumn, (List.forall₂_zip h hmem).2, ?_⟩
  have hname : shape.names[i]? = some shape.columns[i].1 := by rw [RowShape.names, List.getElem?_map, hcolumn]; rfl
  have hzip : (c.parameters.zip shape.names)[i]? = some (q, shape.columns[i].1) :=
    List.getElem?_zip_eq_some.mpr ⟨hq, hname⟩
  rw [TypeInfo.getElem?_parameterBindings, hzip]
  rfl

/-- What is read of an honest row for a parameter of a constructor that fits: the converted value, or text that names no
variant. -/
theorem Fits.read_cases (h : c.Fits shape table) (henums : ∀ q ∈ c.parameters, q.type.IntegralEnums)
    {row : RowReader} (hrow : shape.Honest row) {i : Nat} {q : Parameter} (hq : c.parameters[i]? = some q)
    (typeName : String) :
    ∃ b v, (TypeInfo.parameterBindings c.parameters shape.names)[i]? = some b ∧ row i = .ok v ∧
      ((∃ w, b.read row typeName = .ok w ∧ q.type.convert? v = some w ∧
          (v ≠ .null → ¬ q.type.TakesNames v.kind → w = v)) ∨
        ∃ column text, shape.columns[i]? = some (column, some .string) ∧ v = .string text ∧
          q.type.TakesNames .string ∧ q.type.convert? v = none ∧
          b.read row typeName = .error (.conversion ⟨typeName, q.name, column, .string, q.type.display⟩)) := by
  obtain ⟨⟨column, kind⟩, hcolumn, haccepts, hbinding⟩ := h.binding hq
  obtain ⟨k, v, rfl, hv, hkind⟩ := hrow i _ hcolumn
  have hintegral : q.type.IntegralEnums := henums q (List.mem_of_getElem? hq)
  refine ⟨_, v, hbinding, hv, ?_⟩
  rcases ColumnBinding.read_cases (b := ⟨i, column, i, q.name, q.type⟩) hintegral haccepts hv hkind typeName with
    hread | ⟨rfl, text, htext, hfails⟩
  · exact .inl hread
  · exact .inr ⟨column, text, hcolumn, htext, hfails⟩

theorem Fits.length_bindings (h : c.Fits shape table) :
    (TypeInfo.parameterBindings c.parameters shape.names).length = c.parameters.length := by
  have hlength := h.length_eq
  rw [TypeInfo.parameterBindings, indexed_eq]
  simp [RowShape.names, hlength]

end Constructor

/-- A row that keeps to the kinds of its shape is passed to the constructor that was chosen, each value converted to
the type of its parameter: null to what stands for it there, and any other value, unless it is text that names a
variant of an enumeration, as it is. A conversion can fail for such text alone. -/
theorem honest_rows_convert {α : Type} {m : Mapping α} {shape : RowShape} {table : Option Table}
    {config : MapperConfig} {p : Materializer}
    (henums : ∀ c ∈ m.info.constructors, ∀ q ∈ c.parameters, q.type.IntegralEnums)
    (hpasses : m.info.PassesColumns shape table) (hp : m.info.compile shape table config = .ok p) {row : RowReader}
    (hrow : shape.Honest row) :
    ∃ c, m.info.constructors[p.constructor]? = some c ∧
      ((∃ args, p.run m row = m.construct p.constructor args ∧ args.length = c.parameters.length ∧
        ∀ i q v, c.parameters[i]? = some q → row i = .ok v → ∃ w, args[i]? = some w ∧
          q.type.convert? v = some w ∧ (v ≠ .null → ¬ q.type.TakesNames v.kind → w = v)) ∨
      ∃ i q column text, c.parameters[i]? = some q ∧ shape.columns[i]? = some (column, some .string) ∧
        row i = .ok (.string text) ∧ q.type.TakesNames .string ∧ q.type.convert? (.string text) = none ∧
        p.run m row = .error (.conversion ⟨m.info.name, q.name, column, .string, q.type.display⟩)) := by
  rw [TypeInfo.compile_eq_compileConstructor hpasses config] at hp
  rcases m.info.compileConstructor_cases shape table with
    ⟨before, c, after, htrials, hfits, -, hcompile⟩ | ⟨-, hcompile⟩
  · rw [hcompile] at hp
    cases hp
    have hc : m.info.constructors[c.1]? = some c.2 := (m.info.mem_trials_iff c).mp (by simp [htrials])
    have hread {i : Nat} {q : Parameter} (hq : c.2.parameters[i]? = some q) :=
      hfits.read_cases (henums c.2 (List.mem_of_getElem? hc)) hrow hq m.info.name
    refine ⟨c.2, hc, ?_⟩
    simp only [Materializer.run, if_true]
    cases hargs : Materializer.arguments row m.info.name
        (TypeInfo.parameterBindings c.2.parameters shape.names) with
    | ok args =>
      obtain ⟨hlength, hreads⟩ := Materializer.reads_of_arguments hargs
      refine .inl ⟨args, rfl, hlength.trans hfits.length_bindings, fun i q v hq hv => ?_⟩
      obtain ⟨b, v', hb, hv', hcases⟩ := hread hq
      obtain ⟨w, hw, hok⟩ := hreads i b hb
      obtain rfl : v' = v := Except.ok.inj (hv'.symm.trans hv)
      rcases hcases with ⟨w', hok', hconvert, hsame⟩ | ⟨column, text, -, -, -, -, hfails⟩
      · obtain rfl : w' = w := Except.ok.inj (hok'.symm.trans hok)
        exact ⟨w', hw, hconvert, hsame⟩
      · cases hfails.symm.trans hok
    | error e =>
      obtain ⟨b, hb, hfails⟩ := Materializer.exists_of_arguments_error hargs
      obtain ⟨i, hi⟩ := List.getElem?_of_mem hb
      have hlt : i < c.2.parameters.length := hfits.length_bindings ▸ (List.getElem?_eq_some_iff.mp hi).1
      obtain ⟨b', v, hb', hv, hcases⟩ := hread (List.getElem?_eq_getElem hlt)
      obtain rfl : b = b' := Option.some.inj (hi.symm.trans hb')
      rcases hcases with ⟨w, hok, -, -⟩ | ⟨column, text, hcolumn, rfl, hnames, hconvert, hfails'⟩
      · cases hok.symm.trans hfails
      · obtain rfl := Except.error.inj (hfails'.symm.trans hfails)
        exact .inr ⟨i, _, column, text, List.getElem?_eq_getElem hlt, hcolumn, hv, hnames, hconvert, rfl⟩
  · rw [hcompile] at hp
    cases hp

def readingMapping : Mapping (List Value) where
  info :=
    { name := "Reading"
      constructors := [⟨.everyone, [⟨"sensor", .primitive .int32⟩, ⟨"unit", .nullable (.primitive .string)⟩,
        ⟨"level", .nullable (.enum ⟨"Level", .int16, [("Low", 1), ("High", 2)]⟩)⟩, ⟨"extra", .any⟩]⟩] }
  construct := fun _ args => .ok args
  assign := fun target _ _ => .ok target
  memberValue := fun _ _ => .ok .null

def readingRow : RowReader := fun i =>
  .ok ([Value.null, .string "kPa", .string "high", .bool true].getD i .null)

theorem named_level_converted :
    let shape : RowShape := ⟨[("sensor", some .int32), ("unit", some .string), ("level", some .string),
      ("extra", some .bool)]⟩
    ∃ p, readingMapping.info.compile shape none {} = .ok p ∧ shape.Honest readingRow ∧
      p.run readingMapping readingRow = .ok [.int32 0, .string "kPa", .int16 2, .bool true] ∧
      ∃ args, p.run readingMapping readingRow = readingMapping.construct p.constructor args ∧
        args[3]? = some (.bool true) := by
  intro shape
  have henums : ∀ c ∈ readingMapping.info.constructors, ∀ q ∈ c.parameters, q.type.IntegralEnums := by
    simp [readingMapping, MemberType.IntegralEnums, Kind.isIntegral]
  have hpasses : readingMapping.info.PassesColumns shape none := .inl (by decide)
  have hhonest : shape.Honest readingRow := by
    intro i column hcolumn
    match i with
    | 0 | 1 | 2 | 3 => cases hcolumn; exact ⟨_, _, rfl, rfl, by decide⟩
    | i + 4 => cases hcolumn
  have hcompile : readingMapping.info.compile shape none {} = .ok _ := rfl
  obtain ⟨c, hc, hrun⟩ := honest_rows_convert henums hpasses hcompile hhonest
  refine ⟨_, hcompile, hhonest, rfl, ?_⟩
  cases hc
  rcases hrun with ⟨args, hconstruct, -, hconverted⟩ | ⟨i, q, column, text, -, -, -, -, -, hfails⟩
  · obtain ⟨w, hw, -, hsame⟩ := hconverted 3 _ _ rfl rfl
    obtain rfl := hsame (by decide) (fun h => by cases h.1)
    exact ⟨args, hconstruct, hw⟩
  · cases hfails

end SqlMapping
