import SqlMapping.Proofs.Row.Constructors

/-!
# Columns and their members

The member that a column is bound to, and how the options of the mapper bear on it. `options_never_rebind`: strict
columns only refuse, members in any case only add bindings, and a column that is bound without them stays as it is.
-/

namespace SqlMapping

namespace TypeInfo

/-! ## The member of a name -/

section
variable (t : TypeInfo)

def FirstMember (P : Member → Prop) (slot : Nat) : Prop :=
  (∃ m, t.members[slot]? = some m ∧ P m) ∧ ∀ i < slot, ∀ m, t.members[i]? = some m → ¬ P m

/-- The member that a name stands for: the first of exactly this name. If there is none and case is ignored, it is the
first whose name is the same but for case. -/
inductive Names (ignoreCase : Bool) (name : String) (slot : Nat) : Prop where
  | exact (h : t.FirstMember (fun m => m.name = name) slot)
  | folded (hcase : ignoreCase = true) (hnone : ∀ m ∈ t.members, m.name ≠ name)
      (h : t.FirstMember (fun m => foldCase m.name = foldCase name) slot)

/-- A column resolves to the member of the name that the table has for it, or else of its own. -/
def Resolves (config : MapperConfig) (table : Option Table) (column : String) (slot : Nat) : Prop :=
  t.Names config.caseInsensitiveMembers (RowShape.resolvedName table column) slot

end

section
variable {t : TypeInfo} {config : MapperConfig} {table : Option Table}

theorem findIdx?_eq_some_iff {p : Member → Bool} {P : Member → Prop} (hp : ∀ m, p m = true ↔ P m) {slot : Nat} :
    t.members.findIdx? p = some slot ↔ t.FirstMember P slot := by
  rw [List.findIdx?_eq_some_iff_getElem, FirstMember]
  constructor
  · rintro ⟨hlt, hm, hbefore⟩
    refine ⟨⟨_, List.getElem?_eq_getElem hlt, (hp _).mp hm⟩, fun i hi m hm' hP => ?_⟩
    obtain ⟨hlt', rfl⟩ := List.getElem?_eq_some_iff.mp hm'
    exact hbefore i hi ((hp _).mpr hP)
  · rintro ⟨⟨m, hm, hP⟩, hbefore⟩
    obtain ⟨hlt, rfl⟩ := List.getElem?_eq_some_iff.mp hm
    refine ⟨hlt, (hp _).mpr hP, fun i hi hpi => ?_⟩
    exact hbefore i hi _ (List.getElem?_eq_getElem (Nat.lt_trans hi hlt)) ((hp _).mp hpi)

theorem memberIndex?_eq_some_iff {ignoreCase : Bool} {name : String} {slot : Nat} :
    t.memberIndex? name ignoreCase = some slot ↔ t.Names ignoreCase name slot := by
  have hexact : ∀ {i}, t.members.findIdx? (fun m => m.name == name) = some i ↔
      t.FirstMember (fun m => m.name = name) i := findIdx?_eq_some_iff fun _ => beq_iff_eq
  unfold memberIndex?
  cases hfind : t.members.findIdx? fun m => m.name == name with
  | some i =>
    have hi := hexact.mp hfind
    constructor
    · rintro ⟨⟩
      exact .exact hi
    · rintro (h | ⟨-, hnone, -⟩)
      · exact hfind.symm.trans (hexact.mpr h)
      · obtain ⟨m, hm, hname⟩ := hi.1
        exact absurd hname (hnone m (List.mem_of_getElem? hm))
  | none =>
    have hnone : ∀ m ∈ t.members, m.name ≠ name := by simpa using List.findIdx?_eq_none_iff.mp hfind
    simp only [Option.ite_none_right_eq_some]
    rw [findIdx?_eq_some_iff fun m => sameName_iff m.name name]
    constructor
    · rintro ⟨hcase, h⟩
      exact .folded hcase hnone h
    · rintro (⟨⟨m, hm, hname⟩, -⟩ | ⟨hcase, -, h⟩)
      · exact absurd hname (hnone m (List.mem_of_getElem? hm))
      · exact ⟨hcase, h⟩

theorem isSome_memberIndex?_iff {column : String} :
    (t.memberIndex? (RowShape.resolvedName table column) config.caseInsensitiveMembers).isSome = true ↔
      ∃ slot, t.Resolves config table column slot := by
  rw [Option.isSome_iff_exists]
  exact exists_congr fun _ => memberIndex?_eq_some_iff

/-- The wider rule leaves what the exact one finds. -/
theorem memberIndex?_true_of_false {name : String} {slot : Nat} (h : t.memberIndex? name false = some slot) :
    t.memberIndex? name true = some slot := by
  cases memberIndex?_eq_some_iff.mp h with
  | exact h => exact memberIndex?_eq_some_iff.mpr (.exact h)
  | folded hcase => cases hcase

/-! ## The bindings of a shape -/

def Binds (t : TypeInfo) (config : MapperConfig) (table : Option Table) (names : List String) (b : ColumnBinding) :
    Prop :=
  names[b.ordinal]? = some b.column ∧ t.Resolves config table b.column b.slot ∧
    ∃ m, t.members[b.slot]? = some m ∧ b.member = m.name ∧ b.type = m.type

theorem columnBinding?_eq_some_iff {column : Nat × String} {b : ColumnBinding} :
    t.columnBinding? config table column = some b ↔
      (column = (b.ordinal, b.column) ∧ t.Resolves config table b.column b.slot ∧
        ∃ m, t.members[b.slot]? = some m ∧ b.member = m.name ∧ b.type = m.type) := by
  rw [columnBinding?, Option.bind_eq_some_iff]
  constructor
  · rintro ⟨slot, hslot, hb⟩
    obtain ⟨m, hm, rfl⟩ := Option.map_eq_some_iff.mp hb
    exact ⟨rfl, memberIndex?_eq_some_iff.mp hslot, m, hm, rfl, rfl⟩
  · obtain ⟨ordinal, name, slot, member, type⟩ := b
    rintro ⟨rfl, hslot, m, hm, rfl, rfl⟩
    exact ⟨slot, memberIndex?_eq_some_iff.mpr hslot, by rw [hm]; rfl⟩

def columnBindings (t : TypeInfo) (config : MapperConfig) (table : Option Table) (names : List String) :
    List ColumnBinding :=
  (indexed 0 names).filterMap (t.columnBinding? config table)

theorem mem_columnBindings_iff {names : List String} {b : ColumnBinding} :
    b ∈ t.columnBindings config table names ↔ t.Binds config table names b := by
  rw [columnBindings, List.mem_filterMap, Binds]
  constructor
  · rintro ⟨column, hcolumn, hb⟩
    obtain ⟨rfl, hrest⟩ := columnBinding?_eq_some_iff.mp hb
    exact ⟨(mem_indexed names _).mp hcolumn, hrest⟩
  · rintro ⟨hcolumn, hrest⟩
    exact ⟨_, (mem_indexed names (b.ordinal, b.column)).mpr hcolumn, columnBinding?_eq_some_iff.mpr ⟨rfl, hrest⟩⟩

theorem pairwise_columnBindings (names : List String) :
    (t.columnBindings config table names).Pairwise fun b b' => b.ordinal < b'.ordinal := by
  rw [columnBindings, List.pairwise_filterMap]
  refine (pairwise_indexed names).imp fun hlt b hb b' hb' => ?_
  obtain ⟨rfl, -⟩ := columnBinding?_eq_some_iff.mp hb
  obtain ⟨rfl, -⟩ := columnBinding?_eq_some_iff.mp hb'
  exact hlt

/-! ## Compiling to assignments -/

def FirstUnresolved (t : TypeInfo) (config : MapperConfig) (table : Option Table) (names : List String)
    (column : String) : Prop :=
  (∃ before after, names = before ++ column :: after ∧ ∀ c ∈ before, ∃ slot, t.Resolves config table c slot) ∧
    ¬ ∃ slot, t.Resolves config table column slot

def unboundColumn (t : TypeInfo) (shape : RowShape) (table : Option Table) (column : String) : Error :=
  .mapping ⟨t.name, shape.signature, [],
    some ("column '" ++ RowShape.resolvedName table column ++ "' has no matching member")⟩

theorem firstUnresolved_or (t : TypeInfo) (config : MapperConfig) (table : Option Table) (names : List String) :
    (∃ column, t.FirstUnresolved config table names column) ∨
      ∀ c ∈ names, ∃ slot, t.Resolves config table c slot := by
  classical
  cases hfind : names.find? fun c => decide (¬ ∃ slot, t.Resolves config table c slot) with
  | some column =>
    obtain ⟨hcolumn, before, after, hnames, hbefore⟩ := List.find?_eq_some_iff_append.mp hfind
    refine .inl ⟨column, ⟨before, after, hnames, fun c hc => ?_⟩, of_decide_eq_true hcolumn⟩
    simpa using hbefore c hc
  | none =>
    refine .inr fun c hc => ?_
    simpa using List.find?_eq_none.mp hfind c hc

theorem memberBindings_of_unresolved (proposed : String) {column : String} (after : List String)
    (hstrict : config.strictColumns = true) (hcolumn : ¬ ∃ slot, t.Resolves config table column slot) :
    ∀ (before : List String) (n : Nat), (∀ c ∈ before, ∃ slot, t.Resolves config table c slot) →
      t.memberBindings config proposed table n (before ++ column :: after) =
        .error (.mapping ⟨t.name, proposed, [],
          some ("column '" ++ RowShape.resolvedName table column ++ "' has no matching member")⟩)
  | [], n, _ => by
    have hnone := mt isSome_memberIndex?_iff.mp hcolumn
    rw [Bool.not_eq_true, Option.isSome_eq_false_iff, Option.isNone_iff_eq_none] at hnone
    simp only [List.nil_append, memberBindings, hnone, hstrict, if_true]
  | c :: before, n, hbefore => by
    obtain ⟨slot, hslot⟩ := hbefore c List.mem_cons_self
    have hrest := memberBindings_of_unresolved proposed after hstrict hcolumn before (n + 1)
      fun c' hc' => hbefore c' (List.mem_cons_of_mem c hc')
    simp only [List.cons_append, memberBindings, memberIndex?_eq_some_iff.mpr hslot, hrest]

variable {shape : RowShape}

theorem compile_of_firstUnresolved (h : t.AssignsMembers shape table) (hstrict : config.strictColumns = true)
    {column : String} (hcolumn : t.FirstUnresolved config table shape.names column) :
    t.compile shape table config = .error (t.unboundColumn shape table column) := by
  obtain ⟨constructor, -, hcompile⟩ := t.compile_eq_compileMembers config h
  obtain ⟨before, after, hnames, hbefore⟩ := hcolumn.1
  rw [hcompile, compileMembers, hnames, memberBindings_of_unresolved _ after hstrict hcolumn.2 before 0 hbefore]
  rfl

theorem compile_of_resolved (h : t.AssignsMembers shape table)
    (hall : config.strictColumns = true → ∀ c ∈ shape.names, ∃ slot, t.Resolves config table c slot) :
    ∃ constructor, t.parameterless? = some constructor ∧ t.compile shape table config =
      .ok ⟨t.name, constructor, false, t.columnBindings config table shape.names⟩ := by
  obtain ⟨constructor, hconstructor, hcompile⟩ := t.compile_eq_compileMembers config h
  refine ⟨constructor, hconstructor, ?_⟩
  rw [hcompile, compileMembers,
    t.memberBindings_eq config _ fun hstrict c hc => isSome_memberIndex?_iff.mpr (hall hstrict c hc)]
  rfl

/-- Where columns are assigned to members, compiling fails exactly if columns are strict and one of them resolves to no
member. -/
theorem compile_assignments_error_iff (h : t.AssignsMembers shape table) {e : Error} :
    t.compile shape table config = .error e ↔ config.strictColumns = true ∧
      ∃ column, t.FirstUnresolved config table shape.names column ∧ e = t.unboundColumn shape table column := by
  constructor
  · intro he
    by_cases hall : config.strictColumns = true → ∀ c ∈ shape.names, ∃ slot, t.Resolves config table c slot
    · obtain ⟨_, -, hok⟩ := compile_of_resolved h hall
      cases hok.symm.trans he
    · obtain ⟨hstrict, hsome⟩ := Classical.not_imp.mp hall
      obtain ⟨column, hcolumn⟩ := (t.firstUnresolved_or config table shape.names).resolve_right hsome
      cases (compile_of_firstUnresolved h hstrict hcolumn).symm.trans he
      exact ⟨hstrict, column, hcolumn, rfl⟩
  · rintro ⟨hstrict, column, hcolumn, rfl⟩
    exact compile_of_firstUnresolved h hstrict hcolumn

theorem compile_assignments_ok_iff (h : t.AssignsMembers shape table) {p : Materializer} :
    t.compile shape table config = .ok p ↔
      (config.strictColumns = true → ∀ c ∈ shape.names, ∃ slot, t.Resolves config table c slot) ∧
        ∃ constructor, t.parameterless? = some constructor ∧
          p = ⟨t.name, constructor, false, t.columnBindings config table shape.names⟩ := by
  constructor
  · intro hp
    by_cases hall : config.strictColumns = true → ∀ c ∈ shape.names, ∃ slot, t.Resolves config table c slot
    · obtain ⟨constructor, hconstructor, hok⟩ := compile_of_resolved h hall
      cases hok.symm.trans hp
      exact ⟨hall, constructor, hconstructor, rfl⟩
    · obtain ⟨hstrict, hsome⟩ := Classical.not_imp.mp hall
      obtain ⟨column, hcolumn⟩ := (t.firstUnresolved_or config table shape.names).resolve_right hsome
      cases (compile_of_firstUnresolved h hstrict hcolumn).symm.trans hp
  · rintro ⟨hall, constructor, hconstructor, rfl⟩
    obtain ⟨constructor', hconstructor', hok⟩ := compile_of_resolved h hall
    cases hconstructor.symm.trans hconstructor'
    exact hok

theorem pairwise_parameterBindings (parameters : List Parameter) (columns : List String) :
    (parameterBindings parameters columns).Pairwise fun b b' => b.ordinal < b'.ordinal :=
  List.pairwise_map.mpr (pairwise_indexed _)

end

/-! ## The options -/

section
variable {t : TypeInfo} {config config' : MapperConfig} {shape : RowShape} {table : Option Table}

theorem compile_eq_of_passesColumns (h : t.PassesColumns shape table) :
    t.compile shape table config' = t.compile shape table config :=
  (compile_eq_compileConstructor h config').trans (compile_eq_compileConstructor h config).symm

theorem pairwise_bindings {p : Materializer} (h : t.compile shape table config = .ok p) :
    p.bindings.Pairwise fun b b' => b.ordinal < b'.ordinal := by
  by_cases hassigns : t.AssignsMembers shape table
  · obtain ⟨-, _, -, rfl⟩ := (compile_assignments_ok_iff hassigns).mp h
    exact pairwise_columnBindings shape.names
  · rw [compile_eq_compileConstructor ((passesColumns_iff _ _ _).mpr hassigns)] at h
    obtain ⟨_, c, _, -, -, -, hok⟩ | ⟨-, herror⟩ := t.compileConstructor_cases shape table
    · cases hok.symm.trans h
      exact pairwise_parameterBindings _ _
    · cases herror.symm.trans h

theorem columnBindings_sublist (hresolves : ∀ {column slot}, t.Resolves config table column slot →
    t.Resolves config' table column slot) (names : List String) :
    (t.columnBindings config table names).Sublist (t.columnBindings config' table names) := by
  have hbinding : ∀ column b, t.columnBinding? config table column = some b →
      t.columnBinding? config' table column = some b := by
    intro column b hb
    obtain ⟨hcolumn, hslot, hmember⟩ := columnBinding?_eq_some_iff.mp hb
    exact columnBinding?_eq_some_iff.mpr ⟨hcolumn, hresolves hslot, hmember⟩
  unfold columnBindings
  induction indexed 0 names with
  | nil => exact .slnil
  | cons column columns ih =>
    rw [List.filterMap_cons, List.filterMap_cons]
    cases hb : t.columnBinding? config table column with
    | some b =>
      rw [hbinding column b hb]
      exact ih.cons_cons b
    | none =>
      cases t.columnBinding? config' table column with
      | none => exact ih
      | some b => exact ih.cons b

theorem compile_lax_of_strict {p : Materializer}
    (h : t.compile shape table { config with strictColumns := true } = .ok p) :
    t.compile shape table { config with strictColumns := false } = .ok p := by
  by_cases hassigns : t.AssignsMembers shape table
  · obtain ⟨-, hp⟩ := (compile_assignments_ok_iff hassigns).mp h
    exact (compile_assignments_ok_iff hassigns).mpr ⟨nofun, hp⟩
  · exact (compile_eq_of_passesColumns ((passesColumns_iff _ _ _).mpr hassigns)).trans h

theorem resolves_anyCase_of_exact {column : String} {slot : Nat}
    (h : t.Resolves { config with caseInsensitiveMembers := false } table column slot) :
    t.Resolves { config with caseInsensitiveMembers := true } table column slot :=
  memberIndex?_eq_some_iff.mp (memberIndex?_true_of_false (memberIndex?_eq_some_iff.mpr h))

theorem compile_anyCase_of_exact {p : Materializer}
    (h : t.compile shape table { config with caseInsensitiveMembers := false } = .ok p) :
    ∃ bindings, t.compile shape table { config with caseInsensitiveMembers := true } = .ok { p with bindings } ∧
      p.bindings.Sublist bindings := by
  by_cases hassigns : t.AssignsMembers shape table
  · obtain ⟨hall, constructor, hconstructor, rfl⟩ := (compile_assignments_ok_iff hassigns).mp h
    refine ⟨_, (compile_assignments_ok_iff hassigns).mpr ⟨fun hstrict c hc => ?_, constructor, hconstructor, rfl⟩,
      columnBindings_sublist resolves_anyCase_of_exact shape.names⟩
    obtain ⟨slot, hslot⟩ := hall hstrict c hc
    exact ⟨slot, resolves_anyCase_of_exact hslot⟩
  · exact ⟨_, (compile_eq_of_passesColumns ((passesColumns_iff _ _ _).mpr hassigns)).trans h, .refl _⟩

end

end TypeInfo

/-- Compiling for strict columns gives the very materializer that is compiled otherwise, or it reports the first column
without a member; a constructor is chosen whatever the options are. A column that is bound by its exact name is bound to
the same member when case is ignored, which only adds bindings of other columns. -/
theorem options_never_rebind (t : TypeInfo) (shape : RowShape) (table : Option Table) (config : MapperConfig) :
    (∀ p, t.compile shape table { config with strictColumns := true } = .ok p →
      t.compile shape table { config with strictColumns := false } = .ok p) ∧
    (t.AssignsMembers shape table →
      ((∃ e, t.compile shape table { config with strictColumns := true } = .error e) ↔
        ∃ column ∈ shape.names, ¬ ∃ slot, t.Resolves config table column slot) ∧
      ∀ e, t.compile shape table { config with strictColumns := true } = .error e →
        ∃ column, t.FirstUnresolved config table shape.names column ∧
          e = .mapping ⟨t.name, shape.signature, [],
            some ("column '" ++ RowShape.resolvedName table column ++ "' has no matching member")⟩) ∧
    (t.PassesColumns shape table → ∀ config', t.compile shape table config' = t.compile shape table config) ∧
    (∀ column slot, t.Resolves { config with caseInsensitiveMembers := false } table column slot →
      t.Resolves { config with caseInsensitiveMembers := true } table column slot) ∧
    ∀ p, t.compile shape table { config with caseInsensitiveMembers := false } = .ok p →
      ∃ bindings, t.compile shape table { config with caseInsensitiveMembers := true } = .ok { p with bindings } ∧
        p.bindings.Sublist bindings ∧ bindings.Pairwise fun b b' => b.ordinal < b'.ordinal := by
  refine ⟨fun p => TypeInfo.compile_lax_of_strict, fun h => ⟨⟨?_, ?_⟩, fun e he => ?_⟩, fun h config' =>
    TypeInfo.compile_eq_of_passesColumns h, fun column slot => TypeInfo.resolves_anyCase_of_exact, fun p hp => ?_⟩
  · rintro ⟨e, he⟩
    obtain ⟨-, column, ⟨⟨before, after, hnames, -⟩, hcolumn⟩, -⟩ := (TypeInfo.compile_assignments_error_iff h).mp he
    exact ⟨column, by rw [hnames]; simp, hcolumn⟩
  · rintro ⟨column, hmem, hcolumn⟩
    obtain ⟨first, hfirst⟩ := (t.firstUnresolved_or config table shape.names).resolve_right fun hall =>
      hcolumn (hall column hmem)
    exact ⟨_, (TypeInfo.compile_assignments_error_iff h).mpr ⟨rfl, first, hfirst, rfl⟩⟩
  · exact ((TypeInfo.compile_assignments_error_iff h).mp he).2
  · obtain ⟨bindings, hcompile, hsublist⟩ := TypeInfo.compile_anyCase_of_exact hp
    exact ⟨bindings, hcompile, hsublist, TypeInfo.pairwise_bindings hcompile⟩

end SqlMapping
