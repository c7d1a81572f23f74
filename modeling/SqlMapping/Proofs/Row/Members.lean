import SqlMapping.Row.Materializer
import Mathlib.Data.List.Nodup

/-!
# Compiling to members

A type with a parameterless constructor is compiled to assignments, unless the table binds a column to a
constructor parameter. Which members are assigned depends on the names of the columns alone.
-/

namespace SqlMapping

namespace TypeInfo

/-! ## Members by name -/

section
variable (t : TypeInfo)

def DistinctMembers : Prop := (t.members.map fun m => foldCase m.name).Nodup

def slot (name : String) : Nat := t.members.findIdx fun m => m.name == name

variable {t} {name : String} (h : name ∈ t.members.map Member.name)
include h

theorem exists_member : ∃ m ∈ t.members, (m.name == name) = true := by
  obtain ⟨m, hm, hname⟩ := List.mem_map.mp h
  exact ⟨m, hm, beq_iff_eq.mpr hname⟩

theorem memberIndex?_of_mem (ignoreCase : Bool) : t.memberIndex? name ignoreCase = some (t.slot name) := by
  rw [memberIndex?, List.findIdx?_eq_some_of_exists (exists_member h)]
  rfl

theorem getElem?_slot : ∃ m, t.members[t.slot name]? = some m ∧ m.name = name := by
  have hlt : t.slot name < t.members.length := List.findIdx_lt_length_of_exists (exists_member h)
  have hname : (t.members[t.slot name].name == name) = true :=
    List.findIdx_getElem (p := fun m : Member => m.name == name) (w := hlt)
  exact ⟨_, List.getElem?_eq_getElem hlt, beq_iff_eq.mp hname⟩

end

section
variable {t : TypeInfo}

theorem slot_inj {name name' : String} (h : name ∈ t.members.map Member.name)
    (h' : name' ∈ t.members.map Member.name) (hslot : t.slot name = t.slot name') : name = name' := by
  obtain ⟨m, hm, hname⟩ := getElem?_slot h
  obtain ⟨m', hm', hname'⟩ := getElem?_slot h'
  rw [hslot, hm'] at hm
  cases hm
  exact hname.symm.trans hname'

theorem foldedNames_eq (t : TypeInfo) :
    t.members.map (fun m => foldCase m.name) = (t.members.map Member.name).map foldCase := by
  rw [List.map_map]
  rfl

theorem DistinctMembers.foldCase_nodup (ht : t.DistinctMembers) {names : List String} (h : names.Nodup)
    (hnames : ∀ n ∈ names, n ∈ t.members.map Member.name) : (names.map foldCase).Nodup := by
  rw [DistinctMembers, foldedNames_eq] at ht
  exact h.map_on fun a ha b hb hab => List.inj_on_of_nodup_map ht (hnames a ha) (hnames b hb) hab

theorem slot_eq (ht : t.DistinctMembers) {i : Nat} {m : Member} (hm : t.members[i]? = some m) :
    t.slot m.name = i := by
  have hnodup : (t.members.map Member.name).Nodup := by
    rw [DistinctMembers, foldedNames_eq] at ht
    exact ht.of_map
  have hmem : m.name ∈ t.members.map Member.name := List.mem_map_of_mem (List.mem_of_getElem? hm)
  obtain ⟨m', hm', hname⟩ := getElem?_slot hmem
  have hi : (t.members.map Member.name)[i]? = some m.name := by rw [List.getElem?_map, hm]; rfl
  have hslot : (t.members.map Member.name)[t.slot m.name]? = some m.name := by
    rw [List.getElem?_map, hm', Option.map_some, hname]
  have hlt := (List.getElem?_eq_some_iff.mp hslot).1
  exact (List.getElem?_inj hlt hnodup).mp (hslot.trans hi.symm)

end

/-! ## Compiling -/

def AssignsMembers (t : TypeInfo) (shape : RowShape) (table : Option Table) : Prop :=
  t.parameterless?.isSome = true ∧ shape.bindsConstructor table = false

variable (t : TypeInfo) {shape source : RowShape} {table : Option Table} (config : MapperConfig)

theorem compile_eq_compileMembers (h : t.AssignsMembers shape table) :
    ∃ constructor, t.parameterless? = some constructor ∧
      t.compile shape table config = t.compileMembers constructor shape table config := by
  obtain ⟨constructor, hc⟩ := Option.isSome_iff_exists.mp h.1
  refine ⟨constructor, hc, ?_⟩
  simp [compile, hc, h.2]

/-- Bindings that exist do not depend on the signature that an error would report. -/
theorem memberBindings_eq_of_ok {p q : String} (names : List String) : ∀ (n : Nat) {bs : List ColumnBinding},
    t.memberBindings config p table n names = .ok bs → t.memberBindings config q table n names = .ok bs := by
  induction names with
  | nil => intro n bs h; exact h
  | cons name names ih =>
    intro n bs h
    simp only [memberBindings] at h ⊢
    split at h
    · split at h
      · cases h
      · rename_i hstrict
        rw [if_neg hstrict]
        exact ih (n + 1) h
    · split at h
      · cases h
      · rename_i rest hrest
        rw [ih (n + 1) hrest]
        exact h

def columnBinding? (table : Option Table) (column : Nat × String) : Option ColumnBinding :=
  (t.memberIndex? (RowShape.resolvedName table column.2) config.caseInsensitiveMembers).bind fun slot =>
    (t.members[slot]?).map fun m => ⟨column.1, column.2, slot, m.name, m.type⟩

/-- The bindings are those of the columns that resolve; when the columns are strict, all must. -/
theorem memberBindings_eq {proposed : String} (names : List String)
    (h : config.strictColumns = true → ∀ name ∈ names,
      (t.memberIndex? (RowShape.resolvedName table name) config.caseInsensitiveMembers).isSome = true) :
    ∀ n : Nat, t.memberBindings config proposed table n names =
      .ok ((indexed n names).filterMap (t.columnBinding? config table)) := by
  induction names with
  | nil => intro n; rfl
  | cons name names ih =>
    intro n
    have hrest := ih (fun hstrict name' hname' => h hstrict name' (List.mem_cons_of_mem name hname')) (n + 1)
    cases hindex : t.memberIndex? (RowShape.resolvedName table name) config.caseInsensitiveMembers with
    | none =>
      have hstrict : ¬ config.strictColumns = true := by
        intro hstrict
        have := h hstrict name List.mem_cons_self
        rw [hindex] at this
        cases this
      have hbinding : t.columnBinding? config table (n, name) = none := by simp [columnBinding?, hindex]
      simp only [memberBindings, hindex, if_neg hstrict, hrest, indexed, List.filterMap_cons_none hbinding]
    | some slot =>
      simp only [memberBindings, hindex, hrest, indexed]
      cases hm : t.members[slot]? with
      | none =>
        have hbinding : t.columnBinding? config table (n, name) = none := by simp [columnBinding?, hindex, hm]
        rw [List.filterMap_cons_none hbinding]
      | some m =>
        have hbinding : t.columnBinding? config table (n, name) = some ⟨n, name, slot, m.name, m.type⟩ := by
          simp [columnBinding?, hindex, hm]
        rw [List.filterMap_cons_some hbinding]

theorem bindsConstructor_of_names (h : source.names = shape.names) :
    source.bindsConstructor table = shape.bindsConstructor table := by
  simp only [RowShape.bindsConstructor, h]

theorem compile_eq_of_names {m : Materializer} (hnames : source.names = shape.names)
    (hassigns : t.AssignsMembers shape table) (h : t.compile source table config = .ok m) :
    t.compile shape table config = .ok m := by
  have hsource : t.AssignsMembers source table := by
    rw [AssignsMembers, bindsConstructor_of_names hnames]
    exact hassigns
  obtain ⟨constructor, hc, hcompile⟩ := t.compile_eq_compileMembers config hassigns
  obtain ⟨constructor', hc', hcompile'⟩ := t.compile_eq_compileMembers config hsource
  obtain rfl : constructor = constructor' := Option.some.inj (hc.symm.trans hc')
  rw [hcompile', compileMembers, hnames] at h
  rw [hcompile, compileMembers]
  cases hbindings : t.memberBindings config source.signature table 0 shape.names with
  | error e => rw [hbindings] at h; cases h
  | ok bs =>
    rw [hbindings] at h
    rw [t.memberBindings_eq_of_ok config _ 0 hbindings]
    exact h

end TypeInfo

end SqlMapping
