import SqlMapping.Proofs.Catalog.Table
import SqlMapping.Proofs.Row.Assign
import SqlMapping.Proofs.Row.Members
import SqlMapping.Proofs.Statement.Placeholders

/-!
# Writing and reading back

An insert is bound to an instance, and the row that it wrote is made into an instance again.
`insert_reads_back`: the members that were written get the values that they had.
-/

namespace SqlMapping

/-- The columns that an insert gives are bound to distinct members of the type, by their exact names, and
no column to a parameter of a constructor, for there is one without. -/
structure Table.Fits (t : Table) (info : TypeInfo) : Prop where
  parameterless : info.parameterless?.isSome = true
  members : info.DistinctMembers
  nodup : (t.insertColumns.map Column.memberName).Nodup
  named : ∀ c ∈ t.insertColumns, c.memberName ∈ info.members.map Member.name
  assigned : ∀ c ∈ t.columns, ∀ b ∈ c.member, b.kind ≠ .constructorParameter

def Table.written (t : Table) (info : TypeInfo) (value : Nat → Value) : List (Nat × Value) :=
  t.insertColumns.map fun c => (info.slot c.memberName, value (info.slot c.memberName))

/-! ## Binding -/

namespace ParameterBinder

theorem collect_eq {info : TypeInfo} {names : List String}
    (hnames : ∀ n ∈ names, n ∈ info.members.map Member.name) :
    ∀ {slots : List (String × Nat)}, ((slots.map Prod.fst ++ names).map foldCase).Nodup →
      collect info slots names = slots ++ names.map fun n => (n, info.slot n) := by
  induction names with
  | nil => intro slots _; exact (List.append_nil slots).symm
  | cons name names ih =>
    intro slots hnodup
    have hfresh : (slots.any fun s => sameName s.1 name) = false := by
      refine Bool.eq_false_iff.mpr fun hany => ?_
      obtain ⟨s, hs, hsame⟩ := List.any_eq_true.mp hany
      rw [List.map_append, List.nodup_append] at hnodup
      exact hnodup.2.2 (foldCase s.1) (List.mem_map_of_mem (List.mem_map_of_mem hs)) (foldCase name) (by simp)
        ((sameName_iff _ _).mp hsame)
    have hindex := TypeInfo.memberIndex?_of_mem (hnames name List.mem_cons_self) true
    have hnodup' : (((slots ++ [(name, info.slot name)]).map Prod.fst ++ names).map foldCase).Nodup := by
      simpa using hnodup
    simp only [collect, hfresh, hindex]
    rw [if_neg (by simp), ih (fun n hn => hnames n (List.mem_cons_of_mem name hn)) hnodup', List.map_cons,
      List.append_assoc]
    rfl

theorem bindSlots_eq {α : Type} {m : Mapping α} {a : α} {value : Nat → Value} : ∀ {slots : List (String × Nat)},
    (∀ s ∈ slots, m.memberValue a s.2 = .ok (value s.2)) →
      bindSlots m a slots = .ok (slots.map fun s => (s.1, value s.2))
  | [], _ => rfl
  | s :: slots, h => by
    have hrest := bindSlots_eq fun s' hs' => h s' (List.mem_cons_of_mem s hs')
    simp only [bindSlots, h s List.mem_cons_self, hrest, List.map_cons]

end ParameterBinder

section
variable {α : Type} {mapping : Mapping α} {t draft : Table} {d : Dialect} {p : α} {value : Nat → Value}

theorem bind_insert (hnames : t.NamedByWords) (hd : d ∈ Dialect.builtIn) (hfits : t.Fits mapping.info)
    (hp : mapping.Reads p value) :
    (ParameterBinder.compile mapping.info (t.insertStatement d).sql d.marker).bind mapping p =
      .ok (t.insertColumns.map fun c => (c.memberName, value (mapping.info.slot c.memberName))) := by
  obtain ⟨m, hm⟩ := Dialect.marks_of_builtIn hd
  have hmem : ∀ n ∈ t.insertColumns.map Column.memberName, n ∈ mapping.info.members.map Member.name := by
    intro n hn
    obtain ⟨c, hc, rfl⟩ := List.mem_map.mp hn
    exact hfits.named c hc
  have hfold : ((t.insertColumns.map Column.memberName).map foldCase).Nodup :=
    hfits.members.foldCase_nodup hfits.nodup hmem
  have hslots : ∀ s ∈ (t.insertColumns.map Column.memberName).map fun n => (n, mapping.info.slot n),
      mapping.memberValue p s.2 = .ok (value s.2) := by
    intro s hs
    obtain ⟨n, hn, rfl⟩ := List.mem_map.mp hs
    obtain ⟨member, hmember, -⟩ := TypeInfo.getElem?_slot (hmem n hn)
    exact (hp _ member hmember).1
  rw [ParameterBinder.bind, ParameterBinder.compile, Table.placeholders_insert hm hnames,
    Table.parameters_insert, ParameterBinder.collect_eq hmem (by exact hfold), List.nil_append, ParameterBinder.bindSlots_eq hslots]
  simp only [List.map_map, Function.comp_def]

/-! ## Reading back -/

theorem resolvedName_insert (ht : t.Distinct) {c : Column} (hc : c ∈ t.insertColumns) :
    RowShape.resolvedName (some t) c.name = c.memberName := by
  have hcolumn := Table.column?_of_mem ht (Table.mem_columns_of_insert hc) (sameName_refl c.name)
  simp only [RowShape.resolvedName, Option.bind_some, hcolumn]

theorem assignsMembers_insert (ht : t.Distinct) (hfits : t.Fits mapping.info) {shape : RowShape}
    (hshape : shape.names = t.insertColumns.map Column.name) : mapping.info.AssignsMembers shape (some t) := by
  refine ⟨hfits.parameterless, ?_⟩
  rw [RowShape.bindsConstructor, hshape, List.any_eq_false]
  intro name hname
  obtain ⟨c, hc, rfl⟩ := List.mem_map.mp hname
  have hmem := Table.mem_columns_of_insert hc
  rw [Table.column?_of_mem ht hmem (sameName_refl c.name), Option.bind_some]
  cases hb : c.member with
  | none => simp
  | some b => simpa using hfits.assigned c hmem b hb

theorem assignAll_columns (ht : t.Distinct) (hfits : t.Fits mapping.info) (hp : mapping.Reads p value)
    (config : MapperConfig) (row : RowReader) (typeName : String) : ∀ (cs : List Column) (n : Nat) (a : α),
      (∀ c ∈ cs, c ∈ t.insertColumns) →
      (∀ i c, cs[i]? = some c → row (n + i) = .ok (value (mapping.info.slot c.memberName))) →
      Materializer.assignAll mapping row typeName a
          ((indexed n (cs.map Column.name)).filterMap (mapping.info.columnBinding? config (some t))) =
        mapping.assignFields a
          (cs.map fun c => (mapping.info.slot c.memberName, value (mapping.info.slot c.memberName)))
  | [], _, _, _, _ => rfl
  | c :: cs, n, a, hcs, hrow => by
    have hc := hcs c List.mem_cons_self
    have hnamed := hfits.named c hc
    obtain ⟨member, hmember, -⟩ := TypeInfo.getElem?_slot hnamed
    have hbinding : mapping.info.columnBinding? config (some t) (n, c.name) =
        some ⟨n, c.name, mapping.info.slot c.memberName, member.name, member.type⟩ := by
      simp only [TypeInfo.columnBinding?, resolvedName_insert ht hc, TypeInfo.memberIndex?_of_mem hnamed,
        Option.bind_some, hmember, Option.map_some]
    have hread : ColumnBinding.read ⟨n, c.name, mapping.info.slot c.memberName, member.name, member.type⟩ row
        typeName = .ok (value (mapping.info.slot c.memberName)) := by
      have hvalue := hrow 0 c rfl
      rw [Nat.add_zero] at hvalue
      simp only [ColumnBinding.read, hvalue, MemberType.convert?_of_conforms (hp _ member hmember).2]
    have hrest := fun a => assignAll_columns ht hfits hp config row typeName cs (n + 1) a
      (fun c' hc' => hcs c' (List.mem_cons_of_mem c hc'))
      (fun i c' hc' => by rw [Nat.add_assoc, Nat.add_comm 1 i]; exact hrow (i + 1) c' hc')
    rw [List.map_cons, indexed, List.filterMap_cons_some hbinding, List.map_cons, Materializer.assignAll, hread,
      Mapping.assignFields, List.foldlM_cons]
    simp only
    cases mapping.assign a (mapping.info.slot c.memberName) (value (mapping.info.slot c.memberName)) with
    | error e => rfl
    | ok a => exact hrest a

/-- The columns of an insert compile, whatever their kinds, to assignments of the members that it writes. -/
theorem compile_insert (ht : t.Distinct) (hfits : t.Fits mapping.info) (hp : mapping.Reads p value)
    (config : MapperConfig) {shape : RowShape} (hshape : shape.names = t.insertColumns.map Column.name) :
    ∃ constructor materializer, mapping.info.parameterless? = some constructor ∧
      mapping.info.compile shape (some t) config = .ok materializer ∧
      ∀ row : RowReader,
        (∀ i c, t.insertColumns[i]? = some c → row i = .ok (value (mapping.info.slot c.memberName))) →
        materializer.run mapping row = (mapping.construct constructor []).bind fun a =>
          mapping.assignFields a (t.written mapping.info value) := by
  obtain ⟨constructor, hconstructor, hcompile⟩ :=
    mapping.info.compile_eq_compileMembers config (assignsMembers_insert ht hfits hshape)
  have hresolved : config.strictColumns = true → ∀ name ∈ t.insertColumns.map Column.name,
      (mapping.info.memberIndex? (RowShape.resolvedName (some t) name)
        config.caseInsensitiveMembers).isSome = true := by
    intro _ name hname
    obtain ⟨c, hc, rfl⟩ := List.mem_map.mp hname
    rw [resolvedName_insert ht hc, TypeInfo.memberIndex?_of_mem (hfits.named c hc)]
    rfl
  rw [TypeInfo.compileMembers, hshape, mapping.info.memberBindings_eq config _ hresolved] at hcompile
  refine ⟨constructor, _, hconstructor, hcompile, fun row hrow => ?_⟩
  simp only [Materializer.run]
  cases mapping.construct constructor [] with
  | error e => rfl
  | ok a =>
    exact assignAll_columns ht hfits hp config row mapping.info.name t.insertColumns 0 a (fun _ hc => hc)
      fun i c hc => by rw [Nat.zero_add]; exact hrow i c hc

theorem written_nodup (hfits : t.Fits mapping.info) (value : Nat → Value) :
    ((t.written mapping.info value).map Prod.fst).Nodup := by
  have hslots : (t.written mapping.info value).map Prod.fst =
      (t.insertColumns.map Column.memberName).map mapping.info.slot := by
    simp only [Table.written, List.map_map, Function.comp_def]
  rw [hslots]
  refine hfits.nodup.map_on fun n hn n' hn' hslot => ?_
  obtain ⟨c, hc, rfl⟩ := List.mem_map.mp hn
  obtain ⟨c', hc', rfl⟩ := List.mem_map.mp hn'
  exact TypeInfo.slot_inj (hfits.named c hc) (hfits.named c' hc') hslot

theorem written_conforms (hfits : t.Fits mapping.info) (hp : mapping.Reads p value) {f : Nat × Value}
    (hf : f ∈ t.written mapping.info value) :
    ∃ member, mapping.info.members[f.1]? = some member ∧ member.type.Conforms f.2 := by
  obtain ⟨c, hc, rfl⟩ := List.mem_map.mp hf
  obtain ⟨member, hmember, -⟩ := TypeInfo.getElem?_slot (hfits.named c hc)
  exact ⟨member, hmember, (hp _ member hmember).2⟩

/-- An instance gives a value for each parameter of an insert. A row of these values, under the names of
the columns, is made into a new instance by assigning them to the members they were read from; if the type
keeps what it is assigned, these members have the values that they had. -/
theorem insert_reads_back (mapping : Mapping α) (hbuild : draft.build = .ok t) (hnames : t.NamedByWords)
    (hd : d ∈ Dialect.builtIn) (hfits : t.Fits mapping.info) (hp : mapping.Reads p value) :
    ∃ bound, (ParameterBinder.compile mapping.info (t.insertStatement d).sql d.marker).bind mapping p = .ok bound ∧
      bound.map Prod.fst = (t.insertStatement d).parameters ∧
      bound.map Prod.snd = (t.written mapping.info value).map Prod.snd ∧
      ∀ (config : MapperConfig) (shape : RowShape), shape.names = t.insertColumns.map Column.name →
        ∃ constructor materializer, mapping.info.parameterless? = some constructor ∧
          mapping.info.compile shape (some t) config = .ok materializer ∧
          ∀ row : RowReader, (∀ i v, (bound.map Prod.snd)[i]? = some v → row i = .ok v) →
            (materializer.run mapping row = (mapping.construct constructor []).bind fun a =>
              mapping.assignFields a (t.written mapping.info value)) ∧
            (mapping.Keeps → ∃ q, materializer.run mapping row = .ok q ∧
              ∀ c ∈ t.insertColumns, ∀ i member, mapping.info.members[i]? = some member →
                member.name = c.memberName → mapping.memberValue q i = mapping.memberValue p i) := by
  have ht := Table.distinct_of_build hbuild
  refine ⟨_, bind_insert hnames hd hfits hp, ?_, ?_, fun config shape hshape => ?_⟩
  · rw [Table.parameters_insert, List.map_map]
    rfl
  · simp only [Table.written, List.map_map, Function.comp_def]
  obtain ⟨constructor, materializer, hconstructor, hcompile, hrun⟩ := compile_insert ht hfits hp config hshape
  refine ⟨constructor, materializer, hconstructor, hcompile, fun row hrow => ?_⟩
  have hassigned := hrun row fun i c hc => hrow i _ (by simp [List.getElem?_map, hc])
  refine ⟨hassigned, fun hkeeps => ?_⟩
  obtain ⟨a, ha⟩ := hkeeps.construct constructor hconstructor
  obtain ⟨q, hq, hreads, -⟩ :=
    hkeeps.assignFields _ (written_nodup hfits value) (fun f hf => written_conforms hfits hp hf) a
  rw [ha] at hassigned
  refine ⟨q, hassigned.trans hq, fun c hc i member hmember hname => ?_⟩
  have hslot : mapping.info.slot c.memberName = i := hname ▸ TypeInfo.slot_eq hfits.members hmember
  have hread := hreads _ (List.mem_map_of_mem hc)
  rw [hslot] at hread
  exact hread.trans (hp i member hmember).1.symm

end

def accounts : Table :=
  { name := ⟨"account", false⟩
    schema := some ⟨"dbo", true⟩
    columns := [{ name := "id", type := .identity },
      { name := "owner", type := .string, member := some ⟨.field, "holder"⟩ },
      { name := "Balance", type := .int64, nullable := true }] }

def account : RecordType :=
  { name := "Account"
    members := [{ name := "id", type := .primitive .int32 }, { name := "holder", type := .primitive .string },
      { name := "Balance", type := .nullable (.primitive .int64) }]
    constructors := [{}] }

theorem accounts_namedByWords : accounts.NamedByWords where
  name := by decide
  schema := by decide
  catalog := by decide
  column := by decide
  member := by decide

theorem accounts_fits : accounts.Fits account.info where
  parameterless := by decide
  members := by unfold TypeInfo.DistinctMembers; decide
  nodup := by decide
  named := by decide
  assigned := by decide

theorem account_keeps : account.mapping.Keeps :=
  RecordType.keeps (by decide) (by simp [account, Storage.take])

/-- An account without a balance is bound and read back. -/
theorem account_reads_back :
    let ann := Record.ofValues [.int32 7, .string "Ann", .null]
    let row := ((MemoryCursor.ofNames ["owner", "Balance"]).withRow [.string "Ann", .null]).read.2
    (∃ bound, (ParameterBinder.compile account.info (accounts.insertStatement Dialect.sqlServer).sql "@").bind
        account.mapping ann = .ok bound ∧ bound.map Prod.fst = ["holder", "Balance"]) ∧
      ∃ materializer q,
        account.info.compile (RowShape.ofNames ["owner", "Balance"]) (some accounts) {} = .ok materializer ∧
        materializer.run account.mapping row.value = .ok q ∧
        account.memberValue q 1 = .ok (.string "Ann") ∧ account.memberValue q 2 = .ok .null := by
  intro ann row
  have hreads : account.mapping.Reads ann ann.value := by
    intro i member hmember
    rcases i with _ | _ | _ | i
    · cases hmember; exact ⟨rfl, by decide⟩
    · cases hmember; exact ⟨rfl, by decide⟩
    · cases hmember; exact ⟨rfl, by decide⟩
    · cases hmember
  have hbuild : accounts.build = .ok accounts := by decide
  have hd : Dialect.sqlServer ∈ Dialect.builtIn := by simp [Dialect.builtIn]
  obtain ⟨bound, hbound, hparameters, hvalues, hrow⟩ :=
    insert_reads_back account.mapping hbuild accounts_namedByWords hd accounts_fits hreads
  obtain ⟨constructor, materializer, -, hcompile, hrun⟩ := hrow {} (RowShape.ofNames ["owner", "Balance"]) rfl
  obtain ⟨-, hkept⟩ := hrun row.value (by
    rw [hvalues]
    intro i v hv
    rcases i with _ | _ | i
    · cases hv; rfl
    · cases hv; rfl
    · cases hv)
  obtain ⟨q, hq, hsame⟩ := hkept account_keeps
  refine ⟨⟨bound, hbound, hparameters⟩, materializer, q, hcompile, hq, ?_, ?_⟩
  · exact hsame _ List.mem_cons_self 1 _ rfl rfl
  · exact hsame _ (List.mem_cons_of_mem _ List.mem_cons_self) 2 _ rfl rfl

end SqlMapping
