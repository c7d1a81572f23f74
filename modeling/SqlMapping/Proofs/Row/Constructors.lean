import SqlMapping.Proofs.Row.Members
import Mathlib.Data.List.Forall2

/-!
# The choice of a constructor

Where the columns are passed to a constructor, one is chosen that has a parameter for each column.
`best_constructor_or_report`: compiling succeeds if and only if some constructor fits the columns, and takes the one
that is seen farthest, of those the first; else the error reports all constructors in the order of their trial.
-/

namespace SqlMapping

namespace Constructor

/-! ## Fitting the columns -/

/-- The constructor has one parameter for each column, of the name that the column resolves to and of a type that
accepts its kind. -/
def Fits (c : Constructor) (shape : RowShape) (table : Option Table) : Prop :=
  List.Forall₂ (fun p column => sameName p.name (RowShape.resolvedName table column.1) = true ∧
    p.type.accepts column.2 = true) c.parameters shape.columns

theorem matchesColumns_iff (table : Option Table) (ps : List Parameter) : ∀ columns : List (String × Option Kind),
    matchesColumns ps ((columns.map Prod.fst).map (RowShape.resolvedName table)) (columns.map Prod.snd) = true ↔
      List.Forall₂ (fun p column => sameName p.name (RowShape.resolvedName table column.1) = true ∧
        p.type.accepts column.2 = true) ps columns := by
  induction ps with
  | nil =>
    rintro (_ | ⟨column, columns⟩)
    · simp [matchesColumns]
    · simp [matchesColumns]
  | cons p ps ih =>
    rintro (_ | ⟨column, columns⟩)
    · simp [matchesColumns]
    · rw [List.forall₂_cons, ← ih columns]
      simp [matchesColumns]

/-! ## The order of trial -/

def TriedBefore (c c' : Nat × Constructor) : Prop :=
  c'.2.visibility.rank < c.2.visibility.rank ∨
    c.2.visibility.rank = c'.2.visibility.rank ∧
      (c.2.parameters.length < c'.2.parameters.length ∨
        c.2.parameters.length = c'.2.parameters.length ∧ c.1 < c'.1)

theorem TriedBefore.trans {a b c : Nat × Constructor} (hab : TriedBefore a b) (hbc : TriedBefore b c) :
    TriedBefore a c := by
  unfold TriedBefore at *
  omega

theorem before_iff (c c' : Constructor) : c.before c' = true ↔
    c'.visibility.rank < c.visibility.rank ∨
      c.visibility.rank = c'.visibility.rank ∧ c.parameters.length < c'.parameters.length := by
  simp [before]

theorem triedBefore_of_before {c c' : Nat × Constructor} (h : c.2.before c'.2 = true) : TriedBefore c c' := by
  rw [before_iff] at h
  unfold TriedBefore
  omega

theorem triedBefore_of_not_before {c c' : Nat × Constructor} (h : ¬ c'.2.before c.2 = true) (hlt : c.1 < c'.1) :
    TriedBefore c c' := by
  rw [before_iff] at h
  unfold TriedBefore
  omega

theorem perm_place (c : Nat × Constructor) (cs : List (Nat × Constructor)) : (place c cs).Perm (c :: cs) := by
  induction cs with
  | nil => exact .refl _
  | cons c' cs ih =>
    rw [place]
    split
    · exact (ih.cons c').trans (.swap c c' cs)
    · exact .refl _

theorem perm_trialOrder (cs : List (Nat × Constructor)) : (trialOrder cs).Perm cs := by
  induction cs with
  | nil => exact .refl _
  | cons c cs ih => exact (perm_place c (trialOrder cs)).trans (ih.cons c)

theorem pairwise_place {c : Nat × Constructor} : ∀ {cs : List (Nat × Constructor)}, cs.Pairwise TriedBefore →
    (∀ c' ∈ cs, c.1 < c'.1) → (place c cs).Pairwise TriedBefore
  | [], _, _ => List.pairwise_singleton _ _
  | c' :: cs, h, hlt => by
    obtain ⟨hfirst, hrest⟩ := List.pairwise_cons.mp h
    obtain ⟨hc', hcs⟩ := List.forall_mem_cons.mp hlt
    rw [place]
    split
    · rename_i hbefore
      refine List.pairwise_cons.mpr ⟨fun x hx => ?_, pairwise_place hrest hcs⟩
      rcases List.mem_cons.mp ((perm_place c cs).mem_iff.mp hx) with rfl | hx
      · exact triedBefore_of_before hbefore
      · exact hfirst x hx
    · rename_i hbefore
      have hnext := triedBefore_of_not_before hbefore hc'
      refine List.pairwise_cons.mpr ⟨fun x hx => ?_, h⟩
      rcases List.mem_cons.mp hx with rfl | hx
      · exact hnext
      · exact hnext.trans (hfirst x hx)

/-- Constructors are put in from the last to the first, so each one goes before its ties. -/
theorem pairwise_trialOrder {cs : List (Nat × Constructor)} (h : cs.Pairwise fun c c' => c.1 < c'.1) :
    (trialOrder cs).Pairwise TriedBefore := by
  induction cs with
  | nil => exact .nil
  | cons c cs ih =>
    obtain ⟨hfirst, hrest⟩ := List.pairwise_cons.mp h
    exact pairwise_place (ih hrest) fun c' hc' => hfirst c' ((perm_trialOrder cs).mem_iff.mp hc')

end Constructor

theorem indexed_eq {α : Type} (xs : List α) : ∀ i : Nat, indexed i xs = (xs.zipIdx i).map Prod.swap := by
  induction xs with
  | nil => exact fun i => rfl
  | cons x xs ih =>
    intro i
    rw [indexed, ih, List.zipIdx_cons, List.map_cons]
    rfl

theorem mem_indexed {α : Type} (xs : List α) (x : Nat × α) : x ∈ indexed 0 xs ↔ xs[x.1]? = some x.2 := by
  rw [indexed_eq, List.mem_map]
  refine ⟨?_, fun h => ⟨x.swap, List.mem_zipIdx_iff_getElem?.mpr h, Prod.swap_swap x⟩⟩
  rintro ⟨y, hy, rfl⟩
  exact List.mem_zipIdx_iff_getElem?.mp hy

theorem pairwise_indexed {α : Type} (xs : List α) : (indexed 0 xs).Pairwise fun x y => x.1 < y.1 := by
  have hindexes : ((xs.zipIdx 0).map Prod.snd).Pairwise (· < ·) := by
    rw [List.zipIdx_map_snd]
    exact List.pairwise_lt_range'
  rw [indexed_eq, List.pairwise_map]
  exact List.pairwise_map.mp hindexes

namespace TypeInfo

/-! ## Compiling to a constructor -/

/-- The columns are passed to a constructor: all constructors have parameters, or the table binds some column to a
parameter. -/
def PassesColumns (t : TypeInfo) (shape : RowShape) (table : Option Table) : Prop :=
  (∀ c ∈ t.constructors, c.parameters ≠ []) ∨
    ∃ s, table = some s ∧ ∃ name ∈ shape.names, ∃ column, s.column? name = some column ∧
      ∃ m, column.member = some m ∧ m.kind = .constructorParameter

theorem bindsConstructor_iff (shape : RowShape) (table : Option Table) : shape.bindsConstructor table = true ↔
    ∃ s, table = some s ∧ ∃ name ∈ shape.names, ∃ column, s.column? name = some column ∧
      ∃ m, column.member = some m ∧ m.kind = .constructorParameter := by
  cases table with
  | none => simp [RowShape.bindsConstructor]
  | some s =>
    simp only [RowShape.bindsConstructor, List.any_eq_true, Option.some.injEq, exists_eq_left']
    refine exists_congr fun name => and_congr_right fun _ => ?_
    cases s.column? name with
    | none => simp
    | some column => cases hm : column.member <;> simp [hm]

theorem passesColumns_iff (t : TypeInfo) (shape : RowShape) (table : Option Table) :
    t.PassesColumns shape table ↔ ¬ t.AssignsMembers shape table := by
  rw [PassesColumns, ← bindsConstructor_iff, AssignsMembers, parameterless?, List.findIdx?_isSome]
  simp [Constructor.isParameterless, imp_iff_not_or]

theorem compile_eq_compileConstructor {t : TypeInfo} {shape : RowShape} {table : Option Table}
    (h : t.PassesColumns shape table) (config : MapperConfig) :
    t.compile shape table config = t.compileConstructor shape table := by
  rw [passesColumns_iff, AssignsMembers, not_and, Bool.not_eq_false] at h
  rw [compile]
  cases hparameterless : t.parameterless? with
  | none => rfl
  | some constructor =>
    rw [hparameterless] at h
    rw [h rfl]
    rfl

def trials (t : TypeInfo) : List (Nat × Constructor) := Constructor.trialOrder (indexed 0 t.constructors)

theorem mem_trials_iff (t : TypeInfo) (c : Nat × Constructor) : c ∈ t.trials ↔ t.constructors[c.1]? = some c.2 := by
  rw [trials, (Constructor.perm_trialOrder _).mem_iff, mem_indexed]

theorem pairwise_trials (t : TypeInfo) : t.trials.Pairwise Constructor.TriedBefore :=
  Constructor.pairwise_trialOrder (pairwise_indexed t.constructors)

/-- Either the first constructor in the order that fits is taken, or none fits. -/
theorem compileConstructor_cases (t : TypeInfo) (shape : RowShape) (table : Option Table) :
    (∃ before c after, t.trials = before ++ c :: after ∧ c.2.Fits shape table ∧
      (∀ c' ∈ before, ¬ c'.2.Fits shape table) ∧
      t.compileConstructor shape table =
        .ok ⟨t.name, c.1, true, parameterBindings c.2.parameters shape.names⟩) ∨
      (∀ c ∈ t.trials, ¬ c.2.Fits shape table) ∧
        t.compileConstructor shape table =
          .error (.mapping ⟨t.name, shape.signature, t.trials.map fun c => c.2.signature, none⟩) := by
  have hfits : ∀ c : Nat × Constructor, Constructor.matchesColumns c.2.parameters (shape.resolvedNames table)
      (shape.columns.map Prod.snd) = true ↔ c.2.Fits shape table :=
    fun c => Constructor.matchesColumns_iff table c.2.parameters shape.columns
  cases hfind : t.trials.find? fun c => Constructor.matchesColumns c.2.parameters (shape.resolvedNames table)
      (shape.columns.map Prod.snd) with
  | some c =>
    obtain ⟨hc, before, after, htrials, hbefore⟩ := List.find?_eq_some_iff_append.mp hfind
    refine .inl ⟨before, c, after, htrials, (hfits c).mp hc, fun c' hc' => ?_, ?_⟩
    · rw [← hfits c']
      simpa using hbefore c' hc'
    · rw [trials] at hfind
      rw [compileConstructor, hfind]
  | none =>
    refine .inr ⟨fun c hc => ?_, ?_⟩
    · rw [← hfits c]
      exact List.find?_eq_none.mp hfind c hc
    · rw [trials] at hfind
      rw [compileConstructor, hfind]
      rfl

end TypeInfo

/-- Where the columns are passed to a constructor, compiling succeeds if and only if some constructor fits them. It
takes the first declared of those that fit and are seen farthest. An error reports the signatures of all constructors,
each once, in the order of their trial. -/
theorem best_constructor_or_report {t : TypeInfo} {shape : RowShape} {table : Option Table}
    (h : t.PassesColumns shape table) (config : MapperConfig) :
    ((∃ m, t.compile shape table config = .ok m) ↔ ∃ c ∈ t.constructors, c.Fits shape table) ∧
      (∀ m, t.compile shape table config = .ok m → ∃ c, t.constructors[m.constructor]? = some c ∧
        c.Fits shape table ∧
        m = ⟨t.name, m.constructor, true, TypeInfo.parameterBindings c.parameters shape.names⟩ ∧
        ∀ i c', t.constructors[i]? = some c' → c'.Fits shape table →
          c'.visibility.rank < c.visibility.rank ∨
            c'.visibility.rank = c.visibility.rank ∧ m.constructor ≤ i) ∧
      ∀ e, t.compile shape table config = .error e → ∃ order : List (Nat × Constructor),
        order.Perm (indexed 0 t.constructors) ∧ order.Pairwise Constructor.TriedBefore ∧
          e = .mapping ⟨t.name, shape.signature, order.map fun c => c.2.signature, none⟩ := by
  rw [TypeInfo.compile_eq_compileConstructor h config]
  rcases t.compileConstructor_cases shape table with
    ⟨before, c, after, htrials, hfits, hbefore, hcompile⟩ | ⟨hnone, hcompile⟩
  · have hc : t.constructors[c.1]? = some c.2 := (t.mem_trials_iff c).mp (by simp [htrials])
    rw [hcompile]
    refine ⟨⟨fun _ => ⟨c.2, List.mem_of_getElem? hc, hfits⟩, fun _ => ⟨_, rfl⟩⟩, ?_, fun e he => by cases he⟩
    intro m hm
    cases hm
    refine ⟨c.2, hc, hfits, rfl, fun i c' hc' hfits' => ?_⟩
    have hmem : (i, c') ∈ before ++ c :: after := htrials ▸ (t.mem_trials_iff (i, c')).mpr hc'
    have hpairwise := t.pairwise_trials
    rw [htrials] at hpairwise
    rcases List.mem_append.mp hmem with hmem | hmem
    · exact absurd hfits' (hbefore (i, c') hmem)
    rcases List.mem_cons.mp hmem with rfl | hmem
    · exact .inr ⟨rfl, Nat.le_refl i⟩
    · -- both have as many parameters as there are columns, so their number does not decide
      have hlater := (List.pairwise_cons.mp (List.pairwise_append.mp hpairwise).2.1).1 _ hmem
      have hlength := (List.Forall₂.length_eq hfits).trans (List.Forall₂.length_eq hfits').symm
      simp only [Constructor.TriedBefore] at hlater
      show c'.visibility.rank < c.2.visibility.rank ∨ c'.visibility.rank = c.2.visibility.rank ∧ c.1 ≤ i
      omega
  · rw [hcompile]
    refine ⟨⟨?_, ?_⟩, ?_, ?_⟩
    · rintro ⟨m, hm⟩
      cases hm
    · rintro ⟨c, hc, hfits⟩
      obtain ⟨i, hi⟩ := List.getElem?_of_mem hc
      exact absurd hfits (hnone (i, c) ((t.mem_trials_iff (i, c)).mpr hi))
    · intro m hm
      cases hm
    · rintro e ⟨⟩
      exact ⟨t.trials, Constructor.perm_trialOrder _, t.pairwise_trials, rfl⟩

def pointInfo : TypeInfo :=
  { name := "Point"
    constructors :=
      [⟨.everyone, []⟩,
        ⟨.package, [⟨"id", .primitive .int32⟩, ⟨"name", .primitive .string⟩]⟩,
        ⟨.everyone, [⟨"ID", .any⟩, ⟨"Name", .nullable (.primitive .string)⟩]⟩,
        ⟨.everyone, [⟨"id", .primitive .int32⟩, ⟨"name", .primitive .string⟩]⟩] }

def pointTable : Table :=
  { name := ⟨"points", false⟩
    columns := [{ name := "point_id", type := .int32, member := some ⟨.constructorParameter, "id"⟩ }] }

theorem point_takes_first_seen :
    let shape : RowShape := ⟨[("point_id", some .int32), ("name", none)]⟩
    pointInfo.PassesColumns shape (some pointTable) ∧
      ∃ m, pointInfo.compile shape (some pointTable) {} = .ok m ∧ m.constructor = 2 ∧
        ∀ i c', pointInfo.constructors[i]? = some c' → c'.Fits shape (some pointTable) →
          c'.visibility.rank < 2 ∨ c'.visibility.rank = 2 ∧ 2 ≤ i := by
  intro shape
  have hpasses : pointInfo.PassesColumns shape (some pointTable) :=
    .inr ⟨pointTable, rfl, "point_id", by decide, _, rfl, _, rfl, rfl⟩
  obtain ⟨-, hchosen, -⟩ := best_constructor_or_report hpasses {}
  obtain ⟨c, hc, -, -, hbest⟩ := hchosen _ rfl
  cases hc
  exact ⟨hpasses, _, rfl, rfl, hbest⟩

end SqlMapping
