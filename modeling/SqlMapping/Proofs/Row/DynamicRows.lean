import SqlMapping.Row.Dynamic

/-!
# The views of a dynamic row

A value of a dynamic row is found by a name in any case, by its pair or in a map. The first looks for any column of
the name, the second for the first column of exactly this name, and a map keeps the last. `dynamic_views_agree_iff`:
they are the same in all rows if and only if one column has exactly the name and no column before it has it in another
case.
-/

namespace SqlMapping

def Unshadowed (names : List String) (n : String) : Prop :=
  ∃ before after, names = before ++ n :: after ∧ (∀ b ∈ before, sameName b n = false) ∧ n ∉ after

namespace DynamicRow

/-! ## The views as searches of the pairs -/

def firstExact? (r : DynamicRow) (n : String) : Option Value := (r.pairs.find? fun p => p.1 == n).map Prod.snd

def Agree (r : DynamicRow) (n : String) : Prop :=
  ∃ v, r.get? n = some v ∧ r.firstExact? n = some v ∧ r.toMap.find? n = some v

theorem bind_findIdx?_eq_find?_zip (test : String → Bool) : ∀ (names : List String) (values : List Value),
    names.length = values.length →
      ((names.findIdx? test).bind fun i => values[i]?) =
        ((names.zip values).find? fun p => test p.1).map Prod.snd
  | [], [], _ => rfl
  | name :: names, v :: values, h => by
    rw [List.findIdx?_cons, List.zip_cons_cons, List.find?_cons]
    cases test name with
    | true => rfl
    | false =>
      rw [if_neg Bool.false_ne_true, Option.bind_map]
      exact bind_findIdx?_eq_find?_zip test names values (Nat.succ.inj h)

theorem find?_foldl_insert_of_ne {n : String} {ps : List (String × Value)} : ∀ {m : Keyed String Value},
    (∀ q ∈ ps, q.1 ≠ n) → (ps.foldl (fun m p => m.insert p.1 p.2) m).find? n = m.find? n := by
  induction ps with
  | nil => exact fun _ => rfl
  | cons p ps ih =>
    intro m h
    obtain ⟨hp, hps⟩ := List.forall_mem_cons.mp h
    rw [List.foldl_cons, ih hps, Keyed.find?_insert_of_ne m p.2 hp.symm]

variable {r : DynamicRow} {n : String} {before after : List (String × Value)}

theorem get?_of_pairs (hlength : r.names.length = r.values.length) {p : String × Value}
    (hsplit : r.pairs = before ++ p :: after) (hbefore : ∀ q ∈ before, sameName q.1 n = false)
    (hp : sameName p.1 n = true) : r.get? n = some p.2 := by
  have hfind : r.pairs.find? (fun q => sameName q.1 n) = some p :=
    List.find?_eq_some_iff_append.mpr ⟨hp, before, after, hsplit, fun q hq => by simp [hbefore q hq]⟩
  rw [get?, bind_findIdx?_eq_find?_zip (fun name => sameName name n) _ _ hlength, ← pairs, hfind]
  rfl

theorem firstExact?_of_pairs {v : Value} (hsplit : r.pairs = before ++ (n, v) :: after)
    (hbefore : ∀ q ∈ before, q.1 ≠ n) : r.firstExact? n = some v := by
  have hfind : r.pairs.find? (fun q => q.1 == n) = some (n, v) :=
    List.find?_eq_some_iff_append.mpr ⟨by simp, before, after, hsplit, fun q hq => by simp [hbefore q hq]⟩
  rw [firstExact?, hfind]
  rfl

theorem find?_toMap_of_pairs {v : Value} (hsplit : r.pairs = before ++ (n, v) :: after)
    (hafter : ∀ q ∈ after, q.1 ≠ n) : r.toMap.find? n = some v := by
  rw [toMap, hsplit, List.foldl_append, List.foldl_cons, find?_foldl_insert_of_ne hafter, Keyed.find?_insert_self]

/-! ## The columns that the views find -/

theorem exists_first {α : Type} (test : α → Bool) {xs : List α} {x : α} (hx : x ∈ xs) (htest : test x = true) :
    ∃ before y after, xs = before ++ y :: after ∧ (∀ z ∈ before, test z = false) ∧ test y = true := by
  obtain ⟨y, hy⟩ := Option.isSome_iff_exists.mp (List.find?_isSome.mpr ⟨x, hx, htest⟩)
  obtain ⟨hyes, before, after, hsplit, hbefore⟩ := List.find?_eq_some_iff_append.mp hy
  exact ⟨before, y, after, hsplit, fun z hz => by simpa using hbefore z hz, hyes⟩

theorem map_fst_pairs (hlength : r.names.length = r.values.length) : r.pairs.map Prod.fst = r.names :=
  List.map_fst_zip (Nat.le_of_eq hlength)

theorem exists_pair (hlength : r.names.length = r.values.length) (hn : n ∈ r.names) : ∃ v, (n, v) ∈ r.pairs := by
  rw [← map_fst_pairs hlength] at hn
  obtain ⟨p, hp, rfl⟩ := List.mem_map.mp hn
  exact ⟨p.2, hp⟩

theorem exists_get? (hlength : r.names.length = r.values.length) (hn : n ∈ r.names) :
    ∃ before p after, r.pairs = before ++ p :: after ∧ (∀ q ∈ before, sameName q.1 n = false) ∧
      sameName p.1 n = true ∧ r.get? n = some p.2 := by
  obtain ⟨v, hv⟩ := exists_pair hlength hn
  obtain ⟨before, p, after, hsplit, hbefore, hp⟩ :=
    exists_first (fun q : String × Value => sameName q.1 n) hv (sameName_refl n)
  exact ⟨before, p, after, hsplit, hbefore, hp, get?_of_pairs hlength hsplit hbefore hp⟩

theorem exists_firstExact? (hlength : r.names.length = r.values.length) (hn : n ∈ r.names) :
    ∃ before v after, r.pairs = before ++ (n, v) :: after ∧ (∀ q ∈ before, q.1 ≠ n) ∧
      r.firstExact? n = some v := by
  obtain ⟨v, hv⟩ := exists_pair hlength hn
  obtain ⟨before, p, after, hsplit, hbefore, hp⟩ :=
    exists_first (fun q : String × Value => q.1 == n) hv (beq_self_eq_true n)
  obtain rfl := beq_iff_eq.mp hp
  have hne : ∀ q ∈ before, q.1 ≠ p.1 := fun q hq => ne_of_beq_false (hbefore q hq)
  exact ⟨before, p.2, after, hsplit, hne, firstExact?_of_pairs hsplit hne⟩

theorem exists_find?_toMap (hlength : r.names.length = r.values.length) (hn : n ∈ r.names) :
    ∃ before v after, r.pairs = before ++ (n, v) :: after ∧ (∀ q ∈ after, q.1 ≠ n) ∧
      r.toMap.find? n = some v := by
  obtain ⟨v, hv⟩ := exists_pair hlength hn
  obtain ⟨after, p, before, hreverse, hafter, hp⟩ :=
    exists_first (fun q : String × Value => q.1 == n) (List.mem_reverse.mpr hv) (beq_self_eq_true n)
  obtain rfl := beq_iff_eq.mp hp
  have hsplit : r.pairs = before.reverse ++ p :: after.reverse := by
    rw [← List.reverse_reverse r.pairs, hreverse]
    simp
  have hne : ∀ q ∈ after.reverse, q.1 ≠ p.1 := fun q hq => ne_of_beq_false (hafter q (List.mem_reverse.mp hq))
  exact ⟨before.reverse, p.2, after.reverse, hsplit, hne, find?_toMap_of_pairs hsplit hne⟩

theorem agree_of_unshadowed (hlength : r.names.length = r.values.length) (h : Unshadowed r.names n) :
    r.Agree n := by
  obtain ⟨before, after, hsplit, hbefore, hafter⟩ := h
  rw [← map_fst_pairs hlength] at hsplit
  obtain ⟨psBefore, rest, hpairs, rfl, hrest⟩ := List.map_eq_append_iff.mp hsplit
  obtain ⟨p, psAfter, rfl, rfl, rfl⟩ := List.map_eq_cons_iff.mp hrest
  have hother : ∀ q ∈ psBefore, sameName q.1 p.1 = false := fun q hq => hbefore q.1 (List.mem_map_of_mem hq)
  have hne : ∀ q ∈ psBefore, q.1 ≠ p.1 := by
    intro q hq heq
    have hsame := hother q hq
    rw [heq, sameName_refl] at hsame
    cases hsame
  exact ⟨p.2, get?_of_pairs hlength hpairs hother (sameName_refl _), firstExact?_of_pairs hpairs hne,
    find?_toMap_of_pairs hpairs fun q hq heq => hafter (heq ▸ List.mem_map_of_mem hq)⟩

end DynamicRow

namespace DynamicMaterializer

/-! ## The rows of a materializer -/

theorem getElem?_of_valuesFrom {row : RowReader} {count : Nat} : ∀ {start : Nat} {vs : List Value},
    valuesFrom row start count = .ok vs →
      vs.length = count ∧ ∀ (i : Nat) (v : Value), vs[i]? = some v → row (start + i) = .ok v := by
  induction count with
  | zero =>
    intro start vs h
    cases h
    exact ⟨rfl, fun i v hv => by cases hv⟩
  | succ count ih =>
    intro start vs h
    rw [valuesFrom] at h
    cases hv : row start with
    | error e => simp [hv] at h
    | ok v =>
      cases hrest : valuesFrom row (start + 1) count with
      | error e => simp [hv, hrest] at h
      | ok rest =>
        simp only [hv, hrest, Except.ok.injEq] at h
        obtain ⟨hlength, hvalues⟩ := ih hrest
        subst h
        refine ⟨congrArg Nat.succ hlength, fun i w hw => ?_⟩
        cases i with
        | zero => cases hw; exact hv
        | succ i =>
          rw [← hvalues i w hw]
          congr 1
          omega

theorem exists_valuesFrom {row : RowReader} (hrow : ∀ i, ∃ v, row i = .ok v) (count : Nat) : ∀ start : Nat,
    ∃ vs, valuesFrom row start count = .ok vs := by
  induction count with
  | zero => exact fun start => ⟨[], rfl⟩
  | succ count ih =>
    intro start
    obtain ⟨v, hv⟩ := hrow start
    obtain ⟨vs, hvs⟩ := ih (start + 1)
    exact ⟨v :: vs, by rw [valuesFrom, hv, hvs]⟩

theorem exists_run (m : DynamicMaterializer) (row : RowReader) (hrow : ∀ i, ∃ v, row i = .ok v) :
    ∃ r, m.run row = .ok r := by
  obtain ⟨values, hvalues⟩ := exists_valuesFrom hrow m.names.length 0
  exact ⟨⟨m.names, values⟩, by rw [run, hvalues]; rfl⟩

variable {m : DynamicMaterializer} {row : RowReader} {r : DynamicRow}

theorem values_of_run (h : m.run row = .ok r) :
    r.names = m.names ∧ valuesFrom row 0 m.names.length = .ok r.values := by
  rw [run] at h
  cases hvalues : valuesFrom row 0 m.names.length with
  | error e => simp [hvalues, Except.map] at h
  | ok values =>
    rw [hvalues] at h
    cases h
    exact ⟨rfl, rfl⟩

theorem length_of_run (h : m.run row = .ok r) : r.names.length = r.values.length := by
  obtain ⟨hnames, hvalues⟩ := values_of_run h
  rw [hnames, (getElem?_of_valuesFrom hvalues).1]

/-- The value of a pair is the row's at the ordinal of the pair. -/
theorem read_of_run (h : m.run row = .ok r) {before after : List (String × Value)} {column : String} {v : Value}
    (hsplit : r.pairs = before ++ (column, v) :: after) : row before.length = .ok v := by
  have hp : r.pairs[before.length]? = some (column, v) := by
    rw [hsplit]
    simp
  have hread := (getElem?_of_valuesFrom (values_of_run h).2).2 _ _ (List.getElem?_zip_eq_some.mp hp).2
  rwa [Nat.zero_add] at hread

def ordinalRow : RowReader := fun i => .ok (.string (String.ofList (List.replicate i 'i')))

theorem eq_of_ordinalRow {i j : Nat} {v : Value} (hi : ordinalRow i = .ok v) (hj : ordinalRow j = .ok v) : i = j := by
  have heq := hi.trans hj.symm
  simp only [ordinalRow, Except.ok.injEq, Value.string.injEq] at heq
  simpa using congrArg String.length heq

/-- If all views agree on the ordinal, they find one column. -/
theorem unshadowed_of_agree {n : String} (h : m.run ordinalRow = .ok r) (hn : n ∈ r.names) (hagree : r.Agree n) :
    Unshadowed r.names n := by
  have hlength := length_of_run h
  obtain ⟨v, hget, hfirst, hmap⟩ := hagree
  obtain ⟨before, ⟨column, u⟩, after, hsplit, hbefore, -, hu⟩ := DynamicRow.exists_get? hlength hn
  obtain ⟨beforeFirst, w, afterFirst, hsplitFirst, -, hw⟩ := DynamicRow.exists_firstExact? hlength hn
  obtain ⟨beforeLast, x, afterLast, hsplitLast, hafter, hx⟩ := DynamicRow.exists_find?_toMap hlength hn
  obtain rfl : u = v := Option.some.inj (hu.symm.trans hget)
  obtain rfl : w = u := Option.some.inj (hw.symm.trans hfirst)
  obtain rfl : x = w := Option.some.inj (hx.symm.trans hmap)
  have hread := read_of_run h hsplit
  have hlengthFirst := eq_of_ordinalRow hread (read_of_run h hsplitFirst)
  have hlengthLast := eq_of_ordinalRow hread (read_of_run h hsplitLast)
  obtain ⟨rfl, hsame⟩ := List.append_inj (hsplit.symm.trans hsplitFirst) hlengthFirst
  obtain ⟨rfl, hsameLast⟩ := List.append_inj (hsplit.symm.trans hsplitLast) hlengthLast
  cases hsame
  cases hsameLast
  refine ⟨before.map Prod.fst, after.map Prod.fst, ?_, ?_, ?_⟩
  · rw [← DynamicRow.map_fst_pairs hlength, hsplit, List.map_append, List.map_cons]
  · exact List.forall_mem_map.mpr hbefore
  · intro hmem
    obtain ⟨q, hq, hname⟩ := List.mem_map.mp hmem
    exact hafter q hq hname

end DynamicMaterializer

/-- The names of a row are those of its columns, each with one value. Under a name that a column has, `get?` gives the
value of the first column of the name in any case, the pairs begin with the first column of exactly the name, and the
map has the last one. They agree in all rows of the materializer exactly if the name stands there once and not before
in another case. -/
theorem dynamic_views_agree_iff {shape : RowShape} {table : Option Table} {row : RowReader} {r : DynamicRow}
    (h : (DynamicMaterializer.compile shape table).run row = .ok r) :
    r.names = shape.resolvedNames table ∧ r.names.length = r.values.length ∧ ∀ n ∈ r.names,
      (∃ before p after, r.pairs = before ++ p :: after ∧ (∀ q ∈ before, sameName q.1 n = false) ∧
        sameName p.1 n = true ∧ r.get? n = some p.2) ∧
      (∃ before v after, r.pairs = before ++ (n, v) :: after ∧ (∀ q ∈ before, q.1 ≠ n) ∧
        r.firstExact? n = some v) ∧
      (∃ before v after, r.pairs = before ++ (n, v) :: after ∧ (∀ q ∈ after, q.1 ≠ n) ∧
        r.toMap.find? n = some v) ∧
      ((∀ row' r', (DynamicMaterializer.compile shape table).run row' = .ok r' → r'.Agree n) ↔
        Unshadowed r.names n) := by
  have hnames : r.names = shape.resolvedNames table := (DynamicMaterializer.values_of_run h).1
  have hlength := DynamicMaterializer.length_of_run h
  refine ⟨hnames, hlength, fun n hn => ⟨DynamicRow.exists_get? hlength hn, DynamicRow.exists_firstExact? hlength hn,
    DynamicRow.exists_find?_toMap hlength hn, fun hagree => ?_, fun hunshadowed row' r' h' => ?_⟩⟩
  · obtain ⟨r', h'⟩ := DynamicMaterializer.exists_run (DynamicMaterializer.compile shape table)
      DynamicMaterializer.ordinalRow fun i => ⟨_, rfl⟩
    have hsame : r'.names = r.names := (DynamicMaterializer.values_of_run h').1.trans hnames.symm
    rw [← hsame] at hn ⊢
    exact DynamicMaterializer.unshadowed_of_agree h' hn (hagree _ r' h')
  · have hsame : r'.names = r.names := (DynamicMaterializer.values_of_run h').1.trans hnames.symm
    exact DynamicRow.agree_of_unshadowed (DynamicMaterializer.length_of_run h') (hsame ▸ hunshadowed)

/-- A later column of the name in another case hides nothing. -/
theorem first_spelling_agrees :
    let m := DynamicMaterializer.compile (.ofNames ["Id", "email", "ID"]) none
    let row : RowReader := fun i => .ok ([Value.int32 1, .null, .int32 2].getD i .null)
    ∃ r, m.run row = .ok r ∧ "Id" ∈ r.names ∧ Unshadowed r.names "Id" ∧
      ∀ row' r', m.run row' = .ok r' → r'.Agree "Id" := by
  intro m row
  have hrun : m.run row = .ok _ := rfl
  obtain ⟨-, -, hviews⟩ := dynamic_views_agree_iff hrun
  have hunshadowed : Unshadowed m.names "Id" := ⟨[], ["email", "ID"], rfl, by decide, by decide⟩
  exact ⟨_, hrun, by decide, hunshadowed, (hviews "Id" (by decide)).2.2.2.mpr hunshadowed⟩

/-- Under `id` another column is found ignoring case than by the exact name, and of two columns `x` the map keeps the
second. -/
theorem spellings_and_repeats_disagree :
    let m := DynamicMaterializer.compile (.ofNames ["ID", "id", "x", "x"]) none
    let row : RowReader := fun i => .ok ([Value.int32 1, .int32 2, .int32 3, .int32 4].getD i .null)
    ∃ r, m.run row = .ok r ∧ "id" ∈ r.names ∧ r.get? "id" = some (.int32 1) ∧
      r.firstExact? "id" = some (.int32 2) ∧ r.toMap.find? "id" = some (.int32 2) ∧
      "x" ∈ r.names ∧ r.get? "x" = some (.int32 3) ∧ r.firstExact? "x" = some (.int32 3) ∧
      r.toMap.find? "x" = some (.int32 4) :=
  ⟨_, rfl, by decide, by decide, by decide, by decide, by decide, by decide, by decide, by decide⟩

end SqlMapping
