import SqlMapping.Catalog.Table

/-!
# Accepted tables

What `Table.build` promises about a table. `Table.column?_of_mem`: in an accepted table, a column is found
by its name in any case.
-/

namespace SqlMapping

namespace Table

def Distinct (t : Table) : Prop := (t.columns.map fun c => foldCase c.name).Nodup

theorem firstRepeated_eq_none_iff (cs : List Column) : ∀ seen : List String,
    firstRepeated seen cs = none ↔
      (∀ c ∈ cs, foldCase c.name ∉ seen) ∧ (cs.map fun c => foldCase c.name).Nodup := by
  induction cs with
  | nil => intro seen; simp [firstRepeated]
  | cons c cs ih =>
    intro seen
    rw [firstRepeated]
    cases hseen : seen.contains (foldCase c.name) with
    | true =>
      have hmem : foldCase c.name ∈ seen := by simpa using hseen
      simp [hmem]
    | false =>
      have hnot : foldCase c.name ∉ seen := by simpa using hseen
      rw [if_neg (by simp), ih, List.map_cons, List.nodup_cons]
      refine ⟨?_, ?_⟩
      · rintro ⟨hcs, hnodup⟩
        refine ⟨?_, ?_, hnodup⟩
        · intro c' hc'
          rcases List.mem_cons.mp hc' with rfl | hc'
          · exact hnot
          · exact fun h => hcs c' hc' (List.mem_cons_of_mem _ h)
        · intro h
          obtain ⟨c', hc', heq⟩ := List.mem_map.mp h
          exact hcs c' hc' (heq ▸ List.mem_cons_self)
      · rintro ⟨hcs, hc, hnodup⟩
        refine ⟨fun c' hc' h => ?_, hnodup⟩
        rcases List.mem_cons.mp h with heq | h
        · exact hc (heq ▸ List.mem_map_of_mem hc')
        · exact hcs c' (List.mem_cons_of_mem c hc') h

theorem eq_of_build {t t' : Table} (h : t.build = .ok t') : t' = t := by
  unfold build at h
  split at h
  · cases h
  · split at h
    · cases h
    · split at h
      · cases h
      · exact (Except.ok.inj h).symm

theorem distinct_of_build {t t' : Table} (h : t.build = .ok t') : t'.Distinct := by
  obtain rfl := eq_of_build h
  unfold build at h
  split at h
  · cases h
  · rename_i hrepeated
    exact ((firstRepeated_eq_none_iff t'.columns []).mp hrepeated).2

theorem find?_isNamed {c : Column} {name : String} (hname : sameName c.name name = true) :
    ∀ {cs : List Column}, (cs.map fun c => foldCase c.name).Nodup → c ∈ cs →
      cs.find? (fun c => c.isNamed name) = some c
  | [], _, hc => by cases hc
  | c' :: cs, hnodup, hc => by
    rw [List.map_cons, List.nodup_cons] at hnodup
    rcases List.mem_cons.mp hc with rfl | hc
    · exact List.find?_cons_of_pos hname
    · have hother : c'.isNamed name = false := by
        refine Bool.eq_false_iff.mpr fun h => hnodup.1 ?_
        rw [Column.isNamed, sameName_iff] at h
        rw [h, ← (sameName_iff _ _).mp hname]
        exact List.mem_map_of_mem hc
      rw [List.find?_cons, hother]
      exact find?_isNamed hname hnodup.2 hc

theorem column?_of_mem {t : Table} (h : t.Distinct) {c : Column} (hc : c ∈ t.columns) {name : String}
    (hname : sameName c.name name = true) : t.column? name = some c :=
  find?_isNamed hname h hc

end Table

end SqlMapping
