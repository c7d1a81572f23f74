import SqlMapping.Proofs.Row.Conversion
import SqlMapping.Row.Record

/-!
# Reading and assigning members

What instances show of their members. `Mapping.Keeps.assignFields`: a type that keeps what is assigned to
it shows, after distinct members were assigned, their new values, and otherwise the old ones.
-/

namespace SqlMapping

namespace Mapping

variable {α : Type} (m : Mapping α)

def Reads (a : α) (value : Nat → Value) : Prop :=
  ∀ i member, m.info.members[i]? = some member →
    m.memberValue a i = .ok (value i) ∧ member.type.Conforms (value i)

/-- An instance can be made without arguments, and its members take and keep conforming values. -/
structure Keeps : Prop where
  construct : ∀ constructor, m.info.parameterless? = some constructor → ∃ a, m.construct constructor [] = .ok a
  assign : ∀ a i member v, m.info.members[i]? = some member → member.type.Conforms v →
    ∃ b, m.assign a i v = .ok b ∧ m.memberValue b i = .ok v ∧ ∀ j, j ≠ i → m.memberValue b j = m.memberValue a j

def assignFields (a : α) (fields : List (Nat × Value)) : Except Error α :=
  fields.foldlM (fun a f => m.assign a f.1 f.2) a

variable {m}

theorem Keeps.assignFields (hm : m.Keeps) (fields : List (Nat × Value))
    (hnodup : (fields.map Prod.fst).Nodup)
    (hfields : ∀ f ∈ fields, ∃ member, m.info.members[f.1]? = some member ∧ member.type.Conforms f.2) :
    ∀ a : α, ∃ b, m.assignFields a fields = .ok b ∧ (∀ f ∈ fields, m.memberValue b f.1 = .ok f.2) ∧
      ∀ j ∉ fields.map Prod.fst, m.memberValue b j = m.memberValue a j := by
  induction fields with
  | nil => intro a; exact ⟨a, rfl, by simp, fun _ _ => rfl⟩
  | cons f fields ih =>
    intro a
    rw [List.map_cons, List.nodup_cons] at hnodup
    obtain ⟨member, hmember, hv⟩ := hfields f List.mem_cons_self
    obtain ⟨a', hassign, hread, hothers⟩ := hm.assign a f.1 member f.2 hmember hv
    obtain ⟨b, hb, hreads, hrest⟩ := ih hnodup.2 (fun g hg => hfields g (List.mem_cons_of_mem f hg)) a'
    refine ⟨b, ?_, ?_, ?_⟩
    · rw [Mapping.assignFields, List.foldlM_cons, hassign]
      exact hb
    · intro g hg
      rcases List.mem_cons.mp hg with rfl | hg
      · exact (hrest g.1 hnodup.1).trans hread
      · exact hreads g hg
    · intro j hj
      rw [List.map_cons, List.mem_cons, not_or] at hj
      exact (hrest j hj.2).trans (hothers j hj.1)

end Mapping

/-! ## Records -/

namespace RecordType

variable {t : RecordType}

/-- A record keeps its members if all can be read and their places hold what conforms to them. -/
theorem keeps (hreadable : ∀ m ∈ t.members, m.readable = true)
    (hstorage : ∀ m ∈ t.members, ∀ v, m.type.Conforms v → m.storage.take v = .ok v) : t.mapping.Keeps := by
  refine ⟨?_, ?_⟩
  · intro constructor _
    refine ⟨{ constructor, arguments := [] }, ?_⟩
    simp only [mapping, construct]
    cases t.constructors[constructor]? with
    | none => rfl
    | some c => cases hp : c.parameters <;> simp [storeAll, Except.map, hp]
  · intro r i member v hmember hv
    rw [show t.mapping.info.members = t.members.map fun m => ⟨m.name, m.type, m.kind⟩ from rfl,
      List.getElem?_map] at hmember
    obtain ⟨m, hm, rfl⟩ := Option.map_eq_some_iff.mp hmember
    have hmem := List.mem_of_getElem? hm
    have hstore : store m.storage v = .ok v := by simp only [store, hstorage m hmem v hv]
    refine ⟨{ r with values := r.values.insert i v, assigned := r.assigned ++ [i] }, ?_, ?_, ?_⟩
    · simp only [mapping, assign, hm, hstore]
      rfl
    · simp only [mapping, memberValue, hm, hreadable m hmem, Record.value, Keyed.find?_insert_self,
        Option.getD_some, if_true]
    · intro j hj
      simp only [mapping, memberValue, Record.value, Keyed.find?_insert_of_ne _ v hj]

end RecordType

end SqlMapping
