import SqlMapping.Proofs.Criteria.Registration
import Std.Data.HashSet.Lemmas

/-!
# Names of parameters

Parameters are registered under names that are given or generated, in any order, and a name that is taken is refused.
`parameter_names_kept`: no name is there twice, each value is found under the name it was registered with, and no name
is generated twice. A set of the names that is kept beside the entries, and asked in their stead, refuses the same
calls.
-/

namespace SqlMapping

inductive ParameterCall where
  | register (v : Value)
  | registerNamed (name : String) (v : Value)

namespace ParameterCall

def value : ParameterCall → Value
  | .register v | .registerNamed _ v => v

def name (next : Nat) : ParameterCall → String
  | .register _ => generatedName next
  | .registerNamed name _ => name

def nextAfter (next : Nat) : ParameterCall → Nat
  | .register _ => next + 1
  | .registerNamed .. => next

end ParameterCall

namespace ParameterSet

def call (ps : ParameterSet) : ParameterCall → Except Error String × ParameterSet
  | .register v => ps.register v
  | .registerNamed name v => ((ps.registerNamed name v).1.map fun _ => name, (ps.registerNamed name v).2)

def afterAll (calls : List ParameterCall) : ParameterSet := calls.foldl (fun ps c => (ps.call c).2) {}

/-! ## One call -/

section
variable {ps : ParameterSet} {c : ParameterCall}

theorem call_of_mem (h : c.name ps.next ∈ ps.names) : ps.call c =
    (.error (.duplicateParameter (c.name ps.next)), ⟨ps.entries, c.nextAfter ps.next⟩) := by
  unfold names at h
  cases c with
  | register v =>
    simp only [ParameterCall.name] at h
    simp [call, register, registerNamed, names, h, ParameterCall.name, ParameterCall.nextAfter]
  | registerNamed name v =>
    simp only [ParameterCall.name] at h
    simp [call, registerNamed, names, h, ParameterCall.name, ParameterCall.nextAfter, Except.map]

theorem call_of_not_mem (h : c.name ps.next ∉ ps.names) : ps.call c =
    (.ok (c.name ps.next), ⟨ps.entries ++ [(c.name ps.next, c.value)], c.nextAfter ps.next⟩) := by
  unfold names at h
  cases c with
  | register v =>
    simp only [ParameterCall.name] at h
    simp [call, register, registerNamed, names, h, ParameterCall.name, ParameterCall.nextAfter, ParameterCall.value]
  | registerNamed name v =>
    simp only [ParameterCall.name] at h
    simp [call, registerNamed, names, h, ParameterCall.name, ParameterCall.nextAfter, ParameterCall.value, Except.map]

theorem next_call (ps : ParameterSet) (c : ParameterCall) : (ps.call c).2.next = c.nextAfter ps.next := by
  by_cases h : c.name ps.next ∈ ps.names
  · rw [call_of_mem h]
  · rw [call_of_not_mem h]

theorem entries_call (ps : ParameterSet) (c : ParameterCall) : (ps.call c).2.entries = ps.entries ++
    if c.name ps.next ∈ ps.names then [] else [(c.name ps.next, c.value)] := by
  by_cases h : c.name ps.next ∈ ps.names
  · rw [call_of_mem h, if_pos h, List.append_nil]
  · rw [call_of_not_mem h, if_neg h]

theorem nodup_names_call (h : ps.names.Nodup) (c : ParameterCall) : (ps.call c).2.names.Nodup := by
  rw [names, entries_call, List.map_append]
  by_cases hname : c.name ps.next ∈ ps.names
  · rw [if_pos hname, List.map_nil, List.append_nil]
    exact h
  · rw [if_neg hname, List.map_singleton, List.nodup_append_comm]
    exact List.nodup_cons.mpr ⟨hname, h⟩

end

/-! ## Any calls -/

theorem afterAll_concat (calls : List ParameterCall) (c : ParameterCall) :
    afterAll (calls ++ [c]) = ((afterAll calls).call c).2 := by
  simp [afterAll]

theorem nodup_names_afterAll (calls : List ParameterCall) : (afterAll calls).names.Nodup := by
  induction calls using List.reverseRecOn with
  | nil => exact .nil
  | append_singleton calls c ih =>
    rw [afterAll_concat]
    exact nodup_names_call ih c

theorem entries_prefix_afterAll (calls later : List ParameterCall) :
    (afterAll calls).entries <+: (afterAll (calls ++ later)).entries := by
  induction later using List.reverseRecOn with
  | nil => simp
  | append_singleton later c ih =>
    rw [← List.append_assoc, afterAll_concat, entries_call]
    exact ih.trans (List.prefix_append _ _)

theorem next_le_afterAll (calls later : List ParameterCall) :
    (afterAll calls).next ≤ (afterAll (calls ++ later)).next := by
  induction later using List.reverseRecOn with
  | nil => simp
  | append_singleton later c ih =>
    rw [← List.append_assoc, afterAll_concat, next_call]
    cases c with
    | register v => exact Nat.le_succ_of_le ih
    | registerNamed name v => exact ih

/-- The counter goes on at every generated name, also if the name is refused. -/
theorem next_lt_afterAll (calls later : List ParameterCall) (v : Value) :
    (afterAll calls).next < (afterAll (calls ++ .register v :: later)).next := by
  have hle := next_le_afterAll (calls ++ [.register v]) later
  rw [afterAll_concat, next_call, List.append_assoc, List.singleton_append] at hle
  exact hle

def Registered (calls : List ParameterCall) (name : String) (v : Value) : Prop :=
  ∃ before c after, calls = before ++ c :: after ∧ ((afterAll before).call c).1 = .ok name ∧ c.value = v

theorem registered_of_mem_entries {calls : List ParameterCall} {name : String} {v : Value}
    (h : (name, v) ∈ (afterAll calls).entries) : Registered calls name v := by
  induction calls using List.reverseRecOn with
  | nil => cases h
  | append_singleton calls c ih =>
    rw [afterAll_concat, entries_call, List.mem_append] at h
    cases h with
    | inl h =>
      obtain ⟨before, c', after, rfl, hname, hv⟩ := ih h
      exact ⟨before, c', after ++ [c], by simp, hname, hv⟩
    | inr h =>
      by_cases hmem : c.name (afterAll calls).next ∈ (afterAll calls).names
      · simp [hmem] at h
      · rw [if_neg hmem, List.mem_singleton, Prod.mk.injEq] at h
        exact ⟨calls, c, [], rfl, by rw [call_of_not_mem hmem, h.1], h.2.symm⟩

theorem mem_entries_of_registered {calls : List ParameterCall} {name : String} {v : Value}
    (h : Registered calls name v) : (name, v) ∈ (afterAll calls).entries := by
  obtain ⟨before, c, after, rfl, hname, rfl⟩ := h
  have hprefix := entries_prefix_afterAll (before ++ [c]) after
  rw [List.append_assoc, List.singleton_append] at hprefix
  apply hprefix.subset
  rw [afterAll_concat]
  by_cases hmem : c.name (afterAll before).next ∈ (afterAll before).names
  · rw [call_of_mem hmem] at hname
    cases hname
  · rw [call_of_not_mem hmem] at hname ⊢
    rw [Except.ok.inj hname]
    exact List.mem_append_right _ List.mem_cons_self

end ParameterSet

/-! ## A set beside the entries -/

namespace IndexedParameters

def call (s : IndexedParameters) : ParameterCall → Except Error String × IndexedParameters
  | .register v => s.register v
  | .registerNamed name v => ((s.registerNamed name v).1.map fun _ => name, (s.registerNamed name v).2)

def afterAll (calls : List ParameterCall) : IndexedParameters := calls.foldl (fun s c => (s.call c).2) {}

structure Indexes (s : IndexedParameters) (ps : ParameterSet) : Prop where
  entries : s.entries = ps.entries
  next : s.next = ps.next
  known : ∀ name, name ∈ s.known ↔ name ∈ ps.names

theorem Indexes.registerNamed {s : IndexedParameters} {ps : ParameterSet} (h : s.Indexes ps) (name : String)
    (v : Value) : (s.registerNamed name v).1 = (ps.registerNamed name v).1 ∧
      (s.registerNamed name v).2.Indexes (ps.registerNamed name v).2 := by
  have htaken : s.known.contains name = ps.names.contains name := by
    rw [Bool.eq_iff_iff, Std.HashSet.contains_iff_mem, List.contains_iff_mem, h.known]
  unfold IndexedParameters.registerNamed ParameterSet.registerNamed
  simp only [Std.HashSet.containsThenInsert_fst, Std.HashSet.containsThenInsert_snd, htaken]
  by_cases hname : ps.names.contains name = true
  · simp only [hname, if_true, true_and]
    refine ⟨h.entries, h.next, fun name' => ?_⟩
    have hmem : name ∈ ps.names := List.contains_iff_mem.mp hname
    rw [Std.HashSet.mem_insert, h.known, beq_iff_eq]
    exact or_iff_right_of_imp fun heq => heq ▸ hmem
  · simp only [hname, Bool.false_eq_true, if_false, true_and]
    refine ⟨by rw [h.entries], h.next, fun name' => ?_⟩
    rw [Std.HashSet.mem_insert, h.known, beq_iff_eq]
    simp [ParameterSet.names, or_comm, eq_comm]

theorem Indexes.call {s : IndexedParameters} {ps : ParameterSet} (h : s.Indexes ps) (c : ParameterCall) :
    (s.call c).1 = (ps.call c).1 ∧ (s.call c).2.Indexes (ps.call c).2 := by
  cases c with
  | register v =>
    have hcounted : Indexes { s with next := s.next + 1 } { ps with next := ps.next + 1 } :=
      ⟨h.entries, congrArg (· + 1) h.next, h.known⟩
    obtain ⟨hanswer, hafter⟩ := hcounted.registerNamed (generatedName ps.next) v
    simp only [IndexedParameters.call, ParameterSet.call, register, ParameterSet.register, h.next]
    rw [h.next] at hanswer hafter
    generalize IndexedParameters.registerNamed _ _ _ = a, ParameterSet.registerNamed _ _ _ = b at hanswer hafter ⊢
    obtain ⟨answer, s'⟩ := a
    obtain ⟨answer', ps'⟩ := b
    obtain rfl : answer = answer' := hanswer
    cases answer <;> exact ⟨rfl, hafter⟩
  | registerNamed name v =>
    obtain ⟨hanswer, hafter⟩ := h.registerNamed name v
    exact ⟨congrArg (Except.map fun _ => name) hanswer, hafter⟩

theorem indexes_afterAll (calls : List ParameterCall) : (afterAll calls).Indexes (ParameterSet.afterAll calls) := by
  induction calls using List.reverseRecOn with
  | nil => exact ⟨rfl, rfl, by simp [afterAll, ParameterSet.afterAll, ParameterSet.names]⟩
  | append_singleton calls c ih =>
    rw [ParameterSet.afterAll_concat, afterAll, List.foldl_append]
    exact (ih.call c).2

end IndexedParameters

namespace ParameterSet

/-- Names are distinct, and are the names in the set that is kept beside the entries. A call whose name is there is
refused and leaves the entries, any other adds an entry, and the next answer is the same if only the set is asked. A
name is generated once, also if it was refused. A value is found under a name if and only if it was registered under
it, and entries stay. -/
theorem parameter_names_kept (calls : List ParameterCall) :
    (afterAll calls).names.Nodup ∧
      ((IndexedParameters.afterAll calls).entries = (afterAll calls).entries ∧
        (∀ name, name ∈ (IndexedParameters.afterAll calls).known ↔ name ∈ (afterAll calls).names) ∧
        ∀ c, ((IndexedParameters.afterAll calls).call c).1 = ((afterAll calls).call c).1) ∧
      (∀ c : ParameterCall, let name := c.name (afterAll calls).next
        (name ∈ (afterAll calls).names → ((afterAll calls).call c).1 = .error (.duplicateParameter name) ∧
          ((afterAll calls).call c).2.entries = (afterAll calls).entries) ∧
        (name ∉ (afterAll calls).names → ((afterAll calls).call c).1 = .ok name ∧
          ((afterAll calls).call c).2.entries = (afterAll calls).entries ++ [(name, c.value)])) ∧
      (∀ before v between w after, calls = before ++ .register v :: between ++ .register w :: after →
        generatedName (afterAll before).next ≠ generatedName (afterAll (before ++ .register v :: between)).next) ∧
      (∀ name v, (afterAll calls).get? name = some v ↔ Registered calls name v) ∧
      ∀ later, (afterAll calls).entries <+: (afterAll (calls ++ later)).entries := by
  have hindexes := IndexedParameters.indexes_afterAll calls
  refine ⟨nodup_names_afterAll calls, ⟨hindexes.entries, hindexes.known, fun c => (hindexes.call c).1⟩,
    fun c => ⟨?_, ?_⟩, ?_, fun name v => ?_, entries_prefix_afterAll calls⟩
  · intro h
    rw [call_of_mem h]
    exact ⟨rfl, rfl⟩
  · intro h
    rw [call_of_not_mem h]
    exact ⟨rfl, rfl⟩
  · intro before v between w after _ hname
    have hlt := next_lt_afterAll before between v
    exact Nat.ne_of_lt hlt (generatedName_inj.mp hname)
  · rw [get?_eq_some_iff (nodup_names_afterAll calls)]
    exact ⟨registered_of_mem_entries, mem_entries_of_registered⟩

example : (afterAll [.registerNamed "p_1" .null, .register (.bool true), .register (.bool false),
    .register (.int32 7)]).names = ["p_1", "p_0", "p_2"] := by decide

end ParameterSet

end SqlMapping
