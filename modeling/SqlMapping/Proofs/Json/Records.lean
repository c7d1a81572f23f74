import SqlMapping.Json.Decode
import SqlMapping.Proofs.Json.Text

/-!
# Records in JSON

The fields of a record with different names are read back by their names (`fields?_ofFields`). `nesting` counts the
objects and arrays that stand inside each other, which is the room that looking into a tree takes.
-/

namespace SqlMapping.Json

/-! ## Fields -/

theorem readableFields_some (fields : List (String × Json)) :
    readableFields (fields.map fun f => (some f.1, f.2)) = some fields := by
  induction fields with
  | nil => rfl
  | cons f fields ih => simp [readableFields, ih]

theorem filter_of_nodup {fields : List (String × Json)} (h : (fields.map Prod.fst).Nodup) {f : String × Json}
    (hf : f ∈ fields) : fields.filter (fun g => g.1 == f.1) = [f] := by
  induction fields with
  | nil => cases hf
  | cons g fields ih =>
    obtain ⟨hnew, hrest⟩ := List.nodup_cons.mp h
    rcases List.mem_cons.mp hf with rfl | hf
    · have hothers : fields.filter (fun g => g.1 == f.1) = [] := by
        apply List.filter_eq_nil_iff.mpr
        intro g hg heq
        exact hnew (eq_of_beq heq ▸ List.mem_map_of_mem hg)
      simp [hothers]
    · have hne : g.1 ≠ f.1 := by
        intro heq
        exact hnew (heq ▸ List.mem_map_of_mem hf)
      simp [hne, ih hrest hf]

theorem uniqueField?_of_nodup {fields : List (String × Json)} (h : (fields.map Prod.fst).Nodup) {f : String × Json}
    (hf : f ∈ fields) : uniqueField? fields f.1 = some (some f.2) := by
  unfold uniqueField?
  rw [filter_of_nodup h hf]

theorem fields?_ofFields {fields : List (String × Json)} (h : (fields.map Prod.fst).Nodup) :
    (ofFields fields).fields? (fields.map Prod.fst) = some (fields.map fun f => some f.2) := by
  have hall : ∀ asked : List (String × Json), (∀ f ∈ asked, f ∈ fields) →
      (asked.map Prod.fst).mapM (uniqueField? fields) = some (asked.map fun f => some f.2) := by
    intro asked hasked
    induction asked with
    | nil => rfl
    | cons f asked ih =>
      obtain ⟨hf, hasked⟩ := List.forall_mem_cons.mp hasked
      simp [uniqueField?_of_nodup h hf, ih hasked]
  simp only [fields?, record?, ofFields, readableFields_some, Option.bind_eq_bind, Option.bind_some]
  exact hall fields fun _ hf => hf

theorem nullable?_ofOption {α : Type} {read : Json → Option α} {write : α → Json}
    (hread : ∀ a, read (write a) = some a) (hnull : ∀ a, write a ≠ .null) (x : Option α) :
    nullable? read (some (ofOption write x)) = some x := by
  cases x with
  | none => rfl
  | some a =>
    have hsome : optional? read (write a) = (read (write a)).map some := by
      unfold optional?
      split
      · rename_i heq
        exact absurd heq (hnull a)
      · rfl
    have hwritten : nullable? read (some (ofOption write (some a))) = optional? read (write a) := rfl
    rw [hwritten, hsome, hread]
    rfl

@[simp]
theorem text?_ofString (s : String) : (ofString s).text? = some s := rfl

@[simp]
theorem bool?_bool (b : Bool) : (bool b).bool? = some b := rfl

@[simp]
theorem required?_some {α : Type} (read : Json → Option α) (j : Json) : required? read (some j) = read j := rfl

theorem nullable?_text (x : Option String) : nullable? text? (some (ofOption ofString x)) = some x := by
  apply nullable?_ofOption
  · exact text?_ofString
  · intro s h
    cases h

theorem char?_ofString (c : Char) : char? (ofString (String.singleton c)) = some c := by
  simp [char?, text?, ofString]

theorem nullable?_char (x : Option Char) :
    nullable? char? (some (ofOption (fun c => ofString (String.singleton c)) x)) = some x := by
  apply nullable?_ofOption
  · exact char?_ofString
  · intro c h
    cases h

theorem oneOf?_ofString {α : Type} {ofTag? : String → Option α} {tag : String} {a : α} (h : ofTag? tag = some a)
    (room : Nat) : oneOf? room ofTag? (ofString tag) = some a := h

/-! ## Nesting -/

mutual

def nesting : Json → Nat
  | .null | .bool _ | .number _ | .string _ => 0
  | .array items => nestingItems items + 1
  | .object fields => nestingFields fields + 1

def nestingItems : List Json → Nat
  | [] => 0
  | j :: js => max j.nesting (nestingItems js)

def nestingFields : List (Option String × Json) → Nat
  | [] => 0
  | (_, j) :: fields => max j.nesting (nestingFields fields)

end

/-! ## Records and what is in their fields -/

theorem nesting_le_of_mem {fields : List (String × Json)} {f : String × Json} (hf : f ∈ fields) :
    f.2.nesting ≤ nestingFields (fields.map fun f => (some f.1, f.2)) := by
  induction fields with
  | nil => cases hf
  | cons g fields ih =>
    rcases List.mem_cons.mp hf with rfl | hf
    · exact Nat.le_max_left _ _
    · exact Nat.le_trans (ih hf) (Nat.le_max_right _ _)

/-- An object takes one level of the room, and leaves the others to its fields. -/
theorem room_of_ofFields {fields : List (String × Json)} {room : Nat} (h : (ofFields fields).nesting ≤ room) :
    ∃ inner, room = inner + 1 ∧ ∀ f ∈ fields, f.2.nesting ≤ inner := by
  cases room with
  | zero => cases h
  | succ inner =>
    refine ⟨inner, rfl, ?_⟩
    intro f hf
    exact Nat.le_trans (nesting_le_of_mem hf) (Nat.le_of_succ_le_succ h)

theorem legible_ofFields {fields : List (String × Json)} : (ofFields fields).Legible ↔ ∀ f ∈ fields, f.2.Legible := by
  rw [ofFields, Legible]
  induction fields with
  | nil => simp [LegibleFields]
  | cons f fields ih => simp only [List.map_cons, LegibleFields, ih, List.forall_mem_cons, Option.isSome_some, true_and]

@[simp]
theorem legible_ofString (s : String) : (ofString s).Legible := rfl

@[simp]
theorem legible_bool (b : Bool) : (bool b).Legible := trivial

@[simp]
theorem legible_array (items : List Json) : (array items).Legible ↔ LegibleItems items := Iff.rfl

@[simp]
theorem legible_ofOption {α : Type} (text : α → String) (x : Option α) :
    (ofOption (fun a => ofString (text a)) x).Legible := by
  cases x with
  | none => trivial
  | some a => exact legible_ofString (text a)

@[simp]
theorem legible_ofOption_ofString (x : Option String) : (ofOption ofString x).Legible := legible_ofOption (fun s => s) x

end SqlMapping.Json
