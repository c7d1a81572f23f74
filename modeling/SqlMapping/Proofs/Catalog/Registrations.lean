import SqlMapping.Catalog.Registry
import Mathlib.Data.List.Induction

/-!
# The history of a registry

A table that is registered for a type is registered under its name as well. The name may later be given to another
table, while the type keeps its own. `lookUps_agree_iff`: the table of a type is found under its name if and only if
the last registration of the name since, if there is any, is of the same table.
-/

namespace SqlMapping

inductive Registration where
  | named (table : Table)
  | typed (type : TypeKey) (table : Table)

namespace Registration

def table : Registration → Table
  | .named t | .typed _ t => t

def type? : Registration → Option TypeKey
  | .named _ => none
  | .typed type _ => some type

def names (c : Registration) (name : String) : Bool := sameName c.table.name.name name

def apply (r : Registry) : Registration → Registry
  | .named t => r.register t
  | .typed type t => r.registerFor type t

def last? (p : Registration → Bool) (calls : List Registration) : Option Registration := calls.reverse.find? p

theorem last?_append (p : Registration → Bool) (calls later : List Registration) :
    last? p (calls ++ later) = (last? p later).or (last? p calls) := by
  rw [last?, List.reverse_append, List.find?_append]
  rfl

theorem last?_concat (p : Registration → Bool) (calls : List Registration) (c : Registration) :
    last? p (calls ++ [c]) = if p c then some c else last? p calls := by
  rw [last?_append]
  cases hp : p c <;> simp [last?, hp]

theorem last?_cases {p : Registration → Bool} {calls : List Registration} {c : Registration}
    (h : last? p calls = some c) :
    ∃ before after, calls = before ++ c :: after ∧ p c = true ∧ ∀ d ∈ after, p d = false := by
  obtain ⟨hc, after, before, hreverse, hafter⟩ := List.find?_eq_some_iff_append.mp h
  refine ⟨before.reverse, after.reverse, ?_, hc, fun d hd => by simpa using hafter d (List.mem_reverse.mp hd)⟩
  rw [← List.reverse_reverse calls, hreverse]
  simp

end Registration

namespace Registry

def afterAll (calls : List Registration) : Registry := calls.foldl Registration.apply {}

/-! ## One registration -/

theorem table?_apply (r : Registry) (c : Registration) (name : String) :
    (c.apply r).table? name = if c.names name then some c.table else r.table? name := by
  have hbyName : (c.apply r).byName = r.byName.insert (foldCase c.table.name.name) c.table := by
    cases c <;> rfl
  rw [table?, hbyName, table?]
  cases hnames : c.names name with
  | true => rw [(sameName_iff _ _).mp hnames, Keyed.find?_insert_self, if_pos rfl]
  | false =>
    have hne : foldCase name ≠ foldCase c.table.name.name := by
      intro heq
      rw [Registration.names, (sameName_iff _ _).mpr heq.symm] at hnames
      cases hnames
    rw [Keyed.find?_insert_of_ne _ _ hne, if_neg Bool.false_ne_true]

theorem tableFor?_apply (r : Registry) (c : Registration) (type : TypeKey) :
    (c.apply r).tableFor? type = if c.type? = some type then some c.table else r.tableFor? type := by
  cases c with
  | named t => rfl
  | typed type' t =>
    simp only [Registration.apply, registerFor, tableFor?, Registration.type?, Registration.table, Option.some.injEq]
    split
    · rename_i heq
      rw [heq, Keyed.find?_insert_self]
    · rename_i hne
      exact Keyed.find?_insert_of_ne _ _ (Ne.symm hne)

/-! ## Any registrations -/

theorem afterAll_concat (calls : List Registration) (c : Registration) :
    afterAll (calls ++ [c]) = c.apply (afterAll calls) := by
  rw [afterAll, List.foldl_append]
  rfl

theorem table?_afterAll (calls : List Registration) (name : String) :
    (afterAll calls).table? name =
      (Registration.last? (fun c => c.names name) calls).map Registration.table := by
  induction calls using List.reverseRecOn with
  | nil => rfl
  | append_singleton calls c ih =>
    rw [afterAll_concat, table?_apply, ih, Registration.last?_concat]
    split <;> rfl

theorem tableFor?_afterAll (calls : List Registration) (type : TypeKey) :
    (afterAll calls).tableFor? type =
      (Registration.last? (fun c => c.type? = some type) calls).map Registration.table := by
  induction calls using List.reverseRecOn with
  | nil => rfl
  | append_singleton calls c ih =>
    rw [afterAll_concat, tableFor?_apply, ih, Registration.last?_concat]
    by_cases htype : c.type? = some type <;> simp [htype]

end Registry

/-- The table of a type is the one last registered for it. Under the name of this table, in any case, the table is
found that was last registered under the name since, or else this table: so both look-ups give one table exactly if
such a registration, if there is any, is of the same table. -/
theorem lookUps_agree_iff {calls : List Registration} {type : TypeKey} {t : Table}
    (h : (Registry.afterAll calls).tableFor? type = some t) :
    ∃ before after, calls = before ++ .typed type t :: after ∧ (∀ c ∈ after, c.type? ≠ some type) ∧
      ∀ name, sameName name t.name.name = true →
        (Registry.afterAll calls).table? name =
          some ((Registration.last? (fun c => c.names name) after).elim t Registration.table) ∧
        ((Registry.afterAll calls).table? name = (Registry.afterAll calls).tableFor? type ↔
          ∀ c, Registration.last? (fun c => c.names name) after = some c → c.table = t) := by
  have htyped := h
  rw [Registry.tableFor?_afterAll, Option.map_eq_some_iff] at htyped
  obtain ⟨c, hc, htable⟩ := htyped
  obtain ⟨before, after, hsplit, htype, hafter⟩ := Registration.last?_cases hc
  obtain rfl : c = .typed type t := by
    subst htable
    cases c with
    | named t' => simp [Registration.type?] at htype
    | typed type' t' => simpa [Registration.type?, Registration.table] using htype
  refine ⟨before, after, hsplit, fun c hc => by simpa using hafter c hc, fun name hname => ?_⟩
  have hself : (Registration.typed type t).names name = true := (sameName_symm _ _).trans hname
  have hfound : (Registry.afterAll calls).table? name =
      some ((Registration.last? (fun c => c.names name) after).elim t Registration.table) := by
    rw [Registry.table?_afterAll, hsplit, List.append_cons, Registration.last?_append, Registration.last?_concat,
      if_pos hself]
    cases Registration.last? (fun c => c.names name) after <;> rfl
  refine ⟨hfound, ?_⟩
  rw [hfound, h]
  cases Registration.last? (fun c => c.names name) after <;> simp

def ordersTable (columns : List Column) (name : String) : Table := { name := ⟨name, false⟩, columns }

/-- The name is given to the table of the type after another table had it. -/
theorem renewed_name_agrees :
    let orders := ordersTable [{ name := "id", type := .int64 }] "Orders"
    let calls : List Registration := [.named (ordersTable [] "orders"), .typed (.mapped 0) orders,
      .typed (.mapped 1) (ordersTable [] "customers")]
    (Registry.afterAll calls).tableFor? (.mapped 0) = some orders ∧ sameName "ORDERS" "Orders" = true ∧
      (Registry.afterAll calls).table? "ORDERS" = (Registry.afterAll calls).tableFor? (.mapped 0) := by
  intro orders calls
  have htyped : (Registry.afterAll calls).tableFor? (.mapped 0) = some orders := by decide
  have hname : sameName "ORDERS" "Orders" = true := by decide
  obtain ⟨before, after, hsplit, -, hagree⟩ := lookUps_agree_iff htyped
  refine ⟨htyped, hname, (hagree "ORDERS" hname).2.mpr fun c hc => ?_⟩
  simp only [calls] at hsplit
  match before, hsplit with
  | [], hsplit => cases hsplit
  | [_], hsplit =>
    cases hsplit
    cases hc
  | [_, _], hsplit => cases hsplit
  | _ :: _ :: _ :: before, hsplit => simp at hsplit

/-- The name is given to another table, and the type keeps its own. -/
theorem renamed_table_differs :
    let orders := ordersTable [{ name := "id", type := .int64 }] "orders"
    let other := ordersTable [{ name := "id", type := .int64 }, { name := "total", type := .decimal }] "ORDERS"
    let calls : List Registration := [.typed (.mapped 0) orders, .named other]
    (Registry.afterAll calls).tableFor? (.mapped 0) = some orders ∧ sameName "Orders" orders.name.name = true ∧
      (Registry.afterAll calls).table? "Orders" = some other ∧ other ≠ orders := by
  decide

end SqlMapping
