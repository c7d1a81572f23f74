import SqlMapping.Error

/-!
# Cursors

A cursor goes forward through the rows of a result; columns are addressed by ordinal. Any call may
fail. `remaining` bounds the rows that are left, so that reading them all ends.
-/

namespace SqlMapping

class RowCursor (γ : Type) where
  fieldCount : γ → Nat
  fieldName : γ → Nat → Except Error String
  /-- Kind of a column, when it is known. -/
  fieldKind : γ → Nat → Option Kind
  value : γ → Nat → Except Error Value
  /-- Moves to the next row, and says whether there is one. -/
  read : γ → Except Error Bool × γ
  remaining : γ → Nat
  remaining_read : ∀ c : γ, (read c).1 = .ok true → remaining (read c).2 < remaining c

theorem RowCursor.remaining_lt {γ : Type} [RowCursor γ] {c c' : γ} (h : read c = (.ok true, c')) :
    remaining c' < remaining c := by
  have hlt := remaining_read c (by rw [h])
  rwa [h] at hlt

structure MemoryCursor where
  names : List String
  kinds : List (Option Kind)
  rows : List (List Value)
  /-- Index of the current row; the number of rows once they are exhausted. -/
  position : Option Nat := none
  deriving DecidableEq

def resized {α : Type} (n : Nat) (filler : α) (xs : List α) : List α :=
  xs.take n ++ List.replicate (n - xs.length) filler

namespace MemoryCursor

def ofNames (names : List String) : MemoryCursor :=
  { names, kinds := names.map fun _ => none, rows := [] }

def withKinds (c : MemoryCursor) (kinds : List Kind) : MemoryCursor :=
  { c with kinds := resized c.names.length none (kinds.map some) }

def withRow (c : MemoryCursor) (row : List Value) : MemoryCursor :=
  { c with rows := c.rows ++ [resized c.names.length .null row] }

def reset (c : MemoryCursor) : MemoryCursor := { c with position := none }

def fieldName (c : MemoryCursor) (ordinal : Nat) : Except Error String :=
  match c.names[ordinal]? with
  | some name => .ok name
  | none => .error (.cursor (.ordinalOutOfRange ordinal))

def fieldKind (c : MemoryCursor) (ordinal : Nat) : Option Kind := (c.kinds[ordinal]?).bind id

def currentRow? (c : MemoryCursor) : Option (List Value) := c.position.bind fun p => c.rows[p]?

def value (c : MemoryCursor) (ordinal : Nat) : Except Error Value :=
  match c.currentRow? with
  | none => .error (.cursor .noCurrentRow)
  | some row =>
    match row[ordinal]? with
    | some v => .ok v
    | none => .error (.cursor (.ordinalOutOfRange ordinal))

def following (c : MemoryCursor) : Nat :=
  match c.position with
  | some p => p + 1
  | none => 0

def read (c : MemoryCursor) : Bool × MemoryCursor :=
  if c.following < c.rows.length then (true, { c with position := some c.following })
  else (false, { c with position := some c.rows.length })

def remaining (c : MemoryCursor) : Nat := c.rows.length - c.following

theorem remaining_read (c : MemoryCursor) (h : c.read.1 = true) : c.read.2.remaining < c.remaining := by
  unfold read at h ⊢
  split at h
  · rename_i hlt
    rw [if_pos hlt]
    simp only [remaining] at *
    show c.rows.length - (c.following + 1) < c.rows.length - c.following
    omega
  · cases h

instance : RowCursor MemoryCursor where
  fieldCount c := c.names.length
  fieldName := fieldName
  fieldKind := fieldKind
  value := value
  read c := (.ok c.read.1, c.read.2)
  remaining := remaining
  remaining_read c h := c.remaining_read (Except.ok.inj h)

end MemoryCursor

structure FaultyCursor where
  inner : MemoryCursor
  /-- Ordinal whose name cannot be had. -/
  failName : Option Nat := none
  /-- Number of the read that fails, from 0. -/
  failRead : Option Nat := none
  /-- Row and ordinal of the value that cannot be had. -/
  failValue : Option (Nat × Nat) := none
  hidesKinds : Bool := false
  reads : Nat := 0
  deriving DecidableEq

namespace FaultyCursor

def fieldName (c : FaultyCursor) (ordinal : Nat) : Except Error String :=
  if c.failName = some ordinal then .error (.cursor (.failed ("name " ++ toString ordinal ++ " failed")))
  else c.inner.fieldName ordinal

def value (c : FaultyCursor) (ordinal : Nat) : Except Error Value :=
  if c.failValue.isSome ∧ c.failValue = c.inner.position.map fun row => (row, ordinal) then
    .error (.cursor (.failed ("value " ++ toString ordinal ++ " failed")))
  else c.inner.value ordinal

def read (c : FaultyCursor) : Except Error Bool × FaultyCursor :=
  if c.failRead = some c.reads then
    (.error (.cursor (.failed ("read " ++ toString c.reads ++ " failed"))), { c with reads := c.reads + 1 })
  else (.ok c.inner.read.1, { c with inner := c.inner.read.2, reads := c.reads + 1 })

theorem remaining_read (c : FaultyCursor) (h : c.read.1 = .ok true) :
    c.read.2.inner.remaining < c.inner.remaining := by
  unfold read at h ⊢
  split at h
  · cases h
  · rename_i hne
    rw [if_neg hne]
    exact c.inner.remaining_read (Except.ok.inj h)

instance : RowCursor FaultyCursor where
  fieldCount c := c.inner.names.length
  fieldName := fieldName
  fieldKind c ordinal := if c.hidesKinds then none else c.inner.fieldKind ordinal
  value := value
  read := read
  remaining c := c.inner.remaining
  remaining_read c h := c.remaining_read h

end FaultyCursor

end SqlMapping
