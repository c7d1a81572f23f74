import SqlMapping.Proofs.Row.Assign
import SqlMapping.Proofs.Row.Bindings

/-!
# The calls of a materializer

What a materializer reads of the row and asks of the type, in order. `assignments_follow_columns`: where columns are
assigned to members, they are read and assigned one after the other in their order, up to the first that fails.
-/

namespace SqlMapping

/-! ## Materializers with effects -/

/-- What a materializer calls, with any effects. -/
structure RowEffects (M : Type → Type) (α : Type) where
  construct : Nat → List Value → M α
  value : Nat → M Value
  assign : α → Nat → Value → M α

section
variable {M : Type → Type} [Monad M] [MonadExceptOf Error M] {α : Type}

def ColumnBinding.readFrom (b : ColumnBinding) (value : Nat → M Value) (typeName : String) : M Value := do
  let v ← value b.ordinal
  match b.type.convert? v with
  | some w => return w
  | none => throw (.conversion ⟨typeName, b.member, b.column, v.kind, b.type.display⟩)

def ColumnBinding.assignTo (b : ColumnBinding) (x : RowEffects M α) (typeName : String) (target : α) : M α := do
  let v ← b.readFrom x.value typeName
  x.assign target b.slot v

def Materializer.perform (p : Materializer) (x : RowEffects M α) : M α :=
  if p.viaParameters then do
    let args ← p.bindings.mapM fun b => b.readFrom x.value p.typeName
    x.construct p.constructor args
  else do
    let target ← x.construct p.constructor []
    p.bindings.foldlM (fun target b => b.assignTo x p.typeName target) target

end

namespace Materializer

variable {α : Type} (p : Materializer) (m : Mapping α) (row : RowReader)

theorem readFrom_eq_read (b : ColumnBinding) (typeName : String) : b.readFrom row typeName = b.read row typeName := by
  unfold ColumnBinding.readFrom ColumnBinding.read
  cases row b.ordinal with
  | error e => rfl
  | ok v =>
    simp only [bind, Except.bind]
    cases b.type.convert? v <;> rfl

theorem mapM_readFrom_eq (typeName : String) : ∀ bs : List ColumnBinding,
    (bs.mapM fun b => b.readFrom row typeName) = arguments row typeName bs
  | [] => rfl
  | b :: bs => by
    rw [List.mapM_cons, readFrom_eq_read, mapM_readFrom_eq typeName bs, arguments]
    cases b.read row typeName with
    | error e => rfl
    | ok v => cases arguments row typeName bs <;> rfl

theorem foldlM_assignTo_eq (typeName : String) : ∀ (bs : List ColumnBinding) (target : α),
    (bs.foldlM (fun target b => b.assignTo (M := Except Error) ⟨m.construct, row, m.assign⟩ typeName target) target) =
      assignAll m row typeName target bs
  | [], _ => rfl
  | b :: bs, target => by
    rw [List.foldlM_cons, ColumnBinding.assignTo, readFrom_eq_read, assignAll]
    cases b.read row typeName with
    | error e => rfl
    | ok v =>
      simp only [bind, Except.bind]
      cases m.assign target b.slot v with
      | error e => rfl
      | ok target => exact foldlM_assignTo_eq typeName bs target

/-- With no effects but failure this is the run of the materializer. -/
theorem perform_eq_run : p.perform (M := Except Error) ⟨m.construct, row, m.assign⟩ = p.run m row := by
  unfold perform run
  split
  · rw [mapM_readFrom_eq]
    cases arguments row p.typeName p.bindings <;> rfl
  · simp only [bind, Except.bind]
    cases m.construct p.constructor [] with
    | error e => rfl
    | ok target => exact foldlM_assignTo_eq m row p.typeName p.bindings target

end Materializer

/-! ## The calls -/

inductive RowCall where
  | construct (constructor : Nat) (args : List Value)
  | read (ordinal : Nat)
  | assign (slot : Nat) (v : Value)
  deriving DecidableEq

def RowCall.ordinal? : RowCall → Option Nat
  | .read ordinal => some ordinal
  | .construct .. | .assign .. => none

abbrev Logged : Type → Type := ExceptT Error (StateM (List RowCall))

namespace Logged

variable {β γ : Type}

def call (c : RowCall) (result : Except Error β) : Logged β := do
  modify (· ++ [c])
  liftExcept result

def after (x : Logged β) (calls : List RowCall) : Except Error β × List RowCall := (x.run).run calls

theorem after_bind (x : Logged β) (f : β → Logged γ) (calls : List RowCall) :
    (x >>= f).after calls = match x.after calls with
      | (.ok b, calls) => (f b).after calls
      | (.error e, calls) => (.error e, calls) := by
  unfold after
  rw [ExceptT.run_bind, StateT.run_bind]
  obtain ⟨_ | _, calls⟩ := x.run.run calls <;> rfl

theorem after_pure (b : β) (calls : List RowCall) : (pure b : Logged β).after calls = (.ok b, calls) := rfl

theorem after_call (c : RowCall) (result : Except Error β) (calls : List RowCall) :
    (call c result).after calls = (result, calls ++ [c]) := by
  cases result <;> rfl

def Gives (x : Logged β) (result : Except Error β) : Prop := ∀ calls, (x.after calls).1 = result

theorem gives_call (c : RowCall) (result : Except Error β) : (call c result).Gives result :=
  fun calls => by rw [after_call]

theorem Gives.bind {x : Logged β} {f : β → Logged γ} {result : Except Error β} {g : β → Except Error γ}
    (hx : x.Gives result) (hf : ∀ b, (f b).Gives (g b)) : (x >>= f).Gives (result >>= g) := by
  intro calls
  rw [after_bind, ← hx calls]
  obtain ⟨_ | b, calls⟩ := x.after calls
  · rfl
  · exact hf b calls

theorem Gives.mapM {δ : Type} {f : δ → Logged β} {g : δ → Except Error β} (h : ∀ d, (f d).Gives (g d)) :
    ∀ ds : List δ, (ds.mapM f).Gives (ds.mapM g)
  | [] => fun _ => rfl
  | d :: ds => by
    rw [List.mapM_cons, List.mapM_cons]
    exact (h d).bind fun b => (mapM h ds).bind fun bs _ => rfl

theorem Gives.foldlM {δ : Type} {f : β → δ → Logged β} {g : β → δ → Except Error β}
    (h : ∀ b d, (f b d).Gives (g b d)) : ∀ (ds : List δ) (b : β), (ds.foldlM f b).Gives (ds.foldlM g b)
  | [], b => fun _ => rfl
  | d :: ds, b => by
    rw [List.foldlM_cons, List.foldlM_cons]
    exact (h b d).bind fun b => foldlM h ds b

end Logged

section
variable {α : Type} (m : Mapping α) (row : RowReader)

def loggedEffects : RowEffects Logged α where
  construct constructor args := .call (.construct constructor args) (m.construct constructor args)
  value ordinal := .call (.read ordinal) (row ordinal)
  assign a slot v := .call (.assign slot v) (m.assign a slot v)

def Materializer.calls (p : Materializer) : List RowCall := (Logged.after (p.perform (loggedEffects m row)) []).2

theorem gives_readFrom (b : ColumnBinding) (typeName : String) :
    (b.readFrom (loggedEffects m row).value typeName).Gives (b.readFrom row typeName) := by
  refine (Logged.gives_call _ _).bind fun v => ?_
  cases b.type.convert? v <;> exact fun _ => rfl

/-- The calls leave the result of a run as it is. -/
theorem Materializer.gives_perform (p : Materializer) : (p.perform (loggedEffects m row)).Gives (p.run m row) := by
  rw [← perform_eq_run]
  unfold perform
  split
  · exact (Logged.Gives.mapM (fun b => gives_readFrom m row b _) _).bind fun args => Logged.gives_call _ _
  · refine (Logged.gives_call _ _).bind fun target => Logged.Gives.foldlM (fun target b => ?_) _ target
    exact (gives_readFrom m row b _).bind fun v => Logged.gives_call _ _

/-! ## Columns one after the other -/

/-- Columns, each with its converted value, and what becomes of an instance when these are assigned in turn. -/
structure Mapping.Assigned (a : α) (done : List (ColumnBinding × Value)) (b : α) : Prop where
  converted : ∀ x ∈ done, ∃ v, row x.1.ordinal = .ok v ∧ x.1.type.convert? v = some x.2
  assigned : m.assignFields a (done.map fun x => (x.1.slot, x.2)) = .ok b

/-- How a column fails, with the calls made for it: it cannot be read, its value cannot be converted, or the type
refuses the value. -/
inductive ColumnBinding.Fails (typeName : String) (b : ColumnBinding) (a : α) : Error → List RowCall → Prop where
  | unread {e : Error} (hread : row b.ordinal = .error e) : Fails typeName b a e [.read b.ordinal]
  | unconverted {v : Value} (hread : row b.ordinal = .ok v) (hconvert : b.type.convert? v = none) :
    Fails typeName b a (.conversion ⟨typeName, b.member, b.column, v.kind, b.type.display⟩) [.read b.ordinal]
  | refused {v w : Value} {e : Error} (hread : row b.ordinal = .ok v) (hconvert : b.type.convert? v = some w)
    (hassign : m.assign a b.slot w = .error e) : Fails typeName b a e [.read b.ordinal, .assign b.slot w]

def assignCalls (done : List (ColumnBinding × Value)) : List RowCall :=
  done.flatMap fun x => [.read x.1.ordinal, .assign x.1.slot x.2]

/-- Columns are read, converted and assigned one after the other, up to the first that fails. -/
inductive AssignedInTurn (typeName : String) (a : α) (bs : List ColumnBinding) : Except Error α → List RowCall → Prop where
  | all {done : List (ColumnBinding × Value)} {q : α} (hbs : bs = done.map Prod.fst) (hdone : m.Assigned row a done q) :
    AssignedInTurn typeName a bs (.ok q) (assignCalls done)
  | upTo {done : List (ColumnBinding × Value)} {b : ColumnBinding} {behind : List ColumnBinding} {a' : α} {e : Error}
    {failed : List RowCall} (hbs : bs = done.map Prod.fst ++ b :: behind) (hdone : m.Assigned row a done a')
    (hfails : b.Fails m row typeName a' e failed) :
    AssignedInTurn typeName a bs (.error e) (assignCalls done ++ failed)

end

section
variable {α : Type} {m : Mapping α} {row : RowReader} {typeName : String}

theorem Mapping.assignFields_cons (m : Mapping α) (a b : α) (f : Nat × Value) (fields : List (Nat × Value)) :
    m.assignFields a (f :: fields) = .ok b ↔
      ∃ a', m.assign a f.1 f.2 = .ok a' ∧ m.assignFields a' fields = .ok b := by
  rw [assignFields, List.foldlM_cons]
  cases m.assign a f.1 f.2 with
  | error e =>
    constructor
    · intro h
      cases h
    · intro h
      obtain ⟨_, h, -⟩ := h
      cases h
  | ok a' =>
    constructor
    · intro h
      exact ⟨a', rfl, h⟩
    · intro h
      obtain ⟨_, h, hrest⟩ := h
      cases h
      exact hrest

theorem Mapping.Assigned.nil (a : α) : m.Assigned row a [] a := ⟨by simp, rfl⟩

theorem Mapping.Assigned.cons {b : ColumnBinding} {v w : Value} {a a' q : α} {done : List (ColumnBinding × Value)}
    (hread : row b.ordinal = .ok v) (hconvert : b.type.convert? v = some w) (hassign : m.assign a b.slot w = .ok a')
    (h : m.Assigned row a' done q) : m.Assigned row a ((b, w) :: done) q := by
  refine ⟨List.forall_mem_cons.mpr ⟨⟨v, hread, hconvert⟩, h.converted⟩, ?_⟩
  exact (assignFields_cons m a q (b.slot, w) _).mpr ⟨a', hassign, h.assigned⟩

theorem AssignedInTurn.next {b : ColumnBinding} {bs : List ColumnBinding} {v w : Value} {a a' : α}
    {result : Except Error α} {calls : List RowCall} (hread : row b.ordinal = .ok v)
    (hconvert : b.type.convert? v = some w) (hassign : m.assign a b.slot w = .ok a')
    (h : AssignedInTurn m row typeName a' bs result calls) :
    AssignedInTurn m row typeName a (b :: bs) result (.read b.ordinal :: .assign b.slot w :: calls) := by
  cases h with
  | all hbs hdone => exact .all (congrArg (b :: ·) hbs) (hdone.cons hread hconvert hassign)
  | upTo hbs hdone hfails => exact .upTo (congrArg (b :: ·) hbs) (hdone.cons hread hconvert hassign) hfails

theorem AssignedInTurn.nil (a : α) : AssignedInTurn m row typeName a [] (.ok a) [] :=
  .all (List.map_nil (f := Prod.fst)).symm (.nil a)

theorem AssignedInTurn.of_fails {b : ColumnBinding} {a : α} {e : Error} {failed : List RowCall}
    (hfails : b.Fails m row typeName a e failed) (bs : List ColumnBinding) :
    AssignedInTurn m row typeName a (b :: bs) (.error e) failed :=
  .upTo (congrArg (· ++ b :: bs) (List.map_nil (f := Prod.fst)).symm) (.nil a) hfails

variable (m row typeName)

/-- A column is read, converted and assigned, or it fails. -/
theorem after_assignTo (b : ColumnBinding) (a : α) (calls : List RowCall) :
    (∃ v w a', row b.ordinal = .ok v ∧ b.type.convert? v = some w ∧ m.assign a b.slot w = .ok a' ∧
      Logged.after (b.assignTo (loggedEffects m row) typeName a) calls =
        (.ok a', calls ++ [.read b.ordinal, .assign b.slot w])) ∨
    ∃ e failed, b.Fails m row typeName a e failed ∧
      Logged.after (b.assignTo (loggedEffects m row) typeName a) calls = (.error e, calls ++ failed) := by
  have hvalue : (loggedEffects m row).value b.ordinal = Logged.call (.read b.ordinal) (row b.ordinal) := rfl
  have hassign : ∀ w, (loggedEffects m row).assign a b.slot w =
    Logged.call (.assign b.slot w) (m.assign a b.slot w) := fun _ => rfl
  simp only [ColumnBinding.assignTo, ColumnBinding.readFrom, Logged.after_bind, hvalue, hassign, Logged.after_call]
  cases hread : row b.ordinal with
  | error e => exact .inr ⟨e, _, .unread hread, rfl⟩
  | ok v =>
    dsimp only
    cases hconvert : b.type.convert? v with
    | none => exact .inr ⟨_, _, .unconverted hread hconvert, rfl⟩
    | some w =>
      simp only [Logged.after_pure]
      cases hresult : m.assign a b.slot w with
      | error e => exact .inr ⟨e, _, .refused hread hconvert hresult, by simp⟩
      | ok a' => exact .inl ⟨v, w, a', rfl, hconvert, hresult, by simp⟩

theorem after_foldlM_assignTo : ∀ (bs : List ColumnBinding) (a : α) (calls : List RowCall),
    ∃ result turns, AssignedInTurn m row typeName a bs result turns ∧
      Logged.after (bs.foldlM (fun target b => b.assignTo (loggedEffects m row) typeName target) a) calls =
        (result, calls ++ turns)
  | [], a, calls => ⟨_, _, .nil a, by simp [Logged.after_pure]⟩
  | b :: bs, a, calls => by
    rw [List.foldlM_cons, Logged.after_bind]
    obtain ⟨v, w, a', hread, hconvert, hassign, hstep⟩ | ⟨e, failed, hfails, hstep⟩ :=
      after_assignTo m row typeName b a calls
    · obtain ⟨result, turns, hturns, hrest⟩ := after_foldlM_assignTo bs a' (calls ++ [.read b.ordinal, .assign b.slot w])
      rw [hstep]
      exact ⟨result, _, hturns.next hread hconvert hassign, hrest.trans (by simp)⟩
    · rw [hstep]
      exact ⟨_, _, .of_fails hfails bs, rfl⟩

/-- The instance is made without arguments, and then the columns are assigned in turn. -/
theorem Materializer.run_assignments (m : Mapping α) (row : RowReader) {p : Materializer}
    (hp : p.viaParameters = false) :
    ∃ turns, p.calls m row = .construct p.constructor [] :: turns ∧
      ((∃ e, m.construct p.constructor [] = .error e ∧ p.run m row = .error e ∧ turns = []) ∨
        ∃ a, m.construct p.constructor [] = .ok a ∧
          AssignedInTurn m row p.typeName a p.bindings (p.run m row) turns) := by
  have hconstruct : (loggedEffects m row).construct p.constructor [] =
    Logged.call (.construct p.constructor []) (m.construct p.constructor []) := rfl
  have hresult := p.gives_perform m row []
  unfold calls
  unfold perform at hresult ⊢
  rw [hp, if_neg Bool.false_ne_true, Logged.after_bind, hconstruct, Logged.after_call, List.nil_append] at hresult ⊢
  cases hmade : m.construct p.constructor [] with
  | error e =>
    rw [hmade] at hresult
    exact ⟨[], rfl, .inl ⟨e, rfl, hresult.symm, rfl⟩⟩
  | ok a =>
    rw [hmade] at hresult
    obtain ⟨result, turns, hturns, hafter⟩ :=
      after_foldlM_assignTo m row p.typeName p.bindings a [.construct p.constructor []]
    dsimp only at hresult ⊢
    rw [hafter] at hresult ⊢
    exact ⟨turns, rfl, .inr ⟨a, rfl, hresult ▸ hturns⟩⟩

end

/-! ## What the instance shows -/

namespace Mapping

variable {α : Type}

def Shows (m : Mapping α) (shown : Nat → Value → Except Error Value) : Prop :=
  ∀ a i v b, m.assign a i v = .ok b → m.memberValue b i = shown i v ∧ ∀ j ≠ i, m.memberValue b j = m.memberValue a j

variable {m : Mapping α} {shown : Nat → Value → Except Error Value}

theorem Shows.assignFields_of_ne (hm : m.Shows shown) {j : Nat} : ∀ {fields : List (Nat × Value)} {a b : α},
    m.assignFields a fields = .ok b → (∀ f ∈ fields, f.1 ≠ j) → m.memberValue b j = m.memberValue a j
  | [], a, b, h, _ => by cases h; rfl
  | f :: fields, a, b, h, hj => by
    obtain ⟨a', hassign, hrest⟩ := (assignFields_cons m a b f fields).mp h
    obtain ⟨hf, hfields⟩ := List.forall_mem_cons.mp hj
    exact (hm.assignFields_of_ne hrest hfields).trans ((hm a f.1 f.2 a' hassign).2 j hf.symm)

/-- The last of several fields of one member is the one that is shown. -/
theorem Shows.assignFields_last (hm : m.Shows shown) {f : Nat × Value} {behind : List (Nat × Value)}
    (hlast : ∀ g ∈ behind, g.1 ≠ f.1) : ∀ {before : List (Nat × Value)} {a b : α},
      m.assignFields a (before ++ f :: behind) = .ok b → m.memberValue b f.1 = shown f.1 f.2
  | [], a, b, h => by
    obtain ⟨a', hassign, hrest⟩ := (assignFields_cons m a b f behind).mp h
    exact (hm.assignFields_of_ne hrest hlast).trans (hm a f.1 f.2 a' hassign).1
  | g :: before, a, b, h => by
    obtain ⟨a', -, hrest⟩ := (assignFields_cons m a b g (before ++ f :: behind)).mp h
    exact hm.assignFields_last hlast hrest

end Mapping

/-- What a member of a record shows of a value: as its place stores it, unless it is not readable. -/
def RecordType.shown (t : RecordType) (member : Nat) (v : Value) : Except Error Value :=
  match t.members[member]? with
  | some m => if m.readable then store m.storage v else .error (.invalidArgument (.unreadableMember member))
  | none => .ok v

theorem RecordType.shows (t : RecordType) : t.mapping.Shows t.shown := by
  have hassigned : ∀ {r r' : Record} {i : Nat} {v : Value} {stored : Except Error Value},
      stored.map (fun w => { r with values := r.values.insert i w, assigned := r.assigned ++ [i] }) = .ok r' →
        ∃ w, stored = .ok w ∧ r'.value i = w ∧ ∀ j ≠ i, r'.value j = r.value j := by
    intro r r' i v stored h
    cases stored with
    | error e => cases h
    | ok w =>
      cases h
      refine ⟨w, rfl, ?_, fun j hj => ?_⟩
      · simp only [Record.value, Keyed.find?_insert_self, Option.getD_some]
      · simp only [Record.value, Keyed.find?_insert_of_ne _ w hj]
  intro r i v r' h
  obtain ⟨w, hstored, hvalue, hother⟩ := hassigned (v := v) (show t.assign r i v = .ok r' from h)
  refine ⟨?_, fun j hj => ?_⟩
  · simp only [mapping, memberValue, shown, hvalue]
    cases hm : t.members[i]? with
    | some m =>
      rw [hm] at hstored
      simp only [hstored]
    | none =>
      rw [hm] at hstored
      cases hstored
      rfl
  · simp only [mapping, memberValue, hother j hj]

/-! ## Assignments in the order of the columns -/

section
variable {α : Type} {m : Mapping α} {row : RowReader} {typeName : String} {a : α} {bs : List ColumnBinding}

theorem ordinals_assignCalls (done : List (ColumnBinding × Value)) :
    (assignCalls done).filterMap RowCall.ordinal? = (done.map Prod.fst).map ColumnBinding.ordinal := by
  induction done with
  | nil => rfl
  | cons x done ih => exact congrArg (x.1.ordinal :: ·) ih

theorem ColumnBinding.Fails.ordinals {b : ColumnBinding} {e : Error} {failed : List RowCall}
    (h : b.Fails m row typeName a e failed) : failed.filterMap RowCall.ordinal? = [b.ordinal] := by
  cases h <;> rfl

/-- The ordinals that are read are those of the first columns. -/
theorem AssignedInTurn.ordinals_prefix {result : Except Error α} {calls : List RowCall}
    (h : AssignedInTurn m row typeName a bs result calls) :
    calls.filterMap RowCall.ordinal? <+: bs.map ColumnBinding.ordinal := by
  cases h with
  | all hbs hdone =>
    exact ⟨[], by rw [List.append_nil, ordinals_assignCalls, hbs]⟩
  | upTo hbs hdone hfails =>
    rw [List.filterMap_append, ordinals_assignCalls, hfails.ordinals, hbs, List.map_append, List.map_cons]
    exact ⟨_, by rw [List.append_assoc]; rfl⟩

theorem AssignedInTurn.last_shown {q : α} {calls : List RowCall} {shown : Nat → Value → Except Error Value}
    (h : AssignedInTurn m row typeName a bs (.ok q) calls) (hm : m.Shows shown)
    (hordered : bs.Pairwise fun b b' => b.ordinal < b'.ordinal) {b : ColumnBinding} (hb : b ∈ bs)
    (hlast : ∀ b' ∈ bs, b'.slot = b.slot → b'.ordinal ≤ b.ordinal) {v w : Value} (hread : row b.ordinal = .ok v)
    (hconvert : b.type.convert? v = some w) : m.memberValue q b.slot = shown b.slot w := by
  cases h with
  | @all done _ hbs hdone =>
    subst hbs
    obtain ⟨⟨b, w'⟩, hmem, rfl⟩ := List.mem_map.mp hb
    obtain ⟨v', hread', hconvert'⟩ := hdone.converted _ hmem
    cases hread.symm.trans hread'
    cases hconvert.symm.trans hconvert'
    obtain ⟨before, behind, rfl⟩ := List.append_of_mem hmem
    have hassigned := hdone.assigned
    rw [List.map_append, List.map_cons] at hassigned
    refine hm.assignFields_last (fun g hg heq => ?_) hassigned
    -- a later column of the member would have a greater ordinal
    obtain ⟨y, hy, rfl⟩ := List.mem_map.mp hg
    have hle := hlast y.1 (List.mem_map_of_mem (List.mem_append_right before (List.mem_cons_of_mem _ hy))) heq
    rw [List.map_append, List.map_cons] at hordered
    have hlt := (List.pairwise_cons.mp (List.pairwise_append.mp hordered).2.1).1 y.1 (List.mem_map_of_mem hy)
    exact absurd hle (Nat.not_le.mpr hlt)

theorem AssignedInTurn.memberValue_of_ne {q : α} {calls : List RowCall} {shown : Nat → Value → Except Error Value}
    (h : AssignedInTurn m row typeName a bs (.ok q) calls) (hm : m.Shows shown) {slot : Nat}
    (hslot : ∀ b ∈ bs, b.slot ≠ slot) : m.memberValue q slot = m.memberValue a slot := by
  cases h with
  | all hbs hdone =>
    refine hm.assignFields_of_ne hdone.assigned fun f hf => ?_
    obtain ⟨x, hx, rfl⟩ := List.mem_map.mp hf
    exact hslot x.1 (hbs ▸ List.mem_map_of_mem hx)

end

/-- Where columns are assigned to members, the instance is made without arguments, and then each column that resolves to
a member is read, converted and assigned, in the order of the columns. If one fails, nothing behind it is read or
assigned, and the error is its own: that of the row or of the type, or one that names the column and its member. Of
several columns of one member the last is shown, and members without a column stay as they were made. -/
theorem assignments_follow_columns {α : Type} {m : Mapping α} {shape : RowShape} {table : Option Table}
    {config : MapperConfig} {p : Materializer} (h : m.info.AssignsMembers shape table)
    (hp : m.info.compile shape table config = .ok p) (row : RowReader) :
    (∀ b, b ∈ p.bindings ↔ m.info.Binds config table shape.names b) ∧
    (p.bindings.Pairwise fun b b' => b.ordinal < b'.ordinal) ∧
    ∃ constructor turns, m.info.parameterless? = some constructor ∧
      p.calls m row = .construct constructor [] :: turns ∧ (turns.filterMap RowCall.ordinal?).Pairwise (· < ·) ∧
      ((∃ e, m.construct constructor [] = .error e ∧ p.run m row = .error e ∧ turns = []) ∨
        ∃ a, m.construct constructor [] = .ok a ∧
          AssignedInTurn m row m.info.name a p.bindings (p.run m row) turns ∧
          ∀ q, p.run m row = .ok q → ∀ shown, m.Shows shown →
            (∀ b ∈ p.bindings, (∀ b' ∈ p.bindings, b'.slot = b.slot → b'.ordinal ≤ b.ordinal) →
              ∀ v w, row b.ordinal = .ok v → b.type.convert? v = some w → m.memberValue q b.slot = shown b.slot w) ∧
            ∀ slot, (∀ b ∈ p.bindings, b.slot ≠ slot) → m.memberValue q slot = m.memberValue a slot) := by
  obtain ⟨-, constructor, hconstructor, rfl⟩ := (TypeInfo.compile_assignments_ok_iff h).mp hp
  have hordered := @m.info.pairwise_columnBindings config table shape.names
  refine ⟨fun b => TypeInfo.mem_columnBindings_iff, hordered, constructor, ?_⟩
  obtain ⟨turns, hcalls, hends⟩ := Materializer.run_assignments m row
    (p := ⟨m.info.name, constructor, false, m.info.columnBindings config table shape.names⟩) rfl
  refine ⟨turns, hconstructor, hcalls, ?_, ?_⟩
  · obtain ⟨_, -, -, rfl⟩ | ⟨a, -, hturns⟩ := hends
    · exact .nil
    · exact (List.pairwise_map.mpr hordered).sublist hturns.ordinals_prefix.sublist
  · refine hends.imp_right fun ⟨a, hmade, hturns⟩ => ⟨a, hmade, hturns, fun q hq shown hm => ?_⟩
    rw [hq] at hturns
    exact ⟨fun b hb hlast v w => hturns.last_shown hm hordered hb hlast, fun slot => hturns.memberValue_of_ne hm⟩

def parcel : RecordType :=
  { name := "Parcel"
    members := [{ name := "weight", type := .primitive .int64, storage := .uint8 },
      { name := "note", type := .primitive .string }]
    constructors := [{}] }

def parcelRow (names : List String) (values : List Value) : MemoryCursor :=
  ((MemoryCursor.ofNames names).withRow values).read.2

/-- Of two columns for the weight, in different case, the second is kept; there is no column for the note. -/
theorem second_weight_kept :
    let shape := RowShape.ofNames ["Weight", "weight", "stop"]
    let row := (parcelRow ["Weight", "weight", "stop"] [.int32 3, .string "4", .null]).value
    parcel.info.AssignsMembers shape none ∧ ∃ p q, parcel.info.compile shape none {} = .ok p ∧
      p.run parcel.mapping row = .ok q ∧ parcel.memberValue q 0 = .ok (.uint8 4) ∧
      parcel.memberValue q 1 = .ok .null := by
  intro shape row
  have h : parcel.info.AssignsMembers shape none := ⟨rfl, rfl⟩
  have hp : parcel.info.compile shape none {} =
    .ok ⟨"Parcel", 0, false, [⟨0, "Weight", 0, "weight", .primitive .int64⟩,
      ⟨1, "weight", 0, "weight", .primitive .int64⟩]⟩ := by rfl
  have hrun : ∃ q, Materializer.run ⟨"Parcel", 0, false, [⟨0, "Weight", 0, "weight", .primitive .int64⟩,
      ⟨1, "weight", 0, "weight", .primitive .int64⟩]⟩ parcel.mapping row = .ok q := ⟨_, rfl⟩
  obtain ⟨q, hq⟩ := hrun
  obtain ⟨-, -, _, _, hconstructor, -, -, hends⟩ := assignments_follow_columns (m := parcel.mapping) h hp row
  cases hconstructor
  obtain ⟨e, hmade, -, -⟩ | ⟨a, hmade, -, hshown⟩ := hends
  · cases hmade
  · cases hmade
    obtain ⟨hlast, hothers⟩ := hshown q hq parcel.shown parcel.shows
    refine ⟨h, _, q, hp, hq, ?_, ?_⟩
    · exact hlast ⟨1, "weight", 0, "weight", .primitive .int64⟩ (by simp) (by simp) (.string "4") (.int64 4) rfl rfl
    · exact hothers 1 (by simp)

/-- A weight that the parcel refuses, and one that the cursor does not give: the errors name neither column nor member. -/
theorem refusals_name_no_column :
    let shape := RowShape.ofNames ["weight"]
    let heavy := parcelRow ["weight"] [.int64 300]
    let faulty : FaultyCursor := { inner := heavy, failValue := some (0, 0) }
    parcel.info.AssignsMembers shape none ∧ ∃ p, parcel.info.compile shape none {} = .ok p ∧
      p.run parcel.mapping heavy.value = .error (.value (.outOfRange .int64 300 "u8")) ∧
      p.run parcel.mapping faulty.value = .error (.cursor (.failed "value 0 failed")) ∧
      (Error.value (.outOfRange .int64 300 "u8")).message =
        "value error: Int64 value 300 is out of range for u8" ∧
      (Error.cursor (.failed "value 0 failed")).message = "cursor error: value 0 failed" := by
  intro shape heavy faulty
  exact ⟨⟨rfl, rfl⟩, _, rfl, rfl, rfl, rfl, rfl⟩

end SqlMapping
