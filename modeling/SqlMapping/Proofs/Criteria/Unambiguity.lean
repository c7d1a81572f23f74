import SqlMapping.Criteria.Query
import SqlMapping.Proofs.Criteria.Reading

/-!
# Conditions of the same text

`rendered_alike_mean_alike`: in the built-in dialects, conditions over a table that are grouped from the left
mean the same on every row if they are rendered to the same text with the same parameters.
`text_hides_grouping` shows what becomes of others.
-/

namespace SqlMapping

open ParameterSet (ofValues)

namespace Reader

variable {α : Type} {m : Meaning α} {d : Dialect} {t : Table}

def ofTable (m : Meaning α) (d : Dialect) (t : Table) (values : List Value) : Reader α where
  meaning := m
  named name :=
    match t.columns.find? fun c => d.quote c.name == d.quoteBare name with
    | some c => m.column c.name
    | none => m.literal .null
  parameter n := m.literal (values[n]?.getD .null)
  parenthesized := d.parenthesizeNot

theorem find?_of_nodup_map {β γ : Type} [DecidableEq γ] {f : β → γ} {b : β} {bs : List β} (hbs : (bs.map f).Nodup)
    (hb : b ∈ bs) : bs.find? (fun b' => f b' == f b) = some b := by
  cases hfind : bs.find? fun b' => f b' == f b with
  | none => simpa using List.find?_eq_none.mp hfind b hb
  | some b' =>
    have hsame : f b' = f b := by simpa using List.find?_some hfind
    rw [List.inj_on_of_nodup_map hbs (List.mem_of_find?_eq_some hfind) hb hsame]

theorem fits_ofTable (hnames : (t.columns.map fun c => d.quote c.name).Nodup) (values : List Value) :
    (ofTable m d t values).Fits d t where
  parenthesized := rfl
  named {name c} hc := by
    have hfind := find?_of_nodup_map hnames (List.mem_of_find?_eq_some hc)
    have hquote : d.quoteBare (bareName c.name) = d.quote c.name := rfl
    simp only [ofTable, hquote, hfind]

theorem has_ofTable (values : List Value) : (ofTable m d t values).Has 0 values := by
  intro i v hv
  simp [ofTable, hv]

theorem read_tokens {r : Reader α} (hr : r.Fits d t) {e : Expr} (h : e.isCondition t = true)
    (hg : e.isGrouped d = true) (hslots : r.Has 0 e.slots) :
    r.read (e.tokens d t 0) = some (e.meaning r.meaning t) := by
  obtain ⟨s, hrun, hsettled, _⟩ := reads_tokens hr e 0 [] h hg hslots (.inr fun _ => rfl)
  rw [read, hrun, Option.bind_some, hsettled]
  rfl

end Reader

section
variable {d : Dialect} {t : Table} {e e' : Expr}

theorem toQuery_of_isCondition (h : e.isCondition t = true) :
    e.toQuery { dialect := d, table := some t } = .ok ⟨spell d (e.tokens d t 0), ofValues e.slots⟩ := by
  have := yields_tokens (d := d) e 0 h [] rfl
  rw [ParameterSet.ofValues_nil, List.nil_append] at this
  simp only [Expr.toQuery, Render.toQuery, this]

theorem ofValues_entries_inj {vs ws : List Value} (h : (ofValues vs).entries = (ofValues ws).entries) : vs = ws := by
  rw [← ParameterSet.values_ofValues vs, h, ParameterSet.values_ofValues]

/-- Conditions with the same text and parameters have the same meaning, whatever their parts mean. -/
theorem meaning_eq_of_spell_eq {α : Type} (m : Meaning α) {mark : Char} (hd : d.TellsTokens mark)
    (hnames : (t.columns.map fun c => d.quote c.name).Nodup) (h : e.isCondition t = true)
    (h' : e'.isCondition t = true) (hg : e.isGrouped d = true) (hg' : e'.isGrouped d = true)
    (hspell : spell d (e.tokens d t 0) = spell d (e'.tokens d t 0)) (hslots : e.slots = e'.slots) :
    e.meaning m t = e'.meaning m t := by
  have hspaced : ∀ {e : Expr}, e.isCondition t = true → Spaced (e.tokens d t 0) := by
    intro e he
    simpa using spaced_tokens (d := d) e 0 he continues_nil
  have htokens := spell_inj hd (hspaced h) (hspaced h') hspell
  have hr := Reader.fits_ofTable (m := m) hnames e.slots
  have hread := Reader.read_tokens hr h hg (Reader.has_ofTable _)
  have hread' := Reader.read_tokens hr h' hg' (hslots ▸ Reader.has_ofTable _)
  rw [htokens, hread'] at hread
  exact (Option.some.inj hread).symm

end

def Expr.holds (i : Interpretation) (t : Table) (row : String → Value) (e : Expr) : Truth :=
  i.truthOf (e.meaning (i.onRow row) t)

/-- In a built-in dialect, over a table whose columns are quoted to different names, every condition is rendered
with parameters. Two conditions that are grouped from the left and are rendered to the same text with the same
parameters are both true, both false or both neither on each row, however values are compared. -/
theorem rendered_alike_mean_alike {d : Dialect} (hd : d ∈ Dialect.builtIn) {t : Table}
    (hnames : (t.columns.map fun c => d.quote c.name).Nodup) :
    let ctx : RenderContext := { dialect := d, table := some t }
    (∀ e : Expr, e.isCondition t = true → ∃ q, e.toQuery ctx = .ok q) ∧
      ∀ (e e' : Expr) (q q' : Query), e.isCondition t = true → e'.isCondition t = true →
        e.isGrouped d = true → e'.isGrouped d = true → e.toQuery ctx = .ok q → e'.toQuery ctx = .ok q' →
        q.sql = q'.sql → q.params.entries = q'.params.entries →
        ∀ (i : Interpretation) (row : String → Value), e.holds i t row = e'.holds i t row := by
  intro ctx
  obtain ⟨mark, htells⟩ := Dialect.tellsTokens_of_builtIn hd
  refine ⟨fun e h => ⟨_, toQuery_of_isCondition h⟩, ?_⟩
  intro e e' q q' h h' hg hg' hq hq' hsql hparams i row
  rw [toQuery_of_isCondition h] at hq
  rw [toQuery_of_isCondition h'] at hq'
  obtain rfl := Except.ok.inj hq
  obtain rfl := Except.ok.inj hq'
  have hslots := ofValues_entries_inj hparams
  rw [Expr.holds, Expr.holds, meaning_eq_of_spell_eq (i.onRow row) htells hnames h h' hg hg' hsql hslots]

def plainInterpretation : Interpretation where
  compare op v w := if op = .eq then some (v == w) else none
  truth _ := none

def accountTable : Table :=
  { name := .plain "account",
    columns := [{ name := "flag", type := .boolean, nullable := true }, { name := "name", type := .string }] }

/-- A conjunction of two conditions is rendered like a junction of both, and both are true on the same row. -/
theorem logical_means_junction :
    let ctx : RenderContext := { dialect := Dialect.ansi, table := some accountTable }
    let flag : Expr := .compare (.field "flag" none) .eq (.literal (.bool true))
    let named : Expr := .isNull (.field "name" none) true
    let row : String → Value := fun column => if column = "flag" then .bool true else .string "Ada"
    (Expr.logical flag .and named).toQuery ctx = (Expr.junction .and [flag, named]).toQuery ctx ∧
      (Expr.logical flag .and named).holds plainInterpretation accountTable row =
        (Expr.junction .and [flag, named]).holds plainInterpretation accountTable row := by
  intro ctx flag named row
  have hsame : (Expr.logical flag .and named).toQuery ctx = (Expr.junction .and [flag, named]).toQuery ctx := by decide
  have hansi : Dialect.ansi ∈ Dialect.builtIn := List.mem_cons_self
  have hnames : (accountTable.columns.map fun c => Dialect.ansi.quote c.name).Nodup := by decide
  obtain ⟨hrendered, halike⟩ := rendered_alike_mean_alike hansi hnames
  obtain ⟨q, hq⟩ := hrendered (.logical flag .and named) (by decide)
  refine ⟨hsame, ?_⟩
  exact halike _ _ q q (by decide) (by decide) (by decide) (by decide) hq (hsame ▸ hq) rfl rfl plainInterpretation row

/-- Two pairs of conditions with one text and the same parameters each, which differ where the column is null: a
negation of a null test and a null test of a negation, and fields of two columns that are quoted alike. -/
theorem text_hides_grouping :
    let column : Column := { name := "flag", type := .boolean, nullable := true }
    let table : Table := { name := .plain "account", columns := [column, { column with name := "\"flag\"" }] }
    let ctx : RenderContext := { dialect := Dialect.ansi, table := some table }
    let flag : Expr := .field "flag" none
    let quoted : Expr := .field "\"flag\"" none
    let row : String → Value := fun column => if column = "flag" then .null else .bool true
    let holds := Expr.holds plainInterpretation table row
    table.build = .ok table ∧
      (Expr.not (.isNull flag false)).toQuery ctx = (Expr.isNull (.not flag) false).toQuery ctx ∧
      holds (.not (.isNull flag false)) ≠ holds (.isNull (.not flag) false) ∧
      flag.toQuery ctx = quoted.toQuery ctx ∧ holds flag ≠ holds quoted := by
  decide

end SqlMapping
