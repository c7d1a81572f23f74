import SqlMapping.Proofs.Criteria.Inlined
import SqlMapping.Statement.Schema

/-!
# Literals in statements

The built-in dialects inline values in two places: in conditions rendered without parameters, and in the defaults of
columns. `literals_in_place`: wherever a value is inlined, it stands as one literal of its form that a reader takes
as it is, unless the value is a decimal whose text is no number, and another value changes nothing but the literal.
-/

namespace SqlMapping

namespace Table

variable {d : Dialect}

/-! ## One default in a statement -/

theorem exists_intercalate {sep : String} (hsep : Separator sep) (before after : List String) :
    ∃ front back, Closing back ∧ ∀ x, sep.intercalate (before ++ x :: after) = front ++ x ++ back := by
  obtain ⟨back, hback, hafter⟩ : ∃ back, Closing back ∧ ∀ x, sep.intercalate (x :: after) = x ++ back := by
    cases after with
    | nil =>
      exact ⟨"", closing_empty, fun x => by rw [String.intercalate_singleton, String.append_empty]⟩
    | cons y after =>
      refine ⟨sep ++ sep.intercalate (y :: after), hsep.closing.before hsep.ne _, fun x => ?_⟩
      rw [String.intercalate_cons_cons, String.append_assoc]
  by_cases hbefore : before = []
  · refine ⟨"", back, hback, fun x => ?_⟩
    rw [hbefore, List.nil_append, hafter, String.empty_append]
  · refine ⟨sep.intercalate before ++ sep, back, hback, fun x => ?_⟩
    rw [String.intercalate_append_of_ne_nil hbefore (List.cons_ne_nil x after), hafter, ← String.append_assoc]

def constraintTexts (c : Column) : String :=
  (if c.nullable then "" else " not null") ++ (if c.unique then " unique" else "") ++
    (match c.check with
      | some condition => " check (" ++ condition ++ ")"
      | none => "")

theorem closing_constraintTexts (c : Column) : Closing (constraintTexts c) := by
  unfold constraintTexts
  apply Closing.append
  · apply Closing.append
    · cases c.nullable <;> decide
    · cases c.unique <;> decide
  · cases c.check with
    | none => exact closing_empty
    | some condition =>
      have hword : Closing " check (" := by decide
      show Closing (" check (" ++ condition ++ ")")
      rw [String.append_assoc]
      exact hword.before (by decide) (condition ++ ")")

theorem columnText_withDefault {c : Column} (hc : c.isIdentity = false) {inlineKey : Bool} {text : String}
    (h : columnText d c inlineKey = .ok text) :
    ∃ front back, Opening front ∧ front ≠ "" ∧ Closing back ∧
      ∀ v, columnText d { c with default := some (.value v) } inlineKey =
        (d.literal v).map fun literal => front ++ literal ++ back := by
  cases hty : d.columnType c with
  | error e =>
    rw [columnText, if_neg (by simp [hc]), hty] at h
    cases h
  | ok ty =>
    have hdefault : Opening " default " := by decide
    refine ⟨d.quote c.name ++ " " ++ ty ++ " default ", constraintTexts c, hdefault.behind (by decide) _, by simp,
      closing_constraintTexts c, fun v => ?_⟩
    have hc' : ({ c with default := some (.value v) } : Column).isIdentity = false := hc
    have hty' : d.columnType { c with default := some (.value v) } = .ok ty := hty
    rw [columnText, if_neg (by simp [hc']), hty']
    cases hliteral : d.literal v with
    | error e => simp only [defaultText, hliteral, Except.map]
    | ok literal =>
      cases hcheck : c.check with
      | none => simp only [defaultText, hliteral, hcheck, Except.map, constraintTexts, String.append_assoc]
      | some condition => simp only [defaultText, hliteral, hcheck, Except.map, constraintTexts, String.append_assoc]

theorem columnTexts_withDefault {c : Column} (hc : c.isIdentity = false) {inlineKey : Bool} {after : List Column} :
    ∀ {before : List Column} {texts : List String}, columnTexts d inlineKey (before ++ c :: after) = .ok texts →
      ∃ as bs front back, Opening front ∧ front ≠ "" ∧ Closing back ∧
        ∀ v, columnTexts d inlineKey (before ++ { c with default := some (.value v) } :: after) =
          (d.literal v).map fun literal => as ++ (front ++ literal ++ back) :: bs := by
  intro before
  induction before with
  | nil =>
    intro texts h
    obtain ⟨text, bs, htext, hafter, -⟩ := columnTexts_cons_eq_ok_iff.mp h
    obtain ⟨front, back, hfront, hne, hback, hplaced⟩ := columnText_withDefault hc htext
    refine ⟨[], bs, front, back, hfront, hne, hback, fun v => ?_⟩
    rw [List.nil_append, columnTexts, hplaced, hafter]
    cases d.literal v <;> rfl
  | cons c' before ih =>
    intro texts h
    obtain ⟨text, rest, htext, hrest, -⟩ := columnTexts_cons_eq_ok_iff.mp h
    obtain ⟨as, bs, front, back, hfront, hne, hback, hplaced⟩ := ih hrest
    refine ⟨text :: as, bs, front, back, hfront, hne, hback, fun v => ?_⟩
    rw [List.cons_append, columnTexts, htext, hplaced]
    cases d.literal v <;> rfl

theorem hasInlineKey_withDefault {t : Table} {before after : List Column} {c : Column}
    (hcolumns : t.columns = before ++ c :: after) (hc : c.isIdentity = false) (default : Option DefaultValue) :
    ({ t with columns := before ++ { c with default } :: after } : Table).hasInlineKey d = t.hasInlineKey d := by
  have hidentity : ({ t with columns := before ++ { c with default } :: after } : Table).identityColumn? =
      t.identityColumn? := by
    have hc' : ¬ ({ c with default } : Column).isIdentity = true := by simp [Column.isIdentity] at hc ⊢; exact hc
    simp only [identityColumn?, hcolumns, List.find?_append, List.find?_cons_of_neg hc',
      List.find?_cons_of_neg (by simp [hc] : ¬ c.isIdentity = true)]
  simp only [hasInlineKey, hidentity]

/-- What a column defaults to is in one place of the statement, which is joined to nothing. -/
theorem createStatement_withDefault {t : Table} {before after : List Column} {c : Column}
    (hcolumns : t.columns = before ++ c :: after) (hc : c.isIdentity = false) {sql : String}
    (h : t.createStatement d = .ok sql) :
    ∃ front back, Opening front ∧ Closing back ∧
      ∀ v,
        ({ t with columns := before ++ { c with default := some (.value v) } :: after } : Table).createStatement d =
          (d.literal v).map fun literal => front ++ literal ++ back := by
  cases htexts : columnTexts d (t.hasInlineKey d) t.columns with
  | error e => rw [createStatement, htexts] at h; cases h
  | ok texts =>
    rw [hcolumns] at htexts
    obtain ⟨as, bs, front, back, hfront, hne, hback, hplaced⟩ := columnTexts_withDefault hc htexts
    have hcomma : Separator ", " := by decide
    obtain ⟨before', after', hafter', hlist⟩ := exists_intercalate hcomma as
      (bs ++ t.primaryKeyTexts d (t.hasInlineKey d) ++ t.uniqueKeys.map (uniqueKeyText d))
    refine ⟨"create table " ++ d.qualify t ++ " (" ++ before' ++ front, back ++ after' ++ ")", hfront.behind hne _,
      (hback.append hafter').append (by decide), fun v => ?_⟩
    rw [createStatement, hasInlineKey_withDefault hcolumns hc, hplaced]
    cases d.literal v with
    | error e => rfl
    | ok literal =>
      have hparts := hlist (front ++ literal ++ back)
      rw [← List.cons_append, ← List.cons_append, ← List.append_assoc, ← List.append_assoc] at hparts
      have hsql := congrArg (fun list => "create table " ++ d.qualify t ++ " (" ++ list ++ ")") hparts
      refine congrArg Except.ok (hsql.trans ?_)
      simp only [String.append_assoc]

end Table

/-! ## Both places -/

/-- In the built-in dialects a value is inlined as one literal of its form, which stands in its place joined to
nothing and is taken as it is by a reader that comes there, unless it is a decimal whose text is no number: in
conditions rendered without parameters, where these have placeholders with parameters, and in defaults. -/
theorem literals_in_place {d : Dialect} (hd : d ∈ Dialect.builtIn) :
    (∀ v text, d.literal v = .ok text →
      (d.readForm v.form text.toList = some [] ↔ v.ProperDecimal) ∧
        (v.ProperDecimal → ∀ rest, EndsOperand rest → d.readLiteral (text.toList ++ rest) = some rest)) ∧
      (∀ table (e : Expr) q, e.toQuery { dialect := d, table, parameterized := false } = .ok q →
        ∃ segments, q.sql = fillSegments (fun _ v => d.spelled v) segments ∧
          (∃ q', e.toQuery { dialect := d, table, parameterized := true } = .ok q' ∧
            q'.sql = fillSegments (fun p _ => d.parameter p) segments ∧
            ∀ p v, .hole p v ∈ segments → q'.params.get? p = some v) ∧
          ∀ before p v after, segments = before ++ .hole p v :: after →
            d.PlacesLiteral (fillSegments (fun _ v => d.spelled v) before) v
              (fillSegments (fun _ v => d.spelled v) after)) ∧
      ∀ (t : Table) before c after v sql, t.columns = before ++ c :: after → c.isIdentity = false →
        c.default = some (.value v) → t.createStatement d = .ok sql →
          ∃ front back, d.PlacesLiteral front v back ∧ sql = front ++ d.spelled v ++ back ∧
            ∀ w,
              ({ t with columns := before ++ { c with default := some (.value w) } :: after } : Table).createStatement d =
                (d.literal w).map fun literal => front ++ literal ++ back := by
  have hspells := Dialect.spellsLiterals_of_builtIn hd
  refine ⟨fun v text h => ⟨?_, fun hv rest => ?_⟩, fun table e q hq => inline_places hd hq, ?_⟩
  · exact Dialect.readForm_literal_iff hspells h
  · exact Dialect.readLiteral_literal hspells hv h
  · intro t before c after v sql hcolumns hc hv h
    obtain ⟨front, back, hfront, hback, hplaced⟩ := Table.createStatement_withDefault hcolumns hc h
    have hsame := hplaced v
    rw [← hv, ← hcolumns, h] at hsame
    cases hliteral : d.literal v with
    | error e => rw [hliteral] at hsame; cases hsame
    | ok literal =>
      rw [hliteral] at hsame
      have hspelled : d.spelled v = literal := by rw [Dialect.spelled, hliteral]
      refine ⟨front, back, placesLiteral hd ⟨literal, hliteral⟩ hfront hback, ?_, hplaced⟩
      rw [hspelled]
      exact Except.ok.inj hsame

/-- The backslash does not escape the apostrophe that closes the text. -/
theorem backslash_in_place :
    Dialect.mySql ∈ Dialect.builtIn ∧ (Value.string "a\\").ProperDecimal ∧
      Dialect.mySql.literal (.string "a\\") = .ok "'a\\\\'" ∧
      Dialect.mySql.readLiteral "'a\\\\' and b = 'c'".toList = some " and b = 'c'".toList := by
  have hd : Dialect.mySql ∈ Dialect.builtIn := by simp [Dialect.builtIn]
  have hproper : (Value.string "a\\").ProperDecimal := by
    intro s h
    cases h
  have hliteral : Dialect.mySql.literal (.string "a\\") = .ok "'a\\\\'" := by rfl
  have hrest : Closing " and b = 'c'" := by decide
  have hread := ((literals_in_place hd).1 _ _ hliteral).2 hproper " and b = 'c'".toList hrest
  exact ⟨hd, hproper, hliteral, hread⟩

/-- A decimal is inlined as the text it holds, which can bring in a condition of its own. -/
theorem decimal_adds_condition :
    Dialect.ansi ∈ Dialect.builtIn ∧ Dialect.ansi.literal (.decimal "1 or 1=1") = .ok "1 or 1=1" ∧
      (∀ form, Dialect.ansi.readForm form "1 or 1=1".toList ≠ some []) ∧
      Dialect.ansi.readLiteral "1 or 1=1".toList = some " or 1=1".toList ∧
      (Expr.compare (.field "id" none) .eq (.literal (.decimal "1 or 1=1"))).toQuery
        { dialect := Dialect.ansi, parameterized := false } = .ok ⟨"id = 1 or 1=1", {}⟩ := by
  refine ⟨List.mem_cons_self, by rfl, fun form => ?_, by rfl, by rfl⟩
  cases form <;> decide

end SqlMapping
