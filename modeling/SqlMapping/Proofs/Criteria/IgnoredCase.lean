import SqlMapping.Proofs.Criteria.Registration
import SqlMapping.Proofs.Dialect.TextLiterals
import SqlMapping.Proofs.Text.Pattern

/-!
# Patterns without regard to case

A dialect without `ilike` puts the operand and the pattern in lower case and leaves the escape character as it is.
`emulated_match_iff`: for every text this comes to a match without regard to case if and only if the lower case neither
brings an escape character into the pattern nor takes one away.
-/

namespace SqlMapping

open ParameterSet (ofValues)

/-! ## Pattern tests -/

/-- An operand of a test: SQL text that is given, or what `lower` makes of one. -/
inductive LikeOperand where
  | given (sql : String)
  | lower (operand : LikeOperand)

namespace LikeOperand

def sql : LikeOperand → String
  | .given sql => sql
  | .lower operand => "lower(" ++ operand.sql ++ ")"

def value (s : String) : LikeOperand → String
  | .given _ => s
  | .lower operand => foldCase (operand.value s)

end LikeOperand

structure LikeTest where
  operand : LikeOperand
  pattern : LikeOperand
  escape : Option Char
  /-- Whether the test is `ilike`. -/
  ignoresCase : Bool

/-- What tells the database the escape character: the character in a text literal, or nothing. -/
def Dialect.ReadsEscape (d : Dialect) : Option Char → String → Prop
  | none, clause => clause = ""
  | some c, clause => ∃ literal, clause = " escape " ++ literal ∧ d.readText literal = some (c.toString, "")

namespace LikeTest

/-- The text has both operands around the keyword, and the escape character behind them. -/
def WrittenAs (d : Dialect) (test : LikeTest) (sql : String) : Prop :=
  ∃ clause, d.ReadsEscape test.escape clause ∧
    sql = test.operand.sql ++ (if test.ignoresCase then " ilike " else " like ") ++ test.pattern.sql ++ clause

def holds (lenient : Bool) (test : LikeTest) (text pattern : String) : Bool :=
  matchesPattern lenient (if test.ignoresCase then sameLetter else (· == ·)) test.escape (test.pattern.value pattern)
    (test.operand.value text)

def native (operand pattern : String) (escape : Option Char) : LikeTest :=
  { operand := .given operand, pattern := .given pattern, escape, ignoresCase := true }

def emulated (operand pattern : String) (escape : Option Char) : LikeTest :=
  { operand := .lower (.given operand), pattern := .lower (.given pattern), escape, ignoresCase := false }

def ignoringCase (d : Dialect) (operand pattern : String) (escape : Option Char) : LikeTest :=
  if d.ilike then native operand pattern escape else emulated operand pattern escape

variable {operand pattern : String} {escape : Option Char}

theorem holds_native (lenient : Bool) (text p : String) :
    (native operand pattern escape).holds lenient text p = matchesPattern lenient sameLetter escape p text := rfl

theorem holds_emulated (lenient : Bool) (text p : String) :
    (emulated operand pattern escape).holds lenient text p = matchesLowered lenient escape p text := rfl

end LikeTest

/-! ## What is rendered -/

namespace RenderContext

variable (ctx : RenderContext)

/-- The SQL text stands for a text: as the place of a parameter that has it for its value, or as its literal. -/
def Denotes (ps : ParameterSet) (sql s : String) : Prop :=
  if ctx.parameterized then ∃ name, sql = ctx.dialect.parameter name ∧ ps.get? name = some (.string s)
  else ctx.dialect.readText sql = some (s, "")

variable {ctx}

theorem denotes_value (hd : ctx.dialect ∈ Dialect.builtIn) (es : List Expr) (s : String) :
    ∃ sql ps, ctx.value (.string s) (ctx.pass es) = (.ok sql, ps) ∧ ctx.Denotes ps sql s := by
  cases hctx : ctx.parameterized with
  | true =>
    obtain ⟨vs, hvs⟩ := pass_eq_ofValues hctx es
    refine ⟨ctx.dialect.parameter (generatedName vs.length), ofValues (vs ++ [.string s]), ?_, ?_⟩
    · simp [value, Value.isNull, hctx, Render.bind_apply, Render.register, hvs, ParameterSet.register_ofValues,
        Render.pure_apply]
    · rw [Denotes, if_pos hctx]
      exact ⟨_, rfl, ParameterSet.get?_ofValues.mpr (by simp [ofValues])⟩
  | false =>
    refine ⟨ctx.dialect.stringLiteral s, ctx.pass es, ?_, ?_⟩
    · simp only [value, Value.isNull, hctx]
      rfl
    · rw [Denotes, if_neg (by simp [hctx])]
      exact Dialect.readText_whole hd s

theorem readsEscape_escapeClause (hd : ctx.dialect ∈ Dialect.builtIn) (escape : Option Char) :
    ctx.dialect.ReadsEscape escape (ctx.escapeClause escape) := by
  cases escape with
  | none => rfl
  | some c => exact ⟨_, rfl, Dialect.readText_whole hd _⟩

theorem call_lower (hd : ctx.dialect ∈ Dialect.builtIn) (operand : String) :
    ctx.call "lower" [operand] = .ok (LikeOperand.given operand).lower.sql := by
  have hall : ∀ d ∈ Dialect.builtIn, d.function? "lower" = some (.standard "lower") := by decide
  rw [call, hall _ hd]
  rfl

theorem likeText_ignoringCase (hd : ctx.dialect ∈ Dialect.builtIn) (operand pattern : String) (escape : Option Char) :
    ∃ text, ctx.likeText operand pattern true = .ok text ∧
      (LikeTest.ignoringCase ctx.dialect operand pattern escape).WrittenAs ctx.dialect (text ++ ctx.escapeClause escape) := by
  have hclause := readsEscape_escapeClause hd escape
  unfold likeText LikeTest.ignoringCase
  cases ctx.dialect.ilike with
  | true => exact ⟨_, rfl, _, hclause, rfl⟩
  | false =>
    rw [call_lower hd operand, call_lower hd pattern]
    exact ⟨_, rfl, _, hclause, rfl⟩

end RenderContext

/-- Wherever the operand is rendered, the test is, with the decorated pattern for the value of what stands for it. The
test holds for the texts that match without regard to case if the lower case keeps the escape characters of the pattern,
as it does unless the escape character is a letter. In lower case it does not for some text, if the pattern is
well-formed and its escape characters are not kept. -/
theorem emulated_match_iff {ctx : RenderContext} (hd : ctx.dialect ∈ Dialect.builtIn) (before : List Expr) {e : Expr}
    {operand : String} {ps : ParameterSet} (he : e.render ctx (ctx.pass before) = (.ok operand, ps)) (pattern : String)
    (mode : MatchMode) (escape : Option Char) :
    let decorated := mode.decorate pattern
    ∃ p sql ps', (Expr.like e pattern mode escape true).render ctx (ctx.pass before) = (.ok sql, ps') ∧
      ctx.Denotes ps' p decorated ∧
      let test := LikeTest.ignoringCase ctx.dialect operand p escape
      test.WrittenAs ctx.dialect sql ∧
        ((∀ c ∈ escape, c.isAlpha = false) → EscapesKept escape decorated) ∧
        ∀ lenient,
          (EscapesKept escape decorated → ∀ text,
            test.holds lenient text decorated = matchesPattern lenient sameLetter escape decorated text) ∧
          (ctx.dialect.ilike = false → (readPattern false escape decorated.toList).isSome = true →
            (∀ text, test.holds lenient text decorated = matchesPattern lenient sameLetter escape decorated text) →
              EscapesKept escape decorated) := by
  intro decorated
  have hps : ps = ctx.pass (before ++ [e]) := by rw [pass_snoc, he]
  obtain ⟨p, ps', hvalue, hdenotes⟩ := RenderContext.denotes_value hd (before ++ [e]) decorated
  obtain ⟨text, htext, hwritten⟩ := RenderContext.likeText_ignoringCase hd operand p escape
  refine ⟨p, text ++ ctx.escapeClause escape, ps', ?_, hdenotes, hwritten,
    fun hescape => escapesKept_of_not_isAlpha hescape decorated, fun lenient => ⟨fun hkept s => ?_, fun hilike => ?_⟩⟩
  · rw [hps] at he
    simp only [Expr.render, Render.bind_apply, he]
    rw [hvalue]
    simp only [Render.ofExcept, htext, Render.pure_apply]
  · unfold LikeTest.ignoringCase
    split
    · exact LikeTest.holds_native lenient s decorated
    · exact (LikeTest.holds_emulated lenient s decorated).trans (matchesPattern_lowered hkept lenient s)
  · rw [LikeTest.ignoringCase, if_neg (by simp [hilike])]
    intro hformed hsame
    exact escapesKept_of_lowered hformed fun s => (LikeTest.holds_emulated lenient s decorated).symm.trans (hsame s)

/-- A percent sign that is escaped by an exclamation mark is matched as it is, and letters in any case. -/
theorem escaped_percent_matches_emulated :
    let ctx : RenderContext := { dialect := Dialect.mySql, parameterized := false }
    let discount : Expr := .like (.field "tag" none) "50!% off" .contains (some '!') true
    let sql := "lower(tag) like lower('%50!% off%') escape '!'"
    discount.render ctx (ctx.pass []) = (.ok sql, {}) ∧
      ∃ p, (LikeTest.emulated "tag" p (some '!')).WrittenAs Dialect.mySql sql ∧
        Dialect.mySql.readText p = some ("%50!% off%", "") ∧
        (LikeTest.emulated "tag" p (some '!')).holds false "Now 50% OFF!" "%50!% off%" = true ∧
        (LikeTest.emulated "tag" p (some '!')).holds false "Now 50 off" "%50!% off%" = false := by
  intro ctx discount sql
  have hd : ctx.dialect ∈ Dialect.builtIn := by simp [ctx, Dialect.builtIn]
  have he : (Expr.field "tag" none).render ctx (ctx.pass []) = (.ok "tag", {}) := rfl
  have hrender : discount.render ctx (ctx.pass []) = (.ok sql, {}) := Prod.ext (by decide) (by decide)
  obtain ⟨p, sql', ps', hrender', hdenotes, hwritten, hkept, hholds⟩ :=
    emulated_match_iff hd [] he "50!% off" .contains (some '!')
  obtain ⟨rfl, rfl⟩ : sql = sql' ∧ {} = ps' := by
    have hsame := Prod.mk.inj (hrender.symm.trans hrender')
    exact ⟨Except.ok.inj hsame.1, hsame.2⟩
  have hmatches := (hholds false).1 (hkept (by simp))
  refine ⟨hrender, p, hwritten, hdenotes, (hmatches _).trans (by decide), (hmatches _).trans (by decide)⟩

/-- In lower case the escape letter `E` is a letter like any other, and the percent sign behind it is a wildcard. The
escape letter `e` takes the place of a capital. -/
theorem escape_letter_not_kept :
    let ctx : RenderContext := { dialect := Dialect.ansi }
    let ten : Expr := .like (.field "name" none) "10E%" .exact (some 'E') true
    let east : Expr := .like (.field "name" none) "E" .startsWith (some 'e') true
    ten.render ctx (ctx.pass []) =
        (.ok "lower(name) like lower(:p_0) escape 'E'", ofValues [.string "10E%"]) ∧
      east.render ctx (ctx.pass []) =
        (.ok "lower(name) like lower(:p_0) escape 'e'", ofValues [.string "E%"]) ∧
      ∀ lenient,
        (matchesPattern lenient sameLetter (some 'E') "10E%" "10%" = true ∧
          (LikeTest.emulated "name" ":p_0" (some 'E')).holds lenient "10%" "10E%" = false) ∧
        matchesPattern lenient sameLetter (some 'e') "E%" "East" = true ∧
          (LikeTest.emulated "name" ":p_0" (some 'e')).holds lenient "East" "E%" = false := by
  intro ctx ten east
  refine ⟨Prod.ext (by decide) (by decide), Prod.ext (by decide) (by decide), fun lenient => ?_⟩
  cases lenient <;> decide

end SqlMapping
