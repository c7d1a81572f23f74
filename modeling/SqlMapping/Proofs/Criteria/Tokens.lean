import SqlMapping.Proofs.Criteria.Meaning
import SqlMapping.Proofs.Criteria.Spelling

/-!
# Conditions as tokens

The tokens of a condition, whose parameters are numbered on from those there are already. `yields_tokens`:
with parameters, a condition is always rendered, and to the text of its tokens.
-/

namespace SqlMapping

open ParameterSet (ofValues)

def bareName (name : String) : String := (stripQuotes name).getD name

def fieldTokens (t : Table) (name : String) (qualifier : Option String) : List Token :=
  match t.column? name with
  | some c => (qualifier.map fun q => Token.qualifier (bareName q)).toList ++ [.name (bareName c.name)]
  | none => []

mutual

def Expr.tokens (d : Dialect) (t : Table) (n : Nat) : Expr → List Token
  | .field name qualifier => fieldTokens t name qualifier
  | .literal v => if v.isNull then [.word .null] else [.parameter n]
  | .compare left op right =>
    match RenderContext.nullComparison? op right with
    | some negated => Expr.tokens d t n left ++ [.word (.nullTest negated)]
    | none => Expr.tokens d t n left ++ .word (.compare op) :: Expr.tokens d t (n + left.slots.length) right
  | .logical left op right =>
    .word .opening :: (Expr.tokens d t n left ++
      .word (.junctor op) :: (Expr.tokens d t (n + left.slots.length) right ++ [.word .closing]))
  | .junction _ [] => [.word (.truth true)]
  | .junction op (e :: es) =>
    .word .opening :: (Expr.tokens d t n e ++
      (Expr.tokensAfter d t (.junctor op) (n + e.slots.length) es ++ [.word .closing]))
  | .not expr =>
    .word .negation :: (Expr.tokens d t n expr ++ if d.parenthesizeNot then [.word .closing] else [])
  | .isNull expr negated => Expr.tokens d t n expr ++ [.word (.nullTest negated)]
  | .between expr low high =>
    Expr.tokens d t n expr ++ .word .between :: (Expr.tokens d t (n + expr.slots.length) low ++
      .word (.junctor .and) :: Expr.tokens d t (n + expr.slots.length + low.slots.length) high)
  | .inList _ [] negated => [.word (.truth negated)]
  | .inList expr (v :: vs) negated =>
    Expr.tokens d t n expr ++ .word (.member negated) :: (Expr.tokens d t (n + expr.slots.length) v ++
      (Expr.tokensAfter d t .comma (n + expr.slots.length + v.slots.length) vs ++ [.word .closing]))
  | _ => []

def Expr.tokensAfter (d : Dialect) (t : Table) (separator : Keyword) (n : Nat) : List Expr → List Token
  | [] => []
  | e :: es =>
    .word separator :: (Expr.tokens d t n e ++ Expr.tokensAfter d t separator (n + e.slots.length) es)

end

/-! ## Rendering -/

/-- After `n` generated parameters, the computation succeeds with a result and registers the values. -/
def Yields {α : Type} (n : Nat) (r : Render α) (ws : List Value) (a : α) : Prop :=
  ∀ vs : List Value, vs.length = n → r (ofValues vs) = (.ok a, ofValues (vs ++ ws))

theorem yields_pure {α : Type} (n : Nat) (a : α) : Yields n (pure a) [] a := by
  intro vs _
  rw [Render.pure_apply, List.append_nil]

theorem Yields.bind {α β : Type} {n : Nat} {r : Render α} {f : α → Render β} {ws ws' : List Value} {a : α} {b : β}
    (hr : Yields n r ws a) (hf : Yields (n + ws.length) (f a) ws' b) : Yields n (r >>= f) (ws ++ ws') b := by
  intro vs hvs
  rw [Render.bind_apply, hr vs hvs]
  have := hf (vs ++ ws) (by rw [List.length_append, hvs])
  rwa [List.append_assoc] at this

theorem Yields.map {α β : Type} {n : Nat} {r : Render α} {ws : List Value} {a : α} (hr : Yields n r ws a) (f : α → β) :
    Yields n (r >>= fun a => pure (f a)) ws (f a) := by
  have hpure : Yields (n + ws.length) (pure (f a)) [] (f a) := yields_pure _ _
  have := hr.bind (f := fun a => pure (f a)) hpure
  rwa [List.append_nil] at this

theorem yields_value {ctx : RenderContext} (hctx : ctx.parameterized = true) (n : Nat) (v : Value) :
    Yields n (ctx.value v) (if v.isNull then [] else [v])
      (if v.isNull then "null" else ctx.dialect.parameter (generatedName n)) := by
  intro vs hvs
  simp only [RenderContext.value, hctx]
  by_cases hv : v.isNull = true
  · simp only [hv, if_true]
    exact yields_pure n "null" vs hvs
  · simp only [hv, if_true, Bool.false_eq_true, if_false, Render.bind_apply, Render.register,
      ParameterSet.register_ofValues, hvs]
    rfl

theorem intercalate_cons (separator first : String) (rest : List String) :
    separator.intercalate (first :: rest) = first ++ String.join (rest.map fun s => separator ++ s) := by
  induction rest generalizing first with
  | nil => simp
  | cons s rest ih => simp [String.intercalate_cons_cons, ih, String.append_assoc]

section
variable {d : Dialect} {t : Table}

theorem field_eq_spell {name : String} (h : (t.column? name).isSome) (qualifier : Option String) :
    ({ dialect := d, table := some t } : RenderContext).field name qualifier =
      spell d (fieldTokens t name qualifier) := by
  obtain ⟨c, hc⟩ := Option.isSome_iff_exists.mp h
  cases qualifier <;>
    simp [RenderContext.field, fieldTokens, hc, spell, Token.spelling, Dialect.quote, bareName, String.append_assoc]

theorem spell_nullTest (negated : Bool) (operand : String) :
    operand ++ spell d [.word (.nullTest negated)] = RenderContext.nullTest operand negated := by
  cases negated <;> simp [spell, Token.spelling, Keyword.text, RenderContext.nullTest]

mutual

theorem yields_tokens : ∀ (e : Expr) (n : Nat), e.isCondition t = true →
    Yields n (e.render { dialect := d, table := some t }) e.slots (spell d (e.tokens d t n))
  | .field name qualifier, n, h => by
    simp only [Expr.render, Expr.slots, Expr.tokens, field_eq_spell h]
    exact yields_pure n _
  | .literal v, n, _ => by
    have htext : spell d (Expr.tokens d t n (.literal v)) =
        if v.isNull then "null" else d.parameter (generatedName n) := by
      simp only [Expr.tokens]
      split <;> simp [spell, Token.spelling, Keyword.text]
    rw [htext, Expr.render, Expr.slots]
    exact yields_value rfl n v
  | .compare left op right, n, h => by
    simp only [Expr.isCondition, Bool.and_eq_true] at h
    have hleft := yields_tokens left n h.1
    cases hnull : RenderContext.nullComparison? op right with
    | some negated =>
      simp only [Expr.render, Expr.slots, Expr.tokens, hnull, spell_append, spell_nullTest]
      rw [Expr.slots_of_isNullLiteral (RenderContext.isNullLiteral_of_nullComparison? hnull), List.append_nil]
      exact hleft.map _
    | none =>
      have hright := yields_tokens right (n + left.slots.length) h.2
      have htext : spell d (Expr.tokens d t n (.compare left op right)) =
          spell d (left.tokens d t n) ++ " " ++ op.sql ++ " " ++ spell d (right.tokens d t (n + left.slots.length)) := by
        simp [Expr.tokens, hnull, spell_append, spell, Token.spelling, Keyword.text, String.append_assoc]
      rw [htext]
      simp only [Expr.render, Expr.slots, hnull]
      exact hleft.bind (hright.map _)
  | .logical left op right, n, h => by
    simp only [Expr.isCondition, Bool.and_eq_true] at h
    have hleft := yields_tokens left n h.1
    have hright := yields_tokens right (n + left.slots.length) h.2
    have htext : spell d (Expr.tokens d t n (.logical left op right)) =
        "(" ++ spell d (left.tokens d t n) ++ " " ++ op.sql ++ " "
          ++ spell d (right.tokens d t (n + left.slots.length)) ++ ")" := by
      simp [Expr.tokens, spell_append, spell, Token.spelling, Keyword.text, String.append_assoc]
    rw [htext]
    simp only [Expr.render, Expr.slots]
    exact hleft.bind (hright.map _)
  | .junction op [], n, _ => by
    simp only [Expr.render, Expr.slots, Expr.slotsAll, Expr.tokens]
    exact yields_pure n _
  | .junction op (e :: es), n, h => by
    simp only [Expr.isCondition, Expr.areConditions, Bool.and_eq_true] at h
    have hfirst := yields_tokens e n h.1
    obtain ⟨texts, hrest, htexts⟩ := yields_tokensAfter es (n + e.slots.length) h.2
    have htext : spell d (Expr.tokens d t n (.junction op (e :: es))) =
        "(" ++ (" " ++ op.sql ++ " ").intercalate (spell d (e.tokens d t n) :: texts) ++ ")" := by
      have hafter := htexts (.junctor op)
      rw [intercalate_cons]
      simp [Expr.tokens, spell_append, spell, Token.spelling, Keyword.text, String.append_assoc] at hafter ⊢
      rw [hafter]
    rw [htext]
    simp only [Expr.render, Expr.slots, Expr.slotsAll]
    exact hfirst.bind (hrest.map _)
  | .not expr, n, h => by
    have htext : spell d (Expr.tokens d t n (.not expr)) =
        ({ dialect := d, table := some t } : RenderContext).negation (spell d (expr.tokens d t n)) := by
      by_cases hp : d.parenthesizeNot = true <;>
        simp [Expr.tokens, hp, spell_append, spell, Token.spelling, Keyword.text, RenderContext.negation,
          String.append_assoc]
    rw [htext]
    simp only [Expr.render, Expr.slots]
    exact (yields_tokens expr n h).map _
  | .isNull expr negated, n, h => by
    simp only [Expr.render, Expr.slots, Expr.tokens, spell_append, spell_nullTest]
    exact (yields_tokens expr n h).map _
  | .between expr low high, n, h => by
    simp only [Expr.isCondition, Bool.and_eq_true] at h
    have hexpr := yields_tokens expr n h.1.1
    have hlow := yields_tokens low (n + expr.slots.length) h.1.2
    have hhigh := yields_tokens high (n + expr.slots.length + low.slots.length) h.2
    have htext : spell d (Expr.tokens d t n (.between expr low high)) =
        spell d (expr.tokens d t n) ++ " between " ++ spell d (low.tokens d t (n + expr.slots.length)) ++ " and "
          ++ spell d (high.tokens d t (n + expr.slots.length + low.slots.length)) := by
      simp [Expr.tokens, spell_append, spell, Token.spelling, Keyword.text, LogicalOp.sql, String.append_assoc]
    rw [htext]
    simp only [Expr.render, Expr.slots]
    exact hexpr.bind (hlow.bind (hhigh.map _))
  | .inList expr [] negated, n, _ => by
    have htext : spell d (Expr.tokens d t n (.inList expr [] negated)) = if negated then "1=1" else "1=0" := by
      simp [Expr.tokens, spell, Token.spelling, Keyword.text]
    rw [htext]
    exact yields_pure n _
  | .inList expr (v :: vs) negated, n, h => by
    simp only [Expr.isCondition, Expr.areConditions, Bool.and_eq_true] at h
    have hexpr := yields_tokens expr n h.1
    have hfirst := yields_tokens v (n + expr.slots.length) h.2.1
    obtain ⟨texts, hrest, htexts⟩ := yields_tokensAfter vs (n + expr.slots.length + v.slots.length) h.2.2
    have htext : spell d (Expr.tokens d t n (.inList expr (v :: vs) negated)) =
        spell d (expr.tokens d t n) ++ (if negated then " not in (" else " in (")
          ++ ", ".intercalate (spell d (v.tokens d t (n + expr.slots.length)) :: texts) ++ ")" := by
      have hafter := htexts .comma
      rw [intercalate_cons]
      simp [Expr.tokens, spell_append, spell, Token.spelling, Keyword.text, String.append_assoc] at hafter ⊢
      rw [hafter]
    rw [htext]
    simp only [Expr.render, Expr.slots, Expr.slotsAll, List.isEmpty_cons, Bool.false_eq_true, if_false]
    exact hexpr.bind (hfirst.bind (hrest.map _))
  | .plain _, _, h | .like .., _, h | .function .., _, h | .aggregate .., _, h | .compareFields .., _, h
  | .select .., _, h | .order .., _, h => by
    cases h

theorem yields_tokensAfter : ∀ (es : List Expr) (n : Nat), Expr.areConditions t es = true →
    ∃ texts, Yields n (Expr.renderAll { dialect := d, table := some t } es) (Expr.slotsAll es) texts ∧
      ∀ separator : Keyword,
        String.join (texts.map fun s => separator.text d.parenthesizeNot ++ s) =
          spell d (Expr.tokensAfter d t separator n es)
  | [], n, _ => by
    refine ⟨[], ?_, fun separator => ?_⟩
    · simp only [Expr.renderAll, Expr.slotsAll]
      exact yields_pure n []
    · simp [Expr.tokensAfter, spell]
  | e :: es, n, h => by
    simp only [Expr.areConditions, Bool.and_eq_true] at h
    obtain ⟨texts, hrest, htexts⟩ := yields_tokensAfter es (n + e.slots.length) h.2
    refine ⟨spell d (e.tokens d t n) :: texts, ?_, fun separator => ?_⟩
    · simp only [Expr.renderAll, Expr.slotsAll]
      exact (yields_tokens e n h.1).bind (hrest.map _)
    · simp [Expr.tokensAfter, spell, spell_append, ← htexts, Token.spelling, String.append_assoc]

end

/-! ## Blanks -/

structure Continues (rest : List Token) : Prop where
  spaced : Spaced rest
  follows : ∀ u ∈ rest.head?, u.follows = true

theorem continues_nil : Continues [] := ⟨trivial, by simp⟩

theorem spaced_word {rest : List Token} (k : Keyword) (h : Spaced rest) : Spaced (.word k :: rest) := by
  simpa [Spaced, Token.isOperand] using h

theorem continues_word {k : Keyword} {rest : List Token} (hk : k.follows = true) (h : Spaced rest) :
    Continues (.word k :: rest) := by
  refine ⟨spaced_word k h, fun u hu => ?_⟩
  rw [← Option.some.inj hu]
  exact hk

theorem spaced_operand {token : Token} {rest : List Token} (h : Continues rest) : Spaced (token :: rest) :=
  ⟨fun _ => h.follows, h.spaced⟩

mutual

/-- In the tokens of a condition, names and parameters stand before keywords that may follow them. -/
theorem spaced_tokens : ∀ (e : Expr) (n : Nat) {rest : List Token}, e.isCondition t = true → Continues rest →
    Spaced (e.tokens d t n ++ rest)
  | .field name qualifier, n, rest, h, hrest => by
    obtain ⟨c, hc⟩ := Option.isSome_iff_exists.mp h
    have hname : Spaced (.name (bareName c.name) :: rest) := spaced_operand hrest
    cases qualifier with
    | none => simpa [Expr.tokens, fieldTokens, hc] using hname
    | some q => simpa [Expr.tokens, fieldTokens, hc, Spaced, Token.isOperand] using hname
  | .literal v, n, rest, _, hrest => by
    simp only [Expr.tokens]
    split
    · exact spaced_operand hrest
    · exact spaced_operand hrest
  | .compare left op right, n, rest, h, hrest => by
    simp only [Expr.isCondition, Bool.and_eq_true] at h
    simp only [Expr.tokens]
    split
    · rw [List.append_assoc]
      exact spaced_tokens left n h.1 (continues_word rfl hrest.spaced)
    · rw [List.append_assoc, List.cons_append]
      exact spaced_tokens left n h.1 (continues_word rfl (spaced_tokens right _ h.2 hrest))
  | .logical left op right, n, rest, h, hrest => by
    simp only [Expr.isCondition, Bool.and_eq_true] at h
    simp only [Expr.tokens, List.cons_append, List.append_assoc, List.nil_append]
    have hright := spaced_tokens right (n + left.slots.length) h.2 (continues_word (k := .closing) rfl hrest.spaced)
    exact spaced_word _ (spaced_tokens left n h.1 (continues_word rfl hright))
  | .junction op [], n, rest, _, hrest => by
    simp only [Expr.tokens, List.cons_append, List.nil_append]
    exact spaced_word _ hrest.spaced
  | .junction op (e :: es), n, rest, h, hrest => by
    simp only [Expr.isCondition, Expr.areConditions, Bool.and_eq_true] at h
    simp only [Expr.tokens, List.cons_append, List.append_assoc, List.nil_append]
    have hclosing : Continues (.word .closing :: rest) := continues_word rfl hrest.spaced
    exact spaced_word _ (spaced_tokens e n h.1 (continues_tokensAfter es (.junctor op) _ rfl h.2 hclosing))
  | .not expr, n, rest, h, hrest => by
    simp only [Expr.tokens, List.cons_append, List.append_assoc]
    refine spaced_word _ (spaced_tokens expr n h ?_)
    split
    · exact continues_word rfl hrest.spaced
    · exact hrest
  | .isNull expr negated, n, rest, h, hrest => by
    simp only [Expr.tokens, List.append_assoc]
    exact spaced_tokens expr n h (continues_word rfl hrest.spaced)
  | .between expr low high, n, rest, h, hrest => by
    simp only [Expr.isCondition, Bool.and_eq_true] at h
    simp only [Expr.tokens, List.cons_append, List.append_assoc]
    have hhigh := spaced_tokens high (n + expr.slots.length + low.slots.length) h.2 hrest
    have hlow := spaced_tokens low (n + expr.slots.length) h.1.2 (continues_word (k := .junctor .and) rfl hhigh)
    exact spaced_tokens expr n h.1.1 (continues_word rfl hlow)
  | .inList expr [] negated, n, rest, _, hrest => by
    simp only [Expr.tokens, List.cons_append, List.nil_append]
    exact spaced_word _ hrest.spaced
  | .inList expr (v :: vs) negated, n, rest, h, hrest => by
    simp only [Expr.isCondition, Expr.areConditions, Bool.and_eq_true] at h
    simp only [Expr.tokens, List.cons_append, List.append_assoc, List.nil_append]
    have hclosing : Continues (.word .closing :: rest) := continues_word rfl hrest.spaced
    have hvalues := continues_tokensAfter vs .comma (n + expr.slots.length + v.slots.length) rfl h.2.2 hclosing
    exact spaced_tokens expr n h.1 (continues_word rfl (spaced_tokens v _ h.2.1 hvalues))
  | .plain _, _, _, h, _ | .like .., _, _, h, _ | .function .., _, _, h, _ | .aggregate .., _, _, h, _
  | .compareFields .., _, _, h, _ | .select .., _, _, h, _ | .order .., _, _, h, _ => by
    cases h

theorem continues_tokensAfter : ∀ (es : List Expr) (separator : Keyword) (n : Nat) {rest : List Token},
    separator.follows = true → Expr.areConditions t es = true → Continues rest →
    Continues (Expr.tokensAfter d t separator n es ++ rest)
  | [], separator, n, rest, _, _, hrest => hrest
  | e :: es, separator, n, rest, hseparator, h, hrest => by
    simp only [Expr.areConditions, Bool.and_eq_true] at h
    simp only [Expr.tokensAfter, List.cons_append, List.append_assoc]
    have hes := continues_tokensAfter es separator (n + e.slots.length) hseparator h.2 hrest
    exact continues_word hseparator (spaced_tokens e n h.1 hes)

end

end

end SqlMapping
