import SqlMapping.Criteria.Query
import SqlMapping.Dialect.BuiltIn
import SqlMapping.Proofs.Text.Letters

/-!
# The case of names

Functions, aggregates and the fields that a table knows are found in any case, and what is printed for them is the
dialect's and the table's spelling. `Expr.foldNames` puts such names in lower case, and rendering does not see the
difference (`foldErrors_render`) but for the name in an error. So two expressions that differ in the case of such names
alone are rendered alike (`rendering_ignores_case`).
-/

namespace SqlMapping

theorem Functions.function?_foldCase (fs : Functions) (name : String) :
    fs.function? (foldCase name) = fs.function? name := by
  rw [function?, foldCase_foldCase, function?]

theorem Table.column?_foldCase (t : Table) (name : String) : t.column? (foldCase name) = t.column? name := by
  simp only [column?, Column.isNamed, sameName, foldCase_foldCase]

/-! ## Expressions without the case of their names -/

def foldField (table : Option Table) (name : String) : String :=
  if (table.bind fun t => t.column? name).isSome then foldCase name else name

mutual

/-- The expression with the names of functions, aggregates and known fields in lower case. -/
def Expr.foldNames (table : Option Table) : Expr → Expr
  | .field name qualifier => .field (foldField table name) qualifier
  | .function name args => .function (foldCase name) (Expr.foldAllNames table args)
  | .aggregate name column => .aggregate (foldCase name) (column.map (foldField table))
  | .compareFields left right op => .compareFields (foldField table left) (foldField table right) op
  | .literal v => .literal v
  | .plain sql => .plain sql
  | .compare left op right => .compare (Expr.foldNames table left) op (Expr.foldNames table right)
  | .logical left op right => .logical (Expr.foldNames table left) op (Expr.foldNames table right)
  | .junction op exprs => .junction op (Expr.foldAllNames table exprs)
  | .not expr => .not (Expr.foldNames table expr)
  | .isNull expr negated => .isNull (Expr.foldNames table expr) negated
  | .between expr low high =>
    .between (Expr.foldNames table expr) (Expr.foldNames table low) (Expr.foldNames table high)
  | .inList expr values negated => .inList (Expr.foldNames table expr) (Expr.foldAllNames table values) negated
  | .like expr pattern mode escape ignoreCase => .like (Expr.foldNames table expr) pattern mode escape ignoreCase
  | .select expr label distinct => .select (Expr.foldNames table expr) label distinct
  | .order expr ascending => .order (Expr.foldNames table expr) ascending

def Expr.foldAllNames (table : Option Table) : List Expr → List Expr
  | [] => []
  | e :: es => Expr.foldNames table e :: Expr.foldAllNames table es

end

def Expr.SameUpToCase (table : Option Table) (e e' : Expr) : Prop := e.foldNames table = e'.foldNames table

theorem Expr.isNullLiteral_foldNames (table : Option Table) (e : Expr) :
    (e.foldNames table).isNullLiteral = e.isNullLiteral := by
  cases e <;> simp [Expr.foldNames, Expr.isNullLiteral]

/-! ## Errors without the case of their names -/

def Error.foldName : Error → Error
  | .unsupportedFunction name dialect => .unsupportedFunction (foldCase name) dialect
  | e => e

theorem Error.foldName_eq {e e' : Error} (h : e.foldName = e'.foldName) :
    e = e' ∨ ∃ name name' dialect, sameName name name' = true ∧ e = .unsupportedFunction name dialect ∧
      e' = .unsupportedFunction name' dialect := by
  cases e with
  | unsupportedFunction name dialect =>
    cases e' with
    | unsupportedFunction name' dialect' =>
      obtain ⟨hname, rfl⟩ := Error.unsupportedFunction.inj h
      exact .inr ⟨name, name', dialect, (sameName_iff name name').mpr hname, rfl, rfl⟩
    | _ => cases h
  | _ =>
    cases e' with
    | unsupportedFunction name' dialect' => cases h
    | _ => exact .inl h

namespace Render

variable {α β : Type}

def foldErrors (r : Render α) : Render α := fun ps => ((r ps).1.mapError Error.foldName, (r ps).2)

theorem foldErrors_bind (r : Render α) (f : α → Render β) :
    (r >>= f).foldErrors = r.foldErrors >>= fun a => (f a).foldErrors := by
  funext ps
  rw [bind_apply, foldErrors, foldErrors, bind_apply]
  rcases r ps with ⟨e | a, ps'⟩ <;> rfl

theorem foldErrors_ofExcept (r : Except Error α) :
    (ofExcept r).foldErrors = ofExcept (r.mapError Error.foldName) := rfl

end Render

/-! ## Rendering without the case of names -/

namespace RenderContext

variable (ctx : RenderContext)

theorem field_foldField (name : String) (qualifier : Option String) :
    ctx.field (foldField ctx.table name) qualifier = ctx.field name qualifier := by
  rw [foldField]
  split
  · simp only [field, Table.column?_foldCase]
    rename_i hknown
    obtain ⟨column, hcolumn⟩ := Option.isSome_iff_exists.mp hknown
    rw [hcolumn]
  · rfl

theorem mapError_call_foldCase (name : String) (args : List String) :
    (ctx.call (foldCase name) args).mapError Error.foldName = (ctx.call name args).mapError Error.foldName := by
  have hfind : ctx.dialect.function? (foldCase name) = ctx.dialect.function? name :=
    ctx.dialect.functions.function?_foldCase name
  rw [call, call, hfind]
  cases ctx.dialect.function? name with
  | none => simp [Except.mapError, Error.foldName, foldCase_foldCase]
  | some form => rfl

theorem nullComparison?_foldNames (op : CompareOp) (e : Expr) :
    nullComparison? op (e.foldNames ctx.table) = nullComparison? op e := by
  simp only [nullComparison?, Expr.isNullLiteral_foldNames]

end RenderContext

open Render

section
variable (ctx : RenderContext)

mutual

theorem foldErrors_render : ∀ e : Expr,
    ((e.foldNames ctx.table).render ctx).foldErrors = (e.render ctx).foldErrors
  | .field name qualifier => by simp only [Expr.foldNames, Expr.render, ctx.field_foldField]
  | .literal _ | .plain _ => by simp only [Expr.foldNames]
  | .compare left op right => by
    simp only [Expr.foldNames, Expr.render, ctx.nullComparison?_foldNames, foldErrors_bind, foldErrors_render left]
    cases RenderContext.nullComparison? op right with
    | some negated => rfl
    | none => simp only [foldErrors_bind, foldErrors_render right]
  | .logical left op right => by
    simp only [Expr.foldNames, Expr.render, foldErrors_bind, foldErrors_render left, foldErrors_render right]
  | .junction op [] => by simp only [Expr.foldNames, Expr.foldAllNames]
  | .junction op (e :: es) => by
    simp only [Expr.foldNames, Expr.foldAllNames, Expr.render, foldErrors_bind, foldErrors_render e,
      foldErrors_renderAll es]
  | .not expr | .isNull expr _ | .select expr .. | .order expr _ => by
    simp only [Expr.foldNames, Expr.render, foldErrors_bind, foldErrors_render expr]
  | .between expr low high => by
    simp only [Expr.foldNames, Expr.render, foldErrors_bind, foldErrors_render expr, foldErrors_render low,
      foldErrors_render high]
  | .inList expr [] negated => by simp only [Expr.foldNames, Expr.foldAllNames, Expr.render]
  | .inList expr (v :: vs) negated => by
    simp only [Expr.foldNames, Expr.foldAllNames, Expr.render, foldErrors_bind, foldErrors_render expr,
      foldErrors_render v, foldErrors_renderAll vs]
  | .like expr pattern mode escape ignoreCase => by
    simp only [Expr.foldNames, Expr.render, foldErrors_bind, foldErrors_render expr]
  | .function name args => by
    simp only [Expr.foldNames, Expr.render, foldErrors_bind, foldErrors_renderAll args, foldErrors_ofExcept,
      ctx.mapError_call_foldCase]
  | .aggregate name column => by
    cases column <;>
      simp only [Expr.foldNames, Expr.render, Option.map_none, Option.map_some, ctx.field_foldField,
        foldErrors_ofExcept, ctx.mapError_call_foldCase]
  | .compareFields left right op => by simp only [Expr.foldNames, Expr.render, ctx.field_foldField]

theorem foldErrors_renderAll : ∀ es : List Expr,
    (Expr.renderAll ctx (Expr.foldAllNames ctx.table es)).foldErrors = (Expr.renderAll ctx es).foldErrors
  | [] => by simp only [Expr.foldAllNames]
  | e :: es => by
    simp only [Expr.foldAllNames, Expr.renderAll, foldErrors_bind, foldErrors_render e, foldErrors_renderAll es]

end

end

/-- After any expressions of a pass, with parameters or without, expressions that differ in the case of names of
functions, aggregates and known fields alone give the same text, or fail alike but for the spelling of a function that
is not registered, and leave the same parameters. -/
theorem rendering_ignores_case (ctx : RenderContext) (ps : ParameterSet) (e e' : Expr)
    (h : e.SameUpToCase ctx.table e') :
    (e.render ctx ps).2 = (e'.render ctx ps).2 ∧
      ((∃ sql, (e.render ctx ps).1 = .ok sql ∧ (e'.render ctx ps).1 = .ok sql) ∨
        ∃ err err', (e.render ctx ps).1 = .error err ∧ (e'.render ctx ps).1 = .error err' ∧
          (err = err' ∨ ∃ name name' dialect, sameName name name' = true ∧
            err = .unsupportedFunction name dialect ∧ err' = .unsupportedFunction name' dialect)) := by
  have hrender : (e.render ctx).foldErrors = (e'.render ctx).foldErrors := by
    rw [← foldErrors_render ctx e, h, foldErrors_render]
  obtain ⟨hresult, hparameters⟩ := Prod.mk.inj (congrFun hrender ps)
  refine ⟨hparameters, ?_⟩
  generalize (e.render ctx ps).1 = result, (e'.render ctx ps).1 = result' at hresult ⊢
  rcases result with err | sql <;> rcases result' with err' | sql'
  · exact .inr ⟨err, err', rfl, rfl, Error.foldName_eq (Except.error.inj hresult)⟩
  · cases hresult
  · cases hresult
  · exact .inl ⟨sql, rfl, congrArg Except.ok (Except.ok.inj hresult).symm⟩

/-- The names in capitals are printed as the dialect and the table spell them, and the unknown field as it stands. -/
theorem capitals_rendered_alike :
    let table : Table := { name := ⟨"people", false⟩, columns := [{ name := "id", type := .int64 }, { name := "Name", type := .string }] }
    let capitals : Expr := .logical (.compare (.function "UPPER" [.field "NAME" (some "p")]) .eq (.field "Nick" none))
      .and (.compareFields "ID" "NAME" .lt)
    let small : Expr := .logical (.compare (.function "upper" [.field "name" (some "p")]) .eq (.field "Nick" none))
      .and (.compareFields "id" "name" .lt)
    let ctx : RenderContext := { dialect := Dialect.ansi, table := some table }
    capitals.SameUpToCase ctx.table small ∧
      (small.render ctx {}).1 = .ok "(upper(\"p\".\"Name\") = Nick and \"id\" < \"Name\")" ∧
      (capitals.render ctx {}).1 = .ok "(upper(\"p\".\"Name\") = Nick and \"id\" < \"Name\")" := by
  intro table capitals small ctx
  have hsame : capitals.SameUpToCase ctx.table small := by
    have hfunction : foldCase "UPPER" = foldCase "upper" := by decide
    have hid : foldField ctx.table "ID" = foldField ctx.table "id" := by decide
    have hname : foldField ctx.table "NAME" = foldField ctx.table "name" := by decide
    simp only [Expr.SameUpToCase, capitals, small, Expr.foldNames, Expr.foldAllNames, hfunction, hid, hname]
  have hsmall : (small.render ctx {}).1 = .ok "(upper(\"p\".\"Name\") = Nick and \"id\" < \"Name\")" := by decide
  refine ⟨hsame, hsmall, ?_⟩
  obtain ⟨_, ⟨sql, hcapitals, hsql⟩ | ⟨err, err', _, herr', _⟩⟩ := rendering_ignores_case ctx {} capitals small hsame
  · exact hcapitals.trans (hsql.symm.trans hsmall)
  · cases hsmall.symm.trans herr'

end SqlMapping
