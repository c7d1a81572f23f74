import SqlMapping.Expr.Json
import SqlMapping.Proofs.Json.Integers
import SqlMapping.Proofs.Json.Records

/-!
# Exchanged expressions

An expression without floating-point literals is read back from its JSON tree with as much room as the tree nests
(`ofJson?_toJson`), and its tree from its text. `expressions_read_back` puts the two together.
-/

namespace SqlMapping

open Json (nesting)

/-! ## Values -/

def Value.isFloat : Value → Bool
  | .single _ | .double _ => true
  | _ => false

theorem Kind.ofTag?_tag (k : Kind) : Kind.ofTag? k.tag = some k := by cases k <;> decide

theorem Json.legible_ofInt (n : Int) : (Json.ofInt n).Legible := Json.isNumeral_int n

theorem Json.legible_ofBytes (bs : List UInt8) : (Json.ofBytes bs).Legible := by
  rw [Json.ofBytes, Json.Legible]
  induction bs with
  | nil => trivial
  | cons b bs ih => exact ⟨Json.legible_ofInt _, ih⟩

namespace Value

theorem legible_content {v : Value} (h : v.isFloat = false) : v.content.Legible := by
  cases v with
  | null | bool => trivial
  | int8 | int16 | int32 | int64 | uint8 | timestamp => exact Json.legible_ofInt _
  | decimal | string => rfl
  | bytes | uuid => exact Json.legible_ofBytes _
  | single | double => cases h

theorem map_integer?_ofInt {α : Type} {f : Int → α} {a : α} {least greatest n : Int} (hmin : int64Min ≤ least)
    (hmax : greatest ≤ int64Max) (hleast : least ≤ n) (hgreatest : n ≤ greatest) (hf : f n = a) :
    ((Json.ofInt n).integer? least greatest).map f = some a := by
  rw [Json.integer?_ofInt hmin hmax hleast hgreatest, Option.map_some, hf]

theorem ofContent?_content {v : Value} (h : v.isFloat = false) {room : Nat} (hroom : v.content.nesting ≤ room) :
    ofContent? room v.kind v.content = some v := by
  cases v with
  | null | bool | decimal | string => rfl
  | int8 n => exact map_integer?_ofInt (by decide) (by decide) n.le_toInt n.toInt_le (congrArg int8 n.ofInt_toInt)
  | int16 n => exact map_integer?_ofInt (by decide) (by decide) n.le_toInt n.toInt_le (congrArg int16 n.ofInt_toInt)
  | int32 n => exact map_integer?_ofInt (by decide) (by decide) n.le_toInt n.toInt_le (congrArg int32 n.ofInt_toInt)
  | int64 n => exact map_integer?_ofInt (by decide) (by decide) n.le_toInt n.toInt_le (congrArg int64 n.ofInt_toInt)
  | timestamp n =>
    exact map_integer?_ofInt (by decide) (by decide) n.le_toInt n.toInt_le (congrArg timestamp n.ofInt_toInt)
  | uint8 n =>
    have hlt := n.toNat_lt
    exact map_integer?_ofInt (by decide) (by decide) (by omega) (by omega) (by simp)
  | bytes bs =>
    have hread := Json.bytes?_ofBytes bs (Nat.lt_of_lt_of_le (Nat.succ_pos _) hroom)
    simp [ofContent?, kind, content, hread]
  | uuid u =>
    have hread := Json.bytes?_ofBytes u.bytes (Nat.lt_of_lt_of_le (Nat.succ_pos _) hroom)
    simp [ofContent?, kind, content, hread, Uuid.ofBytes?, u.size]
  | single | double => cases h

/-- Null is its name alone. -/
theorem toJson_of_ne_null {v : Value} (h : v ≠ .null) : v.toJson = Json.ofFields [(v.kind.tag, v.content)] := by
  cases v with
  | null => exact absurd rfl h
  | _ => rfl

theorem legible_toJson {v : Value} (h : v.isFloat = false) : v.toJson.Legible := by
  by_cases hnull : v = .null
  · rw [hnull]
    rfl
  · rw [toJson_of_ne_null hnull, Json.legible_ofFields]
    simpa using legible_content h

theorem ofJson?_toJson {v : Value} (h : v.isFloat = false) {room : Nat} (hroom : v.toJson.nesting ≤ room) :
    ofJson? room v.toJson = some v := by
  by_cases hnull : v = .null
  · rw [hnull]
    rfl
  · rw [toJson_of_ne_null hnull] at hroom ⊢
    obtain ⟨inner, rfl, hinner⟩ := Json.room_of_ofFields hroom
    have hcontent := ofContent?_content h (hinner _ List.mem_cons_self)
    simp [ofJson?, Json.ofFields, Json.choice?, Kind.ofTag?_tag, hcontent]

end Value

/-! ## Expressions -/

mutual

def Expr.hasFloat : Expr → Bool
  | .literal v => v.isFloat
  | .field .. | .plain _ | .aggregate .. | .compareFields .. => false
  | .compare left _ right | .logical left _ right => left.hasFloat || right.hasFloat
  | .junction _ exprs => anyHasFloat exprs
  | .not expr | .isNull expr _ | .like expr .. | .select expr .. | .order expr _ => expr.hasFloat
  | .between expr low high => expr.hasFloat || low.hasFloat || high.hasFloat
  | .inList expr values _ => expr.hasFloat || anyHasFloat values
  | .function _ args => anyHasFloat args

def Expr.anyHasFloat : List Expr → Bool
  | [] => false
  | e :: es => e.hasFloat || anyHasFloat es

end

theorem CompareOp.ofTag?_tag (op : CompareOp) : CompareOp.ofTag? op.tag = some op := by cases op <;> decide

theorem LogicalOp.ofTag?_tag (op : LogicalOp) : LogicalOp.ofTag? op.tag = some op := by cases op <;> decide

theorem MatchMode.ofTag?_tag (mode : MatchMode) : MatchMode.ofTag? mode.tag = some mode := by cases mode <;> decide

namespace Expr

theorem ofJson?_object (tag : String) (content : Json) (room : Nat) :
    ofJson? (room + 1) (.object [(some tag, content)]) =
      if tag = "Literal" then (Value.ofJson? room content).map .literal
      else if tag = "Plain" then content.text?.map .plain
      else if tag = "Not" then (ofJson? room content).map .not
      else match room with
        | 0 => none
        | inner + 1 => ofRecord? inner (ofJson? inner) (listOfJson? inner) tag fun names => content.fields? names := by
  cases room <;> rfl

/-- The object around a record and the record take one level each, and leave the others to the fields. -/
theorem ofJson?_recordJson {e : Expr} {tag : String} {fields : List (String × Json)}
    (htag : tag ∉ ["Literal", "Plain", "Not"]) (hnames : (fields.map Prod.fst).Nodup) {room : Nat}
    (hroom : (recordJson tag fields).nesting ≤ room)
    (hread : ∀ inner asked, (∀ f ∈ fields, f.2.nesting ≤ inner) →
      asked (fields.map Prod.fst) = some (fields.map fun f => some f.2) →
        ofRecord? inner (ofJson? inner) (listOfJson? inner) tag asked = some e) :
    ofJson? room (recordJson tag fields) = some e := by
  simp only [List.mem_cons, List.not_mem_nil, or_false, not_or] at htag
  obtain ⟨hliteral, hplain, hnot⟩ := htag
  obtain ⟨outer, rfl, houter⟩ := Json.room_of_ofFields hroom
  obtain ⟨inner, rfl, hinner⟩ := Json.room_of_ofFields (houter _ List.mem_cons_self)
  have hobject : recordJson tag fields = .object [(some tag, Json.ofFields fields)] := rfl
  rw [hobject, ofJson?_object, if_neg hliteral, if_neg hplain, if_neg hnot]
  exact hread inner _ hinner (Json.fields?_ofFields hnames)

theorem listOfJson?_array {js : List Json} {es : List Expr} {room : Nat} (hroom : (Json.array js).nesting ≤ room)
    (h : ∀ {inner : Nat}, Json.nestingItems js ≤ inner → js.mapM (ofJson? inner) = some es) :
    listOfJson? room (.array js) = some es := by
  cases room with
  | zero => cases hroom
  | succ room => exact h (Nat.le_of_succ_le_succ hroom)

mutual

theorem ofJson?_toJsonWith : ∀ (e : Expr), e.hasFloat = false → ∀ {room : Nat},
    (e.toJsonWith Value.toJson).nesting ≤ room → ofJson? room (e.toJsonWith Value.toJson) = some e
  | .literal v, h, room, hroom => by
    obtain ⟨inner, rfl, hinner⟩ := Json.room_of_ofFields hroom
    have hvalue := Value.ofJson?_toJson h (hinner _ List.mem_cons_self)
    simp [toJsonWith, Json.ofFields, ofJson?_object, hvalue]
  | .plain sql, _, room, hroom => by
    obtain ⟨inner, rfl, _⟩ := Json.room_of_ofFields hroom
    simp [toJsonWith, Json.ofFields, ofJson?_object]
  | .not expr, h, room, hroom => by
    obtain ⟨inner, rfl, hinner⟩ := Json.room_of_ofFields hroom
    have hexpr := ofJson?_toJsonWith expr h (hinner _ List.mem_cons_self)
    simp [toJsonWith, Json.ofFields, ofJson?_object, hexpr]
  | .field name table, _, room, hroom => by
    refine ofJson?_recordJson (by decide) (by simp) hroom fun inner asked _ hasked => ?_
    simp only [List.map_cons, List.map_nil] at hasked
    simp [ofRecord?, ofLeaf?, hasked, Json.nullable?_text]
  | .aggregate name column, _, room, hroom => by
    refine ofJson?_recordJson (by decide) (by simp) hroom fun inner asked _ hasked => ?_
    simp only [List.map_cons, List.map_nil] at hasked
    simp [ofRecord?, ofLeaf?, hasked, Json.nullable?_text]
  | .compareFields left right op, _, room, hroom => by
    refine ofJson?_recordJson (by decide) (by simp) hroom fun inner asked _ hasked => ?_
    simp only [List.map_cons, List.map_nil] at hasked
    have hop := Json.oneOf?_ofString op.ofTag?_tag inner
    simp [ofRecord?, ofLeaf?, hasked, hop]
  | .compare left op right, h, room, hroom => by
    obtain ⟨hleft, hright⟩ := Bool.or_eq_false_iff.mp h
    refine ofJson?_recordJson (by decide) (by simp) hroom fun inner asked hparts hasked => ?_
    simp only [List.map_cons, List.map_nil] at hasked
    have hleft := ofJson?_toJsonWith left hleft (hparts ("left", _) (by simp))
    have hright := ofJson?_toJsonWith right hright (hparts ("right", _) (by simp))
    have hop := Json.oneOf?_ofString op.ofTag?_tag inner
    simp [ofRecord?, hasked, hop, hleft, hright]
  | .logical left op right, h, room, hroom => by
    obtain ⟨hleft, hright⟩ := Bool.or_eq_false_iff.mp h
    refine ofJson?_recordJson (by decide) (by simp) hroom fun inner asked hparts hasked => ?_
    simp only [List.map_cons, List.map_nil] at hasked
    have hleft := ofJson?_toJsonWith left hleft (hparts ("left", _) (by simp))
    have hright := ofJson?_toJsonWith right hright (hparts ("right", _) (by simp))
    have hop := Json.oneOf?_ofString op.ofTag?_tag inner
    simp [ofRecord?, hasked, hop, hleft, hright]
  | .junction op exprs, h, room, hroom => by
    refine ofJson?_recordJson (by decide) (by simp) hroom fun inner asked hparts hasked => ?_
    simp only [List.map_cons, List.map_nil] at hasked
    have hexprs := listOfJson?_array (hparts ("exprs", _) (by simp)) (mapM_listJsonWith exprs h)
    have hop := Json.oneOf?_ofString op.ofTag?_tag inner
    simp [ofRecord?, hasked, hop, hexprs]
  | .isNull expr negated, h, room, hroom => by
    refine ofJson?_recordJson (by decide) (by simp) hroom fun inner asked hparts hasked => ?_
    simp only [List.map_cons, List.map_nil] at hasked
    have hexpr := ofJson?_toJsonWith expr h (hparts ("expr", _) (by simp))
    simp [ofRecord?, hasked, hexpr]
  | .between expr low high, h, room, hroom => by
    obtain ⟨hexpr, hlow, hhigh⟩ : expr.hasFloat = false ∧ low.hasFloat = false ∧ high.hasFloat = false := by
      simpa [hasFloat, and_assoc] using h
    refine ofJson?_recordJson (by decide) (by simp) hroom fun inner asked hparts hasked => ?_
    simp only [List.map_cons, List.map_nil] at hasked
    have hexpr := ofJson?_toJsonWith expr hexpr (hparts ("expr", _) (by simp))
    have hlow := ofJson?_toJsonWith low hlow (hparts ("low", _) (by simp))
    have hhigh := ofJson?_toJsonWith high hhigh (hparts ("high", _) (by simp))
    simp [ofRecord?, hasked, hexpr, hlow, hhigh]
  | .inList expr values negated, h, room, hroom => by
    obtain ⟨hexpr, hvalues⟩ := Bool.or_eq_false_iff.mp h
    refine ofJson?_recordJson (by decide) (by simp) hroom fun inner asked hparts hasked => ?_
    simp only [List.map_cons, List.map_nil] at hasked
    have hexpr := ofJson?_toJsonWith expr hexpr (hparts ("expr", _) (by simp))
    have hvalues := listOfJson?_array (hparts ("values", _) (by simp)) (mapM_listJsonWith values hvalues)
    simp [ofRecord?, hasked, hexpr, hvalues]
  | .like expr pattern mode escape ignoreCase, h, room, hroom => by
    refine ofJson?_recordJson (by decide) (by simp) hroom fun inner asked hparts hasked => ?_
    simp only [List.map_cons, List.map_nil] at hasked
    have hexpr := ofJson?_toJsonWith expr h (hparts ("expr", _) (by simp))
    have hmode := Json.oneOf?_ofString mode.ofTag?_tag inner
    simp [ofRecord?, hasked, hexpr, hmode, Json.nullable?_char]
  | .function name args, h, room, hroom => by
    refine ofJson?_recordJson (by decide) (by simp) hroom fun inner asked hparts hasked => ?_
    simp only [List.map_cons, List.map_nil] at hasked
    have hargs := listOfJson?_array (hparts ("args", _) (by simp)) (mapM_listJsonWith args h)
    simp [ofRecord?, hasked, hargs]
  | .select expr label distinct, h, room, hroom => by
    refine ofJson?_recordJson (by decide) (by simp) hroom fun inner asked hparts hasked => ?_
    simp only [List.map_cons, List.map_nil] at hasked
    have hexpr := ofJson?_toJsonWith expr h (hparts ("expr", _) (by simp))
    simp [ofRecord?, hasked, hexpr, Json.nullable?_text]
  | .order expr ascending, h, room, hroom => by
    refine ofJson?_recordJson (by decide) (by simp) hroom fun inner asked hparts hasked => ?_
    simp only [List.map_cons, List.map_nil] at hasked
    have hexpr := ofJson?_toJsonWith expr h (hparts ("expr", _) (by simp))
    simp [ofRecord?, hasked, hexpr]

theorem mapM_listJsonWith : ∀ (es : List Expr), anyHasFloat es = false → ∀ {room : Nat},
    Json.nestingItems (listJsonWith Value.toJson es) ≤ room →
      (listJsonWith Value.toJson es).mapM (ofJson? room) = some es
  | [], _, _, _ => rfl
  | e :: es, h, room, hroom => by
    obtain ⟨he, hes⟩ := Bool.or_eq_false_iff.mp h
    obtain ⟨heroom, hesroom⟩ := Nat.max_le.mp hroom
    have hfirst := ofJson?_toJsonWith e he heroom
    have hothers := mapM_listJsonWith es hes hesroom
    simp [listJsonWith, hfirst, hothers]

end

theorem legible_recordJson {tag : String} {fields : List (String × Json)} :
    (recordJson tag fields).Legible ↔ ∀ f ∈ fields, f.2.Legible := by
  rw [recordJson, Json.legible_ofFields, List.forall_mem_singleton, Json.legible_ofFields]

mutual

theorem legible_toJsonWith : ∀ (e : Expr), e.hasFloat = false → (e.toJsonWith Value.toJson).Legible
  | .literal v, h => by
    have hvalue := Value.legible_toJson h
    exact Json.legible_ofFields.mpr (by simpa using hvalue)
  | .plain sql, _ => Json.legible_ofFields.mpr (by simp)
  | .not expr, h => by
    have hexpr := legible_toJsonWith expr h
    exact Json.legible_ofFields.mpr (by simpa using hexpr)
  | .field name table, _ => legible_recordJson.mpr (by simp)
  | .aggregate name column, _ => legible_recordJson.mpr (by simp)
  | .compareFields left right op, _ => legible_recordJson.mpr (by simp)
  | .compare left op right, h => by
    obtain ⟨hleft, hright⟩ := Bool.or_eq_false_iff.mp h
    exact legible_recordJson.mpr (by simp [legible_toJsonWith left hleft, legible_toJsonWith right hright])
  | .logical left op right, h => by
    obtain ⟨hleft, hright⟩ := Bool.or_eq_false_iff.mp h
    exact legible_recordJson.mpr (by simp [legible_toJsonWith left hleft, legible_toJsonWith right hright])
  | .junction op exprs, h => legible_recordJson.mpr (by simp [legibleItems_listJsonWith exprs h])
  | .isNull expr negated, h => legible_recordJson.mpr (by simp [legible_toJsonWith expr h])
  | .between expr low high, h => by
    obtain ⟨hexpr, hlow, hhigh⟩ : expr.hasFloat = false ∧ low.hasFloat = false ∧ high.hasFloat = false := by
      simpa [hasFloat, and_assoc] using h
    exact legible_recordJson.mpr
      (by simp [legible_toJsonWith expr hexpr, legible_toJsonWith low hlow, legible_toJsonWith high hhigh])
  | .inList expr values negated, h => by
    obtain ⟨hexpr, hvalues⟩ := Bool.or_eq_false_iff.mp h
    exact legible_recordJson.mpr (by simp [legible_toJsonWith expr hexpr, legibleItems_listJsonWith values hvalues])
  | .like expr pattern mode escape ignoreCase, h =>
    legible_recordJson.mpr (by simp [legible_toJsonWith expr h])
  | .function name args, h => legible_recordJson.mpr (by simp [legibleItems_listJsonWith args h])
  | .select expr label distinct, h => legible_recordJson.mpr (by simp [legible_toJsonWith expr h])
  | .order expr ascending, h => legible_recordJson.mpr (by simp [legible_toJsonWith expr h])

theorem legibleItems_listJsonWith : ∀ (es : List Expr), anyHasFloat es = false →
    Json.LegibleItems (listJsonWith Value.toJson es)
  | [], _ => trivial
  | e :: es, h => by
    obtain ⟨he, hes⟩ := Bool.or_eq_false_iff.mp h
    exact ⟨legible_toJsonWith e he, legibleItems_listJsonWith es hes⟩

end

theorem ofJson?_toJson {e : Expr} (h : e.hasFloat = false) {room : Nat} (hroom : e.toJson.nesting ≤ room) :
    ofJson? room e.toJson = some e := ofJson?_toJsonWith e h hroom

theorem read_write_toJson {e : Expr} (h : e.hasFloat = false) : Json.read e.toJson.write = some e.toJson :=
  Json.read_write (legible_toJsonWith e h)

/-- The text tells the expression, however deep it nests: there is room enough for any tree. -/
theorem eq_of_write_eq {e e' : Expr} (h : e.hasFloat = false) (h' : e'.hasFloat = false)
    (hwrite : e'.toJson.write = e.toJson.write) : e' = e := by
  have htree : e'.toJson = e.toJson := by
    have hread := read_write_toJson h
    rw [← hwrite, read_write_toJson h'] at hread
    exact Option.some.inj hread
  have hreads := ofJson?_toJson h (Nat.le_refl _)
  rw [← htree, ofJson?_toJson h' (Nat.le_refl _)] at hreads
  exact Option.some.inj hreads

end Expr

/-- An expression without floating-point literals whose objects and arrays stand fewer than 128 deep in each other is
read back from its text, and no other expression without them has this text. -/
theorem expressions_read_back {e : Expr} (h : e.hasFloat = false) :
    (e.toJson.nesting < 128 → (Json.read e.toJson.write).bind (Expr.ofJson? Json.nestingLimit) = some e) ∧
      ∀ e' : Expr, e'.hasFloat = false → e'.toJson.write = e.toJson.write → e' = e := by
  refine ⟨fun hnesting => ?_, fun e' h' hwrite => Expr.eq_of_write_eq h h' hwrite⟩
  rw [Expr.read_write_toJson h, Option.bind_some]
  exact Expr.ofJson?_toJson h (Nat.le_of_lt_succ hnesting)

/-- A pattern with quotes, an escape and a control character beside the least integer and bytes. -/
theorem escaped_pattern_read_back :
    let e : Expr := .junction .or
      [.like (.field "na\x22me" (some "t")) "\x5c\x01%" .contains (some '\x5c') true,
        .inList (.function "abs" [.literal (.int64 (-9223372036854775808))]) [.literal .null, .literal (.bytes [0, 255])]
          false]
    e.hasFloat = false ∧ e.toJson.nesting < 128 ∧
      (Json.read e.toJson.write).bind (Expr.ofJson? Json.nestingLimit) = some e := by
  intro e
  have h : e.hasFloat = false := by decide
  have hnesting : e.toJson.nesting < 128 := by decide
  exact ⟨h, hnesting, (expressions_read_back h).1 hnesting⟩

end SqlMapping
