import SqlMapping.Criteria.Query
import SqlMapping.Dialect.BuiltIn
import Mathlib.Data.List.Nodup

/-!
# Windows

Each form of a window is given by its parts: `Window.text` writes them around a select, and `Window.rows` is what they
keep of its rows. `windows_agree`: whatever form a dialect has, a select in a window is the select without one, in
that form with parts that keep the rows behind the offset, up to the limit.
-/

namespace SqlMapping

/-- The rows of a window: those behind the offset, up to the limit. -/
def cut {α : Type} (limit offset : Option Nat) (rows : List α) : List α :=
  let rest := rows.drop (offset.getD 0)
  limit.elim rest rest.take

/-! ## Selects -/

/-- A select with its order. Its head has all of the words that a window can stand behind, in any case. -/
structure SelectText where
  head : String
  body : String
  order : Option String
  head_eq : foldCase head = "select distinct " ∨
    foldCase head = "select " ∧ ¬ "distinct ".toList <+: (foldCase body).toList
  order_ne : order ≠ some ""

namespace SelectText

def orderText (order : Option String) : String := order.elim "" (" order by " ++ ·)

def text (s : SelectText) : String := s.head ++ s.body ++ orderText s.order

theorem withOrder_eq {order : Option String} (horder : order ≠ some "") (sql : String) :
    withOrder sql order = sql ++ orderText order := by
  cases order with
  | none => simp [withOrder, orderText]
  | some terms =>
    have hne : terms ≠ "" := fun h => horder (congrArg some h)
    simp [withOrder, orderText, hne, String.append_assoc]

end SelectText

/-! ## Forms of windows -/

inductive Window : WindowForm → Type where
  | all {form : WindowForm} : Window form
  /-- `offset n rows fetch first m rows only` -/
  | offsetFetch (offset count : Option Nat) : Window .offsetFetch
  /-- `limit m offset n` -/
  | limitOffset (count offset : Option Nat) : Window .limitOffset
  /-- `limit m offset n`, where a negative count is no limit. -/
  | limitRequired (count : Int) (offset : Option Nat) : Window .limitRequired
  /-- `limit m` -/
  | limit (count : Nat) : Window .limitPair
  /-- `limit n, m` -/
  | limitPair (offset count : Nat) : Window .limitPair
  /-- `top m` -/
  | top (count : Nat) : Window .topOrFetch
  /-- `offset n rows fetch next m rows only` after an order, which is any order if the select has none. -/
  | orderedFetch (offset : Nat) (count : Option Nat) : Window .topOrFetch
  /-- `rownum <= m` -/
  | rowNumber (upTo : Nat) : Window .rowNumber
  /-- `rownum <= m` in a select that keeps the number of its rows for `rownum_ > n` around it. -/
  | rowNumbers (upTo : Option Nat) (after : Nat) : Window .rowNumber

/-- The rows that pass a test of their number, with the number. A row counts only if it passes. -/
def numberRows {α : Type} (keep : Nat → Bool) : Nat → List α → List (Nat × α)
  | _, [] => []
  | n, row :: rows => if keep n then (n, row) :: numberRows keep (n + 1) rows else numberRows keep n rows

namespace Window

open SelectText

def offsetText (offset : Option Nat) : String := offset.elim "" fun n => " offset " ++ toString n

def fetchText (words : String) (count : Option Nat) : String :=
  count.elim "" fun m => words ++ toString m ++ " rows only"

def rowNumberText (select : String) (upTo : Nat) : String :=
  "select * from (" ++ select ++ ") where rownum <= " ++ toString upTo

def rowNumbersText (select : String) (upTo : Option Nat) (after : Nat) : String :=
  match upTo with
  | some m => "select * from (select row_.*, rownum rownum_ from (" ++ select ++ ") row_ where rownum <= " ++
      toString m ++ ") where rownum_ > " ++ toString after
  | none => "select * from (select row_.*, rownum rownum_ from (" ++ select ++ ") row_) where rownum_ > " ++
      toString after

def text {form : WindowForm} (s : SelectText) : Window form → String
  | .all => s.text
  | .offsetFetch offset count =>
    s.text ++ offset.elim "" (fun n => " offset " ++ toString n ++ " rows") ++ fetchText " fetch first " count
  | .limitOffset count offset => s.text ++ count.elim "" (fun m => " limit " ++ toString m) ++ offsetText offset
  | .limitRequired count offset => s.text ++ " limit " ++ toString count ++ offsetText offset
  | .limit count => s.text ++ " limit " ++ toString count
  | .limitPair offset count => s.text ++ " limit " ++ toString offset ++ ", " ++ toString count
  | .top count => s.head ++ "top " ++ toString count ++ " " ++ s.body ++ orderText s.order
  | .orderedFetch offset count =>
    s.head ++ s.body ++ orderText (s.order <|> some "(select null)") ++ " offset " ++ toString offset ++ " rows" ++
      fetchText " fetch next " count
  | .rowNumber upTo => rowNumberText s.text upTo
  | .rowNumbers upTo after => rowNumbersText s.text upTo after

/-- What a window keeps of the rows of a select. -/
def rows {α : Type} {form : WindowForm} (all : List α) : Window form → List α
  | .all => all
  | .offsetFetch offset count => count.elim id List.take (offset.elim id List.drop all)
  | .limitOffset count offset => count.elim id List.take (offset.elim id List.drop all)
  | .limitRequired count offset =>
    let rest := offset.elim id List.drop all
    if count < 0 then rest else rest.take count.toNat
  | .limit count => all.take count
  | .limitPair offset count => (all.drop offset).take count
  | .top count => all.take count
  | .orderedFetch offset count => count.elim id List.take (all.drop offset)
  | .rowNumber upTo => (numberRows (· ≤ upTo) 1 all).map Prod.snd
  | .rowNumbers upTo after =>
    ((numberRows (fun n => upTo.all (n ≤ ·)) 1 all).filter (after < ·.1)).map Prod.snd

end Window

namespace WindowForm

def requiredWindow : (limit offset : Option Nat) → Window .limitRequired
  | some m, offset => .limitRequired m offset
  | none, some n => .limitRequired (-1) (some n)
  | none, none => .all

def pairWindow : (limit offset : Option Nat) → Window .limitPair
  | some m, some n => .limitPair n m
  | some m, none => .limit m
  | none, some n => .limitPair n greatestRow
  | none, none => .all

def topWindow : (limit offset : Option Nat) → Window .topOrFetch
  | limit, some n => .orderedFetch n limit
  | some m, none => .top m
  | none, none => .all

def rowWindow : (limit offset : Option Nat) → Window .rowNumber
  | some m, some n => .rowNumbers (some (min (n + m) greatestRow)) n
  | some m, none => .rowNumber m
  | none, some n => .rowNumbers none n
  | none, none => .all

def window : (form : WindowForm) → (limit offset : Option Nat) → Window form
  | .offsetFetch, limit, offset => .offsetFetch offset limit
  | .limitOffset, limit, offset => .limitOffset limit offset
  | .limitRequired, limit, offset => requiredWindow limit offset
  | .limitPair, limit, offset => pairWindow limit offset
  | .topOrFetch, limit, offset => topWindow limit offset
  | .rowNumber, limit, offset => rowWindow limit offset

end WindowForm

/-! ## Rows of a window -/

section
variable {α : Type}

theorem numberRows_upTo (upTo : Nat) (rows : List α) : ∀ n,
    numberRows (· ≤ upTo) n rows = numberRows (fun _ => true) n (rows.take (upTo + 1 - n)) := by
  induction rows with
  | nil => intro n; simp [numberRows]
  | cons row rows ih =>
    intro n
    by_cases hn : n ≤ upTo
    · have htake : upTo + 1 - n = (upTo + 1 - (n + 1)) + 1 := by omega
      rw [numberRows, if_pos (decide_eq_true hn), ih, htake, List.take_succ_cons, numberRows, if_pos rfl]
    · have htake : upTo + 1 - n = 0 := by omega
      rw [numberRows, if_neg (by simpa using hn), ih, htake, List.take_zero, List.take_zero]

theorem filter_numberRows (after : Nat) (rows : List α) : ∀ n,
    ((numberRows (fun _ => true) n rows).filter (after < ·.1)).map Prod.snd = rows.drop (after + 1 - n) := by
  induction rows with
  | nil => intro n; simp [numberRows]
  | cons row rows ih =>
    intro n
    rw [numberRows, if_pos rfl]
    by_cases hn : after < n
    · rw [List.filter_cons_of_pos (by simpa using hn), List.map_cons, ih]
      have hdrop : after + 1 - n = 0 := by omega
      have hdrop' : after + 1 - (n + 1) = 0 := by omega
      rw [hdrop, hdrop', List.drop_zero, List.drop_zero]
    · rw [List.filter_cons_of_neg (by simpa using hn), ih]
      have hdrop : after + 1 - n = (after + 1 - (n + 1)) + 1 := by omega
      rw [hdrop, List.drop_succ_cons]

theorem map_snd_numberRows (rows : List α) : ∀ n, (numberRows (fun _ => true) n rows).map Prod.snd = rows := by
  induction rows with
  | nil => intro n; rfl
  | cons row rows ih =>
    intro n
    rw [numberRows, if_pos rfl, List.map_cons, ih]

namespace Window

theorem rows_rowNumber (upTo : Nat) (all : List α) : (rowNumber upTo).rows all = all.take upTo := by
  rw [rows, numberRows_upTo, map_snd_numberRows, Nat.add_sub_cancel]

theorem rows_rowNumbers (upTo : Option Nat) (after : Nat) (all : List α) :
    (rowNumbers upTo after).rows all = (upTo.elim all all.take).drop after := by
  cases upTo with
  | none =>
    simp only [rows, Option.all_none, Option.elim_none]
    rw [filter_numberRows, Nat.add_sub_cancel]
  | some m =>
    simp only [rows, Option.all_some, Option.elim_some]
    rw [numberRows_upTo, filter_numberRows, Nat.add_sub_cancel, Nat.add_sub_cancel]

end Window

theorem take_drop_of_le {n m bound : Nat} {rows : List α} (h : rows.length ≤ bound) :
    (rows.take (min (n + m) bound)).drop n = (rows.drop n).take m := by
  rw [← List.take_take, List.take_of_length_le h, List.take_drop]

theorem rows_window (form : WindowForm) (limit offset : Option Nat) {rows : List α} (h : rows.length < UInt64.size) :
    (form.window limit offset).rows rows = cut limit offset rows := by
  have hbound : rows.length ≤ greatestRow := Nat.le_sub_one_of_lt h
  cases form with
  | offsetFetch => cases limit <;> cases offset <;> rfl
  | limitOffset => cases limit <;> cases offset <;> rfl
  | limitRequired => cases limit <;> cases offset <;> rfl
  | topOrFetch => cases limit <;> cases offset <;> rfl
  | limitPair =>
    rcases limit with _ | m <;> rcases offset with _ | n
    · rfl
    · have hrest : (rows.drop n).length ≤ greatestRow := Nat.le_trans (List.drop_sublist n rows).length_le hbound
      exact List.take_of_length_le hrest
    · rfl
    · rfl
  | rowNumber =>
    rcases limit with _ | m <;> rcases offset with _ | n
    · rfl
    · exact Window.rows_rowNumbers none n rows
    · exact Window.rows_rowNumber m rows
    · -- Where the sum of both is too great, the greatest number stands in, and no row lies behind it.
      exact (Window.rows_rowNumbers _ n rows).trans (take_drop_of_le hbound)

end

/-! ## Selects in windows -/

theorem foldCase_append (a b : String) : foldCase (a ++ b) = foldCase a ++ foldCase b := by
  apply String.ext
  simp [toList_foldCase]

theorem length_foldCase (s : String) : (foldCase s).toList.length = s.toList.length := by
  rw [toList_foldCase, List.length_map]

namespace SelectText

theorem find?_head (s : SelectText) :
    ["select distinct ".toList, "select ".toList].find?
        (fun head => head.isPrefixOf (foldCase (s.head ++ s.body)).toList) =
      some (foldCase s.head).toList := by
  rw [foldCase_append, String.toList_append]
  rcases s.head_eq with hhead | ⟨hhead, hbody⟩
  · rw [hhead, List.find?_cons_of_pos]
    exact List.isPrefixOf_iff_prefix.mpr (List.prefix_append _ _)
  · rw [hhead, List.find?_cons_of_neg, List.find?_cons_of_pos]
    · exact List.isPrefixOf_iff_prefix.mpr (List.prefix_append _ _)
    · rw [List.isPrefixOf_iff_prefix]
      have hsplit : "select distinct ".toList = "select ".toList ++ "distinct ".toList := by decide
      rw [hsplit, List.prefix_append_right_inj]
      exact hbody

theorem insertTop_eq (s : SelectText) (limit : Nat) :
    insertTop (s.head ++ s.body) limit = s.head ++ "top " ++ toString limit ++ " " ++ s.body := by
  simp only [insertTop, find?_head, length_foldCase, String.toList_append]
  rw [List.take_left, List.drop_left, String.ofList_toList, String.ofList_toList]

/-- Behind its first word, a select is divided where a window can stand. -/
theorem exists_of_select (rest : String) {order : Option String} (horder : order ≠ some "") :
    ∃ s : SelectText, s.head ++ s.body = "select " ++ rest ∧ s.order = order := by
  by_cases hdistinct : "distinct ".toList <+: (foldCase rest).toList
  · obtain ⟨behind, hbehind⟩ := hdistinct
    have hhead : foldCase ("select " ++ String.ofList (rest.toList.take 9)) = "select distinct " := by
      rw [foldCase_append]
      have htake : foldCase (String.ofList (rest.toList.take 9)) = "distinct " := by
        apply String.ext
        rw [toList_foldCase, String.toList_ofList, List.map_take, ← toList_foldCase, ← hbehind]
        rfl
      rw [htake]
      rfl
    refine ⟨⟨"select " ++ String.ofList (rest.toList.take 9), String.ofList (rest.toList.drop 9), order, .inl hhead,
      horder⟩, ?_, rfl⟩
    rw [String.append_assoc, ← String.ofList_append, List.take_append_drop, String.ofList_toList]
  · exact ⟨⟨"select ", rest, order, .inr ⟨rfl, hdistinct⟩, horder⟩, rfl, rfl⟩

end SelectText

section
variable (s : SelectText) (limit offset : Option Nat)

theorem offsetFetchText_eq :
    WindowForm.offsetFetchText s.text limit offset = (Window.offsetFetch offset limit).text s := by
  cases limit <;> cases offset <;> simp only [WindowForm.offsetFetchText, Window.text, Window.fetchText, Option.elim,
    String.append_assoc]

theorem limitOffsetText_eq :
    WindowForm.limitOffsetText s.text limit offset = (Window.limitOffset limit offset).text s := by
  cases limit <;> cases offset <;> simp only [WindowForm.limitOffsetText, Window.text, Window.offsetText, Option.elim]

theorem limitRequiredText_eq :
    WindowForm.limitRequiredText s.text limit offset = (WindowForm.requiredWindow limit offset).text s := by
  have hall : " limit -1 offset " = " limit " ++ toString (-1 : Int) ++ " offset " := by decide
  rcases limit with _ | m <;> rcases offset with _ | n
  · rfl
  · simp only [WindowForm.limitRequiredText, hall, WindowForm.requiredWindow, Window.text, Window.offsetText,
      Option.elim, String.append_assoc]
  · exact (String.append_empty).symm
  · simp only [WindowForm.limitRequiredText, WindowForm.requiredWindow, Window.text, Window.offsetText, Option.elim,
      String.append_assoc]
    rfl

theorem limitPairText_eq :
    WindowForm.limitPairText s.text limit offset = (WindowForm.pairWindow limit offset).text s := by
  cases limit <;> cases offset <;> simp only [WindowForm.limitPairText, WindowForm.pairWindow, Window.text]

theorem topOrFetchText_eq :
    WindowForm.topOrFetchText (s.head ++ s.body) s.order limit offset =
      (WindowForm.topWindow limit offset).text s := by
  have horder := SelectText.withOrder_eq s.order_ne
  rcases offset with _ | n
  · rcases limit with _ | m
    · exact horder (s.head ++ s.body)
    · simp only [WindowForm.topOrFetchText, horder, s.insertTop_eq, WindowForm.topWindow, Window.text]
  · have hterms : " order by " ++ (s.order.filter fun terms => !terms.isEmpty).getD "(select null)" =
        SelectText.orderText (s.order <|> some "(select null)") := by
      cases hs : s.order with
      | none => rfl
      | some terms =>
        have hne : terms ≠ "" := fun h => s.order_ne (hs.trans (congrArg some h))
        simp [SelectText.orderText, Option.filter, hne]
    simp only [WindowForm.topOrFetchText, WindowForm.topWindow, Window.text, ← hterms, String.append_assoc]
    cases limit <;> rfl

theorem rowNumberText_eq :
    WindowForm.rowNumberText s.text limit offset = (WindowForm.rowWindow limit offset).text s := by
  cases limit <;> cases offset <;> rfl

end

theorem paginate_eq (d : Dialect) (s : SelectText) (limit offset : Option Nat) :
    d.paginate (s.head ++ s.body) s.order limit offset =
      (d.window.window limit (offset.filter fun n => 0 < n)).text s := by
  have horder : withOrder (s.head ++ s.body) s.order = s.text := SelectText.withOrder_eq s.order_ne (s.head ++ s.body)
  simp only [Dialect.paginate, horder]
  generalize offset.filter (fun n => decide (0 < n)) = offset
  cases d.window with
  | offsetFetch => exact offsetFetchText_eq s limit offset
  | limitOffset => exact limitOffsetText_eq s limit offset
  | limitRequired => exact limitRequiredText_eq s limit offset
  | limitPair => exact limitPairText_eq s limit offset
  | topOrFetch => exact topOrFetchText_eq s limit offset
  | rowNumber => exact rowNumberText_eq s limit offset

theorem text_window_none (form : WindowForm) (s : SelectText) : (form.window none none).text s = s.text := by
  cases form with
  | offsetFetch => exact String.append_empty.trans String.append_empty
  | limitOffset => exact String.append_empty.trans String.append_empty
  | limitRequired => rfl
  | limitPair => rfl
  | topOrFetch => rfl
  | rowNumber => rfl

theorem cut_filter {α : Type} (limit offset : Option Nat) (rows : List α) :
    cut limit (offset.filter fun n => 0 < n) rows = cut limit offset rows := by
  rcases offset with _ | _ | n <;> rfl

namespace Render

variable {α β : Type} {x : Render α} {ps ps' : ParameterSet}

theorem bind_of_ok {a : α} (h : x ps = (.ok a, ps')) (f : α → Render β) : (x >>= f) ps = f a ps' := by
  rw [bind_apply, h]

theorem bind_of_error {e : Error} (h : x ps = (.error e, ps')) (f : α → Render β) :
    (x >>= f) ps = (.error e, ps') := by
  rw [bind_apply, h]

theorem exists_of_bind {f : α → Render β} {b : β} {ps'' : ParameterSet} (h : (x >>= f) ps = (.ok b, ps'')) :
    ∃ a ps', x ps = (.ok a, ps') ∧ f a ps' = (.ok b, ps'') := by
  rcases hx : x ps with ⟨e | a, ps'⟩
  · rw [bind_of_error hx] at h
    cases h
  · rw [bind_of_ok hx] at h
    exact ⟨a, ps', rfl, h⟩

end Render

/-- A term says which way it orders, so it is never empty. -/
theorem Expr.ne_empty_of_asOrder {ctx : RenderContext} {e : Expr} {ps ps' : ParameterSet} {term : String}
    (h : e.asOrder.render ctx ps = (.ok term, ps')) : term ≠ "" := by
  obtain ⟨e', ascending, he⟩ : ∃ e' ascending, e.asOrder = .order e' ascending := by
    cases e <;> exact ⟨_, _, rfl⟩
  rw [he, render] at h
  obtain ⟨operand, ps₁, -, h⟩ := Render.exists_of_bind h
  cases h
  cases ascending <;> simp

namespace Criteria

variable {c : Criteria} {d : Dialect} {ps ps' : ParameterSet}

theorem baseSelect_begins {sql : String} (h : c.baseSelect d ps = (.ok sql, ps')) : ∃ rest, sql = "select " ++ rest := by
  unfold baseSelect at h
  obtain ⟨list, ps₁, -, h⟩ := Render.exists_of_bind h
  by_cases hnone : c.conditions.isEmpty = true
  · rw [if_pos hnone] at h
    cases h
    exact ⟨list ++ " from " ++ d.qualify c.table, by simp only [String.append_assoc]⟩
  · rw [if_neg hnone] at h
    obtain ⟨parts, ps₂, -, h⟩ := Render.exists_of_bind h
    cases h
    exact ⟨list ++ " from " ++ d.qualify c.table ++ " where " ++ " and ".intercalate parts,
      by simp only [String.append_assoc]⟩

theorem orderTerms_isEmpty {terms : String} (h : c.orderTerms d ps = (.ok terms, ps')) :
    terms.isEmpty = c.orders.isEmpty := by
  unfold orderTerms at h
  obtain ⟨parts, ps₁, hparts, h⟩ := Render.exists_of_bind h
  cases h
  cases horders : c.orders with
  | nil =>
    rw [horders, List.map_nil, Expr.renderAll] at hparts
    cases hparts
    rfl
  | cons e es =>
    rw [horders, List.map_cons, Expr.renderAll] at hparts
    obtain ⟨term, ps₂, hterm, hparts⟩ := Render.exists_of_bind hparts
    obtain ⟨rest, ps₃, -, hparts⟩ := Render.exists_of_bind hparts
    cases hparts
    have hne := Expr.ne_empty_of_asOrder hterm
    cases rest <;> simp [hne]

/-- A select fails by itself or not at all: the window is put around what has been rendered. -/
theorem windowed_apply (c : Criteria) (d : Dialect) (ps : ParameterSet) :
    (∃ e ps', ∀ limit offset, c.windowed d limit offset ps = (.error e, ps')) ∨
      ∃ (s : SelectText) (counted : ParameterSet) (terms : String) (ps' : ParameterSet),
        c.baseSelect d ps = (.ok (s.head ++ s.body), counted) ∧
          c.orderTerms d counted = (.ok terms, ps') ∧
          s.order = (if c.orders.isEmpty then none else some terms) ∧
          ∀ limit offset, c.windowed d limit offset ps =
            (.ok ((d.window.window limit (offset.filter fun n => 0 < n)).text s), ps') := by
  unfold windowed
  rcases hbase : c.baseSelect d ps with ⟨e | sql, counted⟩
  · exact .inl ⟨e, counted, fun limit offset => Render.bind_of_error hbase _⟩
  rcases hterms : c.orderTerms d counted with ⟨e | terms, ps'⟩
  · refine .inl ⟨e, ps', fun limit offset => ?_⟩
    rw [Render.bind_of_ok hbase, Render.bind_of_error hterms]
  have horder : (if terms.isEmpty then none else some terms) ≠ some "" := by
    by_cases hempty : terms = "" <;> simp [hempty]
  obtain ⟨rest, rfl⟩ := baseSelect_begins hbase
  obtain ⟨s, hs, hterm⟩ := SelectText.exists_of_select rest horder
  refine .inr ⟨s, counted, terms, ps', by rw [hs], hterms, by rw [hterm, orderTerms_isEmpty hterms],
    fun limit offset => ?_⟩
  rw [Render.bind_of_ok hbase, Render.bind_of_ok hterms, ← hs, ← hterm, paginate_eq]
  show (Except.ok _, ps') = _
  rw [SelectText.withOrder_eq s.order_ne]
  rcases limit with _ | m <;> rcases offset with _ | n
  · rw [Option.filter_none, text_window_none]
    rfl
  all_goals rfl

end Criteria

/-- Every dialect cuts a select to the same rows. A select in a window fails only as the select without a window does;
else it is that select in the window of its dialect, which keeps of fewer than 2^64 rows those behind the offset, up to
the limit. The select is the one that is counted, and it has all of the order terms, or no order if there are none. -/
theorem windows_agree (d : Dialect) (c : Criteria) (limit offset : Option Nat) :
    ∃ w : Window d.window,
      (∀ (α : Type) (rows : List α), rows.length < UInt64.size →
        w.rows rows = cut (limit <|> c.limit) (offset <|> c.offset) rows) ∧
      match ({ c with limit := none, offset := none } : Criteria).select d with
      | .error e => c.selectWindow d limit offset = .error e
      | .ok whole => ∃ (s : SelectText) (counted : ParameterSet) (terms : String),
          c.baseSelect d {} = (.ok (s.head ++ s.body), counted) ∧
            c.orderTerms d counted = (.ok terms, whole.params) ∧
            s.order = (if c.orders.isEmpty then none else some terms) ∧
            whole.sql = s.text ∧
            c.selectWindow d limit offset = .ok ⟨w.text s, whole.params⟩ := by
  refine ⟨d.window.window (limit <|> c.limit) ((offset <|> c.offset).filter fun n => 0 < n), ?_, ?_⟩
  · intro α rows hrows
    rw [rows_window _ _ _ hrows, cut_filter]
  · have hwhole : ({ c with limit := none, offset := none } : Criteria).select d =
        (c.windowed d none none).toQuery := rfl
    rw [hwhole, Criteria.selectWindow]
    rcases c.windowed_apply d {} with ⟨e, ps, h⟩ | ⟨s, counted, terms, ps, hbase, hterms, horder, h⟩
    · simp only [Render.toQuery, h]
    · simp only [Render.toQuery, h]
      refine ⟨s, counted, terms, hbase, hterms, horder, ?_, rfl⟩
      rw [Option.filter_none, text_window_none]

example : Dialect.builtIn.map Dialect.window =
    [.offsetFetch, .limitOffset, .topOrFetch, .limitPair, .limitRequired, .rowNumber] := by rfl

/-- The sum of offset and limit is too great for the number of a row. -/
theorem greatest_limit_keeps_rows :
    let c : Criteria := { table := { name := ⟨"t", false⟩ }, orders := [.field "id" none] }
    ∃ w : Window .rowNumber, w.rows ["a", "b", "c", "d"] = ["c", "d"] ∧
      ∃ s : SelectText, s.head ++ s.body = "select * from \"t\"" ∧ s.order = some "id asc" ∧
        c.selectWindow Dialect.oracle (some greatestRow) (some 2) = .ok ⟨w.text s, {}⟩ := by
  intro c
  obtain ⟨w, hrows, hselect⟩ := windows_agree Dialect.oracle c (some greatestRow) (some 2)
  have hbase : @Eq (Except Error String × ParameterSet) (c.baseSelect Dialect.oracle {})
      (.ok "select * from \"t\"", {}) := by decide
  have hterms : @Eq (Except Error String × ParameterSet) (c.orderTerms Dialect.oracle {})
      (.ok "id asc", {}) := by decide
  have hwhole : ({ c with limit := none, offset := none } : Criteria).select Dialect.oracle =
      .ok ⟨"select * from \"t\" order by id asc", {}⟩ := by decide
  rw [hwhole] at hselect
  obtain ⟨s, counted, terms, hs, horder, hterm, -, hwindow⟩ := hselect
  rw [hbase, Prod.mk.injEq, Except.ok.injEq] at hs
  rw [← hs.2, hterms, Prod.mk.injEq, Except.ok.injEq] at horder
  exact ⟨w, hrows String ["a", "b", "c", "d"] (by decide), s, hs.1.symm, by rw [hterm, ← horder.1]; rfl, hwindow⟩

end SqlMapping
