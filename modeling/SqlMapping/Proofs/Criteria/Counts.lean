import SqlMapping.Proofs.Criteria.Windows
import SqlMapping.Proofs.Criteria.Registration

/-!
# Counts

A count stands around the same select that is ordered and cut. That select is rendered first and by itself, so
its parameters are the first ones of both statements, and only those of the order terms come behind them
(`count_counts_select`).
-/

namespace SqlMapping

open ParameterSet (ofValues)

/-! ## Parameters of the parts -/

theorem Expr.slots_asOrder (e : Expr) : e.asOrder.slots = e.slots := by
  rw [asOrder]
  split <;> rfl

theorem Expr.slotsAll_asOrder (es : List Expr) : Expr.slotsAll (es.map Expr.asOrder) = Expr.slotsAll es := by
  induction es with
  | nil => rfl
  | cons e es ih => rw [List.map_cons, Expr.slotsAll, Expr.slotsAll, slots_asOrder, ih]

namespace Criteria

variable (c : Criteria) (d : Dialect)

def baseSlots : List Value := Expr.slotsAll c.projections ++ Expr.slotsAll c.conditions

theorem registers_selectList : Registers (c.selectList d) (Expr.slotsAll c.projections) := by
  have law : RenderLaw (c.context d) Registers := registersLaw rfl
  unfold selectList
  split
  · rename_i hnone
    rw [List.isEmpty_iff.mp hnone, Expr.slotsAll]
    exact law.pure _
  · exact law.map (law.renderAll c.projections) _

theorem registers_baseSelect : Registers (c.baseSelect d) c.baseSlots := by
  have law : RenderLaw (c.context d) Registers := registersLaw rfl
  refine law.bind (c.registers_selectList d) fun list => ?_
  dsimp only
  split
  · rename_i hnone
    rw [List.isEmpty_iff.mp hnone, Expr.slotsAll]
    exact law.pure _
  · exact law.map (law.renderAll c.conditions) _

theorem registers_orderTerms : Registers (c.orderTerms d) (Expr.slotsAll c.orders) := by
  have law : RenderLaw (c.context d) Registers := registersLaw rfl
  rw [← Expr.slotsAll_asOrder]
  exact law.map (law.renderAll (c.orders.map Expr.asOrder)) _

end Criteria

theorem Registers.of_ok {α : Type} {r : Render α} {vs ws : List Value} {a : α} {ps : ParameterSet}
    (h : Registers r ws) (hr : r (ofValues vs) = (.ok a, ps)) : ps = ofValues (vs ++ ws) := by
  obtain ⟨b, hb⟩ | ⟨e, _, _, _, he⟩ := h vs
  · exact congrArg Prod.snd (hr.symm.trans hb)
  · cases hr.symm.trans he

/-! ## Both statements -/

theorem Render.apply_of_toQuery {r : Render String} {q : Query} (h : r.toQuery = .ok q) :
    r {} = (.ok q.sql, q.params) := by
  unfold toQuery at h
  rcases hr : r {} with ⟨e | sql, ps⟩
  · rw [hr] at h
    cases h
  · rw [hr] at h
    obtain rfl := Except.ok.inj h
    rfl

namespace Criteria

variable {c : Criteria} {d : Dialect} {ps : ParameterSet}

theorem count_of_error {e : Error} (h : c.baseSelect d {} = (.error e, ps)) : c.count d = .error e := by
  unfold count Render.toQuery
  rw [Render.bind_of_error h]

theorem count_of_ok {sql : String} (h : c.baseSelect d {} = (.ok sql, ps)) :
    c.count d = .ok ⟨"select count(*) from (" ++ sql ++ ") t", ps⟩ := by
  unfold count Render.toQuery
  rw [Render.bind_of_ok h]
  rfl

theorem select_of_error {e : Error} (h : c.baseSelect d {} = (.error e, ps)) : c.select d = .error e := by
  unfold select windowed Render.toQuery
  rw [Render.bind_of_error h]

/-- A select that succeeds is made of one without order, which succeeds first, and of its order terms. -/
theorem exists_of_select {whole : Query} (h : c.select d = .ok whole) :
    ∃ sql counted terms, c.baseSelect d {} = (.ok sql, counted) ∧
      c.orderTerms d counted = (.ok terms, whole.params) ∧
      whole.sql =
        let order := if terms.isEmpty then none else some terms
        if c.limit.isSome || c.offset.isSome then d.paginate sql order c.limit c.offset else withOrder sql order := by
  obtain ⟨sql, counted, hbase, h⟩ := Render.exists_of_bind (Render.apply_of_toQuery h)
  obtain ⟨terms, ps, hterms, h⟩ := Render.exists_of_bind h
  obtain ⟨hsql, rfl⟩ := Prod.mk.inj h
  exact ⟨sql, counted, terms, hbase, hterms, (Except.ok.inj hsql).symm⟩

end Criteria

/-- Where the select of some criteria succeeds, so does the count. Between the parentheses it has the text that the
select orders and cuts to its window, and its parameters are the first ones of the select, whose others hold the values
of the order terms. A count fails only as the select does, and no order term, limit or offset changes it. -/
theorem count_counts_select (c : Criteria) (d : Dialect) :
    (∀ whole, c.select d = .ok whole → ∃ count sql terms rest,
      c.count d = .ok count ∧
        count.sql = "select count(*) from (" ++ sql ++ ") t" ∧
        (whole.sql =
          let order := if terms.isEmpty then none else some terms
          if c.limit.isSome || c.offset.isSome then d.paginate sql order c.limit c.offset else withOrder sql order) ∧
        c.orderTerms d count.params = (.ok terms, whole.params) ∧
        whole.params.entries = count.params.entries ++ rest ∧
        count.params.entries.map Prod.snd = Expr.slotsAll c.projections ++ Expr.slotsAll c.conditions ∧
        rest.map Prod.snd = Expr.slotsAll c.orders) ∧
      (∀ e, c.count d = .error e → c.select d = .error e) ∧
      ∀ orders limit offset, ({ c with orders, limit, offset } : Criteria).count d = c.count d := by
  refine ⟨fun whole hwhole => ?_, fun e he => ?_, fun orders limit offset => rfl⟩
  · obtain ⟨sql, counted, terms, hbase, hterms, hsql⟩ := Criteria.exists_of_select hwhole
    have hstart : c.baseSelect d (ofValues []) = (.ok sql, counted) := hbase
    have hcounted : counted = ofValues c.baseSlots := (c.registers_baseSelect d).of_ok hstart
    have hparams : whole.params = ofValues (c.baseSlots ++ Expr.slotsAll c.orders) :=
      (c.registers_orderTerms d).of_ok (hcounted ▸ hterms)
    obtain ⟨rest, hrest⟩ := ParameterSet.entries_prefix c.baseSlots (Expr.slotsAll c.orders)
    have hvalues : (ofValues c.baseSlots).entries.map Prod.snd ++ rest.map Prod.snd =
        c.baseSlots ++ Expr.slotsAll c.orders := by
      rw [← List.map_append, hrest, ParameterSet.values_ofValues]
    rw [ParameterSet.values_ofValues] at hvalues
    refine ⟨_, sql, terms, rest, Criteria.count_of_ok hbase, rfl, hsql, hterms, ?_, ?_, List.append_cancel_left hvalues⟩
    · rw [hparams, hcounted, hrest]
    · rw [hcounted, ParameterSet.values_ofValues, Criteria.baseSlots]
  · rcases hbase : c.baseSelect d {} with ⟨e' | sql, ps⟩
    · obtain rfl := Except.error.inj ((Criteria.count_of_error hbase).symm.trans he)
      exact Criteria.select_of_error hbase
    · cases (Criteria.count_of_ok hbase).symm.trans he

-- The value of the condition is counted, the one that the order term brings in is not.
example :
    let c : Criteria := {
      table := { name := ⟨"t", false⟩ }
      conditions := [.compare (.field "id" none) .gt (.literal (.int64 7))]
      orders := [.function "coalesce" [.field "name" none, .literal (.string "z")]]
      limit := some 10 }
    c.select Dialect.ansi = .ok ⟨"select * from \"t\" where id > :p_0 order by coalesce(name, :p_1) asc " ++
        "fetch first 10 rows only", ⟨[("p_0", .int64 7), ("p_1", .string "z")], 2⟩⟩ ∧
      c.count Dialect.ansi =
        .ok ⟨"select count(*) from (select * from \"t\" where id > :p_0) t", ⟨[("p_0", .int64 7)], 1⟩⟩ := by
  decide

end SqlMapping
