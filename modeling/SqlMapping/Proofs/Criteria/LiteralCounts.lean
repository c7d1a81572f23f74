import SqlMapping.Dialect.BuiltIn
import SqlMapping.Proofs.Criteria.Counts

/-!
# Counted literals

The literals and pattern matches of an expression are counted without a look at what is rendered. A rendering has no
parameter for null, which is spelled out, and none for what stands to the left of an empty list, which is not
rendered. `registered_as_counted_iff`: where there is neither, and only there, the count is the number of parameters.
-/

namespace SqlMapping

open ParameterSet (ofValues)

namespace Expr

mutual

def matchCount : Expr → Nat
  | .field .. | .literal _ | .plain _ | .aggregate .. | .compareFields .. => 0
  | .compare left _ right | .logical left _ right => matchCount left + matchCount right
  | .junction _ exprs => matchCounts exprs
  | .not expr | .isNull expr _ | .select expr .. | .order expr _ => matchCount expr
  | .between expr low high => matchCount expr + matchCount low + matchCount high
  | .inList expr values _ => matchCount expr + matchCounts values
  | .like expr .. => matchCount expr + 1
  | .function _ args => matchCounts args

def matchCounts : List Expr → Nat
  | [] => 0
  | e :: es => matchCount e + matchCounts es

end

mutual

def inner : Expr → List Expr
  | .field .. | .literal _ | .plain _ | .aggregate .. | .compareFields .. => []
  | .compare left _ right | .logical left _ right => (left :: inner left) ++ (right :: inner right)
  | .junction _ exprs => innerAll exprs
  | .not expr | .isNull expr _ | .like expr .. | .select expr .. | .order expr _ => expr :: inner expr
  | .between expr low high => (expr :: inner expr) ++ ((low :: inner low) ++ (high :: inner high))
  | .inList expr values _ => (expr :: inner expr) ++ innerAll values
  | .function _ args => innerAll args

def innerAll : List Expr → List Expr
  | [] => []
  | e :: es => (e :: inner e) ++ innerAll es

end

def nodes (e : Expr) : List Expr := e :: e.inner

def expected (e : Expr) : Nat := e.literalCount + e.matchCount

/-- Whether rendering the node has a parameter for each literal and match that it has itself or leaves out. -/
def isCounted : Expr → Bool
  | .literal v => !v.isNull
  | .inList expr [] _ => expr.expected == 0
  | _ => true

end Expr

/-- What is registered does not exceed what is expected, and attains it under the condition alone. -/
structure Predicts (expected registered : Nat) (condition : Prop) : Prop where
  le : registered ≤ expected
  eq_iff : registered = expected ↔ condition

theorem Predicts.add {m m' n n' : Nat} {p p' : Prop} (h : Predicts m n p) (h' : Predicts m' n' p') :
    Predicts (m + m') (n + n') (p ∧ p') where
  le := Nat.add_le_add h.le h'.le
  eq_iff := by
    have hle := h.le
    have hle' := h'.le
    rw [← h.eq_iff, ← h'.eq_iff]
    omega

theorem predicts_same (n : Nat) : Predicts n n True := ⟨Nat.le_refl n, by simp⟩

theorem Predicts.of_eq {m m' n n' : Nat} {p p' : Prop} (h : Predicts m n p) (hm : m' = m) (hn : n' = n)
    (hp : p' ↔ p) : Predicts m' n' p' := by
  rw [hm, hn]
  exact ⟨h.le, h.eq_iff.trans hp.symm⟩

namespace Expr

theorem isCounted_iff (n : Expr) : n.isCounted = true ↔ n ≠ .literal .null ∧
    ∀ operand negated, n = .inList operand [] negated → operand.literalCount + operand.matchCount = 0 := by
  cases n with
  | literal v => simp [isCounted, ← Value.isNull_iff]
  | inList operand values negated => cases values <;> simp [isCounted, expected]
  | _ => simp [isCounted]

def AllCounted (nodes : List Expr) : Prop := ∀ n ∈ nodes, n.isCounted = true

theorem allCounted_append {xs ys : List Expr} : AllCounted (xs ++ ys) ↔ AllCounted xs ∧ AllCounted ys :=
  List.forall_mem_append

theorem allCounted_cons {e : Expr} {es : List Expr} : AllCounted (e :: es) ↔ e.isCounted = true ∧ AllCounted es :=
  List.forall_mem_cons

mutual

theorem predicts_slots : ∀ e : Expr, Predicts e.expected e.slots.length (AllCounted e.nodes)
  | .field .. | .plain _ | .aggregate .. | .compareFields .. =>
    (predicts_same 0).of_eq rfl rfl (by simp [AllCounted, nodes, inner, isCounted])
  | .literal v => by
    cases hnull : v.isNull with
    | true =>
      -- one literal is expected, and null has no parameter
      refine ⟨?_, iff_of_false ?_ ?_⟩ <;>
        simp [expected, literalCount, matchCount, slots, hnull, allCounted_cons, nodes, isCounted]
    | false =>
      refine (predicts_same 1).of_eq rfl ?_ ?_ <;>
        simp [slots, hnull, AllCounted, nodes, inner, isCounted]
  | .compare left op right | .logical left op right => by
    refine ((predicts_slots left).add (predicts_slots right)).of_eq ?_ ?_ ?_
    · simp only [expected, literalCount, matchCount]
      omega
    · rw [slots, List.length_append]
    · simp only [nodes, inner, allCounted_cons, allCounted_append, isCounted, true_and]
  | .junction op exprs => by
    refine (predicts_slotsAll exprs).of_eq rfl ?_ ?_
    · rw [slots]
    · simp only [nodes, inner, allCounted_cons, isCounted, true_and]
  | .not expr | .isNull expr _ | .select expr .. | .order expr _ => by
    refine (predicts_slots expr).of_eq rfl ?_ ?_
    · rw [slots]
    · simp only [nodes, inner, allCounted_cons, isCounted, true_and]
  | .between expr low high => by
    refine ((predicts_slots expr).add ((predicts_slots low).add (predicts_slots high))).of_eq ?_ ?_ ?_
    · simp only [expected, literalCount, matchCount]
      omega
    · rw [slots, List.length_append, List.length_append]
    · simp only [nodes, inner, allCounted_cons, allCounted_append, isCounted, true_and]
  | .inList expr [] negated => by
    -- nothing is registered, so that nothing may be expected of the operand
    have hexpr := predicts_slots expr
    have hnone : (inList expr [] negated).expected = expr.expected := by
      simp [expected, literalCount, matchCount, literalCounts, matchCounts]
    refine ⟨Nat.zero_le _, ?_⟩
    simp only [slots, List.isEmpty_nil, if_true, List.length_nil, hnone, nodes, inner, innerAll, List.append_nil,
      allCounted_cons, isCounted, beq_iff_eq]
    constructor
    · intro hzero
      have hslots : expr.slots.length = expr.expected := by have := hexpr.le; omega
      exact ⟨hzero.symm, allCounted_cons.mp (hexpr.eq_iff.mp hslots)⟩
    · exact fun h => h.1.symm
  | .inList expr (v :: vs) negated => by
    refine ((predicts_slots expr).add (predicts_slotsAll (v :: vs))).of_eq ?_ ?_ ?_
    · simp only [expected, literalCount, matchCount]
      omega
    · rw [slots, List.isEmpty_cons, if_neg Bool.false_ne_true, List.length_append]
    · simp only [nodes, inner, allCounted_cons, allCounted_append, isCounted, true_and]
  | .like expr pattern mode escape ignoreCase => by
    refine ((predicts_slots expr).add (predicts_same 1)).of_eq ?_ ?_ ?_
    · simp only [expected, literalCount, matchCount]
      omega
    · rw [slots, List.length_append, List.length_singleton]
    · simp only [nodes, inner, allCounted_cons, isCounted, true_and, and_true]
  | .function name args => by
    refine (predicts_slotsAll args).of_eq rfl ?_ ?_
    · rw [slots]
    · simp only [nodes, inner, allCounted_cons, isCounted, true_and]

theorem predicts_slotsAll : ∀ es : List Expr, Predicts (literalCounts es + matchCounts es) (slotsAll es).length
    (AllCounted (innerAll es))
  | [] => (predicts_same 0).of_eq rfl rfl (by simp [AllCounted, innerAll])
  | e :: es => by
    refine ((predicts_slots e).add (predicts_slotsAll es)).of_eq ?_ ?_ ?_
    · simp only [expected, literalCounts, matchCounts]
      omega
    · rw [slotsAll, List.length_append]
    · rw [innerAll, allCounted_append, nodes]

end

end Expr

/-- The parameters of a query are never more than the literals and matches of its expression, and they are as many if
and only if there is no null literal in the expression and no literal or match to the left of an empty list. -/
theorem registered_as_counted_iff (d : Dialect) (table : Option Table) {e : Expr} {q : Query}
    (hq : e.toQuery { dialect := d, table, parameterized := true } = .ok q) :
    q.params.size ≤ e.literalCount + e.matchCount ∧
      (q.params.size = e.literalCount + e.matchCount ↔
        ∀ n ∈ e.nodes, n ≠ .literal .null ∧
          ∀ operand negated, n = .inList operand [] negated → operand.literalCount + operand.matchCount = 0) := by
  unfold Expr.toQuery Render.toQuery at hq
  split at hq
  · rename_i sql ps hrender
    obtain rfl := Except.ok.inj hq
    have hregisters : Registers (e.render { dialect := d, table, parameterized := true }) e.slots :=
      (registersLaw rfl).render e
    have hstart : e.render { dialect := d, table, parameterized := true } (ofValues []) = (.ok sql, ps) := hrender
    have hps : ps = ofValues e.slots := hregisters.of_ok hstart
    have hsize : ps.size = e.slots.length := by rw [hps]; simp [ParameterSet.size, ofValues]
    obtain ⟨hle, hiff⟩ := e.predicts_slots
    rw [← hsize] at hle hiff
    exact ⟨hle, hiff.trans (forall₂_congr fun n _ => n.isCounted_iff)⟩
  · cases hq

/-- A match, a range and two lists, of which the empty one is of a field. -/
theorem scores_registered_as_counted :
    let named : Expr := .like (.field "name" none) "an" .startsWith none true
    let inRange : Expr := .between (.field "score" none) (.literal (.int32 10)) (.literal (.int32 20))
    let listed : Expr := .inList (.field "status" none) [.literal (.string "a"), .literal (.string "b")] false
    let unlisted : Expr := .inList (.field "status" none) [] true
    let e : Expr := .junction .and [named, inRange, listed, unlisted]
    let sql := "(lower(name) like lower(:p_0) and score between :p_1 and :p_2 and status in (:p_3, :p_4) and 1=1)"
    e.toQuery { dialect := Dialect.ansi, table := none, parameterized := true } = .ok ⟨sql, ofValues e.slots⟩ ∧
      e.literalCount = 4 ∧ e.matchCount = 1 ∧ (ofValues e.slots).size = 5 ∧
      ∀ n ∈ e.nodes, n ≠ .literal .null := by
  intro named inRange listed unlisted e sql
  have hq : e.toQuery { dialect := Dialect.ansi, table := none, parameterized := true }
      = .ok ⟨sql, ofValues e.slots⟩ := by decide
  have hsize : (ofValues e.slots).size = e.literalCount + e.matchCount := by decide
  have hcounted := (registered_as_counted_iff Dialect.ansi none hq).2.mp hsize
  exact ⟨hq, by decide, by decide, by decide, fun n hn => (hcounted n hn).1⟩

/-- A comparison with null counts one literal and registers none, and so does a literal before an empty list. -/
theorem null_counted_not_registered :
    let missing : Expr := .compare (.field "age" none) .eq (.literal .null)
    let unlisted : Expr := .inList (.literal (.int32 5)) [] false
    missing.toQuery { dialect := Dialect.ansi, table := none, parameterized := true } = .ok ⟨"age is null", {}⟩ ∧
      missing.literalCount + missing.matchCount = 1 ∧
      unlisted.toQuery { dialect := Dialect.ansi, table := none, parameterized := true } = .ok ⟨"1=0", {}⟩ ∧
      unlisted.literalCount + unlisted.matchCount = 1 ∧ ({} : ParameterSet).size = 0 := by
  decide

end SqlMapping
