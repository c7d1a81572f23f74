import SqlMapping.Proofs.Criteria.Tokens

/-!
# Reading conditions

The tokens of a condition are read from left to right, with a stack of what is open. `read_tokens`: of the
tokens of a condition that is grouped from the left, this finds the meaning.
-/

namespace SqlMapping

variable {α : Type}

def Keyword.ends : Keyword → Bool
  | .junctor _ | .comma | .closing => true
  | _ => false

/-- What is open where an operand is read. -/
inductive Frame (α : Type) where
  | negation
  | compare (op : CompareOp) (left : α)
  | low (subject : α)
  | high (subject low : α)
  /-- Parentheses, with the operands before this one. -/
  | group (op : Option LogicalOp) (before : List α)
  | negatedGroup
  | members (negated : Bool) (subject : α) (before : List α)

structure Reading (α : Type) where
  frames : List (Frame α)
  operand : Option α

structure Reader (α : Type) where
  meaning : Meaning α
  named : String → α
  parameter : Nat → α
  parenthesized : Bool

namespace Reader

variable (r : Reader α)

def put : List (Frame α) → α → Reading α
  | .compare op left :: fs, a => ⟨fs, some (r.meaning.compare op left a)⟩
  | .high subject low :: fs, a => ⟨fs, some (r.meaning.between subject low a)⟩
  | fs, a => ⟨fs, some a⟩

def settle : List (Frame α) → α → List (Frame α) × α
  | .negation :: fs, a => settle fs (r.meaning.negate a)
  | .compare op left :: fs, a => settle fs (r.meaning.compare op left a)
  | .high subject low :: fs, a => settle fs (r.meaning.between subject low a)
  | fs, a => (fs, a)

def start (fs : List (Frame α)) : Keyword → Option (Reading α)
  | .opening => some ⟨.group none [] :: fs, none⟩
  | .negation => some ⟨(if r.parenthesized then .negatedGroup else .negation) :: fs, none⟩
  | .null => some (r.put fs (r.meaning.literal .null))
  | .truth b => some (r.put fs (r.meaning.truth b))
  | _ => none

def close : List (Frame α) × α → Keyword → Option (Reading α)
  | (.low subject :: fs, a), .junctor .and => some ⟨.high subject a :: fs, none⟩
  | (.group _ before :: fs, a), .junctor op => some ⟨.group (some op) (before ++ [a]) :: fs, none⟩
  | (.members negated subject before :: fs, a), .comma => some ⟨.members negated subject (before ++ [a]) :: fs, none⟩
  | (.group op before :: fs, a), .closing => some (r.put fs (r.meaning.join (op.getD .and) (before ++ [a])))
  | (.negatedGroup :: fs, a), .closing => some (r.put fs (r.meaning.negate a))
  | (.members negated subject before :: fs, a), .closing =>
    some (r.put fs (r.meaning.member negated subject (before ++ [a])))
  | _, _ => none

def extend (fs : List (Frame α)) (a : α) : Keyword → Option (Reading α)
  | .compare op => some ⟨.compare op a :: fs, none⟩
  | .nullTest negated => some ⟨fs, some (r.meaning.nullTest negated a)⟩
  | .between => some ⟨.low a :: fs, none⟩
  | .member negated => some ⟨.members negated a [] :: fs, none⟩
  | k => r.close (r.settle fs a) k

def step (s : Reading α) (t : Token) : Option (Reading α) :=
  match s.operand, t with
  | none, .word k => r.start s.frames k
  | none, .qualifier _ => some s
  | none, .name name => some (r.put s.frames (r.named name))
  | none, .parameter n => some (r.put s.frames (r.parameter n))
  | some a, .word k => r.extend s.frames a k
  | some _, _ => none

def run (ts : List Token) (s : Reading α) : Option (Reading α) := ts.foldlM r.step s

def settled (s : Reading α) : Option (List (Frame α) × α) := s.operand.map (r.settle s.frames)

def read (ts : List Token) : Option α :=
  match (r.run ts ⟨[], none⟩).bind r.settled with
  | some ([], a) => some a
  | _ => none

/-! ## Steps -/

variable {r}

theorem run_nil (s : Reading α) : r.run [] s = some s := rfl

theorem run_cons (t : Token) (ts : List Token) (s : Reading α) : r.run (t :: ts) s = (r.step s t).bind (r.run ts) := by
  simp only [run, List.foldlM_cons]
  rfl

theorem run_append (ts us : List Token) (s : Reading α) : r.run (ts ++ us) s = (r.run ts s).bind (r.run us) := by
  simp only [run, List.foldlM_append]
  rfl

/-- The operand of these frames does not close any by itself. -/
def Ready (r : Reader α) (fs : List (Frame α)) : Prop := ∀ a, r.put fs a = ⟨fs, some a⟩

variable {s : Reading α} {fs : List (Frame α)} {a : α}

theorem settled_put : r.settled (r.put fs a) = some (r.settle fs a) := by
  cases fs with
  | nil => rfl
  | cons f fs => cases f <;> rfl

theorem step_of_ends {p : List (Frame α) × α} (h : r.settled s = some p) {k : Keyword} (hk : k.ends = true) :
    r.step s (.word k) = r.close p k := by
  obtain ⟨frames, operand⟩ := s
  cases operand with
  | none => cases h
  | some b =>
    obtain rfl : r.settle frames b = p := Option.some.inj h
    cases k with
    | junctor _ | comma | closing => rfl
    | _ => cases hk

/-- From an open stack, the tokens are read as an operand with this meaning, which may still be open at its end
unless it is closed. -/
def Reads (r : Reader α) (ts : List Token) (fs : List (Frame α)) (a : α) (closed : Bool) : Prop :=
  ∃ s, r.run ts ⟨fs, none⟩ = some s ∧ r.settled s = some (r.settle fs a) ∧ (closed = true → s = r.put fs a)

variable {ts us : List Token} {closed : Bool}

theorem reads_put (h : r.run ts ⟨fs, none⟩ = some (r.put fs a)) : Reads r ts fs a closed :=
  ⟨_, h, settled_put, fun _ => rfl⟩

theorem Reads.run_closed (h : Reads r ts fs a true) (hfs : Ready r fs) (us : List Token) :
    r.run (ts ++ us) ⟨fs, none⟩ = r.run us ⟨fs, some a⟩ := by
  obtain ⟨s, hs, _, hclosed⟩ := h
  rw [run_append, hs, hclosed rfl, hfs a]
  rfl

/-- Behind an operand, a keyword that ends it sees the stack with everything closed that can be. -/
theorem Reads.run_ends {fs' : List (Frame α)} {a' : α} (h : Reads r ts fs a closed) (hsettle : r.settle fs a = (fs', a'))
    {k : Keyword} (hk : k.ends = true) (us : List Token) :
    r.run (ts ++ .word k :: us) ⟨fs, none⟩ = (r.close (fs', a') k).bind (r.run us) := by
  obtain ⟨s, hs, hsettled, _⟩ := h
  rw [hsettle] at hsettled
  rw [run_append, hs, Option.bind_some, run_cons, step_of_ends hsettled hk]

/-- Behind a closed operand, a keyword opens a frame for what comes next. -/
theorem Reads.run_extend {fs' : List (Frame α)} (h : Reads r ts fs a true) (hfs : Ready r fs) {k : Keyword}
    (hk : r.extend fs a k = some ⟨fs', none⟩) (us : List Token) :
    r.run (ts ++ .word k :: us) ⟨fs, none⟩ = r.run us ⟨fs', none⟩ := by
  have hstep : r.step ⟨fs, some a⟩ (.word k) = some ⟨fs', none⟩ := hk
  rw [h.run_closed hfs, run_cons, hstep]
  rfl

/-- Tokens are read as the last of them are in the frames that the others leave. -/
theorem Reads.behind {fs' : List (Frame α)} {b : α} {closed' : Bool} (h : Reads r us fs' b closed)
    (hbefore : r.run ts ⟨fs, none⟩ = r.run us ⟨fs', none⟩) (hsettle : r.settle fs' b = r.settle fs a)
    (hput : closed' = true → closed = true ∧ r.put fs' b = r.put fs a) : Reads r ts fs a closed' := by
  obtain ⟨s, hs, hsettled, hclosed⟩ := h
  refine ⟨s, hbefore.trans hs, hsettled.trans (congrArg some hsettle), fun hc => ?_⟩
  exact (hclosed (hput hc).1).trans (hput hc).2

/-! ## Reading the tokens of a condition -/

/-- The reader knows the columns of a table, and negations as a dialect spells them. -/
structure Fits (r : Reader α) (d : Dialect) (t : Table) : Prop where
  parenthesized : r.parenthesized = d.parenthesizeNot
  named : ∀ {name c}, t.column? name = some c → r.named (bareName c.name) = r.meaning.column c.name

def Has (r : Reader α) (n : Nat) (ws : List Value) : Prop :=
  ∀ i v, ws[i]? = some v → r.parameter (n + i) = r.meaning.literal v

theorem Has.left {n : Nat} {ws us : List Value} (h : r.Has n (ws ++ us)) : r.Has n ws := by
  intro i v hv
  have hlt : i < ws.length := (List.getElem?_eq_some_iff.mp hv).1
  exact h i v (by rwa [List.getElem?_append_left hlt])

theorem Has.right {n : Nat} {ws us : List Value} (h : r.Has n (ws ++ us)) : r.Has (n + ws.length) us := by
  intro i v hv
  have := h (ws.length + i) v (by rwa [List.getElem?_append_right (Nat.le_add_right _ _), Nat.add_sub_cancel_left])
  rwa [← Nat.add_assoc] at this

variable {d : Dialect} {t : Table}

mutual

-- Along the condition, for any open stack: an operand starts on the stack that the keyword before it leaves.
theorem reads_tokens (hr : r.Fits d t) : ∀ (e : Expr) (n : Nat) (fs : List (Frame α)), e.isCondition t = true → e.isGrouped d = true →
    r.Has n e.slots → (e.isOperand = true ∨ r.Ready fs) →
    Reads r (e.tokens d t n) fs (e.meaning r.meaning t) (e.isClosed d)
  | .field name qualifier, n, fs, h, _, _, _ => by
    obtain ⟨c, hc⟩ := Option.isSome_iff_exists.mp h
    refine reads_put ?_
    cases qualifier <;> simp [Expr.tokens, fieldTokens, Expr.meaning, hc, run_cons, run_nil, step, hr.named hc]
  | .literal v, n, fs, _, _, hslots, _ => by
    refine reads_put ?_
    by_cases hv : v.isNull = true
    · obtain rfl := (Value.isNull_iff v).mp hv
      rfl
    · have hparameter : r.parameter n = r.meaning.literal v := hslots 0 v (by simp [Expr.slots, hv])
      simp [Expr.tokens, Expr.meaning, hv, run_cons, run_nil, step, hparameter]
  | .compare left op right, n, fs, h, hg, hslots, hfs => by
    simp only [Expr.isCondition, Bool.and_eq_true] at h
    simp only [Expr.isGrouped, Bool.and_eq_true, Bool.or_eq_true] at hg
    obtain ⟨⟨hclosed, hleft⟩, hright⟩ := hg
    have hready : r.Ready fs := hfs.resolve_left (by simp [Expr.isOperand])
    simp only [Expr.slots] at hslots
    have hread := reads_tokens hr left n fs h.1 hleft hslots.left (.inr hready)
    rw [hclosed] at hread
    cases hnull : RenderContext.nullComparison? op right with
    | some negated =>
      refine reads_put ?_
      simp only [Expr.tokens, Expr.meaning, hnull]
      rw [hread.run_closed hready, hready]
      rfl
    | none =>
      rw [hnull] at hright
      obtain ⟨hoperand, hright⟩ := hright.resolve_left (by simp)
      have hright := reads_tokens hr right _ (.compare op (left.meaning r.meaning t) :: fs) h.2 hright hslots.right
        (.inl hoperand)
      simp only [Expr.tokens, Expr.meaning, Expr.isClosed, hnull, Option.isSome_none, Bool.false_or]
      exact hright.behind (hread.run_extend hready rfl _) rfl fun hc => ⟨hc, (hready _).symm⟩
  | .logical left op right, n, fs, h, hg, hslots, _ => by
    simp only [Expr.isCondition, Bool.and_eq_true] at h
    simp only [Expr.isGrouped, Bool.and_eq_true] at hg
    simp only [Expr.slots] at hslots
    have hleft := reads_tokens hr left n (.group none [] :: fs) h.1 hg.1 hslots.left (.inr fun _ => rfl)
    have hright := reads_tokens hr right _ (.group (some op) [left.meaning r.meaning t] :: fs) h.2 hg.2 hslots.right
      (.inr fun _ => rfl)
    refine reads_put ?_
    have hopen := hleft.run_ends (k := .junctor op) rfl rfl
      (right.tokens d t (n + left.slots.length) ++ [.word .closing])
    exact hopen.trans (hright.run_ends rfl rfl [])
  | .junction op [], n, fs, _, _, _, _ => reads_put rfl
  | .junction op (e :: es), n, fs, h, hg, hslots, _ => by
    simp only [Expr.isCondition, Expr.areConditions, Bool.and_eq_true] at h
    simp only [Expr.isGrouped, Expr.areGrouped, Bool.and_eq_true] at hg
    simp only [Expr.slots, Expr.slotsAll] at hslots
    have hfirst := reads_tokens hr e n (.group none [] :: fs) h.1 hg.1 hslots.left (.inr fun _ => rfl)
    refine reads_put ?_
    exact run_group hr es _ h.2 hg.2 hslots.right hfirst (.inr ⟨rfl, rfl⟩) []
  | .not expr, n, fs, h, hg, hslots, _ => by
    by_cases hp : d.parenthesizeNot = true
    · have hread := reads_tokens hr expr n (.negatedGroup :: fs) h hg hslots (.inr fun _ => rfl)
      refine reads_put ?_
      simp only [Expr.tokens, hp, if_true, run_cons, step, start, hr.parenthesized]
      exact hread.run_ends rfl rfl []
    -- without parentheses the negation stays open until a keyword ends it
    · have hread := reads_tokens hr expr n (.negation :: fs) h hg hslots (.inr fun _ => rfl)
      refine hread.behind ?_ rfl fun hc => absurd hc hp
      simp [Expr.tokens, hp, run_cons, step, start, hr.parenthesized]
  | .isNull expr negated, n, fs, h, hg, hslots, hfs => by
    simp only [Expr.isGrouped, Bool.and_eq_true] at hg
    have hready : r.Ready fs := hfs.resolve_left (by simp [Expr.isOperand])
    have hread := reads_tokens hr expr n fs h hg.2 hslots (.inr hready)
    rw [hg.1] at hread
    refine reads_put ?_
    simp only [Expr.tokens, Expr.meaning]
    rw [hread.run_closed hready, hready]
    rfl
  | .between expr low high, n, fs, h, hg, hslots, hfs => by
    simp only [Expr.isCondition, Bool.and_eq_true] at h
    simp only [Expr.isGrouped, Bool.and_eq_true] at hg
    obtain ⟨⟨⟨⟨hclosed, hexpr⟩, hlow⟩, hoperand⟩, hhigh⟩ := hg
    have hready : r.Ready fs := hfs.resolve_left (by simp [Expr.isOperand])
    simp only [Expr.slots, ← List.append_assoc] at hslots
    have hread := reads_tokens hr expr n fs h.1.1 hexpr hslots.left.left (.inr hready)
    rw [hclosed] at hread
    have hlow := reads_tokens hr low _ (.low (expr.meaning r.meaning t) :: fs) h.1.2 hlow hslots.left.right
      (.inr fun _ => rfl)
    have hslotsHigh := hslots.right
    rw [List.length_append, ← Nat.add_assoc] at hslotsHigh
    have hhigh := reads_tokens hr high _ (.high (expr.meaning r.meaning t) (low.meaning r.meaning t) :: fs) h.2 hhigh
      hslotsHigh (.inl hoperand)
    refine hhigh.behind ?_ rfl fun hc => ⟨hc, (hready _).symm⟩
    exact (hread.run_extend hready rfl _).trans (hlow.run_ends rfl rfl _)
  | .inList expr [] negated, n, fs, _, _, _, _ => reads_put rfl
  | .inList expr (v :: vs) negated, n, fs, h, hg, hslots, hfs => by
    simp only [Expr.isCondition, Expr.areConditions, Bool.and_eq_true] at h
    simp only [Expr.isGrouped, Bool.and_eq_true] at hg
    obtain ⟨⟨⟨hclosed, hexpr⟩, hv⟩, hvs⟩ := hg
    have hready : r.Ready fs := hfs.resolve_left (by simp [Expr.isOperand])
    simp only [Expr.slots, Expr.slotsAll, List.isEmpty_cons, Bool.false_eq_true, if_false] at hslots
    have hread := reads_tokens hr expr n fs h.1 hexpr hslots.left (.inr hready)
    rw [hclosed] at hread
    have hfirst := reads_tokens hr v _ (.members negated (expr.meaning r.meaning t) [] :: fs) h.2.1 hv
      hslots.right.left (.inr fun _ => rfl)
    refine reads_put ?_
    exact (hread.run_extend hready rfl _).trans (run_members hr vs _ h.2.2 hvs hslots.right.right hfirst [])
  | .plain _, _, _, h, _, _, _ | .like .., _, _, h, _, _, _ | .function .., _, _, h, _, _, _
  | .aggregate .., _, _, h, _, _, _ | .compareFields .., _, _, h, _, _, _ | .select .., _, _, h, _, _, _
  | .order .., _, _, h, _, _, _ => by
    cases h

/-- Behind an operand in parentheses, the rest of a junction is read up to the closing one. -/
theorem run_group (hr : r.Fits d t) : ∀ (es : List Expr) (n : Nat) {op : LogicalOp} {o : Option LogicalOp} {before : List α}
    {fs : List (Frame α)} {ts : List Token} {a : α} {closed : Bool}, Expr.areConditions t es = true →
    Expr.areGrouped d es = true → r.Has n (Expr.slotsAll es) → Reads r ts (.group o before :: fs) a closed →
    (o = some op ∨ o = none ∧ before = []) → ∀ us : List Token,
    r.run (ts ++ (Expr.tokensAfter d t (.junctor op) n es ++ .word .closing :: us)) ⟨.group o before :: fs, none⟩ =
      r.run us (r.put fs (r.meaning.join op (before ++ a :: Expr.meanings r.meaning t es)))
  | [], n, op, o, before, fs, ts, a, closed, _, _, _, hread, ho, us => by
    simp only [Expr.tokensAfter, List.nil_append, Expr.meanings]
    rw [hread.run_ends rfl rfl]
    obtain rfl | ⟨rfl, rfl⟩ := ho
    · rfl
    · rw [List.nil_append, r.meaning.join_single op]
      rfl
  | e :: es, n, op, o, before, fs, ts, a, closed, h, hg, hslots, hread, ho, us => by
    simp only [Expr.areConditions, Bool.and_eq_true] at h
    simp only [Expr.areGrouped, Bool.and_eq_true] at hg
    simp only [Expr.slotsAll] at hslots
    have he := reads_tokens hr e n (.group (some op) (before ++ [a]) :: fs) h.1 hg.1 hslots.left (.inr fun _ => rfl)
    simp only [Expr.tokensAfter, List.cons_append, List.append_assoc, Expr.meanings]
    rw [hread.run_ends rfl rfl]
    have hrest := run_group hr es _ h.2 hg.2 hslots.right he (.inl rfl) us
    simpa [close] using hrest

/-- Behind an operand in a list, the rest of the list is read up to the closing parenthesis. -/
theorem run_members (hr : r.Fits d t) : ∀ (es : List Expr) (n : Nat) {negated : Bool} {subject : α} {before : List α}
    {fs : List (Frame α)} {ts : List Token} {a : α} {closed : Bool}, Expr.areConditions t es = true →
    Expr.areGrouped d es = true → r.Has n (Expr.slotsAll es) →
    Reads r ts (.members negated subject before :: fs) a closed → ∀ us : List Token,
    r.run (ts ++ (Expr.tokensAfter d t .comma n es ++ .word .closing :: us))
        ⟨.members negated subject before :: fs, none⟩ =
      r.run us (r.put fs (r.meaning.member negated subject (before ++ a :: Expr.meanings r.meaning t es)))
  | [], n, negated, subject, before, fs, ts, a, closed, _, _, _, hread, us => by
    simp only [Expr.tokensAfter, List.nil_append, Expr.meanings]
    rw [hread.run_ends rfl rfl]
    rfl
  | e :: es, n, negated, subject, before, fs, ts, a, closed, h, hg, hslots, hread, us => by
    simp only [Expr.areConditions, Bool.and_eq_true] at h
    simp only [Expr.areGrouped, Bool.and_eq_true] at hg
    simp only [Expr.slotsAll] at hslots
    have he := reads_tokens hr e n (.members negated subject (before ++ [a]) :: fs) h.1 hg.1 hslots.left
      (.inr fun _ => rfl)
    simp only [Expr.tokensAfter, List.cons_append, List.append_assoc, Expr.meanings]
    rw [hread.run_ends rfl rfl]
    have hrest := run_members hr es _ h.2 hg.2 hslots.right he us
    simpa [close] using hrest

end

end Reader

end SqlMapping
