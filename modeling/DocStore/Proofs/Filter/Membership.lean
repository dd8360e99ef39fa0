import DocStore.Proofs.Dialect.Constant
import DocStore.Proofs.Filter.Satisfaction

/-!
Membership and equality. That a field is a member of a list, or of none, is one
comparison with all items of the list; that it is equal to one of the values, or
to none, is a clause for each of them. By the truth of SQL both say the same of
every row as long as no value is null: equality asks whether the field is NULL,
while a list compares with NULL, which is never known to be true.
-/

namespace DocStore

open Comparison

/-- The operator of equality, or of difference. -/
def Operator.equality (isNegated : Bool) : Operator := bif isNegated then .ne else .eq

/-- The operator of membership, or of its negation. -/
def Operator.membership (isNegated : Bool) : Operator := bif isNegated then .noneOf else .oneOf

namespace Dialect

variable {d : Dialect} {b : Bool} (hd : d.QuotedBy b)

section Tokens

include hd

/-- Every selector is the subject of whatever compares it. -/
theorem selector_isSubject {field : Text} {s : Sql} (h : d.selector field true = .ok s) :
    IsSubject (s.tokens (d.engine.lexisWith b)) := by
  obtain ⟨path, hpath, hs⟩ := exists_of_bind_ok h
  have hliteral : ∃ u, path.tokens (d.engine.lexisWith b) = [.literal u] := by
    unfold pathLiteral at hpath
    dsimp only at hpath
    split at hpath
    · exact quoted_tokens hd hpath
    · cases hpath
  obtain ⟨u, hu⟩ := hliteral
  have hcolumn : d.documentColumn.tokens (d.engine.lexisWith b) = [.name "document"] := by
    simp [documentColumn, Engine.documentColumn, Engine.column, Sql.tokens, Piece.tokens, Piece.text,
      Engine.lex_quoteName]
  obtain ⟨e, quote⟩ := d
  cases e with
  | mysql | pgsql =>
    cases hs
    simp only [Sql.tokens_append, hcolumn, hu]
    exact ⟨rfl, rfl, rfl, _, _, rfl, rfl, by decide⟩
  | sqlite =>
    cases hs
    have hopen : Sql.tokens (Engine.sqlite.lexisWith b) (Sql.code "json_extract(") =
        [.word "json_extract", .sign '('] := rfl
    simp only [Sql.tokens_append, hcolumn, hu, hopen]
    exact ⟨rfl, rfl, rfl, _, _, rfl, rfl, by decide⟩

/-- What an operator makes of an operand is an atom. -/
theorem truthOf_subject (w : List Token → Truth) {s : Sql} (hs : d.Makes s) {a ts : List Token}
    (ha : IsSubject a) (htokens : s.tokens (d.engine.lexisWith b) = a ++ ts) :
    (d.engine.lexisWith b).truthOf w s.render = w (a ++ ts) := by
  have hbalanced := (hs.isUnit hd).toIsBalanced
  have hnest := hbalanced.lex.2
  obtain ⟨t, us, rfl, hnegation, hparenthesis⟩ := ha.head
  rw [htokens] at hnest
  rw [Lexis.truthOf, hbalanced.ofText, Sql.formula, htokens]
  have hread : Formula.read (t :: us ++ ts) = .atom (t :: us ++ ts) :=
    Formula.read_atom hnest hnegation hparenthesis
  rw [hread]
  rfl

end Tokens

/-! ### Filters of one field -/

section Operators

variable {field : Text} {sel : Sql} (hsel : d.selector field true = .ok sel)
include hsel

theorem operator_equality (isNegated : Bool) {v : Value} {l : Sql} (hl : d.literal v = .ok l) :
    d.operator (.equality isNegated) field v =
      .ok (some (sel ++ if v.isNull then Sql.code (bif isNegated then " IS NOT NULL" else " IS NULL")
        else Sql.code (bif isNegated then " <> " else " = ") ++ l)) := by
  cases isNegated <;>
    · refine (ok_bind hsel _).trans ?_
      cases hv : v.isNull
      · exact (ok_bind hl _).trans (by rw [List.append_assoc]; rfl)
      · rfl

theorem operator_membership (isNegated : Bool) {vs : List Value} {ls : List Sql} (hne : vs ≠ [])
    (hls : vs.mapM d.literal = .ok ls) :
    d.operator (.membership isNegated) field (.list vs) =
      .ok (some (sel ++ (Sql.code (bif isNegated then " NOT IN (" else " IN (") ++
        (Sql.join ", " ls ++ ")")))) := by
  obtain ⟨v, vs, rfl⟩ := List.exists_cons_of_ne_nil hne
  have hliterals : d.literals (v :: vs) = .ok (Sql.join ", " ls) := ok_bind hls _
  have hamong : d.among (.membership isNegated) sel (.list (v :: vs)) = _ := ok_bind hliterals _
  simp only [← List.append_assoc]
  cases isNegated <;> exact (ok_bind hsel _).trans (congrArg (some <$> ·) hamong)

end Operators

/-- A single condition has the truth of the text that its operator makes. -/
theorem ask_of_operator {op : Operator} {field key : Text} {v : Value} {s : Sql}
    (hkey : Operator.parse? key = some op) (hop : d.operator op field v = .ok (some s))
    (a : Text → Truth) : d.ask a field key v = some (a s.render) := by
  rw [ask, hkey]
  dsimp only
  rw [hop]

theorem fieldConditions_of_operator {op : Operator} {field key : Text} {v : Value} {s : Sql}
    (hkey : Operator.parse? key = some op) (hsupported : op.isSupported = true)
    (hop : d.operator op field v = .ok (some s)) :
    d.fieldConditions field [(key, v)] = .ok (some (.all [.leaf s])) := by
  have hcondition : d.fieldCondition field key v = .ok (some (.leaf s)) := by
    rw [fieldCondition, hkey]
    simp [hsupported, hop, bind, Except.bind, pure, Except.pure]
  have hmap : [(key, v)].mapM (fun m => d.fieldCondition field m.1 m.2) =
      .ok [some (Condition.leaf s)] := by
    rw [List.mapM_cons]
    exact ok_bind hcondition _
  exact ok_bind hmap _

/-- A filter of one field and one operator. -/
theorem compiles_condition {op : Operator} {field key : Text} {v : Value} {s : Sql}
    (hfield : Glue.ofKey? field = none) (hkey : Operator.parse? key = some op)
    (hnot : key ≠ "$not") (hsupported : op.isSupported = true)
    (hop : d.operator op field v = .ok (some s)) :
    d.Compiles (.object [(field, .object [(key, v)])]) ∧
      ∀ a, Filter.truth (d.ask a) (.object [(field, .object [(key, v)])]) = some (a s.render) := by
  have hconditions := fieldConditions_of_operator hkey hsupported hop
  have hask (a : Text → Truth) := ask_of_operator hkey hop a
  have hmember : d.filterMember field (.object [(key, v)]) = .ok (some (.all [.leaf s])) := by
    rw [← hconditions]
    simp [filterMember, hfield, Dialect.field, hnot]
  refine ⟨compiles_singleton hmember, fun a => ?_⟩
  rw [Filter.truth_field _ hfield, ← hask]
  simp [Filter.fieldTruth, hnot]

/-- A filter of one field and a scalar that it must be equal to. -/
theorem compiles_equality {field : Text} {v : Value} {l s : Sql} (hfield : Glue.ofKey? field = none)
    (hl : d.literal v = .ok l) (hop : d.operator .eq field v = .ok (some s)) :
    d.Compiles (.object [(field, v)]) ∧
      ∀ a, Filter.truth (d.ask a) (.object [(field, v)]) = some (a s.render) := by
  have hkey : Operator.parse? Operator.eq.name = some .eq := by decide
  have hconditions := fieldConditions_of_operator hkey rfl hop
  have hask (a : Text → Truth) := ask_of_operator hkey hop a
  have hmember : d.filterMember field v = .ok (some (.all [.leaf s])) := by
    rw [← hconditions]
    cases v with
    | null | bool | int | float | str => simp [filterMember, hfield, Dialect.field]
    | _ => cases hl
  refine ⟨compiles_singleton hmember, fun a => ?_⟩
  rw [Filter.truth_field _ hfield, ← hask]
  cases v with
  | null | bool | int | float | str => rfl
  | _ => cases hl

/-! ### What a row knows -/

/-- The literals of some values, as the items of a list. -/
theorem items?_literals (hd : d.QuotedBy b) {vs : List Value} {ls : List Sql} (hne : vs ≠ [])
    (hls : vs.mapM d.literal = .ok ls) :
    items? (Formula.grouped (Sql.tokens (d.engine.lexisWith b) (Sql.join ", " ls))) =
      some (vs.map (d.constant b)) := by
  have hne' : ls.map (Sql.tokens (d.engine.lexisWith b)) ≠ [] := by
    rw [constants_of_literals hls]
    simpa using hne
  rw [tokens_commas, items?_grouped hne' (forall_isItem hd hls), constants_of_literals hls]

section Rows

variable {α : Type} (r : Valuation α) {field : Text} {sel : Sql}

/-- The truth of equality with a value, which is the question for NULL when the value is null. -/
def agreement (d : Dialect) (hasEscapes : Bool) (r : Valuation α) (subject : List Token) (v : Value) :
    Truth :=
  if v.isNull then r.truth (.isNull subject) else r.equation subject (d.constant hasEscapes v)

theorem agreement_null (subject : List Token) :
    d.agreement b r subject .null = r.truth (.isNull subject) := rfl

theorem agreement_of_ne_null (subject : List Token) {v : Value} (hv : v ≠ .null) :
    d.agreement b r subject v = r.equation subject (d.constant b v) := by
  cases v with
  | null => exact absurd rfl hv
  | _ => rfl

/-- A member is equal to one of the values. The converse needs a field that is not NULL, if one of the
values is null. -/
theorem any_equation_eq_yes (subject : List Token) (vs : List Value) :
    Truth.any (vs.map fun v => r.equation subject (d.constant b v)) = .yes ↔
      Glue.or.truth (vs.map (d.agreement b r subject)) = .yes ∧
        (.null ∈ vs → (r.value subject).isSome) := by
  simp only [Truth.any_eq_yes, Glue.truth_or_eq_yes, List.mem_map]
  constructor
  · rintro ⟨v, hv, hyes⟩
    have hnull : v ≠ .null := by
      rintro rfl
      rw [constant_null, r.equation_null] at hyes
      cases hyes
    refine ⟨⟨v, hv, by rw [agreement_of_ne_null r subject hnull, hyes]⟩, fun _ => ?_⟩
    by_contra hsome
    rw [r.equation_of_isNone (by simpa using hsome)] at hyes
    cases hyes
  · rintro ⟨⟨v, hv, hyes⟩, hsome⟩
    refine ⟨v, hv, ?_⟩
    by_cases hnull : v = .null
    · subst hnull
      have hvalue : (r.value subject).isNone = false := by simpa using hsome hv
      rw [agreement_null, Valuation.truth, hvalue] at hyes
      cases hyes
    · rw [← agreement_of_ne_null r subject hnull, hyes]

/-- What is known to be no member differs from all values. The converse needs values none of which is
null. -/
theorem not_any_equation_eq_yes (subject : List Token) (vs : List Value) :
    (Truth.any (vs.map fun v => r.equation subject (d.constant b v))).not = .yes ↔
      Glue.and.truth (vs.map fun v => (d.agreement b r subject v).not) = .yes ∧ .null ∉ vs := by
  simp only [Truth.not_eq_yes, Truth.any_eq_no, Glue.truth_and_eq_yes, List.forall_mem_map]
  constructor
  · intro hno
    have hnull : .null ∉ vs := by
      intro hmem
      have hunknown := hno .null hmem
      rw [constant_null, r.equation_null] at hunknown
      cases hunknown
    refine ⟨fun v hv => ?_, hnull⟩
    have hne : v ≠ .null := fun h => hnull (h ▸ hv)
    rw [agreement_of_ne_null r subject hne, hno v hv]
  · rintro ⟨hno, hnull⟩ v hv
    have hne : v ≠ .null := fun h => hnull (h ▸ hv)
    rw [← agreement_of_ne_null r subject hne, hno v hv]

variable (hd : d.QuotedBy b) (hsel : d.selector field true = .ok sel)
include hd hsel

/-- The truth of a text that an operator makes of a selector and further tokens. -/
theorem truthOf_comparison {s : Sql} {ts : List Token} {isNegated : Bool} {c : Comparison}
    (hs : d.Makes (sel ++ s)) (htokens : s.tokens (d.engine.lexisWith b) = ts)
    (hread : read (sel.tokens (d.engine.lexisWith b) ++ ts) = some (isNegated, c)) :
    (d.engine.lexisWith b).truthOf r.atom (sel ++ s).render = (r.truth c).negatedIf isNegated := by
  have hsubject := selector_isSubject hd hsel
  rw [truthOf_subject hd _ hs hsubject (by rw [Sql.tokens_append, htokens]), r.atom_of_read hread]

theorem truthOf_equality (isNegated : Bool) {v : Value} {l s : Sql} (hl : d.literal v = .ok l)
    (hop : d.operator (.equality isNegated) field v = .ok (some s)) :
    (d.engine.lexisWith b).truthOf r.atom s.render =
      (d.agreement b r (sel.tokens (d.engine.lexisWith b)) v).negatedIf isNegated := by
  have hsubject := selector_isSubject hd hsel
  have hmakes : d.Makes s := ⟨_, _, _, hop⟩
  rw [operator_equality hsel isNegated hl] at hop
  cases hop
  unfold agreement
  split at hmakes
  next hnull =>
    rw [if_pos hnull, if_pos hnull]
    refine truthOf_comparison hd r hsel hmakes ?_ (read_isNull hsubject isNegated)
    cases d.engine <;> cases isNegated <;> rfl
  next hnull =>
    have hfollow := (literal_isItem hd hl).mayFollow
    rw [if_neg hnull, if_neg hnull, constant_of_literal hl]
    refine truthOf_comparison hd r hsel hmakes ?_ (read_equals hsubject isNegated hfollow)
    rw [Sql.tokens_append]
    congr 1
    cases d.engine <;> cases isNegated <;> rfl

theorem truthOf_membership (isNegated : Bool) {vs : List Value} {ls : List Sql} (hne : vs ≠ [])
    (hls : vs.mapM d.literal = .ok ls) {s : Sql}
    (hop : d.operator (.membership isNegated) field (.list vs) = .ok (some s)) :
    (d.engine.lexisWith b).truthOf r.atom s.render =
      (Truth.any (vs.map fun v =>
        r.equation (sel.tokens (d.engine.lexisWith b)) (d.constant b v))).negatedIf isNegated := by
  have hmakes : d.Makes s := ⟨_, _, _, hop⟩
  rw [operator_membership hsel isNegated hne hls] at hop
  cases hop
  have hitems := items?_literals hd hne hls
  have hread := read_among (selector_isSubject hd hsel) isNegated hitems
  refine (truthOf_comparison hd r hsel hmakes ?_ hread).trans ?_
  · have hopen : Sql.tokens (d.engine.lexisWith b) (Sql.code (bif isNegated then " NOT IN (" else " IN (")) =
        (bif isNegated then [.word "NOT", .word "IN"] else [.word "IN"]) ++ [.sign '('] := by
      cases d.engine <;> cases isNegated <;> rfl
    have hclose : Sql.tokens (d.engine.lexisWith b) (Sql.code ")") = [.sign ')'] := by
      cases d.engine <;> rfl
    simp [hopen, hclose, Formula.grouped]
  · simp [Valuation.truth, Function.comp_def]

end Rows

/-! ### The four filters -/

/-- A filter that has a truth for every row is read as a formula of this truth. -/
theorem Compiles.exists_readsAs_of_truth (hd : d.QuotedBy b) {v : Value} (h : d.Compiles v)
    {t : (α : Type) → Valuation α → Truth}
    (htruth : ∀ (α : Type) (r : Valuation α),
      Filter.truth (d.ask ((d.engine.lexisWith b).truthOf r.atom)) v = some (t α r)) :
    ∃ f, d.ReadsAs b v f ∧ ∀ (α : Type) (r : Valuation α), f.eval r.atom = t α r := by
  -- One row is enough to see that there is an expression.
  let row : Valuation Unit := ⟨fun _ => none, fun _ _ => false, fun _ => .no, fun _ _ => rfl⟩
  have hasks := (h.truth_eq_none_iff hd _).not.mp (by rw [htruth _ row]; simp)
  obtain ⟨f, hreads, heval⟩ := h.exists_readsAs hd hasks
  refine ⟨f, hreads, fun α r => ?_⟩
  have heq := (heval r.atom).symm.trans (htruth α r)
  rwa [Option.some.injEq] at heq

/-- Clauses that each have a truth for every row have the truth that their key says. -/
theorem exists_readsAs_clauses (hd : d.QuotedBy b) (g : Glue) {vs : List Value} (hne : vs ≠ [])
    {clause : Value → Value} {t : (α : Type) → Valuation α → Value → Truth}
    (hclause : ∀ v ∈ vs, d.Compiles (clause v) ∧ ∀ (α : Type) (r : Valuation α),
      Filter.truth (d.ask ((d.engine.lexisWith b).truthOf r.atom)) (clause v) = some (t α r v)) :
    ∃ f, d.ReadsAs b (Filter.ofClauses g (vs.map clause)) f ∧
      ∀ (α : Type) (r : Valuation α), f.eval r.atom = g.truth (vs.map (t α r)) := by
  have hcompiles : d.Compiles (Filter.ofClauses g (vs.map clause)) := by
    refine compiles_ofClauses g fun c hc => ?_
    obtain ⟨v, hv, rfl⟩ := List.mem_map.mp hc
    exact (hclause v hv).1
  refine hcompiles.exists_readsAs_of_truth hd fun α r => ?_
  have htruths : (vs.map clause).filterMap
      (Filter.truth (d.ask ((d.engine.lexisWith b).truthOf r.atom))) = vs.map (t α r) := by
    rw [List.filterMap_map, ← List.filterMap_eq_map]
    exact List.filterMap_congr fun v hv => (hclause v hv).2 α r
  obtain ⟨v, vs, rfl⟩ := List.exists_cons_of_ne_nil hne
  rw [Filter.truth_ofClauses, htruths]
  rfl

section Filters

variable {field : Text} {sel : Sql} {vs : List Value} (hd : d.QuotedBy b)
  (hfield : Glue.ofKey? field = none) (hsel : d.selector field true = .ok sel) (hne : vs ≠ [])
  (hvs : ∀ v ∈ vs, ∃ l, d.literal v = .ok l)
include hd hfield hsel hne hvs

theorem exists_readsAs_membership (isNegated : Bool) :
    ∃ f, d.ReadsAs b
        (.object [(field, .object [((Operator.membership isNegated).name, .list vs)])]) f ∧
      ∀ (α : Type) (r : Valuation α), f.eval r.atom = (Truth.any (vs.map fun v =>
        r.equation (sel.tokens (d.engine.lexisWith b)) (d.constant b v))).negatedIf isNegated := by
  obtain ⟨ls, hls⟩ := exists_mapM_ok hvs
  have hop := operator_membership hsel isNegated hne hls
  have hkey : Operator.parse? (Operator.membership isNegated).name = some (.membership isNegated) := by
    cases isNegated <;> decide
  obtain ⟨hcompiles, htruth⟩ := compiles_condition hfield hkey (by cases isNegated <;> decide)
    (by cases isNegated <;> rfl) hop
  refine hcompiles.exists_readsAs_of_truth hd fun α r => ?_
  rw [htruth, truthOf_membership hd r hsel isNegated hne hls hop]

theorem exists_readsAs_equalities :
    ∃ f, d.ReadsAs b (Filter.ofClauses .or (vs.map fun v => .object [(field, v)])) f ∧
      ∀ (α : Type) (r : Valuation α), f.eval r.atom = Glue.or.truth
        (vs.map (d.agreement b r (sel.tokens (d.engine.lexisWith b)))) := by
  refine exists_readsAs_clauses hd .or hne fun v hv => ?_
  obtain ⟨l, hl⟩ := hvs v hv
  have hop := operator_equality hsel false hl
  obtain ⟨hcompiles, htruth⟩ := compiles_equality hfield hl hop
  exact ⟨hcompiles, fun α r => by rw [htruth, truthOf_equality hd r hsel false hl hop]; rfl⟩

theorem exists_readsAs_differences :
    ∃ f, d.ReadsAs b
        (Filter.ofClauses .and (vs.map fun v => .object [(field, .object [("$ne", v)])])) f ∧
      ∀ (α : Type) (r : Valuation α), f.eval r.atom = Glue.and.truth
        (vs.map fun v => (d.agreement b r (sel.tokens (d.engine.lexisWith b)) v).not) := by
  refine exists_readsAs_clauses hd .and hne fun v hv => ?_
  obtain ⟨l, hl⟩ := hvs v hv
  have hop := operator_equality hsel true hl
  have hkey : Operator.parse? "$ne" = some (.equality true) := by decide
  obtain ⟨hcompiles, htruth⟩ := compiles_condition hfield hkey (by decide) rfl hop
  exact ⟨hcompiles, fun α r => by rw [htruth, truthOf_equality hd r hsel true hl hop]; rfl⟩

/-- Membership agrees with equality but for null. On every row, a field is a member of the list exactly
when it is equal to one of the values, unless one of them is null and the field is NULL; and it is known
to be no member exactly when it differs from all values, unless one of them is null. -/
theorem membership_agrees :
    ∃ among either notAmong neither : Formula (List Token),
      d.ReadsAs b (.object [(field, .object [("$in", .list vs)])]) among ∧
      d.ReadsAs b (Filter.ofClauses .or (vs.map fun v => .object [(field, v)])) either ∧
      d.ReadsAs b (.object [(field, .object [("$nin", .list vs)])]) notAmong ∧
      d.ReadsAs b
        (Filter.ofClauses .and (vs.map fun v => .object [(field, .object [("$ne", v)])])) neither ∧
      ∀ (α : Type) (r : Valuation α),
        (among.eval r.atom = .yes ↔ either.eval r.atom = .yes ∧
          (.null ∈ vs → (r.value (sel.tokens (d.engine.lexisWith b))).isSome)) ∧
        (notAmong.eval r.atom = .yes ↔ neither.eval r.atom = .yes ∧ .null ∉ vs) := by
  obtain ⟨among, hamong, hin⟩ := exists_readsAs_membership hd hfield hsel hne hvs false
  obtain ⟨either, heither, hor⟩ := exists_readsAs_equalities hd hfield hsel hne hvs
  obtain ⟨notAmong, hnotAmong, hnin⟩ := exists_readsAs_membership hd hfield hsel hne hvs true
  obtain ⟨neither, hneither, hand⟩ := exists_readsAs_differences hd hfield hsel hne hvs
  refine ⟨among, either, notAmong, neither, hamong, heither, hnotAmong, hneither, fun α r => ?_⟩
  rw [hin, hor, hnin, hand]
  exact ⟨any_equation_eq_yes r _ vs, not_any_equation_eq_yes r _ vs⟩

end Filters

/-- A list of a number, null and a text. -/
theorem membership_agrees_mixture :
    let d := native .mysql
    let vs : List Value := [.int 1, .null, .str "x'"]
    ∃ sel, d.selector "a.b" true = .ok sel ∧
      ∃ among either notAmong neither : Formula (List Token),
        d.ReadsAs true (.object [("a.b", .object [("$in", .list vs)])]) among ∧
        d.ReadsAs true (Filter.ofClauses .or (vs.map fun v => .object [("a.b", v)])) either ∧
        d.ReadsAs true (.object [("a.b", .object [("$nin", .list vs)])]) notAmong ∧
        d.ReadsAs true
          (Filter.ofClauses .and (vs.map fun v => .object [("a.b", .object [("$ne", v)])])) neither ∧
        ∀ (α : Type) (r : Valuation α),
          (among.eval r.atom = .yes ↔ either.eval r.atom = .yes ∧
            (.null ∈ vs → (r.value (sel.tokens (d.engine.lexisWith true))).isSome)) ∧
          (notAmong.eval r.atom = .yes ↔ neither.eval r.atom = .yes ∧ .null ∉ vs) := by
  have hvs : ∀ v ∈ ([.int 1, .null, .str "x'"] : List Value),
      ∃ l, (native .mysql).literal v = .ok l := by
    simp only [List.forall_mem_cons]
    exact ⟨⟨_, rfl⟩, ⟨_, rfl⟩, ⟨_, rfl⟩, by simp⟩
  exact ⟨_, rfl, membership_agrees (native_quotedBy .mysql) (by decide) rfl (by simp) hvs⟩

/-- Where a field is NULL it is equal to null, and is no member of a list of null. -/
theorem not_membership_agrees_null :
    ¬ ∀ (vs : List Value) (among either : Formula (List Token)), vs ≠ [] →
      (∀ v ∈ vs, ∃ l, (native .pgsql).literal v = .ok l) →
      (native .pgsql).ReadsAs false (.object [("a", .object [("$in", .list vs)])]) among →
      (native .pgsql).ReadsAs false (Filter.ofClauses .or (vs.map fun v => .object [("a", v)])) either →
      ∀ r : Valuation Unit, among.eval r.atom = .yes ↔ either.eval r.atom = .yes := by
  intro hagrees
  have hfield : Glue.ofKey? "a" = none := by decide
  have hsel : ∃ sel, (native .pgsql).selector "a" true = .ok sel := ⟨_, rfl⟩
  obtain ⟨sel, hsel⟩ := hsel
  have hvs : ∀ v ∈ [Value.null], ∃ l, (native .pgsql).literal v = .ok l := by
    simp only [List.forall_mem_cons]
    exact ⟨⟨_, rfl⟩, by simp⟩
  have hd := native_quotedBy .pgsql
  obtain ⟨among, hamong, hin⟩ := exists_readsAs_membership hd hfield hsel (by simp) hvs false
  obtain ⟨either, heither, hor⟩ := exists_readsAs_equalities hd hfield hsel (by simp) hvs
  let row : Valuation Unit := ⟨fun _ => none, fun _ _ => true, fun _ => .no, fun _ _ => rfl⟩
  have hboth := hagrees _ among either (by simp) hvs hamong heither row
  rw [hin, hor] at hboth
  have hunknown : Truth.unknown = .yes := hboth.mpr rfl
  cases hunknown

end Dialect

end DocStore
