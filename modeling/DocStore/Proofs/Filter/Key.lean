import DocStore.Proofs.Filter.Refusal

/-!
The keys of a filter. A key of a condition is known when it is a name of an
operator that has an SQL form, and a list of clauses stands under its glue; a
filter with any other key in these places is refused. Every other key of a
member is the name of a field, a dollar sign in front or not.
-/

namespace DocStore

/-- The names and further names of the operators that have an SQL form. -/
def Operator.sqlNames : List Text :=
  ["$eq", "$ne", "$gt", "$gte", "$lt", "$lte", "$in", "$nin", "$has", "$all", "$regex", "$size",
    "$mod", "$exists", "$text", "$options", "$match", "$preg"]

theorem Operator.mem_sqlNames_iff {key : Text} :
    key ∈ sqlNames ↔ ∃ op, parse? key = some op ∧ op.isSupported = true := by
  constructor
  · have hnames : ∀ key ∈ sqlNames, (parse? key).any isSupported = true := by decide
    intro h
    simpa [Option.any_eq_true] using hnames key h
  · rintro ⟨op, hop, hsupported⟩
    unfold parse? at hop
    split at hop
    next op' halias =>
      cases hop
      have haliases : ∀ p ∈ aliases, p.2.isSupported = true → p.1 ∈ sqlNames := by decide
      obtain ⟨before, after, hsplit, -⟩ := List.lookup_eq_some_iff.mp halias
      exact haliases (key, op) (by simp [hsplit]) hsupported
    next =>
      have hname : op.name = key := by simpa using List.find?_some hop
      subst hname
      revert hsupported
      cases op <;> decide

theorem Glue.ofKey?_eq_none_iff {key : Text} : ofKey? key = none ↔ ∀ g : Glue, key ≠ g.key := by
  constructor
  · rintro h g rfl
    rw [ofKey?_key] at h
    cases h
  · intro h
    cases hkey : ofKey? key with
    | none => rfl
    | some g => exact absurd (eq_key_of_ofKey? hkey) (h g)

namespace Filter

/-- A member of a filter whose keys are known. Under the keys of glue stands a list or tuple; under
any other key, which is taken for the name of a field, a value that is no object, or an object with
the names of operators for keys, or nothing but a negation of either. -/
inductive IsKnown : Text → Value → Prop where
  | clauses (g : Glue) {v : Value} {clauses : List Value} (h : v.items? = some clauses) :
    IsKnown g.key v
  | plain {field : Text} {v : Value} (hfield : ∀ g : Glue, field ≠ g.key) (h : v.members? = none) :
    IsKnown field v
  | conditions {field : Text} {conditions : Members} (hfield : ∀ g : Glue, field ≠ g.key)
    (h : ∀ m ∈ conditions, m.1 ∈ Operator.sqlNames) : IsKnown field (.object conditions)
  | negation {field : Text} {v : Value} (hfield : ∀ g : Glue, field ≠ g.key)
    (h : ∀ conditions, v.members? = some conditions → ∀ m ∈ conditions, m.1 ∈ Operator.sqlNames) :
    IsKnown field (.object [("$not", v)])

/-- A field whose conditions have the names of operators is known. -/
theorem isKnown_of_conditionsOf {field : Text} {v : Value} (hfield : ∀ g : Glue, field ≠ g.key)
    (h : ∀ m ∈ conditionsOf v, m.1 ∈ Operator.sqlNames) : IsKnown field v := by
  cases v with
  | object conditions =>
    rcases conditions with _ | ⟨⟨key, inner⟩, _ | ⟨m, rest⟩⟩
    · exact .conditions hfield h
    · by_cases hkey : key = "$not"
      · subst hkey
        refine .negation hfield fun conditions hconditions => ?_
        cases inner with
        | object ms =>
          cases hconditions
          simpa only [conditionsOf, if_true, Dialect.negated] using h
        | _ => cases hconditions
      · refine .conditions hfield ?_
        simpa only [conditionsOf, if_neg hkey] using h
    · exact .conditions hfield h
  | _ => exact .plain hfield rfl

end Filter

namespace Dialect

open DocStore.Filter

variable {d : Dialect} {criteria : Value}

/-- Every member of a filter that is compiled has known keys. -/
theorem isKnown_of_expression {sql : Option Sql} (h : d.expression criteria = .ok sql) {key : Text}
    {v : Value} (hm : HasMember criteria key v) : IsKnown key v := by
  obtain ⟨c, hc⟩ := exists_filter_ok hm h
  obtain ⟨c, hc, -⟩ := exists_member_ok hm hc
  cases hkey : Glue.ofKey? key with
  | some g =>
    obtain rfl := Glue.eq_key_of_ofKey? hkey
    cases hitems : v.items? with
    | some clauses => exact .clauses g hitems
    | none =>
      rw [filterMember_noClauses g hitems] at hc
      cases hc
  | none =>
    refine isKnown_of_conditionsOf (Glue.ofKey?_eq_none_iff.mp hkey) fun m hcondition => ?_
    rw [filterMember_field hkey] at hc
    obtain ⟨c, hc, -⟩ := exists_fieldCondition_ok hc hcondition
    obtain ⟨op, s, hop, hsupported, -, -⟩ := exists_operator_ok hc
    exact Operator.mem_sqlNames_iff.mpr ⟨op, hop, hsupported⟩

/-- The keys of a filter are known wherever the place decides what they mean: a filter that is
compiled has only known members, at any depth, and where the connection quotes every text a filter
with any other member is refused. -/
theorem expression_knows (d : Dialect) (criteria : Value) :
    (∀ sql, d.expression criteria = .ok sql →
        ∀ key v, HasMember criteria key v → IsKnown key v) ∧
      (d.QuotesEvery → ∀ key v, HasMember criteria key v → ¬IsKnown key v →
        ∃ refusal, d.expression criteria = .error (.filter refusal)) := by
  refine ⟨fun sql h key v hm => isKnown_of_expression h hm, fun hd key v hm hunknown => ?_⟩
  rcases expression_settles hd criteria with ⟨sql, hsql⟩ | hrefused
  · exact absurd (isKnown_of_expression hsql hm) hunknown
  · exact hrefused

/-- A misspelt operator in a clause. -/
theorem expression_knows_misspelt :
    let d : Dialect := ⟨.pgsql, fun t => .ok (doubleQuoted t)⟩
    let criteria (key : Text) : Value :=
      .object [("$or", .list [.object [("a", .object [("$not", .object [(key, .int 1)])])]])]
    (∃ sql, d.expression (criteria "$ne") = .ok sql) ∧
      IsKnown "a" (.object [("$not", .object [("$ne", .int 1)])]) ∧ d.QuotesEvery ∧
      ¬IsKnown "a" (.object [("$not", .object [("$neq", .int 1)])]) ∧
      ∃ refusal, d.expression (criteria "$neq") = .error (.filter refusal) := by
  intro d criteria
  have hsql : ∃ sql, d.expression (criteria "$ne") = .ok sql := ⟨_, rfl⟩
  have hd : d.QuotesEvery := fun t => ⟨doubleQuoted t, rfl⟩
  have hmember (key : Text) :
      HasMember (criteria key) "a" (.object [("$not", .object [(key, .int 1)])]) :=
    .clause (g := .or) List.mem_cons_self rfl List.mem_cons_self (.here List.mem_cons_self)
  have hunknown (field : Text) :
      ¬IsKnown field (.object [("$not", .object [("$neq", .int 1)])]) := by
    intro h
    cases h with
    | clauses g h => cases h
    | plain _ h => cases h
    | conditions _ h => exact absurd (h _ List.mem_cons_self) (by decide)
    | negation _ h => exact absurd (h _ rfl _ List.mem_cons_self) (by decide)
  obtain ⟨sql, hsql'⟩ := hsql
  exact ⟨⟨sql, hsql'⟩, (expression_knows d (criteria "$ne")).1 sql hsql' _ _ (hmember "$ne"), hd,
    hunknown _, (expression_knows d (criteria "$neq")).2 hd _ _ (hmember "$neq") (hunknown _)⟩

/-- A key with a dollar sign that is neither conjunction nor disjunction is taken for a field. -/
theorem not_expression_knows_dollar :
    ¬ ∀ (d : Dialect) (criteria : Value) (sql : Option Sql), d.expression criteria = .ok sql →
      ∀ key v, HasMember criteria key v → key.startsWith "$" = true → key = "$and" ∨ key = "$or" := by
  intro h
  have hsql : ∃ sql, expression ⟨.sqlite, fun t => .ok (doubleQuoted t)⟩
      (.object [("$text", .str "x")]) = .ok sql := ⟨_, rfl⟩
  obtain ⟨sql, hsql⟩ := hsql
  have hkey := h _ _ sql hsql "$text" (.str "x") (.here List.mem_cons_self) (by decide)
  revert hkey
  decide

end Dialect

end DocStore
