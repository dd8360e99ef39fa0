import DocStore.Proofs.Filter.Clause
import DocStore.Proofs.Filter.Key
import DocStore.Proofs.Text.Encodable

/-!
Clauses that can be sent. A clause has a UTF-8 form when the names of its fields
have: every text of an argument is checked where it is quoted, or written as
JSON in ASCII. The names of fields are quoted unchecked, and are the only texts
without UTF-8 form that a clause can have in it.
-/

namespace DocStore

namespace Value

/-- A text occurs in a value: as the value itself, the source of a pattern, a key, or inside. -/
inductive Mentions (t : Text) : Value → Prop where
  | str : Mentions t (.str t)
  | pattern : Mentions t (.pattern t)
  | item {v w : Value} {vs : List Value} (hitems : v.items? = some vs) (hw : w ∈ vs)
    (h : Mentions t w) : Mentions t v
  | key {ms : Members} {v : Value} (h : (t, v) ∈ ms) : Mentions t (.object ms)
  | member {ms : Members} {key : Text} {v : Value} (hm : (key, v) ∈ ms) (h : Mentions t v) :
    Mentions t (.object ms)

variable {t : Text} {v : Value}

theorem Mentions.exists_item {vs : List Value} (hitems : v.items? = some vs) (h : v.Mentions t) :
    ∃ w ∈ vs, w.Mentions t := by
  cases h with
  | item hitems' hw h =>
    rw [hitems] at hitems'
    cases hitems'
    exact ⟨_, hw, h⟩
  | str | pattern | key _ | member _ _ => cases hitems

/-- The only text in a scalar is the scalar itself. -/
theorem Mentions.eq_str (hv : v.isScalar = true) (h : v.Mentions t) : v = .str t := by
  cases h with
  | str => rfl
  | item hitems _ _ => cases v <;> cases hitems <;> cases hv
  | pattern | key _ | member _ _ => cases hv

theorem Mentions.number?_eq_none (h : v.Mentions t) : v.number? = none := by
  cases v with
  | int _ | float _ => cases h.eq_str rfl
  | _ => rfl

theorem Mentions.isTruthy (ht : t.isEncodable = false) (h : v.Mentions t) : v.isTruthy = true := by
  cases h with
  | str =>
    cases t with
    | nil => cases ht
    | cons c t => rfl
  | pattern => rfl
  | item hitems hw _ =>
    obtain ⟨w, vs, rfl⟩ := List.exists_cons_of_ne_nil (List.ne_nil_of_mem hw)
    cases v <;> cases hitems <;> rfl
  | key h | member h _ =>
    obtain ⟨m, ms, rfl⟩ := List.exists_cons_of_ne_nil (List.ne_nil_of_mem h)
    rfl

end Value

namespace Dialect

open DocStore.Filter Value

/-- The quoting brings in nothing that has no UTF-8 form. -/
def QuotesEncodable (d : Dialect) : Prop :=
  ∀ t l, d.quote t = .ok l → t.isEncodable = true → l.isEncodable = true

variable {d : Dialect}

/-! ### What is written -/

theorem Origin.isEncodable (hd : d.QuotesEncodable) {field : Text} {numbers : List Number}
    (hfield : field.isEncodable = true) {p : Piece} (h : d.Origin field numbers p) :
    p.text.isEncodable = true := by
  cases h with
  | word _ => exact Text.isEncodable_ofString _
  | column => cases d.engine <;> decide
  | fixed _ => simp [Piece.text]
  | path ht hl =>
    refine hd _ _ hl ?_
    rcases ht with ht | ht
    · exact Path.isEncodable_json ht hfield
    · exact Path.isEncodable_textArray ht hfield
  | text ht hl => exact hd _ _ hl ht
  | number _ => exact isEncodable_display _

theorem isEncodable_render {sql : Sql} (h : ∀ p ∈ sql, p.text.isEncodable = true) :
    sql.render.isEncodable = true := by
  rw [Sql.render, Text.isEncodable_flatMap, List.all_eq_true]
  exact h

theorem isEncodable_expression (hd : d.QuotesEncodable) {criteria : Value} {sql : Sql}
    (hfields : ∀ field v, HasField criteria field v → field.isEncodable = true)
    (h : d.expression criteria = .ok (some sql)) : sql.render.isEncodable = true := by
  refine isEncodable_render ((expression_comesTo (R := fun _ => True) (fun _ => trivial)
    (fun w _ => Text.isEncodable_ofString w) (fun _ _ _ _ => .inr fun _ => trivial)
    fun field key v op hcondition _ hsupported => ?_).of_ok h sql rfl)
  obtain ⟨w, hfield, -⟩ := hcondition
  exact (operator_writes hsupported field v).mono
    (fun s hs sql hsql p hp => (hs sql hsql p hp).isEncodable hd (hfields field w hfield))
    fun _ _ => trivial

theorem isEncodable_whereClause (hd : d.QuotesEncodable) {criteria : Value} {sql : Sql}
    (hfields : ∀ field v, HasField criteria field v → field.isEncodable = true)
    (h : d.whereClause criteria = .ok (some sql)) : sql.render.isEncodable = true := by
  obtain ⟨expression, hexpression, h⟩ := exists_of_bind_ok h
  obtain ⟨sql, rfl, rfl⟩ := Option.map_eq_some_iff.mp (Except.ok.inj h)
  rw [Sql.render_append, Text.isEncodable_append, isEncodable_expression hd hfields hexpression]
  decide

theorem isEncodable_sortItem (hd : d.QuotesEncodable) {name : Text}
    (hname : name.isEncodable = true) {v : Value} {item : Sql} (h : d.sortItem name v = .ok item) :
    ∀ p ∈ item, p.text.isEncodable = true := by
  obtain ⟨selector, hselector, h⟩ := exists_of_bind_ok h
  obtain ⟨word, -, ⟨⟩⟩ := exists_of_bind_ok h
  have hwritten : d.Writes name [] (d.selector name false) := selector_writes false
  have hcode (w : String) : ∀ p ∈ Sql.code w, p.text.isEncodable = true :=
    List.forall_mem_singleton.mpr (Text.isEncodable_ofString w)
  have hpath (p : Piece) (hp : p ∈ selector) : p.text.isEncodable = true :=
    (hwritten.of_ok hselector p hp).isEncodable hd hname
  exact List.forall_mem_append.mpr
    ⟨hpath, List.forall_mem_append.mpr ⟨hcode " ", hcode word⟩⟩

theorem isEncodable_orderClause (hd : d.QuotesEncodable) {sort : Members} {sql : Sql}
    (hnames : ∀ m ∈ sort, m.1.isEncodable = true)
    (h : d.orderClause (.object sort) = .ok (some sql)) : sql.render.isEncodable = true := by
  unfold orderClause at h
  split at h
  · cases h
  · obtain ⟨items, hitems, ⟨⟩⟩ := exists_of_bind_ok h
    refine isEncodable_render (List.forall_mem_append.mpr
      ⟨List.forall_mem_singleton.mpr (Text.isEncodable_ofString _),
        Sql.forall_mem_join (Text.isEncodable_ofString _) fun item hitem => ?_⟩)
    obtain ⟨m, hm, hitem⟩ := exists_of_mem_mapM_ok hitems hitem
    exact isEncodable_sortItem hd (hnames m hm) hitem

/-! ### What is read -/

variable {t : Text} {v : Value}

theorem isEncodable_of_textLiteral {s : Sql} (h : d.textLiteral t = .ok s) :
    t.isEncodable = true := by
  unfold textLiteral at h
  split at h
  next ht => exact ht
  next => cases h

/-- What has a literal has no text without UTF-8 form in it. -/
theorem isEncodable_of_literal {s : Sql} (h : d.literal v = .ok s) (ht : v.Mentions t) :
    t.isEncodable = true := by
  cases v with
  | null | bool _ | int _ | float _ => cases ht.eq_str rfl
  | str u =>
    cases ht.eq_str rfl
    exact isEncodable_of_textLiteral h
  | _ => cases h

theorem isEncodable_of_literals {vs : List Value} {ls : List Sql} (h : vs.mapM d.literal = .ok ls)
    (hitems : v.items? = some vs) (ht : v.Mentions t) : t.isEncodable = true := by
  obtain ⟨w, hw, ht⟩ := ht.exists_item hitems
  obtain ⟨l, hl, -⟩ := exists_ok_of_mapM_ok h hw
  exact isEncodable_of_literal hl ht

theorem exists_literal_of_compares {op : Operator} {field : Text} {selector s : Sql}
    (h : d.compares op field selector v = .ok s) : ∃ l, d.literal v = .ok l := by
  unfold compares at h
  dsimp only at h
  split at h
  · cases h
  · split at h
    all_goals
      obtain ⟨target, -, h⟩ := exists_of_bind_ok h
      obtain ⟨l, hl, -⟩ := exists_of_bind_ok h
      exact ⟨l, hl⟩

theorem isEncodable_of_patternOf {pattern : Text} (h : patternOf v = .ok pattern)
    (hpattern : pattern.isEncodable = true) (ht : v.Mentions t) : t.isEncodable = true := by
  unfold patternOf at h
  split at h
  · cases h
  next =>
    cases h
    cases ht with
    | pattern => exact Text.isEncodable_of_withoutDelimiters hpattern
    | item hitems _ _ => cases hitems
  · cases h
  next =>
    cases h
    cases ht.eq_str rfl
    exact Text.isEncodable_of_withoutDelimiters hpattern
  · cases h

/-- A pair of numbers has no text in it. -/
theorem not_mentions_of_divisionOf {pair : Number × Number} (h : divisionOf v = .ok pair) :
    ¬v.Mentions t := by
  intro ht
  unfold divisionOf at h
  dsimp only at h
  split at h
  next divisor hitems =>
    obtain ⟨w, hw, ht⟩ := ht.exists_item hitems
    obtain rfl := List.mem_singleton.mp hw
    simp [ht.number?_eq_none] at h
  next divisor remainder hitems =>
    obtain ⟨w, hw, ht⟩ := ht.exists_item hitems
    obtain rfl | hw := List.mem_cons.mp hw
    · simp [ht.number?_eq_none] at h
    · obtain rfl := List.mem_singleton.mp hw
      simp [ht.number?_eq_none] at h
  next => cases h

/-- The operators whose argument may have a text without UTF-8 form: those that do not write their
argument, and in one engine the one that writes it as JSON. -/
def LeavesUnchecked (d : Dialect) (op : Operator) : Prop :=
  op = .present ∨ op = .options ∨ op = .all ∧ d.engine = .pgsql

/-- Every other operator refuses an argument with such a text in it. -/
theorem isEncodable_of_operator (hd : d.QuotesEvery) {op : Operator} {field : Text}
    {s : Option Sql} (h : d.operator op field v = .ok s) (hop : ¬d.LeavesUnchecked op)
    (ht : v.Mentions t) : t.isEncodable = true := by
  cases hfield : Path.segments field with
  | error fault =>
    rw [operator_of_segments_error hfield] at h
    cases h
  | ok keys =>
    obtain ⟨selector, -, h⟩ := exists_of_bind_ok h
    have hscalar (hnull : v.isNull = true) : t.isEncodable = true := by
      cases v with
      | null => cases ht.eq_str rfl
      | _ => cases hnull
    cases op with
    | eq | ne =>
      dsimp only at h
      split at h
      next hnull => exact hscalar hnull
      next =>
        obtain ⟨l, hl, -⟩ := exists_of_bind_ok h
        exact isEncodable_of_literal hl ht
    | gt | gte | lt | lte =>
      obtain ⟨s, hs, -⟩ := exists_of_map_ok h
      obtain ⟨l, hl⟩ := exists_literal_of_compares hs
      exact isEncodable_of_literal hl ht
    | oneOf | noneOf =>
      obtain ⟨s, hs, -⟩ := exists_of_map_ok h
      unfold among at hs
      split at hs
      · cases hs
      next hitems =>
        obtain ⟨w, hw, -⟩ := ht.exists_item hitems
        cases hw
      next hitems =>
        obtain ⟨l, hl, -⟩ := exists_of_bind_ok hs
        obtain ⟨ls, hls, -⟩ := exists_of_bind_ok hl
        exact isEncodable_of_literals hls hitems ht
    | has =>
      dsimp only at h
      split at h
      · cases h
      next hv =>
        obtain ⟨s, hs, -⟩ := exists_of_map_ok h
        obtain ⟨l, hl⟩ := (hd.has_accord hfield (by simp_all)).exists_ok hs
        exact isEncodable_of_literal hl ht
    | all =>
      have hengine : d.engine ≠ .pgsql := fun he => hop (.inr (.inr ⟨rfl, he⟩))
      dsimp only at h
      split at h
      · cases h
      next hvs =>
        obtain ⟨w, hw, -⟩ := ht.exists_item (items_of_scalarsOf hvs).1
        cases hw
      next vs _ hvs =>
        obtain ⟨hitems, hscalars⟩ := items_of_scalarsOf hvs
        obtain ⟨s, hs, -⟩ := exists_of_map_ok h
        obtain ⟨ls, hls⟩ :=
          (hd.hasAll_accord hfield hscalars fun he => absurd he hengine).exists_ok hs
        exact isEncodable_of_literals hls hitems ht
    | regex =>
      dsimp only at h
      split at h
      · cases h
      next pattern hpattern =>
        obtain ⟨s, hs, -⟩ := exists_of_map_ok h
        obtain ⟨l, hl, -⟩ := exists_of_bind_ok hs
        exact isEncodable_of_patternOf hpattern (isEncodable_of_textLiteral hl) ht
    | size =>
      dsimp only at h
      split at h
      · cases ht.eq_str rfl
      · cases h
    | mod =>
      dsimp only at h
      split at h
      · cases h
      next hdivision => exact absurd ht (not_mentions_of_divisionOf hdivision)
    | present => exact absurd (.inl rfl) hop
    | text =>
      dsimp only at h
      split at h
      next u =>
        obtain ⟨l, hl, -⟩ := exists_of_bind_ok h
        cases ht.eq_str rfl
        rw [← Text.isEncodable_containing]
        exact isEncodable_of_textLiteral hl
      next => cases h
    | options => exact absurd (.inr (.inl rfl)) hop
    | func | fuzzy => cases h

/-! ### Where a text without UTF-8 form passes -/

/-- The text is the name of a field of a filter, or occurs in an argument that is left unchecked. -/
def PassesIn (d : Dialect) (filter : Value) (t : Text) : Prop :=
  (∃ v, HasField filter t v) ∨ ∃ field key v op, HasCondition filter field key v ∧
    Operator.parse? key = some op ∧ d.LeavesUnchecked op ∧ v.Mentions t

theorem PassesIn.clause {ms : Members} {g : Glue} {w clause : Value} {clauses : List Value}
    (hw : (g.key, w) ∈ ms) (hitems : w.items? = some clauses) (hclause : clause ∈ clauses)
    (h : d.PassesIn clause t) : d.PassesIn (.object ms) t := by
  rcases h with ⟨v, hmember, hfield⟩ | ⟨field, key, v, op, ⟨u, ⟨hmember, hfield⟩, hv⟩, hop, ht⟩
  · exact .inl ⟨v, .clause hw hitems hclause hmember, hfield⟩
  · exact .inr ⟨field, key, v, op, ⟨u, ⟨.clause hw hitems hclause hmember, hfield⟩, hv⟩, hop, ht⟩

/-- What occurs in what is asked of a field occurs in its conditions. -/
theorem exists_condition_of_mentions (ht : v.Mentions t) :
    t = "$not" ∨ (∃ w, (t, w) ∈ conditionsOf v) ∨ ∃ m ∈ conditionsOf v, m.2.Mentions t := by
  have hobject {conditions : Members} (ht : (Value.object conditions).Mentions t) :
      (∃ w, (t, w) ∈ conditions) ∨ ∃ m ∈ conditions, m.2.Mentions t := by
    cases ht with
    | key h => exact .inl ⟨_, h⟩
    | member hm h => exact .inr ⟨_, hm, h⟩
    | item hitems _ _ => cases hitems
  cases v with
  | object conditions =>
    rcases conditions with _ | ⟨⟨key, inner⟩, _ | ⟨m, rest⟩⟩
    · exact .inr (hobject ht)
    · by_cases hkey : key = "$not"
      · simp only [conditionsOf, if_pos hkey]
        rcases hobject ht with ⟨w, hw⟩ | ⟨m, hm, ht⟩
        · cases List.mem_singleton.mp hw
          exact .inl hkey
        · cases List.mem_singleton.mp hm
          cases inner with
          | object ms => exact .inr (hobject ht)
          | _ => exact .inr (.inr ⟨_, List.mem_singleton_self _, ht⟩)
      · simp only [conditionsOf, if_neg hkey]
        exact .inr (hobject ht)
    · exact .inr (hobject ht)
  | _ => exact .inr (.inr ⟨_, List.mem_singleton_self _, ht⟩)

theorem isEncodable_sqlNames : ∀ key ∈ Operator.sqlNames, key.isEncodable = true := by decide

/-- In a field that is compiled the text occurs in an argument that is left unchecked. -/
theorem exists_unchecked_of_field (hd : d.QuotesEvery) {name : Text} {c : Option Condition}
    (h : d.field name v = .ok c) (hencodable : t.isEncodable = false) (ht : v.Mentions t) :
    ∃ key w op, (key, w) ∈ conditionsOf v ∧ Operator.parse? key = some op ∧
      d.LeavesUnchecked op ∧ w.Mentions t := by
  have hcondition {key : Text} {w : Value} (hm : (key, w) ∈ conditionsOf v) :
      ∃ op s, Operator.parse? key = some op ∧ op.isSupported = true ∧
        d.operator op name w = .ok s := by
    obtain ⟨c, hc, -⟩ := exists_fieldCondition_ok h hm
    obtain ⟨op, s, hop, hsupported, hs, -⟩ := exists_operator_ok hc
    exact ⟨op, s, hop, hsupported, hs⟩
  rcases exists_condition_of_mentions ht with rfl | ⟨w, hm⟩ | ⟨⟨key, w⟩, hm, ht⟩
  · cases hencodable
  · obtain ⟨op, -, hop, hsupported, -⟩ := hcondition hm
    have hname := isEncodable_sqlNames t (Operator.mem_sqlNames_iff.mpr ⟨op, hop, hsupported⟩)
    rw [hencodable] at hname
    cases hname
  · obtain ⟨op, s, hop, -, hs⟩ := hcondition hm
    refine ⟨key, w, op, hm, hop, ?_, ht⟩
    by_contra hchecked
    rw [isEncodable_of_operator hd hs hchecked ht] at hencodable
    cases hencodable

/-- A text without UTF-8 form that occurs in a filter that is compiled passes in it, and one that
occurs in clauses that are compiled passes in one of them. -/
theorem passesIn_of_mentions (hd : d.QuotesEvery) (hencodable : t.isEncodable = false)
    (ht : v.Mentions t) :
    (∀ c, d.filter v = .ok c → d.PassesIn v t) ∧
      ∀ vs cs, v.items? = some vs → d.filterClauses vs = .ok cs →
        ∃ clause ∈ vs, d.PassesIn clause t := by
  induction ht with
  | str | pattern => exact ⟨(fun _ h => nomatch h), fun _ _ h => nomatch h⟩
  | @item v w vs hitems hw _ ih =>
    constructor
    · intro c h
      cases v <;> cases hitems <;> cases h
    · intro vs' cs hitems' h
      rw [hitems] at hitems'
      cases hitems'
      obtain ⟨c, hc, -⟩ := exists_clause_ok h hw
      exact ⟨w, hw, ih.1 c hc⟩
  | @key ms v hm =>
    refine ⟨fun c h => .inl ⟨v, .here hm, ?_⟩, fun _ _ h => nomatch h⟩
    cases hkey : Glue.ofKey? t with
    | none => rfl
    | some g =>
      obtain rfl := Glue.eq_key_of_ofKey? hkey
      cases g <;> cases hencodable
  | @member ms key v hm ht ih =>
    refine ⟨fun c h => ?_, fun _ _ h => nomatch h⟩
    obtain ⟨cs, hcs, -⟩ := exists_of_bind_ok h
    obtain ⟨c, hc, -⟩ := exists_filterMember_ok hcs hm
    cases hkey : Glue.ofKey? key with
    | none =>
      rw [filterMember_field hkey] at hc
      obtain ⟨key', w, op, hw, hop, hunchecked, ht⟩ := exists_unchecked_of_field hd hc hencodable ht
      exact .inr ⟨key, key', w, op, ⟨v, ⟨.here hm, hkey⟩, hw⟩, hop, hunchecked, ht⟩
    | some g =>
      obtain rfl := Glue.eq_key_of_ofKey? hkey
      cases hitems : v.items? with
      | none =>
        rw [filterMember_noClauses g hitems] at hc
        cases hc
      | some vs =>
        rw [filterMember_clauses g hitems] at hc
        obtain ⟨cs, hcs, -⟩ := exists_of_map_ok hc
        obtain ⟨clause, hclause, hpasses⟩ := ih.2 vs cs hitems hcs
        exact hpasses.clause hm hitems hclause

/-! ### Sort orders -/

theorem isEncodable_of_direction {name : Text} {word : String} (h : direction name v = .ok word)
    (ht : v.Mentions t) : t.isEncodable = true := by
  simp only [direction] at h
  split at h
  next known hknown =>
    split at hknown
    next u =>
      cases ht.eq_str rfl
      obtain ⟨before, after, hwords, -⟩ := List.lookup_eq_some_iff.mp hknown
      have hall : ∀ p ∈ directionWords, p.1.isEncodable = true := by decide
      exact Text.isEncodable_of_lower_strip (hall (t.strip.lower, known) (by simp [hwords]))
    next =>
      rw [ht.number?_eq_none] at hknown
      cases hknown
  next => split at h <;> cases h

/-! ### Clauses -/

/-- What a dialect sends for filters and sort orders has a UTF-8 form but for the names of fields. -/
structure SendsEncodable (d : Dialect) : Prop where
  /-- The clause of a filter has a UTF-8 form when the names of its fields have. -/
  whereClause : ∀ criteria sql, d.whereClause criteria = .ok (some sql) →
    (∀ field v, HasField criteria field v → field.isEncodable = true) →
    sql.render.isEncodable = true
  /-- The clause of a sort order has a UTF-8 form when the names of its fields have. -/
  orderClause : ∀ sort sql, d.orderClause (.object sort) = .ok (some sql) →
    (∀ m ∈ sort, m.1.isEncodable = true) → sql.render.isEncodable = true
  /-- A text without UTF-8 form that is not the name of a field, and in no argument that is left
  unchecked, makes a filter refused; the reason is an argument of the wrong form, unless the filter
  has an operator that is not known. -/
  criteria : ∀ criteria t, criteria.Mentions t → t.isEncodable = false →
    d.PassesIn criteria t ∨ ∃ refusal, d.whereClause criteria = .error (.filter refusal) ∧
      ((∀ field key v, HasCondition criteria field key v → key ∈ Operator.sqlNames) →
        ∃ a, refusal = .argument a)
  /-- In a direction such a text makes a sort order refused, for an argument of the wrong form,
  unless it comes to a direction that cannot be looked up. -/
  direction : ∀ sort m t, m ∈ sort → m.2.Mentions t → t.isEncodable = false →
    (∃ a : ArgumentFault, d.orderClause (.object sort) = .error ↑a) ∨ d.Stumbles sort

theorem criteria_passes (hd : d.QuotesEvery) {criteria : Value} (ht : criteria.Mentions t)
    (hencodable : t.isEncodable = false) :
    d.PassesIn criteria t ∨ ∃ refusal, d.whereClause criteria = .error (.filter refusal) ∧
      ((∀ field key v, HasCondition criteria field key v → key ∈ Operator.sqlNames) →
        ∃ a, refusal = .argument a) := by
  rcases expression_settles hd criteria with ⟨sql, hsql⟩ | ⟨refusal, hrefusal⟩
  · obtain ⟨c, hc, -⟩ := exists_condition_ok hsql
    rw [condition, if_pos (ht.isTruthy hencodable)] at hc
    exact .inl ((passesIn_of_mentions hd hencodable ht).1 c hc)
  · refine .inr ⟨refusal, ?_, fun hkeys => ?_⟩
    · rw [Dialect.whereClause, hrefusal]
      rfl
    · have hchecks : Checks (d.expression criteria) :=
        expression_checks hd fun field key v hm =>
          Operator.mem_sqlNames_iff.mp (hkeys field key v hm)
      obtain ⟨a, ha⟩ := hchecks.of_error hrefusal
      cases ha
      exact ⟨a, rfl⟩

theorem direction_refused (hd : d.QuotesEvery) {sort : Members} {m : Text × Value} (hm : m ∈ sort)
    (ht : m.2.Mentions t) (hencodable : t.isEncodable = false) :
    (∃ a : ArgumentFault, d.orderClause (.object sort) = .error ↑a) ∨ d.Stumbles sort := by
  obtain ⟨first, rest, rfl⟩ := List.exists_cons_of_ne_nil (List.ne_nil_of_mem hm)
  rcases mapM_sortItem_cases hd (first :: rest) with ⟨hchecks, -⟩ | ⟨-, h⟩
  · cases hitems : (first :: rest).mapM fun m => d.sortItem m.1 m.2 with
    | ok items =>
      obtain ⟨item, hitem, -⟩ := exists_ok_of_mapM_ok hitems hm
      obtain ⟨selector, -, h⟩ := exists_of_bind_ok hitem
      obtain ⟨word, hword, -⟩ := exists_of_bind_ok h
      rw [isEncodable_of_direction hword ht] at hencodable
      cases hencodable
    | error fault =>
      obtain ⟨a, rfl⟩ := hchecks.of_error hitems
      refine .inl ⟨a, ?_⟩
      show (List.mapM (fun m => d.sortItem m.1 m.2) (first :: rest) >>= _) = _
      rw [hitems]
      rfl
  · exact .inr h

/-- Clauses can be sent, where the connection quotes every text and a text that has a UTF-8 form as
one: only the name of a field can bring a text without UTF-8 form into them. -/
theorem sendsEncodable (hd : d.QuotesEvery) (hencodable : d.QuotesEncodable) :
    d.SendsEncodable where
  whereClause _ _ h hfields := isEncodable_whereClause hencodable hfields h
  orderClause _ _ h hnames := isEncodable_orderClause hencodable hnames h
  criteria _ _ ht hnot := criteria_passes hd ht hnot
  direction _ _ _ hm ht hnot := direction_refused hd hm ht hnot

theorem isEncodable_doubleQuoted {t : Text} (ht : t.isEncodable = true) :
    (doubleQuoted t).isEncodable = true := by
  have hreplace : (t.replace '\'' ['\'', '\'']).isEncodable = true := by
    rw [Text.replace, Text.isEncodable_flatMap, List.all_eq_true]
    intro c hc
    have hsurrogate := Text.isEncodable_iff.mp ht c hc
    split <;> simp [hsurrogate]
  simp [doubleQuoted, doubleQuoted.quoteMark, hreplace]

/-- The first half of a surrogate pair by itself. -/
def firstHalf : Text := [CodePoint.ofNat 0xd800]

/-- Beside a number such a text is written as JSON in one place, and refused in another. -/
theorem sendsEncodable_firstHalf :
    let d : Dialect := ⟨.pgsql, fun t => .ok (doubleQuoted t)⟩
    let criteria (key : Text) : Value :=
      .object [("a", .object [(key, .list [.int 5, .str firstHalf])])]
    d.QuotesEvery ∧ d.QuotesEncodable ∧
      (∃ sql, d.whereClause (criteria "$all") = .ok (some sql) ∧ sql.render.isEncodable = true) ∧
      ∃ refusal, d.whereClause (criteria "$in") = .error (.filter refusal) := by
  intro d criteria
  have hquotes : d.QuotesEvery := fun t => ⟨doubleQuoted t, rfl⟩
  have hencodable : d.QuotesEncodable := by
    rintro t _ ⟨⟩ ht
    exact isEncodable_doubleQuoted ht
  have hsends := sendsEncodable hquotes hencodable
  have hfield {key field : Text} {v : Value} (h : HasField (criteria key) field v) :
      field = "a" ∧ v = .object [(key, .list [.int 5, .str firstHalf])] :=
    h.1.eq_of_singleton (by decide)
  have hmentions : (criteria "$in").Mentions firstHalf :=
    .member List.mem_cons_self (.member List.mem_cons_self
      (.item rfl (List.mem_cons_of_mem _ List.mem_cons_self) .str))
  have hnot : ¬d.PassesIn (criteria "$in") firstHalf := by
    rintro (⟨v, hv⟩ | ⟨field, key, v, op, ⟨w, hw, hv⟩, hop, hunchecked, -⟩)
    · exact absurd (hfield hv).1 (by decide)
    · obtain ⟨rfl, rfl⟩ := hfield hw
      cases List.mem_singleton.mp hv
      cases hop
      rcases hunchecked with h | h | ⟨h, -⟩ <;> cases h
  have hall : ∃ sql, d.whereClause (criteria "$all") = .ok (some sql) := ⟨_, rfl⟩
  obtain ⟨sql, hsql⟩ := hall
  refine ⟨hquotes, hencodable, ⟨sql, hsql, hsends.whereClause _ _ hsql fun field v hv => ?_⟩, ?_⟩
  · rw [(hfield hv).1]
    decide
  · obtain ⟨refusal, hrefusal, -⟩ := (hsends.criteria _ _ hmentions rfl).resolve_left hnot
    exact ⟨refusal, hrefusal⟩

/-- The name of a field is sent as it is. -/
theorem not_whereClause_encodable :
    ¬ ∀ d : Dialect, d.QuotesEvery → d.QuotesEncodable → ∀ criteria sql,
      d.whereClause criteria = .ok (some sql) → sql.render.isEncodable = true := by
  intro h
  have hsent : ∃ sql, whereClause ⟨.sqlite, fun t => .ok (doubleQuoted t)⟩
      (.object [(firstHalf, .int 1)]) = .ok (some sql) ∧ sql.render.isEncodable = false :=
    ⟨_, rfl, by decide +kernel⟩
  obtain ⟨sql, hsql, hnot⟩ := hsent
  rw [h _ (fun t => ⟨doubleQuoted t, rfl⟩) ?_ _ sql hsql] at hnot
  · cases hnot
  · rintro t _ ⟨⟩ ht
    exact isEncodable_doubleQuoted ht

end Dialect

end DocStore
