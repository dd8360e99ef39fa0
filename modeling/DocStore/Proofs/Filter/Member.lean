import DocStore.Filter.Compile
import DocStore.Proofs.Filter.Condition
import DocStore.Proofs.Outcome

/-!
The members of a filter. A member stands at the top of a filter or in a clause,
at any depth; one that is no list of clauses is a field, and puts conditions on
it. A filter is compiled exactly when its members are, so what is known of every
condition is known of the whole, and a filter that has SQL has it for every
condition in it.
-/

namespace DocStore

namespace Filter

/-- A member of a filter, at the top or in a clause at any depth. -/
inductive HasMember : Value → Text → Value → Prop where
  | here {ms : Members} {key : Text} {v : Value} (h : (key, v) ∈ ms) : HasMember (.object ms) key v
  | clause {ms : Members} {g : Glue} {w clause v : Value} {clauses : List Value} {key : Text}
    (hw : (g.key, w) ∈ ms) (hitems : w.items? = some clauses) (hclause : clause ∈ clauses)
    (h : HasMember clause key v) : HasMember (.object ms) key v

/-- A field of a filter with what is asked of it. -/
def HasField (filter : Value) (field : Text) (v : Value) : Prop :=
  HasMember filter field v ∧ Glue.ofKey? field = none

/-- Whether what is asked of a field is the opposite of its conditions. -/
def isNegated : Value → Bool
  | .object [(key, _)] => key = "$not"
  | _ => false

/-- The conditions on a field, those under a negation included. -/
def conditionsOf : Value → Members
  | .object [(key, v)] => if key = "$not" then Dialect.negated v else [(key, v)]
  | .object conditions => conditions
  | .pattern source => [(Operator.regex.name, .pattern source)]
  | v => [(Operator.eq.name, v)]

/-- A condition of a filter: a field, the name of an operator, and its argument. -/
def HasCondition (filter : Value) (field key : Text) (v : Value) : Prop :=
  ∃ w, HasField filter field w ∧ (key, v) ∈ conditionsOf w

variable {ms ns : Members} {key : Text} {v : Value}

theorem HasMember.mono (hsub : ms ⊆ ns) (h : HasMember (.object ms) key v) :
    HasMember (.object ns) key v := by
  cases h with
  | here h => exact .here (hsub h)
  | clause hw hitems hclause h => exact .clause (hsub hw) hitems hclause h

/-- A filter of a single field has no other member. -/
theorem HasMember.eq_of_singleton {field : Text} {w : Value} (hfield : Glue.ofKey? field = none)
    (h : HasMember (.object [(field, w)]) key v) : key = field ∧ v = w := by
  cases h with
  | here h =>
    cases List.mem_singleton.mp h
    exact ⟨rfl, rfl⟩
  | @clause ms g _ _ _ _ _ hw _ _ _ =>
    cases List.mem_singleton.mp hw
    rw [Glue.ofKey?_key] at hfield
    cases hfield

/-- A filter with a member counts as true. -/
theorem HasMember.isTruthy {filter : Value} (h : HasMember filter key v) :
    filter.isTruthy = true := by
  cases h with
  | here h | clause h =>
    obtain ⟨m, ms, rfl⟩ := List.exists_cons_of_ne_nil (List.ne_nil_of_mem h)
    rfl

end Filter

namespace Dialect

open DocStore.Filter

variable {d : Dialect}

theorem field_eq (name : Text) (v : Value) :
    d.field name v = (if isNegated v then Option.map .negation else id) <$>
      d.fieldConditions name (conditionsOf v) := by
  cases v with
  | object conditions =>
    rcases conditions with _ | ⟨⟨key, inner⟩, _ | ⟨m, rest⟩⟩
    · exact (id_map _).symm
    · by_cases hkey : key = "$not"
      · simp only [field, conditionsOf, isNegated, hkey, decide_true]
        rfl
      · simp only [field, conditionsOf, isNegated, hkey, decide_false]
        exact (id_map _).symm
    · exact (id_map _).symm
  | _ => exact (id_map _).symm

theorem filterMember_field {key : Text} (hkey : Glue.ofKey? key = none) (v : Value) :
    d.filterMember key v = d.field key v := by
  cases v <;> simp only [filterMember, hkey]

theorem filterMember_clauses (g : Glue) {v : Value} {clauses : List Value}
    (hv : v.items? = some clauses) :
    d.filterMember g.key v = Condition.clauses? g <$> d.filterClauses clauses := by
  cases v with
  | list vs | tuple vs =>
    cases hv
    simp only [filterMember, Glue.ofKey?_key]
    rfl
  | _ => cases hv

theorem filterMember_noClauses (g : Glue) {v : Value} (hv : v.items? = none) :
    d.filterMember g.key v = .error ↑(ArgumentFault.clauses g.key) := by
  cases v with
  | list vs | tuple vs => cases hv
  | _ => simp only [filterMember, Glue.ofKey?_key]

/-! ### From the conditions to the filter -/

section

variable {P : Sql → Prop} {R : Fault → Prop}

/-- Conditions on a field come to what each of them comes to. -/
theorem field_comesTo {name : Text} {v : Value}
    (h : ∀ m ∈ conditionsOf v, ComesTo (fun c => ∀ part ∈ c, part.IsMadeOf P) R
      (d.fieldCondition name m.1 m.2)) :
    ComesTo (fun c => ∀ part ∈ c, part.IsMadeOf P) R (d.field name v) := by
  have hconditions : ComesTo (fun c => ∀ part ∈ c, part.IsMadeOf P) R
      (d.fieldConditions name (conditionsOf v)) := by
    refine (ComesTo.mapM h).bind fun parts hparts => .pure ?_
    refine Condition.isMadeOf_conjunction? fun c hc => ?_
    obtain ⟨part, hpart, rfl⟩ := List.mem_filterMap.mp hc
    exact hparts _ hpart c rfl
  rw [field_eq]
  refine hconditions.map fun c hc => ?_
  split
  · intro part hpart
    obtain ⟨inner, rfl, rfl⟩ := Option.map_eq_some_iff.mp hpart
    exact .negation (hc inner rfl)
  · exact hc

mutual

/-- A filter comes to what each of its fields comes to, when arguments of the wrong form are among
the faults. -/
theorem filter_comesTo (hR : ∀ fault : ArgumentFault, R ↑fault) (v : Value)
    (h : ∀ field w, HasField v field w →
      ComesTo (fun c => ∀ part ∈ c, part.IsMadeOf P) R (d.field field w)) :
    ComesTo (fun c => ∀ part ∈ c, part.IsMadeOf P) R (d.filter v) := by
  match v with
  | .object ms =>
    exact (filterMembers_comesTo hR ms h).bind fun cs hcs =>
      .pure (Condition.isMadeOf_conjunction? hcs)
  | .null | .bool _ | .int _ | .float _ | .str _ | .list _ | .tuple _ | .bytes _ | .pattern _
  | .test _ => exact hR _

theorem filterMembers_comesTo (hR : ∀ fault : ArgumentFault, R ↑fault) (ms : List (Text × Value))
    (h : ∀ field w, HasField (.object ms) field w →
      ComesTo (fun c => ∀ part ∈ c, part.IsMadeOf P) R (d.field field w)) :
    ComesTo (fun cs => ∀ part ∈ cs, part.IsMadeOf P) R (d.filterMembers ms) := by
  match ms with
  | [] => exact fun c hc => nomatch hc
  | (key, v) :: ms =>
    refine (filterMember_comesTo hR key v fun field w hw => h field w ?_).bind fun c hc =>
      (filterMembers_comesTo hR ms fun field w hw => h field w ?_).bind fun cs hcs =>
        .pure (Condition.isMadeOf_toList_append hc hcs)
    · exact ⟨hw.1.mono (by simp), hw.2⟩
    · exact ⟨hw.1.mono (List.subset_cons_self _ _), hw.2⟩

theorem filterMember_comesTo (hR : ∀ fault : ArgumentFault, R ↑fault) (key : Text) (v : Value)
    (h : ∀ field w, HasField (.object [(key, v)]) field w →
      ComesTo (fun c => ∀ part ∈ c, part.IsMadeOf P) R (d.field field w)) :
    ComesTo (fun c => ∀ part ∈ c, part.IsMadeOf P) R (d.filterMember key v) := by
  cases hkey : Glue.ofKey? key with
  | some g =>
    obtain rfl : key = g.key := Glue.eq_key_of_ofKey? hkey
    have hclauses {clauses : List Value} (hv : v.items? = some clauses) {clause : Value}
        (hclause : clause ∈ clauses) (field : Text) (w : Value) (hw : HasField clause field w) :=
      h field w ⟨.clause (List.mem_singleton_self _) hv hclause hw.1, hw.2⟩
    match v with
    | .list vs | .tuple vs =>
      rw [filterMember_clauses g rfl]
      exact (filterClauses_comesTo hR vs fun clause hclause => hclauses rfl hclause).map
        fun cs hcs => Condition.isMadeOf_clauses? g hcs
    | .null | .bool _ | .int _ | .float _ | .str _ | .object _ | .bytes _ | .pattern _ | .test _ =>
      rw [filterMember_noClauses g rfl]
      exact hR _
  | none =>
    rw [filterMember_field hkey]
    exact h key v ⟨.here (List.mem_singleton_self _), hkey⟩

theorem filterClauses_comesTo (hR : ∀ fault : ArgumentFault, R ↑fault) (vs : List Value)
    (h : ∀ clause ∈ vs, ∀ field w, HasField clause field w →
      ComesTo (fun c => ∀ part ∈ c, part.IsMadeOf P) R (d.field field w)) :
    ComesTo (fun cs => ∀ part ∈ cs, part.IsMadeOf P) R (d.filterClauses vs) := by
  match vs with
  | [] => exact fun c hc => nomatch hc
  | v :: vs =>
    obtain ⟨hv, hvs⟩ := List.forall_mem_cons.mp h
    exact (filter_comesTo hR v hv).bind fun c hc =>
      (filterClauses_comesTo hR vs hvs).bind fun cs hcs =>
        .pure (Condition.isMadeOf_toList_append hc hcs)

end

/-- Criteria come to what each condition in them comes to. -/
theorem condition_comesTo (hR : ∀ fault : ArgumentFault, R ↑fault) (v : Value)
    (h : ∀ field key w, HasCondition v field key w →
      ComesTo (fun c => ∀ part ∈ c, part.IsMadeOf P) R (d.fieldCondition field key w)) :
    ComesTo (fun c => ∀ part ∈ c, part.IsMadeOf P) R (d.condition v) := by
  unfold condition
  split
  · exact filter_comesTo hR v fun field w hw =>
      field_comesTo fun m hm => h field m.1 m.2 ⟨w, hw, hm⟩
  · exact fun c hc => nomatch hc

end

/-! ### From the filter to its conditions -/

theorem exists_filterMember_ok {ms : List (Text × Value)} {cs : List Condition}
    (h : d.filterMembers ms = .ok cs) {key : Text} {v : Value} (hm : (key, v) ∈ ms) :
    ∃ c, d.filterMember key v = .ok c ∧ ∀ part ∈ c, part ∈ cs := by
  induction ms generalizing cs with
  | nil => cases hm
  | cons m ms ih =>
    obtain ⟨c, hc, h⟩ := exists_of_bind_ok h
    obtain ⟨cs, hcs, ⟨⟩⟩ := exists_of_bind_ok h
    obtain rfl | hm := List.mem_cons.mp hm
    · exact ⟨c, hc, fun part hpart => by simp [show c = some part from hpart]⟩
    · obtain ⟨c', hc', hparts⟩ := ih hcs hm
      exact ⟨c', hc', fun part hpart => List.mem_append_right _ (hparts part hpart)⟩

theorem exists_clause_ok {vs : List Value} {cs : List Condition}
    (h : d.filterClauses vs = .ok cs) {v : Value} (hv : v ∈ vs) :
    ∃ c, d.filter v = .ok c ∧ ∀ part ∈ c, part ∈ cs := by
  induction vs generalizing cs with
  | nil => cases hv
  | cons w vs ih =>
    obtain ⟨c, hc, h⟩ := exists_of_bind_ok h
    obtain ⟨cs, hcs, ⟨⟩⟩ := exists_of_bind_ok h
    obtain rfl | hv := List.mem_cons.mp hv
    · exact ⟨c, hc, fun part hpart => by simp [show c = some part from hpart]⟩
    · obtain ⟨c', hc', hparts⟩ := ih hcs hv
      exact ⟨c', hc', fun part hpart => List.mem_append_right _ (hparts part hpart)⟩

/-- A filter that is compiled has each of its members compiled, and contains them. -/
theorem exists_member_ok {filter : Value} {key : Text} {v : Value} (hm : HasMember filter key v)
    {c : Option Condition} (h : d.filter filter = .ok c) :
    ∃ c', d.filterMember key v = .ok c' ∧ ∀ part ∈ c', Condition.Contains c part.sql := by
  induction hm generalizing c with
  | here hm =>
    obtain ⟨cs, hcs, ⟨⟩⟩ := exists_of_bind_ok h
    obtain ⟨c, hc, hparts⟩ := exists_filterMember_ok hcs hm
    exact ⟨c, hc, fun part hpart => Condition.contains_conjunction? (hparts part hpart)⟩
  | @clause ms g w clause v clauses key hw hitems hclause _ ih =>
    obtain ⟨cs, hcs, ⟨⟩⟩ := exists_of_bind_ok h
    obtain ⟨c, hc, hparts⟩ := exists_filterMember_ok hcs hw
    rw [filterMember_clauses g hitems] at hc
    obtain ⟨cs', hcs', rfl⟩ := exists_of_map_ok hc
    obtain ⟨inner, hinner, hinnerParts⟩ := exists_clause_ok hcs' hclause
    obtain ⟨c', hc', hcontains⟩ := ih hinner
    refine ⟨c', hc', fun part hpart => ?_⟩
    obtain ⟨whole, hwhole, hsubset⟩ := hcontains part hpart
    obtain ⟨outer, houter, houterSubset⟩ :=
      (Condition.contains_clauses? g (hinnerParts whole hwhole)).mono hsubset
    exact (Condition.contains_conjunction? (hparts outer houter)).mono houterSubset

/-- A field that is compiled has each of its conditions compiled, and contains them. -/
theorem exists_fieldCondition_ok {name : Text} {v : Value} {c : Option Condition}
    (h : d.field name v = .ok c) {key : Text} {w : Value} (hm : (key, w) ∈ conditionsOf v) :
    ∃ c', d.fieldCondition name key w = .ok c' ∧ ∀ part ∈ c', Condition.Contains c part.sql := by
  rw [field_eq] at h
  obtain ⟨c, hc, rfl⟩ := exists_of_map_ok h
  obtain ⟨parts, hparts, ⟨⟩⟩ := exists_of_bind_ok hc
  obtain ⟨c', hc', hmem⟩ := exists_ok_of_mapM_ok hparts hm
  refine ⟨c', hc', fun part hpart => ?_⟩
  have hcontains : Condition.Contains (Condition.conjunction? (parts.filterMap id)) part.sql :=
    Condition.contains_conjunction? (List.mem_filterMap.mpr ⟨c', hmem, hpart⟩)
  split
  · exact hcontains.negation
  · exact hcontains

/-- A condition that is compiled is what an operator makes that has an SQL form. -/
theorem exists_operator_ok {field key : Text} {v : Value} {c : Option Condition}
    (h : d.fieldCondition field key v = .ok c) :
    ∃ op s, Operator.parse? key = some op ∧ op.isSupported = true ∧
      d.operator op field v = .ok s ∧ c = s.map .leaf := by
  unfold fieldCondition at h
  split at h
  · cases h
  next op hop =>
    split at h
    · cases h
    next hsupported =>
      obtain ⟨s, hs, ⟨⟩⟩ := exists_of_bind_ok h
      exact ⟨op, s, hop, by simpa using hsupported, hs, rfl⟩

/-! ### Criteria as an expression -/

variable {criteria : Value} {sql : Option Sql}

theorem exists_condition_ok (h : d.expression criteria = .ok sql) :
    ∃ c, d.condition criteria = .ok c ∧ sql = c.map (·.sql) := by
  obtain ⟨c, hc, ⟨⟩⟩ := exists_of_bind_ok h
  exact ⟨c, hc, rfl⟩

theorem exists_filter_ok {key : Text} {v : Value} (hm : HasMember criteria key v)
    (h : d.expression criteria = .ok sql) : ∃ c, d.filter criteria = .ok c := by
  obtain ⟨c, hc, -⟩ := exists_condition_ok h
  rw [condition, if_pos hm.isTruthy] at hc
  exact ⟨c, hc⟩

/-- An expression has SQL for each of its conditions, and contains what their operators make. -/
theorem exists_operator_of_hasCondition {field key : Text} {v : Value}
    (hm : HasCondition criteria field key v) (h : d.expression criteria = .ok sql) :
    ∃ op s, Operator.parse? key = some op ∧ op.isSupported = true ∧
      d.operator op field v = .ok s ∧ ∀ part ∈ s, ∃ whole ∈ sql, part ⊆ whole := by
  obtain ⟨w, ⟨hmember, hfield⟩, hw⟩ := hm
  obtain ⟨c, hc, rfl⟩ := exists_condition_ok h
  rw [condition, if_pos hmember.isTruthy] at hc
  obtain ⟨c', hc', hcontains⟩ := exists_member_ok hmember hc
  rw [filterMember_field hfield] at hc'
  obtain ⟨c'', hc'', hcontains'⟩ := exists_fieldCondition_ok hc' hw
  obtain ⟨op, s, hop, hsupported, hs, rfl⟩ := exists_operator_ok hc''
  refine ⟨op, s, hop, hsupported, hs, fun part hpart => ?_⟩
  obtain ⟨outer, houter, hsubset⟩ :=
    hcontains' (.leaf part) (by simp [show s = some part from hpart])
  obtain ⟨whole, hwhole, hsubset'⟩ := (hcontains outer houter).mono hsubset
  exact ⟨whole.sql, by simp [show c = some whole from hwhole], hsubset'⟩

/-- What holds of the words between conditions, and of the pieces that every operator makes, holds
of the pieces of an expression. A condition has a known operator, or else the reasons to refuse it
are among the faults. -/
theorem expression_comesTo {Q : Piece → Prop} {R : Fault → Prop}
    (hR : ∀ fault : ArgumentFault, R ↑fault) (hwords : ∀ w ∈ Condition.words, Q (.code w))
    (hkeys : ∀ field key v, HasCondition criteria field key v →
      (∃ op, Operator.parse? key = some op ∧ op.isSupported = true) ∨ ∀ fault, R (.filter fault))
    (h : ∀ field key v op, HasCondition criteria field key v → Operator.parse? key = some op →
      op.isSupported = true →
      ComesTo (fun s : Option Sql => ∀ sql ∈ s, ∀ p ∈ sql, Q p) R (d.operator op field v)) :
    ComesTo (fun s : Option Sql => ∀ sql ∈ s, ∀ p ∈ sql, Q p) R (d.expression criteria) := by
  refine (condition_comesTo (P := fun s => ∀ p ∈ s, Q p) hR criteria ?_).bind fun c hc => .pure ?_
  · intro field key v hm
    have hunknown (hnot : ∀ op, Operator.parse? key = some op → op.isSupported = true → False) :
        ∀ fault, R (.filter fault) :=
      (hkeys field key v hm).resolve_left fun ⟨op, hop, hsupported⟩ => hnot op hop hsupported
    unfold fieldCondition
    split
    next hnone => exact hunknown (by simp [hnone]) _
    next op hop =>
      split
      next hhost => exact hunknown (by simp_all) _
      next hsupported =>
        refine (h field key v op hm hop (by simpa using hsupported)).bind fun s hs => .pure ?_
        intro part hpart
        obtain ⟨sql, hsql, rfl⟩ := Option.map_eq_some_iff.mp hpart
        exact .leaf (hs sql hsql)
  · intro sql hsql
    obtain ⟨part, hpart, rfl⟩ := Option.map_eq_some_iff.mp hsql
    exact Condition.forall_mem_sql hwords (hc part hpart)

end Dialect

end DocStore
