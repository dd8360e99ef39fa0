import DocStore.Filter.Compile
import DocStore.Proofs.Dialect.Operator
import DocStore.Proofs.Filter.Condition

/-!
Filters and sort orders that differ in texts. The SQL of two filters that are
equal but for the contents of texts and the names of fields has one shape: no
text becomes anything else than the contents of a literal.
-/

namespace DocStore

mutual

/-- Two filters that differ in nothing but texts and the names of fields. -/
inductive FilterAlike : Value → Value → Prop where
  | object {ms ns : Members} (h : MembersAlike ms ns) : FilterAlike (.object ms) (.object ns)
  | other {v w : Value} (h : Value.Alike v w) (hv : ∀ ms, v ≠ .object ms) : FilterAlike v w

/-- The members of two such filters. No field is named like the key of clauses. -/
inductive MembersAlike : Members → Members → Prop where
  | nil : MembersAlike [] []
  | list (g : Glue) {vs ws : List Value} {ms ns : Members} (h : ClausesAlike vs ws)
    (hrest : MembersAlike ms ns) :
    MembersAlike ((g.key, .list vs) :: ms) ((g.key, .list ws) :: ns)
  | tuple (g : Glue) {vs ws : List Value} {ms ns : Members} (h : ClausesAlike vs ws)
    (hrest : MembersAlike ms ns) :
    MembersAlike ((g.key, .tuple vs) :: ms) ((g.key, .tuple ws) :: ns)
  | misplaced (g : Glue) {v w : Value} {ms ns : Members} (h : Value.Alike v w)
    (hv : v.items? = none) (hrest : MembersAlike ms ns) :
    MembersAlike ((g.key, v) :: ms) ((g.key, w) :: ns)
  | field {key key' : Text} {v w : Value} {ms ns : Members} (hkey : Glue.ofKey? key = none)
    (hkey' : Glue.ofKey? key' = none) (h : Value.Alike v w) (hrest : MembersAlike ms ns) :
    MembersAlike ((key, v) :: ms) ((key', w) :: ns)

/-- The clauses of two such filters. -/
inductive ClausesAlike : List Value → List Value → Prop where
  | nil : ClausesAlike [] []
  | cons {v w : Value} {vs ws : List Value} (h : FilterAlike v w) (hrest : ClausesAlike vs ws) :
    ClausesAlike (v :: vs) (w :: ws)

end

/-- Two sort orders with the same directions. -/
inductive SortAlike : Value → Value → Prop where
  | object {ms ns : Members}
    (h : List.Forall₂ (fun m n => BothYield Eq (Dialect.direction m.1 m.2)
      (Dialect.direction n.1 n.2)) ms ns) : SortAlike (.object ms) (.object ns)
  | other {v w : Value} (h : Value.Alike v w) (hv : ∀ ms, v ≠ .object ms) : SortAlike v w

/-- Two conditions whose SQL is balanced and has one shape. -/
def ConditionTwins (x : Lexis) (c c' : Condition) : Prop :=
  Sql.Twins (Sql.IsBalanced x false) c.sql c'.sql

namespace ConditionTwins

variable {e : Engine} {a : Bool} {c c' : Condition} {cs cs' : List Condition}

theorem negation (h : ConditionTwins (e.lexisWith a) c c') :
    ConditionTwins (e.lexisWith a) (.negation c) (.negation c') where
  left := h.left.negated.loosen
  right := h.right.negated.loosen
  shape := by simp only [Condition.sql, Sql.shape_append, h.shape]

theorem conjunction (h : List.Forall₂ (ConditionTwins (e.lexisWith a)) cs cs') :
    Option.Rel (ConditionTwins (e.lexisWith a)) (Condition.conjunction? cs)
      (Condition.conjunction? cs') := by
  have hrows : List.Forall₂ (Sql.Twins (Sql.IsBalanced (e.lexisWith a) false))
      (cs.map Condition.sql) (cs'.map Condition.sql) :=
    List.forall₂_map_left_iff.mpr (List.forall₂_map_right_iff.mpr h)
  cases h with
  | nil => exact .none
  | cons _ _ =>
    refine .some ?_
    rw [ConditionTwins, Condition.sql, Condition.sql, Condition.sqlParts_eq, Condition.sqlParts_eq]
    exact .join hrows fun rows _ hall => .join (Sql.walkCode_glue e a .and) hall

theorem clauses (g : Glue) (h : List.Forall₂ (ConditionTwins (e.lexisWith a)) cs cs') :
    Option.Rel (ConditionTwins (e.lexisWith a)) (Condition.clauses? g cs)
      (Condition.clauses? g cs') := by
  have hrows : List.Forall₂ (Sql.Twins (Sql.IsBalanced (e.lexisWith a) false))
      (cs.map fun c => ("(" ++ c.sql ++ ")" : Sql)) (cs'.map fun c => ("(" ++ c.sql ++ ")" : Sql)) :=
    List.forall₂_map_left_iff.mpr (List.forall₂_map_right_iff.mpr
      (h.imp fun _ _ hc => (Sql.Twins.grouped hc).mono fun _ hs => hs.loosen))
  cases h with
  | nil => exact .none
  | cons _ _ =>
    refine .some ?_
    rw [ConditionTwins, Condition.sql, Condition.sql, Condition.sqlClauses_eq,
      Condition.sqlClauses_eq]
    refine (Sql.Twins.grouped (b := false) ?_).mono fun _ hs => hs.loosen
    exact .join hrows fun rows _ hall => .join (Sql.walkCode_glue e a g) hall

theorem toList {c c' : Option Condition} (h : Option.Rel (ConditionTwins (e.lexisWith a)) c c') :
    List.Forall₂ (ConditionTwins (e.lexisWith a)) c.toList c'.toList := by
  cases h with
  | none => exact .nil
  | some h => exact .cons h .nil

end ConditionTwins

namespace Dialect

variable {d : Dialect} {b : Bool} (hd : d.QuotedBy b)

include hd

/-- The conditions of operators that differ in texts, on any two fields. -/
theorem fieldCondition_twins (f g key : Text) {v w : Value} (h : Value.Alike v w)
    (hpresent : Operator.parse? key = some .present → v.isTruthy = w.isTruthy) :
    BothYield (Option.Rel (ConditionTwins (d.engine.lexisWith b))) (d.fieldCondition f key v)
      (d.fieldCondition g key w) := by
  unfold fieldCondition
  split
  · exact .error_left _ _
  next op hop =>
    split
    · exact .error_left _ _
    · refine (operator_units hd op f g h ?_).bind fun s t hst => .pure ?_
      · rintro rfl
        exact hpresent hop
      · cases hst with
        | none => exact .none
        | some hst => exact .some (hst.mono fun _ hs => hs.loosen)

theorem fieldConditions_twins (f g : Text) {ms ns : Members}
    (h : Value.Alike (.object ms) (.object ns)) :
    BothYield (Option.Rel (ConditionTwins (d.engine.lexisWith b))) (d.fieldConditions f ms)
      (d.fieldConditions g ns) := by
  have hparts := BothYield.mapM (R := Option.Rel (ConditionTwins (d.engine.lexisWith b)))
    (f := fun m => d.fieldCondition f m.1 m.2) (g := fun m => d.fieldCondition g m.1 m.2)
    h.members fun (key, v) (key', w) ⟨hkey, hvalue, hpresent⟩ => by
      obtain rfl : key = key' := hkey
      exact fieldCondition_twins hd f g key hvalue hpresent
  refine hparts.bind fun cs cs' ⟨hcs, _⟩ => .pure ?_
  exact ConditionTwins.conjunction (List.rel_filterMap (fun _ _ hc => hc) hcs)

omit hd in
theorem alike_singleton (key : Text) {v w : Value} (h : Value.Alike v w)
    (hkey : Operator.parse? key ≠ some .present) :
    Value.Alike (.object [(key, v)]) (.object [(key, w)]) :=
  .object rfl (.cons h .nil) (.cons (fun hpresent => absurd hpresent hkey) .nil)

omit hd in
theorem negated_alike {v w : Value} (h : Value.Alike v w) :
    Value.Alike (.object (negated v)) (.object (negated w)) := by
  have hregex : Operator.parse? Operator.regex.name ≠ some .present := by decide
  cases h with
  | same v => exact .same _
  | object hkeys h hpresent => exact .object hkeys h hpresent
  | str t u => exact alike_singleton _ (.str t u) hregex
  | pattern t u => exact alike_singleton _ (.pattern t u) hregex
  | list h => exact alike_singleton _ (.list h) hregex
  | tuple h => exact alike_singleton _ (.tuple h) hregex

theorem field_object_twins (f g : Text) {ms ns : Members}
    (h : Value.Alike (.object ms) (.object ns)) :
    BothYield (Option.Rel (ConditionTwins (d.engine.lexisWith b))) (d.field f (.object ms))
      (d.field g (.object ns)) := by
  have hconditions := fieldConditions_twins hd f g h
  cases h.members with
  | nil => exact hconditions
  | @cons m n _ _ hmn hrest =>
    cases hrest with
    | cons _ _ => exact hconditions
    | nil =>
      obtain ⟨key, v⟩ := m
      obtain ⟨key', w⟩ := n
      obtain ⟨hkey, hvw, -⟩ := hmn
      obtain rfl : key = key' := hkey
      simp only [field]
      split
      · refine (fieldConditions_twins hd f g (negated_alike hvw)).bind fun c c' hc => .pure ?_
        cases hc with
        | none => exact .none
        | some hc => exact .some hc.negation
      · exact hconditions

/-- The conditions of any two fields with values that differ in texts. -/
theorem field_twins (f g : Text) {v w : Value} (h : Value.Alike v w) :
    BothYield (Option.Rel (ConditionTwins (d.engine.lexisWith b))) (d.field f v) (d.field g w) := by
  have heq {v w : Value} (h : Value.Alike v w) :=
    fieldConditions_twins hd f g (alike_singleton Operator.eq.name h (by decide))
  have hregex {v w : Value} (h : Value.Alike v w) :=
    fieldConditions_twins hd f g (alike_singleton Operator.regex.name h (by decide))
  cases h with
  | same v =>
    cases v with
    | object ms => exact field_object_twins hd f g (.same _)
    | pattern t => exact hregex (.same _)
    | _ => exact heq (.same _)
  | object hkeys h hpresent => exact field_object_twins hd f g (.object hkeys h hpresent)
  | pattern t u => exact hregex (.pattern t u)
  | str t u => exact heq (.str t u)
  | list h => exact heq (.list h)
  | tuple h => exact heq (.tuple h)

/-- The conditions of members that are fields, not clauses. -/
theorem filterMember_twins {key key' : Text} (hkey : Glue.ofKey? key = none)
    (hkey' : Glue.ofKey? key' = none) {v w : Value} (h : Value.Alike v w) :
    BothYield (Option.Rel (ConditionTwins (d.engine.lexisWith b))) (d.filterMember key v)
      (d.filterMember key' w) := by
  have hfield (name : Text) (hname : Glue.ofKey? name = none) (v : Value) :
      d.filterMember name v = d.field name v := by
    cases v <;> simp only [filterMember, hname]
  rw [hfield key hkey, hfield key' hkey']
  exact field_twins hd key key' h

/-- The conditions of two filters that differ in texts and the names of fields. -/
theorem filter_twins {v w : Value} (h : FilterAlike v w) :
    BothYield (Option.Rel (ConditionTwins (d.engine.lexisWith b))) (d.filter v) (d.filter w) := by
  refine @FilterAlike.rec
    (fun v w _ => BothYield (Option.Rel (ConditionTwins (d.engine.lexisWith b)))
      (d.filter v) (d.filter w))
    (fun ms ns _ => BothYield (List.Forall₂ (ConditionTwins (d.engine.lexisWith b)))
      (d.filterMembers ms) (d.filterMembers ns))
    (fun vs ws _ => BothYield (List.Forall₂ (ConditionTwins (d.engine.lexisWith b)))
      (d.filterClauses vs) (d.filterClauses ws))
    ?object ?other ?noMembers ?list ?tuple ?misplaced ?field ?noClauses ?clause v w h
  case object =>
    intro ms ns _ ih
    exact ih.bind fun cs cs' hcs => .pure (ConditionTwins.conjunction hcs)
  case other =>
    intro v w _ hv
    rw [filter.eq_2 d v hv]
    exact .error_left _ _
  case noMembers => exact .pure .nil
  case list =>
    intro g vs ws ms ns _ _ ih ihrest
    have hg : Glue.ofKey? g.key = some g := by cases g <;> decide
    simp only [filterMembers, filterMember, hg]
    refine (ih.bind fun cs cs' hcs => .pure (ConditionTwins.clauses g hcs)).bind fun c c' hc => ?_
    exact ihrest.bind fun cs cs' hcs => .pure (List.rel_append (ConditionTwins.toList hc) hcs)
  case tuple =>
    intro g vs ws ms ns _ _ ih ihrest
    have hg : Glue.ofKey? g.key = some g := by cases g <;> decide
    simp only [filterMembers, filterMember, hg]
    refine (ih.bind fun cs cs' hcs => .pure (ConditionTwins.clauses g hcs)).bind fun c c' hc => ?_
    exact ihrest.bind fun cs cs' hcs => .pure (List.rel_append (ConditionTwins.toList hc) hcs)
  case misplaced =>
    intro g v w ms ns _ hv _ _
    have hg : Glue.ofKey? g.key = some g := by cases g <;> decide
    have herror : d.filterMember g.key v = .error ↑(ArgumentFault.clauses g.key) := by
      cases v with
      | list vs => cases hv
      | tuple vs => cases hv
      | _ => simp only [filterMember, hg]
    simp only [filterMembers, herror]
    exact .error_left _ _
  case field =>
    intro key key' v w ms ns hkey hkey' hvw _ ihrest
    refine (filterMember_twins hd hkey hkey' hvw).bind fun c c' hc => ?_
    exact ihrest.bind fun cs cs' hcs => .pure (List.rel_append (ConditionTwins.toList hc) hcs)
  case noClauses => exact .pure .nil
  case clause =>
    intro v w vs ws _ _ ih ihrest
    refine ih.bind fun c c' hc => ?_
    exact ihrest.bind fun cs cs' hcs => .pure (List.rel_append (ConditionTwins.toList hc) hcs)

end Dialect

end DocStore
