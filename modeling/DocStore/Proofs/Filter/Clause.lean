import DocStore.Proofs.Filter.Alike

/-!
Clauses of filters, sort orders and pages. They are balanced, and those of
filters and sort orders that differ in texts and the names of fields have one
shape.
-/

namespace DocStore.Dialect

variable {d : Dialect} {b : Bool}

/-- Optional rows of one shape, which are balanced. -/
abbrev ClauseTwins (x : Lexis) : Option Sql → Option Sql → Prop :=
  Option.Rel (Sql.Twins (Sql.IsBalanced x false))

theorem isEmpty_eq {ms ns : Members} (h : MembersAlike ms ns) : ms.isEmpty = ns.isEmpty := by
  cases h <;> rfl

/-- The conditions of criteria that differ in texts and the names of fields. -/
theorem condition_twins (hd : d.QuotedBy b) {v w : Value} (h : FilterAlike v w) :
    BothYield (Option.Rel (ConditionTwins (d.engine.lexisWith b))) (d.condition v)
      (d.condition w) := by
  have hfilter := filter_twins hd h
  unfold condition
  cases h with
  | object hms =>
    have htruthy : (Value.object _).isTruthy = (Value.object _).isTruthy :=
      congrArg not (isEmpty_eq hms)
    rw [htruthy]
    split
    · exact hfilter
    · exact .pure .none
  | other hvw hv =>
    -- only an object has a condition, and whatever counts as false has none
    have hw := hvw.ne_object hv
    rw [filter.eq_2 d v hv, filter.eq_2 d w hw]
    split
    · exact .error_left _ _
    · split
      · exact .error_right _ _
      · exact .pure .none

theorem whereClause_twins (hd : d.QuotedBy b) {v w : Value} (h : FilterAlike v w) :
    BothYield (ClauseTwins (d.engine.lexisWith b)) (d.whereClause v) (d.whereClause w) := by
  refine ((condition_twins hd h).bind (Q := ClauseTwins (d.engine.lexisWith b))
    fun c c' hc => .pure ?_).bind fun s t hst => .pure ?_
  · cases hc with
    | none => exact .none
    | some hc => exact .some hc
  · cases hst with
    | none => exact .none
    | some hst => exact .some (hst.headed (by cases d.engine <;> rfl))

theorem direction_eq {name : Text} {v : Value} {word : String} (h : direction name v = .ok word) :
    word = "ASC" ∨ word = "DESC" := by
  have htable : ∀ p ∈ directionWords, p.2 = "ASC" ∨ p.2 = "DESC" := by decide
  simp only [direction] at h
  split at h
  next known hknown =>
    cases h
    split at hknown
    · obtain ⟨before, after, hwords, -⟩ := List.lookup_eq_some_iff.mp hknown
      exact htable _ (hwords ▸ List.mem_append_right before List.mem_cons_self)
    · split at hknown
      · split_ifs at hknown
        · cases hknown
          exact .inl rfl
        · cases hknown
          exact .inr rfl
      · cases hknown
  next => split at h <;> cases h

theorem isForm_direction (e : Engine) {word : String} (h : word = "ASC" ∨ word = "DESC") :
    Sql.isForm (e.lexisWith b) ([.literal []] ++ ([.code " "] ++ [.code word])) = true := by
  obtain rfl | rfl := h <;> cases e <;> rfl

/-- The items of sort orders with the same directions. -/
theorem sortItem_twins (hd : d.QuotedBy b) (m n : Text × Value)
    (h : BothYield Eq (direction m.1 m.2) (direction n.1 n.2)) :
    BothUnits (d.engine.lexisWith b) (d.sortItem m.1 m.2) (d.sortItem n.1 n.2) := by
  refine (selector_units hd m.1 n.1 false).bind fun s t hst => ?_
  have hwords : BothYield (fun word word' => word = word' ∧ direction m.1 m.2 = .ok word)
      (direction m.1 m.2) (direction n.1 n.2) :=
    fun word word' hword hword' => ⟨h word word' hword hword', hword⟩
  refine hwords.bind fun word word' hword => .pure ?_
  obtain ⟨rfl, hword⟩ := hword
  exact ((Sql.Filled.unit hst).append ((Sql.Filled.code " ").append (.code word))).twins
    (isForm_direction d.engine (direction_eq hword))

theorem orderClause_twins (hd : d.QuotedBy b) {v w : Value} (h : SortAlike v w) :
    BothYield (ClauseTwins (d.engine.lexisWith b)) (d.orderClause v) (d.orderClause w) := by
  cases h with
  | object h =>
    have hitems := BothYield.mapM (R := Sql.Twins (Sql.IsUnit (d.engine.lexisWith b)))
      (f := fun m => d.sortItem m.1 m.2) (g := fun m => d.sortItem m.1 m.2)
      h fun m n hmn => sortItem_twins hd m n hmn
    cases h with
    | nil => exact .pure .none
    | cons _ _ =>
      refine hitems.bind fun ss ts ⟨hst, hlength⟩ => .pure (.some ?_)
      have hss : ss ≠ [] := by
        rintro rfl
        simp at hlength
      exact ((Sql.Twins.commas hst hss).mono fun _ hs => hs.loosen).headed
        (by cases d.engine <;> rfl)
  | other hvw hv =>
    have hw := hvw.ne_object hv
    unfold orderClause
    split
    · split
      · exact .pure .none
      · split
        next => exact (hw _ rfl).elim
        next => exact .error_right _ _
    · split
      next => exact (hv _ rfl).elim
      next => exact .error_left _ _

/-- The clause of a page is balanced. -/
theorem isBalanced_limitClause {e : Engine} {limit offset : Value} {page : Option Sql}
    (h : limitClause limit offset = .ok page) : ∀ s ∈ page, s.IsBalanced (e.lexisWith b) false := by
  have hnumber (n : Int) : Sql.Fills (e.lexisWith b) [.literal []] (integerPiece n) :=
    .unit (Sql.isUnit_ofInt e b n)
  unfold limitClause at h
  split at h
  · cases h
    simp
  · obtain ⟨m, -, h⟩ := exists_of_bind_ok h
    split at h
    · cases h
      rintro s ⟨⟩
      exact (((Sql.Fills.code "LIMIT ").append (hnumber m)).isUnit
        (by cases e <;> rfl)).toIsBalanced.loosen
    · obtain ⟨n, -, h⟩ := exists_of_bind_ok h
      cases h
      rintro s ⟨⟩
      exact ((((Sql.Fills.code "LIMIT ").append (hnumber m)).append
        ((Sql.Fills.code " OFFSET ").append (hnumber n))).isUnit
        (by cases e <;> rfl)).toIsBalanced.loosen

end DocStore.Dialect
