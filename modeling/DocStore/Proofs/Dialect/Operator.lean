import DocStore.Proofs.Dialect.Literal

/-!
Conditions in every dialect. Each operator makes one unit of its field and its
argument, so that no condition falls apart where it is put together with
others, and fields and arguments that differ in their texts only make twins.
-/

namespace DocStore.Dialect

variable {d : Dialect} {b : Bool} (hd : d.QuotedBy b)

theorem all_isText_eq {vs ws : List Value} (h : List.Forall₂ Value.Alike vs ws) :
    vs.all isText = ws.all isText := by
  induction h with
  | nil => rfl
  | @cons v w vs ws hvw _ ih =>
    have htext : isText v = isText w := by cases hvw <;> rfl
    simp only [List.all_cons, ih, htext]

include hd

theorem jsonLiteral_units (v w : Value) :
    BothUnits (d.engine.lexisWith b) (d.jsonLiteral v) (d.jsonLiteral w) := by
  simp only [jsonLiteral]
  split
  · split
    · exact quoted_units hd _ _
    · exact .error_right _ _
  · exact .error_left _ _

variable {v w : Value}

theorem jsonCast_units (he : d.engine = .mysql) (v w : Value) :
    BothUnits (d.engine.lexisWith b) (do return "CAST(" ++ (← d.jsonLiteral v) ++ " AS JSON)")
      (do return "CAST(" ++ (← d.jsonLiteral w) ++ " AS JSON)") := by
  refine (jsonLiteral_units hd v w).bind fun s t hst => .pure ?_
  refine (((Sql.Filled.code "CAST(").append (.unit hst)).append (.code " AS JSON)")).twins ?_
  rw [he]
  rfl

theorem jsonText_units (he : d.engine = .mysql) (t u : Text) :
    BothUnits (d.engine.lexisWith b) (do return "JSON_QUOTE(" ++ (← d.textLiteral t) ++ ")")
      (do return "JSON_QUOTE(" ++ (← d.textLiteral u) ++ ")") := by
  refine (textLiteral_units hd t u).bind fun s t hst => .pure ?_
  refine (((Sql.Filled.code "JSON_QUOTE(").append (.unit hst)).append (.code ")")).twins ?_
  rw [he]
  rfl

theorem jsonValue_units (he : d.engine = .mysql) (h : Value.Alike v w) :
    BothUnits (d.engine.lexisWith b) (d.jsonValue v) (d.jsonValue w) := by
  cases h with
  | same v =>
    cases v with
    | str t => exact jsonText_units hd he t t
    | _ => exact jsonCast_units hd he _ _
  | str t u => exact jsonText_units hd he t u
  | _ => exact jsonCast_units hd he _ _

/-- Fields that contain a scalar. -/
theorem has_units (f g : Text) (h : Value.Alike v w) :
    BothUnits (d.engine.lexisWith b) (d.has f v) (d.has g w) := by
  have hcolumn := filled_column d b
  obtain ⟨e, quote⟩ := d
  cases e with
  | mysql =>
    refine (selector_units hd f g false).bind fun s t hst => ?_
    refine (jsonValue_units hd rfl h).bind fun s' t' hst' => .pure ?_
    exact ((((Sql.Filled.code "JSON_CONTAINS(").append (.unit hst)).append (.code ", ")).append
      (.unit hst')).append (.code ")") |>.twins rfl
  | pgsql =>
    refine (selector_units hd f g false).bind fun s t hst => ?_
    have htext (u u' : Text) := (textLiteral_units hd u u').bind fun p q hpq =>
      BothYield.pure (ε := Fault) <|
        ((Sql.Filled.unit hst).append (.code " ? ")).append (.unit hpq) |>.twins rfl
    have hjson (v w : Value) := (jsonLiteral_units hd (.list [v]) (.list [w])).bind fun p q hpq =>
      BothYield.pure (ε := Fault) <|
        (((Sql.Filled.unit hst).append (.code " @> ")).append (.unit hpq)).append
          (.code "::jsonb") |>.twins rfl
    cases h with
    | same v =>
      cases v with
      | str u => exact htext u u
      | _ => exact hjson _ _
    | str u u' => exact htext u u'
    | _ => exact hjson _ _
  | sqlite =>
    refine (pathLiteral_units hd f g).bind fun s t hst => ?_
    refine (literal_units hd h).bind fun s' t' hst' => .pure ?_
    exact ((((((Sql.Filled.code "EXISTS (SELECT 1 FROM json_each(").append hcolumn).append
      (.code ", ")).append (.unit hst)).append (.code ") WHERE json_each.value = ")).append
      (.unit hst')).append (.code ")") |>.twins rfl

/-- Fields that contain all of some scalars. -/
theorem hasAll_units (f g : Text) {vs ws : List Value} (h : List.Forall₂ Value.Alike vs ws)
    (hne : vs ≠ []) : BothUnits (d.engine.lexisWith b) (d.hasAll f vs) (d.hasAll g ws) := by
  have hrows {ss : List Sql} (hlength : ss.length = vs.length) : ss ≠ [] := by
    rintro rfl
    exact hne (List.length_eq_zero_iff.mp hlength.symm)
  obtain ⟨e, quote⟩ := d
  cases e with
  | mysql =>
    refine (selector_units hd f g false).bind fun s t hst => ?_
    refine (BothYield.mapM h fun v w hvw => jsonValue_units hd rfl hvw).bind
      fun ss ts ⟨hitems, hlength⟩ => .pure ?_
    have hlist := Sql.Twins.commas hitems (hrows hlength)
    exact ((((Sql.Filled.code "JSON_CONTAINS(").append (.unit hst)).append
      (.code ", JSON_ARRAY(")).append (.unit hlist)).append (.code "))") |>.twins rfl
  | pgsql =>
    refine (selector_units hd f g false).bind fun s t hst => ?_
    rw [all_isText_eq h]
    split
    · refine (literals_units hd h hne).bind fun p q hpq => .pure ?_
      exact (((Sql.Filled.unit hst).append (.code " ?& array[")).append (.unit hpq)).append
        (.code "]") |>.twins rfl
    · refine (jsonLiteral_units hd (.list vs) (.list ws)).bind fun p q hpq => .pure ?_
      exact (((Sql.Filled.unit hst).append (.code " @> ")).append (.unit hpq)).append
        (.code "::jsonb") |>.twins rfl
  | sqlite =>
    refine (BothYield.mapM h fun v w hvw => has_units hd f g hvw).bind
      fun ss ts ⟨hitems, _⟩ => .pure ?_
    exact (Sql.Twins.join (Q := Sql.IsBalanced _ false) hitems fun rows _ hrows =>
      .join (Sql.walkCode_and .sqlite b) fun s hs => (hrows s hs).loosen).grouped

/-- Texts that match a pattern. -/
theorem matchesPattern_units {s t : Sql} (hst : Sql.Twins (Sql.IsUnit (d.engine.lexisWith b)) s t)
    (u u' : Text) :
    BothUnits (d.engine.lexisWith b) (d.matchesPattern s u) (d.matchesPattern t u') := by
  refine (textLiteral_units hd u u').bind fun p q hpq => ?_
  obtain ⟨e, quote⟩ := d
  cases e with
  | mysql =>
    exact .pure (((((Sql.Filled.code "LOWER(").append (.unit hst)).append
      (.code ") REGEXP LOWER(")).append (.unit hpq)).append (.code ")") |>.twins rfl)
  | pgsql => exact .pure (((Sql.Filled.unit hst).append (.code " ~* ")).append (.unit hpq) |>.twins rfl)
  | sqlite =>
    exact .pure (((Sql.Filled.unit hst).append (.code " REGEXP ")).append (.unit hpq) |>.twins rfl)

/-- Arrays of so many items. -/
theorem hasSize_units (f g : Text) (n : Nat) :
    BothUnits (d.engine.lexisWith b) (d.hasSize f n) (d.hasSize g n) := by
  have hcolumn := filled_column d b
  have hcount : Sql.Filled (d.engine.lexisWith b) [.literal []] [.number (Text.ofNat n)]
      [.number (Text.ofNat n)] := .unit (.same (Sql.isUnit_ofInt d.engine b n))
  obtain ⟨e, quote⟩ := d
  cases e with
  | mysql =>
    refine (selector_units hd f g false).bind fun s t hst => .pure ?_
    have harray : Sql.IsUnit (Engine.mysql.lexisWith b) (Sql.fixed "ARRAY") :=
      Sql.isUnit_literal (u := "ARRAY") (by cases b <;> rfl)
    exact ((((((((Sql.Filled.code "(JSON_TYPE(").append (.unit hst)).append (.code ") = ")).append
      (.unit (.same harray))).append (.code " AND JSON_LENGTH(")).append (.unit hst)).append
      (.code ") = ")).append hcount).append (.code ")") |>.twins rfl
  | pgsql =>
    refine (selector_units hd f g false).bind fun s t hst => .pure ?_
    have harray : Sql.IsUnit (Engine.pgsql.lexisWith b) (Sql.fixed "array") :=
      Sql.isUnit_literal (u := "array") (by cases b <;> rfl)
    exact ((((((Sql.Filled.code "(CASE WHEN jsonb_typeof(").append (.unit hst)).append
      (.code ") = ")).append (.unit (.same harray))).append (.code " THEN jsonb_array_length(")).append
      (.unit hst)).append (.code ") END) = ") |>.append hcount |>.twins rfl
  | sqlite =>
    refine (pathLiteral_units hd f g).bind fun s t hst => .pure ?_
    have harray : Sql.IsUnit (Engine.sqlite.lexisWith b) (Sql.fixed "array") :=
      Sql.isUnit_literal (u := "array") (by cases b <;> rfl)
    exact ((((((((((((Sql.Filled.code "(json_type(").append hcolumn).append (.code ", ")).append
      (.unit hst)).append (.code ") = ")).append (.unit (.same harray))).append
      (.code " AND json_array_length(")).append hcolumn).append (.code ", ")).append
      (.unit hst)).append (.code ") = ")).append hcount).append (.code ")") |>.twins rfl

/-- Numbers that leave a remainder. -/
theorem leaves_units (f g : Text) (m n : Number) :
    BothUnits (d.engine.lexisWith b) (d.leaves f m n) (d.leaves g m n) := by
  have hnumber (n : Number) : Sql.Filled (d.engine.lexisWith b) [.literal []] [.number n.display]
      [.number n.display] := .unit (.same (Sql.isUnit_display d.engine b n))
  obtain ⟨e, quote⟩ := d
  cases e with
  | mysql =>
    refine (numericSelector_units hd f g).bind fun s t hst => .pure ?_
    exact (((((Sql.Filled.code "MOD(").append (.unit hst)).append (.code ", ")).append
      (hnumber m)).append (.code ") = ")).append (hnumber n) |>.twins rfl
  | pgsql =>
    refine (numericSelector_units hd f g).bind fun s t hst => .pure ?_
    exact (((((Sql.Filled.code "MOD(").append (.unit hst)).append (.code ", ")).append
      (hnumber m)).append (.code ") = ")).append (hnumber n) |>.twins rfl
  | sqlite =>
    refine (selector_units hd f g true).bind fun s t hst => .pure ?_
    exact (((((Sql.Filled.code "(").append (.unit hst)).append (.code " % ")).append
      (hnumber m)).append (.code ") = ")).append (hnumber n) |>.twins rfl

omit hd in
theorem isForm_comparison (e : Engine) (op : Operator) :
    Sql.isForm (e.lexisWith b) ([.literal []] ++ ([.code " "] ++ [.code (comparisonSign op)] ++
      [.code " "]) ++ [.literal []]) = true := by
  cases e <;> cases op <;> rfl

/-- Comparisons of a field with a scalar. -/
theorem compares_units (op : Operator) (f g : Text) {s t : Sql}
    (hst : Sql.Twins (Sql.IsUnit (d.engine.lexisWith b)) s t) (h : Value.Alike v w) :
    BothUnits (d.engine.lexisWith b) (d.compares op f s v) (d.compares op g t w) := by
  have hcompare {p q : Sql} (hpq : Sql.Twins (Sql.IsUnit (d.engine.lexisWith b)) p q) :=
    (literal_units hd h).bind fun p' q' hpq' => BothYield.pure (ε := Fault) <|
      ((Sql.Filled.unit hpq).append (((Sql.Filled.code " ").append
        (.code (comparisonSign op))).append (.code " "))).append (.unit hpq') |>.twins
        (isForm_comparison d.engine op)
  simp only [compares, h.isScalar_eq, h.isNull_eq, h.isNumber_eq]
  split
  · exact .error_left _ _
  · split
    · exact (numericSelector_units hd f g).bind fun p q hpq => hcompare hpq
    · exact hcompare hst

/-- Membership of a field in a list of scalars. -/
theorem among_units (op : Operator) {s t : Sql}
    (hst : Sql.Twins (Sql.IsUnit (d.engine.lexisWith b)) s t) (h : Value.Alike v w) :
    BothUnits (d.engine.lexisWith b) (d.among op s v) (d.among op t w) := by
  have hitems := h.items?
  simp only [among]
  generalize v.items? = vs at hitems ⊢
  generalize w.items? = ws at hitems ⊢
  cases hitems with
  | none => exact .error_left _ _
  | some hitems =>
    cases hitems with
    | nil =>
      refine .pure (.same ?_)
      split
      · exact (Sql.Fills.code "1 = 0").isUnit (by cases d.engine <;> rfl)
      · exact (Sql.Fills.code "1 = 1").isUnit (by cases d.engine <;> rfl)
    | cons hvw hrest =>
      refine (literals_units hd (.cons hvw hrest) (by simp)).bind fun p q hpq => .pure ?_
      split
      · exact (((Sql.Filled.unit hst).append (.code " IN (")).append (.unit hpq)).append
          (.code ")") |>.twins (by cases d.engine <;> rfl)
      · exact (((Sql.Filled.unit hst).append (.code " NOT IN (")).append (.unit hpq)).append
          (.code ")") |>.twins (by cases d.engine <;> rfl)

omit hd in
/-- A test of a field that needs no argument. -/
theorem suffix_units {s t : Sql} (hst : Sql.Twins (Sql.IsUnit (d.engine.lexisWith b)) s t)
    {suffix : Text}
    (hsuffix : ∀ e : Engine, Sql.isForm (e.lexisWith b) ([.literal []] ++ [.code suffix]) = true) :
    Sql.Twins (Sql.IsUnit (d.engine.lexisWith b)) (s ++ [.code suffix]) (t ++ [.code suffix]) :=
  ((Sql.Filled.unit hst).append (.code suffix)).twins (hsuffix d.engine)

omit hd in
theorem isForm_isNull (e : Engine) :
    Sql.isForm (e.lexisWith b) ([.literal []] ++ [.code " IS NULL"]) = true := by
  cases e <;> rfl

omit hd in
theorem isForm_isNotNull (e : Engine) :
    Sql.isForm (e.lexisWith b) ([.literal []] ++ [.code " IS NOT NULL"]) = true := by
  cases e <;> rfl

omit hd in
theorem isForm_equal (e : Engine) :
    Sql.isForm (e.lexisWith b) ([.literal []] ++ [.code " = "] ++ [.literal []]) = true := by
  cases e <;> rfl

omit hd in
theorem isForm_unequal (e : Engine) :
    Sql.isForm (e.lexisWith b) ([.literal []] ++ [.code " <> "] ++ [.literal []]) = true := by
  cases e <;> rfl

omit hd in
theorem divisionOf_eq (h : Value.Alike v w) : divisionOf v = divisionOf w := by
  have hitems := h.items?
  simp only [divisionOf]
  generalize v.items? = vs at hitems ⊢
  generalize w.items? = ws at hitems ⊢
  cases hitems with
  | none => rfl
  | some hitems =>
    cases hitems with
    | nil => rfl
    | cons hvw hrest =>
      cases hrest with
      | nil => simp only [hvw.number?_eq]
      | cons hvw' hrest =>
        cases hrest with
        | nil => simp only [hvw.number?_eq, hvw'.number?_eq]
        | cons _ _ => rfl

omit hd in
theorem scalarsOf_alike (h : Value.Alike v w) :
    BothYield (List.Forall₂ Value.Alike) (scalarsOf v) (scalarsOf w) := by
  have hitems := h.items?
  simp only [scalarsOf]
  generalize v.items? = vs at hitems ⊢
  generalize w.items? = ws at hitems ⊢
  cases hitems with
  | none => exact .error_left _ _
  | some hitems =>
    dsimp only
    split
    · split
      · exact .pure hitems
      · exact .error_right _ _
    · exact .error_left _ _

/-- Texts that include another one. -/
theorem like_units {s t p q : Sql} (hst : Sql.Twins (Sql.IsUnit (d.engine.lexisWith b)) s t)
    (hpq : Sql.Twins (Sql.IsUnit (d.engine.lexisWith b)) p q) :
    Sql.Twins (Sql.IsUnit (d.engine.lexisWith b)) (s ++ " LIKE " ++ p ++ d.likeEscape)
      (t ++ " LIKE " ++ q ++ d.likeEscape) := by
  have hlike := ((Sql.Filled.unit hst).append (.code " LIKE ")).append (.unit hpq)
  have hplain := hd.plain
  obtain ⟨e, quote⟩ := d
  cases e with
  | mysql =>
    rw [likeEscape, List.append_nil, List.append_nil]
    exact hlike.twins rfl
  | pgsql =>
    rw [likeEscape, List.append_nil, List.append_nil]
    exact hlike.twins rfl
  | sqlite =>
    obtain rfl := hplain rfl
    have hescape : Sql.IsUnit (Engine.sqlite.lexisWith false) (Sql.fixed "\\") :=
      Sql.isUnit_literal (u := "\\") rfl
    exact hlike.append ((Sql.Filled.code " ESCAPE ").append (.unit (.same hescape))) |>.twins rfl

/-- Every operator makes a unit of its field and its argument. Two runs make twins when the fields
and the texts in the arguments are all that differs, and the arguments of `$exists` count as true
alike. -/
theorem operator_units (op : Operator) (f g : Text) (h : Value.Alike v w)
    (hpresent : op = .present → v.isTruthy = w.isTruthy) :
    BothYield (Option.Rel (Sql.Twins (Sql.IsUnit (d.engine.lexisWith b))))
      (d.operator op f v) (d.operator op g w) := by
  refine (selector_units hd f g true).bind fun s t hst => ?_
  have hnull := suffix_units hst isForm_isNull
  have hnotNull := suffix_units hst isForm_isNotNull
  have hsome {e e' : Except Fault Sql} (he : BothUnits (d.engine.lexisWith b) e e') :
      BothYield (Option.Rel (Sql.Twins (Sql.IsUnit (d.engine.lexisWith b)))) (some <$> e)
        (some <$> e') := he.map fun _ _ hpq => .some hpq
  have hone : Sql.IsUnit (d.engine.lexisWith b) "1 = 0" :=
    (Sql.Fills.code "1 = 0").isUnit (by cases d.engine <;> rfl)
  cases op with
  | eq =>
    simp only [h.isNull_eq]
    split
    · exact .pure (.some hnull)
    · refine (literal_units hd h).bind fun p q hpq => .pure (.some ?_)
      exact (((Sql.Filled.unit hst).append (.code " = ")).append (.unit hpq)).twins
        (isForm_equal d.engine)
  | ne =>
    simp only [h.isNull_eq]
    split
    · exact .pure (.some hnotNull)
    · refine (literal_units hd h).bind fun p q hpq => .pure (.some ?_)
      exact (((Sql.Filled.unit hst).append (.code " <> ")).append (.unit hpq)).twins
        (isForm_unequal d.engine)
  | gt => exact hsome (compares_units hd .gt f g hst h)
  | gte => exact hsome (compares_units hd .gte f g hst h)
  | lt => exact hsome (compares_units hd .lt f g hst h)
  | lte => exact hsome (compares_units hd .lte f g hst h)
  | oneOf => exact hsome (among_units hd .oneOf hst h)
  | noneOf => exact hsome (among_units hd .noneOf hst h)
  | has =>
    simp only [h.isNull_eq, h.isScalar_eq]
    split
    · exact .error_left _ _
    · exact hsome (has_units hd f g h)
  | all =>
    have hscalars := scalarsOf_alike h
    generalize scalarsOf v = vs at hscalars ⊢
    generalize scalarsOf w = ws at hscalars ⊢
    cases vs with
    | error fault => exact .error_left _ _
    | ok vs =>
      cases ws with
      | error fault => exact .error_right _ _
      | ok ws =>
        cases hscalars vs ws rfl rfl with
        | nil => exact .pure (.some (.same hone))
        | cons hvw hrest => exact hsome (hasAll_units hd f g (.cons hvw hrest) (by simp))
  | regex =>
    dsimp only
    split
    · exact .error_left _ _
    · split
      · exact .error_right _ _
      · exact hsome (matchesPattern_units hd hst _ _)
  | size =>
    cases h with
    | same v =>
      dsimp only
      split
      · exact hsome (hasSize_units hd f g _)
      · exact .error_left _ _
    | _ => exact .error_left _ _
  | mod =>
    simp only [divisionOf_eq h]
    split
    · exact .error_left _ _
    · exact hsome (leaves_units hd f g _ _)
  | present =>
    simp only [hpresent rfl]
    refine .pure (.some ?_)
    split
    · exact hnotNull
    · exact hnull
  | text =>
    have htext (t u : Text) := (textLiteral_units hd t u).bind fun p q hpq =>
      BothYield.pure (ε := Fault) <| Option.Rel.some (like_units hd hst hpq)
    cases h with
    | same v =>
      cases v with
      | str t => exact htext _ _
      | _ => exact .error_left _ _
    | str t u => exact htext _ _
    | _ => exact .error_left _ _
  | options => exact .pure .none
  | func => exact .error_left _ _
  | fuzzy => exact .error_left _ _

end DocStore.Dialect
